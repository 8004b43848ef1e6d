import SpdkIo.CString
import SpdkIo.Lib.Boxes
import SpdkIo.Lib.Named
import SpdkIo.Lib.Utf8

/-!
# NVMf subsystems

`NvmfTarget::create_subsystem` and `find_subsystem` (`nvmf/target.rs`), and the setters and `nqn` of
`NvmfSubsystem` (`nvmf/subsystem.rs`). A string is the list of its characters, a C string the list
of its bytes.

The subsystems are SPDK's, a parameter (`SpdkSubsystems`): a call of SPDK does what is documented
of it, and may refuse. A function keeps what it did to the target when it returns an error, so
`NvmfM` has the state under the error.
-/

namespace SpdkIo.Nvmf

open Thread.State (cstringNew)

structure NvmfSubsystemOpts where
  serialNumber : Option (List Char)
  modelNumber : Option (List Char)
  allowAnyHost : Bool
  deriving DecidableEq

/-- What is set of an `spdk_nvmf_subsystem`; a number that was not set is `none`. -/
structure SpdkNvmfSubsystem where
  nqn : List UInt8
  allowAnyHost : Bool
  serialNumber : Option (List UInt8)
  modelNumber : Option (List UInt8)
  deriving DecidableEq

/-! ## SPDK -/

/-- A function of SPDK that sets a text of a subsystem, as `store` says, and may refuse the text. -/
structure TextSetter (Tgt : Type) (get : Tgt → Addr → Option SpdkNvmfSubsystem)
    (store : List UInt8 → SpdkNvmfSubsystem → SpdkNvmfSubsystem) where
  call : Tgt → Addr → List UInt8 → Int32 × Tgt
  /-- the return code for a text -/
  rc : List UInt8 → Int32
  rc_call {tgt : Tgt} {ptr : Addr} {cstr : List UInt8} : (call tgt ptr cstr).1 = rc cstr
  get_call {tgt : Tgt} {ptr : Addr} {cstr : List UInt8} : get (call tgt ptr cstr).2 =
    if rc cstr = 0 then Named.change (get tgt) ptr (store cstr) else get tgt

/-- SPDK's subsystems. -/
structure SpdkSubsystems where
  /-- `spdk_nvmf_tgt` -/
  Tgt : Type
  /-- the subsystems of a target, by their pointers -/
  get : Tgt → Addr → Option SpdkNvmfSubsystem
  /-- `spdk_nvmf_subsystem_create` of a subsystem without namespaces; `none` is NULL -/
  create : Tgt → List UInt8 → Option Addr × Tgt
  /-- `spdk_nvmf_subsystem_set_allow_any_host` -/
  setAllowAnyHost : Tgt → Addr → Bool → Tgt
  /-- `spdk_nvmf_subsystem_set_sn` -/
  setSn : TextSetter Tgt get fun sn sub => { sub with serialNumber := some sn }
  /-- `spdk_nvmf_subsystem_set_mn` -/
  setMn : TextSetter Tgt get fun mn sub => { sub with modelNumber := some mn }
  /-- `spdk_nvmf_tgt_find_subsystem`; `none` is NULL -/
  find : Tgt → List UInt8 → Option Addr
  /-- `spdk_nvmf_subsystem_get_nqn`; `none` is NULL -/
  getNqn : Tgt → Addr → Option (List UInt8)
  get_create {tgt tgt' : Tgt} {nqn : List UInt8} {ptr : Addr} :
    create tgt nqn = (some ptr, tgt') → get tgt ptr = none ∧
      get tgt' = Function.update (get tgt) ptr (some ⟨nqn, false, none, none⟩)
  get_create_null {tgt tgt' : Tgt} {nqn : List UInt8} :
    create tgt nqn = (none, tgt') → get tgt' = get tgt
  get_setAllowAnyHost {tgt : Tgt} {ptr : Addr} {allow : Bool} :
    get (setAllowAnyHost tgt ptr allow) =
      Named.change (get tgt) ptr fun sub => { sub with allowAnyHost := allow }
  get_find {tgt : Tgt} {nqn : List UInt8} {ptr : Addr} :
    find tgt nqn = some ptr → ∃ sub, get tgt ptr = some sub ∧ sub.nqn = nqn
  find_get {tgt : Tgt} {ptr : Addr} {sub : SpdkNvmfSubsystem} :
    get tgt ptr = some sub → (find tgt sub.nqn).isSome = true
  getNqn_get {tgt : Tgt} {ptr : Addr} {sub : SpdkNvmfSubsystem} :
    get tgt ptr = some sub → getNqn tgt ptr = some sub.nqn

/-- A pointer to a subsystem. -/
structure NvmfSubsystem where
  ptr : Addr
  deriving DecidableEq, Repr

variable {spdk : SpdkSubsystems}

/-- What changes the target, and returns a `Result`. -/
abbrev NvmfM (spdk : SpdkSubsystems) := ExceptT Error (StateM spdk.Tgt)

/-! ## Subsystems -/

namespace NvmfSubsystem

def nqn (tgt : spdk.Tgt) (self : NvmfSubsystem) : List Char :=
  match spdk.getNqn tgt self.ptr with
  | none => []
  | some cstr => (Utf8.decode cstr).getD "<invalid utf8>".toList

def setAllowAnyHost (self : NvmfSubsystem) (allow : Bool) : NvmfM spdk Unit :=
  modify fun tgt => spdk.setAllowAnyHost tgt self.ptr allow

/-- `set_serial_number` and `set_model_number`, by SPDK's function and the message of a refusal. -/
def setText {store : List UInt8 → SpdkNvmfSubsystem → SpdkNvmfSubsystem}
    (setter : TextSetter spdk.Tgt spdk.get store) (message : String) (self : NvmfSubsystem)
    (text : List Char) : NvmfM spdk Unit := do
  let cstr ← MonadExcept.ofExcept (cstringNew (Utf8.encode text))
  let rc ← modifyGet fun tgt => setter.call tgt self.ptr cstr
  if rc = 0 then return () else throw (.invalidArgument message)

def setSerialNumber : NvmfSubsystem → List Char → NvmfM spdk Unit :=
  setText spdk.setSn "Failed to set serial number"

def setModelNumber : NvmfSubsystem → List Char → NvmfM spdk Unit :=
  setText spdk.setMn "Failed to set model number"

end NvmfSubsystem

/-! ## The target -/

namespace NvmfTarget

def createSubsystem (nqn : List Char) (opts : NvmfSubsystemOpts) : NvmfM spdk NvmfSubsystem := do
  let nqnCstr ← MonadExcept.ofExcept (cstringNew (Utf8.encode nqn))
  let some ptr ← modifyGet fun tgt => spdk.create tgt nqnCstr
    | throw (.invalidArgument ("Failed to create subsystem: " ++ String.ofList nqn))
  let subsys : NvmfSubsystem := ⟨ptr⟩
  if opts.allowAnyHost then subsys.setAllowAnyHost true
  if let some sn := opts.serialNumber then subsys.setSerialNumber sn
  if let some mn := opts.modelNumber then subsys.setModelNumber mn
  return subsys

def findSubsystem (tgt : spdk.Tgt) (nqn : List Char) : Option NvmfSubsystem := do
  let nqnCstr ← (cstringNew (Utf8.encode nqn)).toOption
  let ptr ← spdk.find tgt nqnCstr
  return ⟨ptr⟩

end NvmfTarget

/-! ## Texts that are set -/

/-- A text that can be set: without NUL, and one that SPDK takes. -/
def Takes (rc : List UInt8 → Int32) (text : List Char) : Prop :=
  '\x00' ∉ text ∧ rc (Utf8.encode text) = 0

instance decidableTakes (rc : List UInt8 → Int32) (text : List Char) : Decidable (Takes rc text) :=
  inferInstanceAs (Decidable ('\x00' ∉ text ∧ rc (Utf8.encode text) = 0))

/-- The text, if there is one, can be set. -/
def Accepted (rc : List UInt8 → Int32) (text : Option (List Char)) : Prop := ∀ t ∈ text, Takes rc t

instance decidableAccepted (rc : List UInt8 → Int32) (text : Option (List Char)) :
    Decidable (Accepted rc text) :=
  inferInstanceAs (Decidable (∀ t ∈ text, Takes rc t))

/-- The text of an option, if it can be set. -/
def taken (rc : List UInt8 → Int32) (text : Option (List Char)) : Option (List UInt8) :=
  text.bind fun t => if Takes rc t then some (Utf8.encode t) else none

/-- A new subsystem: with its options, as far as to the first that is refused. -/
def settled (spdk : SpdkSubsystems) (nqn : List UInt8) (opts : NvmfSubsystemOpts) :
    SpdkNvmfSubsystem where
  nqn
  allowAnyHost := opts.allowAnyHost
  serialNumber := taken spdk.setSn.rc opts.serialNumber
  modelNumber :=
    if Accepted spdk.setSn.rc opts.serialNumber then taken spdk.setMn.rc opts.modelNumber
    else none

end SpdkIo.Nvmf
