import SpdkIo.Lib.Lts
import SpdkIo.Nvmf.Subsystem

/-!
# The subsystems of a target

A program that configures a target: it creates and finds subsystems by their names, and sets what
it likes through the `NvmfSubsystem` values it got. Nothing removes a subsystem from a target.

`Names` is what the target is to the program: a map from names to subsystems.
-/

namespace SpdkIo.Nvmf

variable {spdk : SpdkSubsystems}

/-! ## The program -/

structure Registry (spdk : SpdkSubsystems) where
  tgt : spdk.Tgt
  /-- the values the program got, with the names it asked for -/
  handles : List (List Char × NvmfSubsystem)

namespace Registry

inductive Action
  | create (nqn : List Char) (opts : NvmfSubsystemOpts)
  | find (nqn : List Char)
  | setSerialNumber (k : Nat) (sn : List Char)
  | setModelNumber (k : Nat) (mn : List Char)
  | setAllowAnyHost (k : Nat) (allow : Bool)

/-- A function that changes the target. -/
def call {α : Type} (s : Registry spdk) (x : NvmfM spdk α) : Result α × Registry spdk :=
  let ran := StateT.run (ExceptT.run x) s.tgt
  (ran.1, { s with tgt := ran.2 })

/-- A value is returned, or an error. -/
def gets (nqn : List Char) : Result NvmfSubsystem × Registry spdk → Registry spdk
  | (.ok subsys, s) => { s with handles := s.handles ++ [(nqn, subsys)] }
  | (.error _, s) => s

def find (s : Registry spdk) (nqn : List Char) : Registry spdk :=
  match NvmfTarget.findSubsystem s.tgt nqn with
  | some subsys => gets nqn (.ok subsys, s)
  | none => s

def step (s : Registry spdk) : Action → Option (Registry spdk)
  | .create nqn opts => some (gets nqn (s.call (NvmfTarget.createSubsystem nqn opts)))
  | .find nqn => some (s.find nqn)
  | .setSerialNumber k sn =>
    s.handles[k]?.map fun p => (s.call (p.2.setSerialNumber sn)).2
  | .setModelNumber k mn =>
    s.handles[k]?.map fun p => (s.call (p.2.setModelNumber mn)).2
  | .setAllowAnyHost k allow =>
    s.handles[k]?.map fun p => (s.call (p.2.setAllowAnyHost allow)).2

/-- The runs of the program on the target. -/
def lts (tgt : spdk.Tgt) : Lts (Registry spdk) Action where
  init := ⟨tgt, []⟩
  step := step

end Registry

/-! ## The map -/

abbrev Names := List UInt8 → Option SpdkNvmfSubsystem

/-- The target as a map. -/
def SpdkSubsystems.names (spdk : SpdkSubsystems) (tgt : spdk.Tgt) : Names := fun nqn =>
  (spdk.find tgt nqn).bind (spdk.get tgt)

/-- The requests of a program that names its subsystems. -/
inductive Request
  | create (nqn : List Char) (opts : NvmfSubsystemOpts)
  | find (nqn : List Char)
  | setSerialNumber (nqn sn : List Char)
  | setModelNumber (nqn mn : List Char)
  | setAllowAnyHost (nqn : List Char) (allow : Bool)

/-- A change of the subsystem of a name. -/
def Names.change (m : Names) (nqn : List Char) (f : SpdkNvmfSubsystem → SpdkNvmfSubsystem) :
    Names := Named.change m (Utf8.encode nqn) f

/-- What a request makes of the map; `creates` is SPDK's answer to a creation. -/
def Request.apply (spdk : SpdkSubsystems) (creates : List UInt8 → Bool) (m : Names) :
    Request → Names
  | .create nqn opts =>
    if '\x00' ∉ nqn ∧ creates (Utf8.encode nqn) = true then
      Function.update m (Utf8.encode nqn) (some (settled spdk (Utf8.encode nqn) opts))
    else m
  | .find _ => m
  | .setSerialNumber nqn sn =>
    if Takes spdk.setSn.rc sn then
      m.change nqn fun sub => { sub with serialNumber := some (Utf8.encode sn) }
    else m
  | .setModelNumber nqn mn =>
    if Takes spdk.setMn.rc mn then
      m.change nqn fun sub => { sub with modelNumber := some (Utf8.encode mn) }
    else m
  | .setAllowAnyHost nqn allow => m.change nqn fun sub => { sub with allowAnyHost := allow }

/-- The request of a step, by the name that the program got its value for. -/
def Registry.request (s : Registry spdk) : Registry.Action → Option Request
  | .create nqn opts => some (.create nqn opts)
  | .find nqn => some (.find nqn)
  | .setSerialNumber k sn => s.handles[k]?.map fun p => .setSerialNumber p.1 sn
  | .setModelNumber k mn => s.handles[k]?.map fun p => .setModelNumber p.1 mn
  | .setAllowAnyHost k allow => s.handles[k]?.map fun p => .setAllowAnyHost p.1 allow

end SpdkIo.Nvmf
