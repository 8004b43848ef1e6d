import SpdkIo.Nvme.Transport

/-!
# NVMf targets

`NvmfTarget::create`, `create_with_opts` and `name` (`nvmf/target.rs`). The name is copied into a
character array of the native options, cut where the array ends, and read back as a C string. A
string is the list of its characters; the bytes are its UTF-8 encoding.

SPDK's part is a parameter: it stores the C string of the name and returns it.
-/

namespace SpdkIo.Nvmf

open Nvme (Checked)

structure NvmfTargetOpts where
  name : Option (List Char)
  maxSubsystems : Option UInt32
  deriving DecidableEq

/-- `NvmfTargetOpts::default` -/
def NvmfTargetOpts.default : NvmfTargetOpts := ⟨none, none⟩

/-- The size of `spdk_nvmf_target_opts`, and the capacity of its name. -/
structure TargetOptsLayout where
  size : UInt64
  name : Nat
  name_pos : 0 < name

structure SpdkNvmfTargetOpts where
  size : UInt64
  name : CField
  maxSubsystems : UInt32
  deriving DecidableEq

/-- `MaybeUninit::zeroed` -/
def SpdkNvmfTargetOpts.zeroed (layout : TargetOptsLayout) : SpdkNvmfTargetOpts :=
  ⟨0, .zeroed layout.name, 0⟩

/-- SPDK's targets. -/
structure SpdkTargets where
  Tgt : Type
  /-- `spdk_nvmf_tgt_create`; `none` is NULL -/
  create : SpdkNvmfTargetOpts → Option Tgt
  /-- `spdk_nvmf_tgt_get_name`; `none` is NULL -/
  getName : Tgt → Option (List UInt8)
  getName_create {opts : SpdkNvmfTargetOpts} {tgt : Tgt} :
    create opts = some tgt → getName tgt = some opts.name.cstr

structure NvmfTarget (spdk : SpdkTargets) where
  ptr : spdk.Tgt

namespace NvmfTarget

variable {spdk : SpdkTargets} (layout : TargetOptsLayout)

/-- The copy of the name: as many of its bytes as leave room for a zero. -/
def copyName (field : CField) (name : List Char) : Checked CField :=
  let nameBytes := Utf8.encode name
  let maxLen := field.length - 1
  let copyLen := min nameBytes.length maxLen
  (field.store 0 (nameBytes.take copyLen)).map .ok

/-- `spdk_nvmf_tgt_create`, whose NULL is an error. -/
def spdkTgtCreate (nativeOpts : SpdkNvmfTargetOpts) : Checked (NvmfTarget spdk) :=
  match spdk.create nativeOpts with
  | some ptr => return ⟨ptr⟩
  | none => throw (.invalidArgument "Failed to create NVMf target")

def createWithOpts (opts : NvmfTargetOpts) : Checked (NvmfTarget spdk) := do
  let nativeOpts := { SpdkNvmfTargetOpts.zeroed layout with size := layout.size }
  let name ← match opts.name with
    | some name => copyName nativeOpts.name name
    | none => pure nativeOpts.name
  let maxSubsystems := opts.maxSubsystems.getD nativeOpts.maxSubsystems
  spdkTgtCreate { nativeOpts with name, maxSubsystems }

def create (name : List Char) : Checked (NvmfTarget spdk) :=
  createWithOpts layout { NvmfTargetOpts.default with name := some name }

def name (self : NvmfTarget spdk) : List Char :=
  match spdk.getName self.ptr with
  | none => []
  | some cstr => (Utf8.decode cstr).getD "<invalid utf8>".toList

end NvmfTarget

end SpdkIo.Nvmf
