import SpdkIo.Error
import SpdkIo.Lib.Locals

/-!
# Options of controllers and queue pairs

`NvmeCtrlrOpts` and `NvmeQpairOpts` (`opts.rs`), and how `connect`, `connect_async` and
`alloc_io_qpair` (`controller.rs`) pass them to SPDK: SPDK's defaults in a variable of an inner
block, the user's values written over them, and the address of the variable, which leaves the block.

Of a record of SPDK the fields that the code writes are modelled; `rest` stands for the others. The
defaults that SPDK supplies are an argument.
-/

namespace SpdkIo.Nvme

structure NvmeCtrlrOpts where
  numIoQueues : Option UInt32
  ioQueueSize : Option UInt32
  adminQueueSize : Option UInt16
  keepAliveTimeoutMs : Option UInt32

structure NvmeQpairOpts where
  ioQueueSize : Option UInt32
  ioQueueRequests : Option UInt32

/-- `spdk_nvme_ctrlr_opts` -/
structure SpdkNvmeCtrlrOpts (R : Type) where
  numIoQueues : UInt32
  ioQueueSize : UInt32
  adminQueueSize : UInt16
  keepAliveTimeoutMs : UInt32
  rest : R

/-- `spdk_nvme_io_qpair_opts` -/
structure SpdkNvmeIoQpairOpts (R : Type) where
  ioQueueSize : UInt32
  ioQueueRequests : UInt32
  rest : R

variable {R : Type} [Inhabited R]

/-- `MaybeUninit::zeroed().assume_init()`; `default` stands for zeroed fields. -/
def SpdkNvmeCtrlrOpts.zeroed : SpdkNvmeCtrlrOpts R := ⟨0, 0, 0, 0, default⟩

def SpdkNvmeIoQpairOpts.zeroed : SpdkNvmeIoQpairOpts R := ⟨0, 0, default⟩

/-- What SPDK is given: `opts_ptr`, and the record it reads there when it is called. -/
structure Given (α : Type) where
  optsPtr : Option Addr
  opts : Option α

/-- A call of SPDK with `opts_ptr`. -/
def give {α : Type} (optsPtr : Option Addr) : StateM (Locals α) (Given α) := fun l =>
  (⟨optsPtr, optsPtr.bind l.get⟩, l)

/-! ## Controllers -/

/-- The block that builds the options of a controller. -/
def ctrlrOptsBlock (defaults : SpdkNvmeCtrlrOpts R) (opts : NvmeCtrlrOpts) :
    StateM (Locals (SpdkNvmeCtrlrOpts R)) Addr := do
  let nativeOpts ← Locals.declare .zeroed
  Locals.modify nativeOpts fun _ => defaults
  Locals.modifySome nativeOpts opts.numIoQueues fun v o => { o with numIoQueues := v }
  Locals.modifySome nativeOpts opts.ioQueueSize fun v o => { o with ioQueueSize := v }
  Locals.modifySome nativeOpts opts.adminQueueSize fun v o => { o with adminQueueSize := v }
  Locals.modifySome nativeOpts opts.keepAliveTimeoutMs fun v o => { o with keepAliveTimeoutMs := v }
  return nativeOpts

/-- `let opts_ptr = match opts { .. }` of `connect` and `connect_async` -/
def ctrlrOptsPtr (defaults : SpdkNvmeCtrlrOpts R) :
    Option NvmeCtrlrOpts → StateM (Locals (SpdkNvmeCtrlrOpts R)) (Option Addr)
  | some opts => some <$> Locals.block (ctrlrOptsBlock defaults opts)
  | none => return none

abbrev CtrlrId := Nat

/-- `NvmeController::connect`, with `spdk_nvme_connect` returning NULL or a controller. -/
def connect (defaults : SpdkNvmeCtrlrOpts R) (opts : Option NvmeCtrlrOpts)
    (ctrlr : Option CtrlrId) :
    StateM (Locals (SpdkNvmeCtrlrOpts R)) (Given (SpdkNvmeCtrlrOpts R) × Result CtrlrId) := do
  let optsPtr ← ctrlrOptsPtr defaults opts
  let given ← give optsPtr
  return (given, match ctrlr with
    | some ptr => .ok ptr
    | none => .error .controllerNotFound)

/-! ## Queue pairs -/

/-- The block that builds the options of a queue pair. -/
def qpairOptsBlock (defaults : SpdkNvmeIoQpairOpts R) (opts : NvmeQpairOpts) :
    StateM (Locals (SpdkNvmeIoQpairOpts R)) Addr := do
  let nativeOpts ← Locals.declare .zeroed
  Locals.modify nativeOpts fun _ => defaults
  Locals.modifySome nativeOpts opts.ioQueueSize fun v o => { o with ioQueueSize := v }
  Locals.modifySome nativeOpts opts.ioQueueRequests fun v o => { o with ioQueueRequests := v }
  return nativeOpts

abbrev QpairId := Nat

/-- `NvmeController::alloc_io_qpair`, with `spdk_nvme_ctrlr_alloc_io_qpair` returning NULL or a
queue pair. -/
def allocIoQpair (defaults : SpdkNvmeIoQpairOpts R) (opts : Option NvmeQpairOpts)
    (qpair : Option QpairId) :
    StateM (Locals (SpdkNvmeIoQpairOpts R)) (Given (SpdkNvmeIoQpairOpts R) × Result QpairId) := do
  let optsPtr ← match opts with
    | some opts => some <$> Locals.block (qpairOptsBlock defaults opts)
    | none => pure none
  let given ← give optsPtr
  return (given, match qpair with
    | some ptr => .ok ptr
    | none => .error .qpairAlloc)

end SpdkIo.Nvme
