import SpdkIo.Complete
import SpdkIo.Lib.Boxes
import SpdkIo.Lib.Lts

/-!
# Asynchronous operations

`BdevDesc::read/write`, `NvmeNamespace::read/write` and `NvmfSubsystem::start/stop` with their
callbacks, the caller that awaits or drops their futures and owns the buffers, and SPDK, which
accepts or refuses a submission and runs the callback of an accepted one at any later moment.

The six functions have one shape: `completion()`, an SPDK call with `tx.into_raw()` as the context,
`return Err(..)` if it is refused, `rx.await`. `AsyncOp` holds what they differ in. An operation
goes through them in steps: `call` makes the future (an `async fn` does nothing until its first
poll), `submit` is its first poll up to the SPDK call, `ret` is the rest of that poll, and `poll` is
a later one. Between the steps of one operation, those of all others may be taken.

SPDK: an operation it accepted (`rc == 0`) stays `accepted` until its `callback`, the only step
that needs it; a refused one has no callback. The allocator gives a box any address that is free.
A negated return code wraps at `i32::MIN`, which is no errno.
-/

namespace SpdkIo

/-! ## The functions -/

/-- The borrow of the `buf` argument. -/
inductive Borrow
  | shared
  | mut
  deriving DecidableEq, Repr

/-- What SPDK passes to a completion callback besides the context. -/
inductive Status
  | bdev (success : Bool)
  | nvme (statusRaw : UInt16)
  | subsystem (status : Int32)
  deriving DecidableEq

/-- The parameters of an operation. -/
structure AsyncOp where
  /-- the borrow of `buf`, if there is one -/
  buf : Option Borrow
  /-- the error of a submission that returned `rc != 0` -/
  refused : Int32 → Error
  /-- what the callback sends; `none` for another callback's arguments -/
  callback : Status → Option (Result Unit)

/-- What `bdev_io_completion_cb` sends. -/
def bdevIoCompletionCb (success : Bool) : Result Unit :=
  if success then .ok () else .error .ioError

/-- What `nvme_io_complete` sends. -/
def nvmeIoComplete (statusRaw : UInt16) : Result Unit :=
  let sct := (statusRaw >>> 9) &&& 0x7
  let sc := (statusRaw >>> 1) &&& 0xff
  if sct == 0 && sc == 0 then .ok () else .error (.nvmeError sct.toUInt8 sc.toUInt8)

/-- What `subsystem_state_change_done` sends. -/
def subsystemStateChangeDone (status : Int32) : Result Unit :=
  if status == 0 then .ok () else .error (.fromErrno (-status))

def Status.bdev? : Status → Option Bool
  | .bdev success => some success
  | _ => none

def Status.nvme? : Status → Option UInt16
  | .nvme statusRaw => some statusRaw
  | _ => none

def Status.subsystem? : Status → Option Int32
  | .subsystem status => some status
  | _ => none

def BdevDesc.read : AsyncOp where
  buf := some .mut
  refused rc := .os rc
  callback st := st.bdev?.map bdevIoCompletionCb

def BdevDesc.write : AsyncOp where
  buf := some .shared
  refused rc := .os rc
  callback st := st.bdev?.map bdevIoCompletionCb

def NvmeNamespace.read : AsyncOp where
  buf := some .mut
  refused rc := .fromErrno (-rc)
  callback st := st.nvme?.map nvmeIoComplete

def NvmeNamespace.write : AsyncOp where
  buf := some .shared
  refused rc := .fromErrno (-rc)
  callback st := st.nvme?.map nvmeIoComplete

def NvmfSubsystem.start : AsyncOp where
  buf := none
  refused rc := .fromErrno (-rc)
  callback st := st.subsystem?.map subsystemStateChangeDone

def NvmfSubsystem.stop : AsyncOp where
  buf := none
  refused rc := .fromErrno (-rc)
  callback st := st.subsystem?.map subsystemStateChangeDone

/-- The operations. -/
inductive OpKind
  | bdevRead
  | bdevWrite
  | nvmeRead
  | nvmeWrite
  | subsystemStart
  | subsystemStop
  deriving DecidableEq, Repr

def OpKind.op : OpKind → AsyncOp
  | .bdevRead => BdevDesc.read
  | .bdevWrite => BdevDesc.write
  | .nvmeRead => NvmeNamespace.read
  | .nvmeWrite => NvmeNamespace.write
  | .subsystemStart => NvmfSubsystem.start
  | .subsystemStop => NvmfSubsystem.stop

/-! ## States -/

abbrev OpId := Nat
abbrev BufId := Nat

/-- Where a future is. -/
inductive Fut
  | unresumed
  /-- in the SPDK call, which is to return `rc` -/
  | submitting (rc : Int32)
  /-- at `rx.await` -/
  | awaiting
  | returned (result : Result Unit)
  | dropped
  deriving DecidableEq

/-- Where its submission is in SPDK. -/
inductive Submission
  | unsubmitted
  | refused (rc : Int32)
  | accepted (ctx : Addr)
  | completed (status : Status)
  deriving DecidableEq

/-- An operation. `chan` is the channel of its `completion()`, made when it is submitted. -/
structure Op (O : Oneshot (Result Unit)) where
  kind : OpKind
  buf : Option BufId
  fut : Fut
  io : Submission
  chan : O.Chan

/-- A `DmaBuf`. -/
inductive DmaBuf
  | allocated
  | freed
  deriving DecidableEq, Repr

namespace Io

/-- The state of the process. A box holds the sender of an operation, given by its number. -/
structure State (O : Oneshot (Result Unit)) where
  ops : List (Op O)
  bufs : List DmaBuf
  heap : Boxes OpId
  /-- for each callback that ran: its operation, and the one whose sender `from_raw` gave -/
  rebuilt : List (OpId × Option OpId)
  /-- for each future that resolved: its operation, and the result -/
  resolved : List (OpId × Result Unit)

end Io

variable {O : Oneshot (Result Unit)}

/-- SPDK accepted the operation and has not run its callback. -/
def Op.inFlight (op : Op O) : Bool :=
  match op.io with
  | .accepted _ => true
  | _ => false

/-- SPDK refused the operation. -/
def Op.isRefused (op : Op O) : Bool :=
  match op.io with
  | .refused _ => true
  | _ => false

/-- The future is there and has not resolved, so that it borrows its buffer. -/
def Op.alive (op : Op O) : Bool :=
  match op.fut with
  | .unresumed | .submitting _ | .awaiting => true
  | .returned _ | .dropped => false

namespace Io.State

/-! ## Borrows -/

/-- A future borrows `b`. -/
def borrowed (s : State O) (b : BufId) : Bool :=
  s.ops.any fun op => op.alive && op.buf == some b

/-- A future borrows `b` mutably. -/
def borrowedMut (s : State O) (b : BufId) : Bool :=
  s.ops.any fun op => op.alive && op.buf == some b && op.kind.op.buf == some .mut

/-- `b` may be borrowed once more. -/
def mayBorrow (s : State O) (b : BufId) : Borrow → Bool
  | .mut => s.bufs[b]? == some .allocated && !s.borrowed b
  | .shared => s.bufs[b]? == some .allocated && !s.borrowedMut b

/-! ## Steps -/

def setOp (s : State O) (i : OpId) (op : Op O) : State O := { s with ops := s.ops.set i op }

/-- `DmaBuf::alloc` -/
def alloc (s : State O) : State O := { s with bufs := s.bufs ++ [.allocated] }

/-- The call of an `async fn`: its future. -/
def call (s : State O) (kind : OpKind) (buf : Option BufId) : Option (State O) :=
  let s' := { s with ops := s.ops ++ [⟨kind, buf, .unresumed, .unsubmitted, completion O⟩] }
  match kind.op.buf, buf with
  | none, none => some s'
  | some borrow, some b => if s.mayBorrow b borrow then some s' else none
  | _, _ => none

/-- The first poll, up to the SPDK call, which takes the sender's box at `ctx` and is to return
`rc`. -/
def submit (s : State O) (i : OpId) (ctx : Addr) (rc : Int32) : Option (State O) :=
  s.ops[i]?.bind fun op =>
    match op.fut with
    | .unresumed => (s.heap.intoRaw i ctx).map fun heap =>
      { s with
        ops := s.ops.set i { op with
          fut := .submitting rc
          io := if rc = 0 then .accepted ctx else .refused rc
          chan := completion O }
        heap }
    | _ => none

def resolve (s : State O) (i : OpId) (op : Op O) (result : Result Unit) : State O :=
  { s.setOp i { op with fut := .returned result } with resolved := s.resolved ++ [(i, result)] }

/-- `rx.await` -/
def pollRx (s : State O) (i : OpId) (op : Op O) : State O :=
  match CompletionReceiver.poll O op.chan with
  | (.ready result, chan) => s.resolve i { op with chan } result
  | (.pending, chan) => s.setOp i { op with fut := .awaiting, chan }

/-- The first poll, after the SPDK call. -/
def ret (s : State O) (i : OpId) : Option (State O) :=
  s.ops[i]?.bind fun op =>
    match op.fut with
    | .submitting rc =>
      if rc ≠ 0 then some (s.resolve i op (.error (op.kind.op.refused rc)))
      else some (s.pollRx i op)
    | _ => none

/-- A poll at `rx.await`. -/
def poll (s : State O) (i : OpId) : Option (State O) :=
  s.ops[i]?.bind fun op =>
    match op.fut with
    | .awaiting => some (s.pollRx i op)
    | _ => none

/-- A future is dropped before it resolves. It cannot be while it is polled. -/
def dropFut (s : State O) (i : OpId) : Option (State O) :=
  s.ops[i]?.bind fun op =>
    match op.fut with
    | .unresumed | .awaiting => some (s.setOp i { op with fut := .dropped })
    | _ => none

/-- `tx.success(())` or `tx.error(..)`, for the sender of `j`. -/
def send (s : State O) (j : OpId) (result : Result Unit) : State O :=
  match s.ops[j]? with
  | some op => s.setOp j { op with chan := CompletionSender.complete O op.chan result }
  | none => s

/-- The callback of `i`: `from_raw` at its context, then a send. -/
def callback (s : State O) (i : OpId) (status : Status) : Option (State O) :=
  s.ops[i]?.bind fun op =>
    match op.io with
    | .accepted ctx => (op.kind.op.callback status).map fun result =>
      let (tx, heap) := s.heap.fromRaw ctx
      let s' := { s.setOp i { op with io := .completed status } with
        heap
        rebuilt := s.rebuilt ++ [(i, tx)] }
      match tx with
      | some j => s'.send j result
      | none => s'
    | _ => none

/-- The caller writes to the buffer (`as_mut_slice`). -/
def mutate (s : State O) (b : BufId) : Option (State O) :=
  if s.mayBorrow b .mut then some s else none

/-- `DmaBuf::drop` -/
def free (s : State O) (b : BufId) : Option (State O) :=
  if s.mayBorrow b .mut then some { s with bufs := s.bufs.set b .freed } else none

end Io.State

namespace Io

/-- The steps of the caller, of the executor and of SPDK. -/
inductive Action
  | alloc
  | call (kind : OpKind) (buf : Option BufId)
  | submit (i : OpId) (ctx : Addr) (rc : Int32)
  | ret (i : OpId)
  | poll (i : OpId)
  | drop (i : OpId)
  | callback (i : OpId) (status : Status)
  | mutate (b : BufId)
  | free (b : BufId)

def State.step (s : State O) : Action → Option (State O)
  | .alloc => some s.alloc
  | .call kind buf => s.call kind buf
  | .submit i ctx rc => s.submit i ctx rc
  | .ret i => s.ret i
  | .poll i => s.poll i
  | .drop i => s.dropFut i
  | .callback i status => s.callback i status
  | .mutate b => s.mutate b
  | .free b => s.free b

/-- The runs of the operations, from a state without any. -/
def lts (O : Oneshot (Result Unit)) : Lts (State O) Action where
  init := ⟨[], [], .empty, [], []⟩
  step := State.step

end Io

end SpdkIo
