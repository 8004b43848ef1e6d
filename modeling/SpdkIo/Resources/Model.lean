import SpdkIo.Io.Model
import SpdkIo.Thread.Local.App

/-!
# Resources of the operations

The wrappers that the operations of `SpdkIo.Io` borrow besides their buffer: `BdevDesc` and
`IoChannel` (`bdev.rs`, `channel.rs`), `NvmeNamespace` and `NvmeQpair`, `NvmfSubsystem`. Those with
a `Drop` release their object in SPDK; a descriptor and a channel are to be released by the SPDK
thread that made them, which is the current one when they are made. The SPDK threads of the OS
thread are those of `SpdkIo.Thread.Local`.

The wrappers are `!Send`, so that one OS thread has them all. A value is not dropped while a future
that is alive borrows it. `IoChannel` has no lifetime and may outlive its descriptor. Where the
wrappers of NVMe and NVMe-oF come from is in `SpdkIo.Handles`.
-/

namespace SpdkIo.Resources

abbrev ResourceId := Nat

inductive Kind
  /-- `BdevDesc` -/
  | bdevDesc
  /-- `IoChannel` -/
  | ioChannel
  /-- `NvmeNamespace<'a>` -/
  | nvmeNamespace
  /-- `NvmeQpair` -/
  | nvmeQpair
  /-- `NvmfSubsystem` -/
  | nvmfSubsystem
  deriving DecidableEq, Repr

/-- The object belongs to an SPDK thread. -/
def Kind.threadBound : Kind → Bool
  | .bdevDesc | .ioChannel => true
  | .nvmeNamespace | .nvmeQpair | .nvmfSubsystem => false

/-- The SPDK call of the type's `Drop`. -/
inductive Release
  | spdkBdevClose
  | spdkPutIoChannel
  | spdkNvmeCtrlrFreeIoQpair
  deriving DecidableEq, Repr

def Kind.release : Kind → Option Release
  | .bdevDesc => some .spdkBdevClose
  | .ioChannel => some .spdkPutIoChannel
  | .nvmeQpair => some .spdkNvmeCtrlrFreeIoQpair
  | .nvmeNamespace | .nvmfSubsystem => none

/-- The borrows of an operation, `self` first, without its buffer. -/
def borrows : OpKind → List Kind
  | .bdevRead | .bdevWrite => [.bdevDesc, .ioChannel]
  | .nvmeRead | .nvmeWrite => [.nvmeNamespace, .nvmeQpair]
  | .subsystemStart | .subsystemStop => [.nvmfSubsystem]

/-- A wrapper. `thread` is the current SPDK thread of its making. -/
structure Resource where
  kind : Kind
  thread : Option Thread.SpdkId
  alive : Bool
  deriving DecidableEq, Repr

structure State (O : Oneshot (Result Unit)) where
  io : Io.State O
  threads : Thread.Local.AppState
  resources : List Resource
  /-- for each operation, what it borrows -/
  args : List (List ResourceId)
  /-- the calls of the `Drop`s, with the current SPDK thread -/
  released : List (Release × ResourceId × Option Thread.SpdkId)

variable {O : Oneshot (Result Unit)}

namespace State

/-- A future that is alive borrows `r`. -/
def borrowed (s : State O) (r : ResourceId) : Bool :=
  (s.io.ops.zip s.args).any fun (op, args) => op.alive && args.contains r

/-- A wrapper of the kind that is alive. -/
def has (s : State O) (r : ResourceId) (kind : Kind) : Bool :=
  s.resources[r]?.any fun resource => resource.alive && resource.kind == kind

def add (s : State O) (kind : Kind) : State O :=
  { s with resources := s.resources ++ [⟨kind, s.threads.os.getCurrent, true⟩] }

/-- `Bdev::open`, with `spdk_bdev_open_ext` returning `rc` and a descriptor or NULL. The name that
it copies was read up to a NUL, or is `"<invalid utf8>"`. -/
def openBdev (s : State O) (rc : Int32) (null : Bool) : Result ResourceId × State O :=
  if rc ≠ 0 then (.error (.os rc), s)
  else if null then (.error (.invalidArgument "null descriptor"), s)
  else (.ok s.resources.length, s.add .bdevDesc)

/-- `BdevDesc::get_io_channel`. SPDK gives no channel without a current thread, and may refuse. -/
def getIoChannel (s : State O) (desc : ResourceId) (null : Bool) :
    Option (Result ResourceId × State O) :=
  if s.has desc .bdevDesc then
    if null ∨ s.threads.os.getCurrent = none then some (.error .channelAlloc, s)
    else some (.ok s.resources.length, s.add .ioChannel)
  else none

/-- A namespace, a queue pair or a subsystem is made. -/
def make (s : State O) (kind : Kind) : Option (State O) :=
  if kind.threadBound then none else some (s.add kind)

/-- The call of an operation. -/
def call (s : State O) (kind : OpKind) (buf : Option BufId) (args : List ResourceId) :
    Option (State O) :=
  if args.length = (borrows kind).length ∧ ∀ p ∈ args.zip (borrows kind), s.has p.1 p.2 then
    (s.io.call kind buf).map fun io => { s with io, args := s.args ++ [args] }
  else none

/-- Any other step of the operations. -/
def other (s : State O) : Io.Action → Option (State O)
  | .call _ _ => none
  | a => (s.io.step a).map fun io => { s with io }

/-- A wrapper is dropped. -/
def drop (s : State O) (r : ResourceId) : Option (State O) :=
  s.resources[r]?.bind fun resource =>
    if resource.alive ∧ s.borrowed r = false then some { s with
      resources := s.resources.set r { resource with alive := false }
      released := s.released ++
        resource.kind.release.toList.map fun release => (release, r, s.threads.os.getCurrent) }
    else none

/-- A step of the SPDK threads. -/
def thread (s : State O) (a : Thread.Local.AppAction) : Option (State O) :=
  (s.threads.step a).map fun threads => { s with threads }

end State

inductive Action
  | openBdev (rc : Int32) (null : Bool)
  | getIoChannel (desc : ResourceId) (null : Bool)
  | make (kind : Kind)
  | call (kind : OpKind) (buf : Option BufId) (args : List ResourceId)
  | other (a : Io.Action)
  | drop (r : ResourceId)
  | thread (a : Thread.Local.AppAction)

def State.step (s : State O) : Action → Option (State O)
  | .openBdev rc null => some (s.openBdev rc null).2
  | .getIoChannel desc null => (s.getIoChannel desc null).map (·.2)
  | .make kind => s.make kind
  | .call kind buf args => s.call kind buf args
  | .other a => s.other a
  | .drop r => s.drop r
  | .thread a => s.thread a

/-- The runs of an OS thread with its wrappers and operations. -/
def lts (O : Oneshot (Result Unit)) : Lts (State O) Action where
  init := ⟨(Io.lts O).init, Thread.Local.appLts.init, [], [], []⟩
  step := State.step

end SpdkIo.Resources
