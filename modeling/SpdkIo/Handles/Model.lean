import SpdkIo.Lib.Lts

/-!
# Handles and their parents

The wrappers that hold a pointer into another wrapper's SPDK object: `NvmeQpair` and
`NvmeNamespace` (a controller), `ThreadHandle` (an SPDK thread) and `NvmfSubsystem` (a target).
Dropping the parent destroys the SPDK object, and with it, in SPDK, what the handles point to.

Safe code may create, use, clone and drop the values in any order that their types allow: a method
needs the value, a value is dropped once, and a parent is not dropped while a handle borrows it.
Only `NvmeNamespace<'a>` does (`HandleKind.borrowsParent`).
-/

namespace SpdkIo.Handles

abbrev ParentId := Nat
abbrev HandleId := Nat

inductive ParentKind
  /-- `NvmeController` -/
  | controller
  /-- `SpdkThread` -/
  | thread
  /-- `NvmfTarget` -/
  | target
  deriving DecidableEq, Repr

inductive HandleKind
  /-- `NvmeQpair` -/
  | nvmeQpair
  /-- `NvmeNamespace<'a>` -/
  | nvmeNamespace
  /-- `ThreadHandle` -/
  | threadHandle
  /-- `NvmfSubsystem` -/
  | nvmfSubsystem
  deriving DecidableEq, Repr

def HandleKind.parent : HandleKind → ParentKind
  | .nvmeQpair | .nvmeNamespace => .controller
  | .threadHandle => .thread
  | .nvmfSubsystem => .target

/-- The type has a lifetime, the one of a reference to the parent. -/
def HandleKind.borrowsParent : HandleKind → Bool
  | .nvmeNamespace => true
  | .nvmeQpair | .threadHandle | .nvmfSubsystem => false

/-- The type has a `Drop` that calls SPDK with its object: `spdk_nvme_ctrlr_free_io_qpair`. -/
def HandleKind.hasDrop : HandleKind → Bool
  | .nvmeQpair => true
  | .nvmeNamespace | .threadHandle | .nvmfSubsystem => false

/-- The methods that call SPDK with the object of `self` alone. -/
inductive Method
  -- `NvmeQpair`
  | processCompletions
  -- `NvmeNamespace`
  | nsId
  | sectorSize
  | numSectors
  | size
  | isActive
  -- `ThreadHandle`
  | send
  | call
  | threadId
  -- `NvmfSubsystem`; of an `async fn`, its first poll
  | nqn
  | setSerialNumber
  | setModelNumber
  | setAllowAnyHost
  | addNamespace
  | addListener
  | start
  | stop
  deriving DecidableEq, Repr

def Method.receiver : Method → HandleKind
  | .processCompletions => .nvmeQpair
  | .nsId | .sectorSize | .numSectors | .size | .isActive => .nvmeNamespace
  | .send | .call | .threadId => .threadHandle
  | .nqn | .setSerialNumber | .setModelNumber | .setAllowAnyHost | .addNamespace | .addListener
  | .start | .stop => .nvmfSubsystem

/-- A wrapper that owns an SPDK object, which is there until the wrapper is dropped. -/
structure Parent where
  kind : ParentKind
  alive : Bool
  deriving DecidableEq, Repr

/-- A wrapper that points into the object of a parent. -/
structure Handle where
  kind : HandleKind
  parent : ParentId
  alive : Bool
  deriving DecidableEq, Repr

structure State where
  parents : List Parent
  handles : List Handle

namespace State

/-- `NvmeController::connect`, `SpdkThread::current`, `NvmfTarget::create`, and their variants. -/
def create (s : State) (kind : ParentKind) : State :=
  { s with parents := s.parents ++ [⟨kind, true⟩] }

/-- A method of a parent that returns a handle. -/
def derive (s : State) (kind : HandleKind) (p : ParentId) : Option State :=
  s.parents[p]?.bind fun parent =>
    if parent.alive ∧ parent.kind = kind.parent then
      some { s with handles := s.handles ++ [⟨kind, p, true⟩] }
    else none

/-- `NvmeController::alloc_io_qpair` -/
def allocIoQpair (s : State) (p : ParentId) : Option State := s.derive .nvmeQpair p

/-- `NvmeController::namespace` -/
def nvmeNamespace (s : State) (p : ParentId) : Option State := s.derive .nvmeNamespace p

/-- `SpdkThread::handle` -/
def handle (s : State) (p : ParentId) : Option State := s.derive .threadHandle p

/-- `NvmfTarget::create_subsystem` -/
def createSubsystem (s : State) (p : ParentId) : Option State := s.derive .nvmfSubsystem p

/-- `NvmfTarget::find_subsystem` -/
def findSubsystem (s : State) (p : ParentId) : Option State := s.derive .nvmfSubsystem p

/-- `ThreadHandle::clone` -/
def clone (s : State) (h : HandleId) : Option State :=
  s.handles[h]?.bind fun handle =>
    if handle.alive ∧ handle.kind = .threadHandle then
      some { s with handles := s.handles ++ [handle] }
    else none

/-- A method of a handle. -/
def method (s : State) (h : HandleId) (m : Method) : Option State :=
  s.handles[h]?.bind fun handle =>
    if handle.alive ∧ handle.kind = m.receiver then some s else none

/-- `NvmeNamespace::read` or `write`: a namespace, and a queue pair of any controller. -/
def submit (s : State) (ns qpair : HandleId) : Option State :=
  s.handles[ns]?.bind fun n =>
    s.handles[qpair]?.bind fun q =>
      if n.alive ∧ n.kind = .nvmeNamespace ∧ q.alive ∧ q.kind = .nvmeQpair then some s else none

/-- A handle is dropped. -/
def dropHandle (s : State) (h : HandleId) : Option State :=
  s.handles[h]?.bind fun handle =>
    if handle.alive then some { s with handles := s.handles.set h { handle with alive := false } }
    else none

/-- A handle that is alive borrows `p`. -/
def borrowed (s : State) (p : ParentId) : Bool :=
  s.handles.any fun h => h.alive && h.kind.borrowsParent && h.parent == p

/-- `NvmeController::drop`, `SpdkThread::drop` or `NvmfTarget::drop`: the object is destroyed. -/
def dropParent (s : State) (p : ParentId) : Option State :=
  s.parents[p]?.bind fun parent =>
    if parent.alive ∧ s.borrowed p = false then
      some { s with parents := s.parents.set p { parent with alive := false } }
    else none

end State

/-- The steps of safe code. -/
inductive Action
  | create (kind : ParentKind)
  | allocIoQpair (p : ParentId)
  | nvmeNamespace (p : ParentId)
  | handle (p : ParentId)
  | createSubsystem (p : ParentId)
  | findSubsystem (p : ParentId)
  | clone (h : HandleId)
  | method (h : HandleId) (m : Method)
  | submit (ns qpair : HandleId)
  | dropHandle (h : HandleId)
  | dropParent (p : ParentId)

def State.step (s : State) : Action → Option State
  | .create kind => some (s.create kind)
  | .allocIoQpair p => s.allocIoQpair p
  | .nvmeNamespace p => s.nvmeNamespace p
  | .handle p => s.handle p
  | .createSubsystem p => s.createSubsystem p
  | .findSubsystem p => s.findSubsystem p
  | .clone h => s.clone h
  | .method h m => s.method h m
  | .submit ns qpair => s.submit ns qpair
  | .dropHandle h => s.dropHandle h
  | .dropParent p => s.dropParent p

/-- The handles whose objects a step passes to SPDK. -/
def State.passed (s : State) : Action → List HandleId
  | .method h _ => [h]
  | .submit ns qpair => [ns, qpair]
  | .dropHandle h => if s.handles[h]?.any (·.kind.hasDrop) then [h] else []
  | _ => []

/-- The runs of safe code, from a state without wrappers. -/
def lts : Lts State Action where
  init := ⟨[], []⟩
  step := State.step

end SpdkIo.Handles
