import SpdkIo.Lib.Lts
import SpdkIo.Nvme.Opts

/-!
# Connecting to a controller asynchronously

`NvmeController::connect_async` (`controller.rs`) on one OS thread. The call polls SPDK and its own
SPDK thread in turn, and what the SPDK thread runs may call `connect_async` again, to any depth: the
calls in progress are a stack of frames. All of them share the slot `ATTACHED_CTRLR`, which
`attach_cb` fills.

A controller stands for one attachment: one of SPDK's controllers that is attached for two probes is
two of them, as it has to be detached twice.

SPDK: a probe calls `attach_cb` at most once, during the `spdk_nvme_connect_async` that returns it
or during an `spdk_nvme_probe_poll_async` on it. Its results, and whether there is a current SPDK
thread, are part of the actions.
-/

namespace SpdkIo.Nvme

abbrev CallId := Nat

/-- `EAGAIN` on Linux -/
def eagain : Int32 := 11

/-- What a call of `connect_async` is waiting for. -/
inductive Phase
  /-- `spdk_nvme_connect_async` -/
  | connecting
  /-- `spdk_nvme_probe_poll_async` -/
  | probing
  /-- `thread.poll()` -/
  | threadPoll
  deriving DecidableEq

/-- A call in progress. `attached` is the controller that its probe attached, which the call itself
does not know, and `nested` says that another call began after that. -/
structure Frame (R : Type) where
  call : CallId
  given : Given (SpdkNvmeCtrlrOpts R)
  phase : Phase
  attached : Option CtrlrId
  nested : Bool

/-- A call that has returned: whether it started a probe, the last result of polling it, if that was
not `-EAGAIN`, and the controller that the probe attached. -/
structure Return where
  call : CallId
  started : Bool
  last : Option Int32
  attached : Option CtrlrId
  result : Result CtrlrId
  deriving DecidableEq

/-- The state of the OS thread. -/
structure State (R : Type) where
  locals : Locals (SpdkNvmeCtrlrOpts R)
  /-- `ATTACHED_CTRLR` -/
  slot : Option CtrlrId
  /-- the calls in progress, the innermost first -/
  stack : List (Frame R)
  /-- the number of calls so far -/
  calls : Nat
  /-- the controllers that were attached -/
  attached : List CtrlrId
  returned : List Return

variable {R : Type} [Inhabited R]

namespace State

/-- The innermost call is in `thread.poll()`, or there is none. -/
def mayCall (s : State R) : Bool := s.stack.head?.all fun f => f.phase = .threadPoll

/-- `connect_async` up to the call of `spdk_nvme_connect_async`. -/
def connectAsync (s : State R) (defaults : SpdkNvmeCtrlrOpts R) (opts : Option NvmeCtrlrOpts) :
    Option (State R) :=
  if s.mayCall then
    let (optsPtr, locals) := ctrlrOptsPtr defaults opts s.locals
    let (given, locals) := give optsPtr locals
    some { s with
      locals
      slot := none
      stack := ⟨s.calls, given, .connecting, none, false⟩ ::
        s.stack.map fun f => { f with nested := f.nested || f.attached.isSome }
      calls := s.calls + 1 }
  else none

/-- `attach_cb`, called for the innermost call's probe. -/
def attachCb (s : State R) (ctrlr : CtrlrId) : Option (State R) :=
  match s.stack with
  | f :: rest =>
    if f.phase ≠ .threadPoll ∧ f.attached = none ∧ ctrlr ∉ s.attached then
      some { s with
        slot := some ctrlr
        stack := { f with attached := some ctrlr } :: rest
        attached := s.attached ++ [ctrlr] }
    else none
  | [] => none

/-- The innermost call returns. -/
def ret (s : State R) (f : Frame R) (rest : List (Frame R)) (started : Bool) (last : Option Int32)
    (result : Result CtrlrId) : State R :=
  { s with stack := rest, returned := s.returned ++ [⟨f.call, started, last, f.attached, result⟩] }

/-- `spdk_nvme_connect_async` returns NULL or a probe; then the current SPDK thread is needed. -/
def connectRet (s : State R) (null thread : Bool) : Option (State R) :=
  match s.stack with
  | f :: rest =>
    match f.phase with
    | .connecting =>
      if null then
        -- without a probe nothing was attached
        if f.attached = none then some (s.ret f rest false none (.error .controllerNotFound))
        else none
      else if thread then some { s with stack := { f with phase := .probing } :: rest }
      else some (s.ret f rest true none (.error (.os 22)))
    | _ => none
  | [] => none

/-- What `connect_async` makes of the slot in the end. -/
def taken : Option CtrlrId → Result CtrlrId
  | some ctrlr => .ok ctrlr
  | none => .error .controllerNotFound

/-- `spdk_nvme_probe_poll_async` returns `rc`. -/
def pollRet (s : State R) (rc : Int32) : Option (State R) :=
  match s.stack with
  | f :: rest =>
    match f.phase with
    | .probing =>
      if rc = 0 then
        some ({ s with slot := none }.ret f rest true (some rc) (taken s.slot))
      else if rc = -eagain then some { s with stack := { f with phase := .threadPoll } :: rest }
      else some (s.ret f rest true (some rc) (.error (.fromErrno (-rc))))
    | _ => none
  | [] => none

/-- `thread.poll()` returns. -/
def threadPollRet (s : State R) : Option (State R) :=
  match s.stack with
  | f :: rest =>
    match f.phase with
    | .threadPoll => some { s with stack := { f with phase := .probing } :: rest }
    | _ => none
  | [] => none

end State

/-! ## Runs -/

/-- The steps of the OS thread, and what SPDK does. -/
inductive Action (R : Type)
  | connectAsync (defaults : SpdkNvmeCtrlrOpts R) (opts : Option NvmeCtrlrOpts)
  | attachCb (ctrlr : CtrlrId)
  | connectRet (null thread : Bool)
  | pollRet (rc : Int32)
  | threadPollRet

def State.step (s : State R) : Action R → Option (State R)
  | .connectAsync defaults opts => s.connectAsync defaults opts
  | .attachCb ctrlr => s.attachCb ctrlr
  | .connectRet null thread => s.connectRet null thread
  | .pollRet rc => s.pollRet rc
  | .threadPollRet => s.threadPollRet

/-- The runs of an OS thread that has not connected to a controller. -/
def lts (R : Type) [Inhabited R] : Lts (State R) (Action R) where
  init := ⟨.empty, none, [], 0, [], []⟩
  step := State.step

end SpdkIo.Nvme
