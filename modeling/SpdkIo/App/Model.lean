import SpdkIo.Env.Builder
import SpdkIo.Lib.Boxes
import SpdkIo.Lib.Lts

/-!
# Applications

`SpdkAppBuilder::run`, `run_async` and `start_callback` (`app.rs`), with the closure that `run`
boxes and that the callback calls. A call takes its steps with the box at any address that is free,
and the steps of other calls, also those that its closure makes, in between.

SPDK: `spdk_app_start` calls `start_callback` with the given argument at most once, and returns when
the callback has returned, or without calling it.
-/

namespace SpdkIo.App

abbrev CallId := Nat

/-- Where a call of `run` is. -/
inductive Stage
  /-- it returned as a text of the builder has a NUL byte -/
  | failed (e : Error)
  /-- in `spdk_app_start`, with the box of the closure as the argument of the callback -/
  | starting (ctx : Addr)
  /-- in the callback, which runs the closure that it found in the box -/
  | running (closure : Option CallId)
  /-- in `spdk_app_start`, after the callback -/
  | called
  /-- it returned after `spdk_app_start` returned `rc` -/
  | returned (called : Bool) (rc : Int32)
  deriving DecidableEq

/-- A call of `run`, or of `run` by `run_async`, which wraps the closure. -/
structure Call where
  builder : SpdkAppBuilder
  async : Bool
  stage : Stage

/-- The result of `run`. -/
def Call.result (c : Call) : Option (Result Unit) :=
  match c.stage with
  | .failed e => some (.error e)
  | .returned _ rc =>
    if rc ≠ 0 then
      some (.error (.envInit ("spdk_app_start failed with error code " ++ toString rc)))
    else some (.ok ())
  | .starting _ | .running _ | .called => none

/-- The state of the process. A box holds a closure, given by the call it was passed to. -/
structure State where
  calls : List Call
  heap : Boxes CallId
  /-- for each callback: its call, and the one whose closure `from_raw` gave -/
  ran : List (CallId × Option CallId)
  /-- for each call of `spdk_app_stop`: its code, and the `run_async` whose closure made it -/
  stops : List (Option CallId × Int32)

namespace State

/-- `run` and `run_async`, up to `spdk_app_start`. -/
def run (s : State) (b : SpdkAppBuilder) (defaults : AppOpts) (async : Bool) (ctx : Addr) :
    Option State :=
  match b.opts defaults with
  | .error e => some { s with calls := s.calls ++ [⟨b, async, .failed e⟩] }
  | .ok _ => (s.heap.intoRaw s.calls.length ctx).map fun heap =>
    { s with calls := s.calls ++ [⟨b, async, .starting ctx⟩], heap }

/-- `start_callback`, up to the call of the closure. -/
def startCallback (s : State) (i : CallId) : Option State :=
  s.calls[i]?.bind fun c =>
    match c.stage with
    | .starting ctx =>
      let (closure, heap) := s.heap.fromRaw ctx
      some { s with
        calls := s.calls.set i { c with stage := .running closure }
        heap
        ran := s.ran ++ [(i, closure)] }
    | _ => none

/-- `SpdkApp::stop_with_code` -/
def stopWithCode (s : State) (caller : Option CallId) (rc : Int32) : State :=
  { s with stops := s.stops ++ [(caller, rc)] }

/-- `SpdkApp::stop` -/
def stop (s : State) (caller : Option CallId) : State := s.stopWithCode caller 0

/-- The closure returns; that of `run_async` has awaited its future and stops the application. -/
def closureRet (s : State) (i : CallId) : Option State :=
  s.calls[i]?.bind fun c =>
    match c.stage with
    | .running closure =>
      let s' := { s with calls := s.calls.set i { c with stage := .called } }
      match closure with
      | some j => if s.calls[j]?.any (·.async) then some (s'.stop (some j)) else some s'
      | none => some s'
    | _ => none

/-- `spdk_app_start` returns `rc`, and `run` returns. -/
def startRet (s : State) (i : CallId) (rc : Int32) : Option State :=
  s.calls[i]?.bind fun c =>
    match c.stage with
    | .starting _ =>
      some { s with calls := s.calls.set i { c with stage := .returned false rc } }
    | .called => some { s with calls := s.calls.set i { c with stage := .returned true rc } }
    | _ => none

end State

inductive Action
  | run (b : SpdkAppBuilder) (defaults : AppOpts) (async : Bool) (ctx : Addr)
  | startCallback (i : CallId)
  | closureRet (i : CallId)
  | startRet (i : CallId) (rc : Int32)
  /-- a call of `stop_with_code` or `stop` by the program -/
  | stopWithCode (rc : Int32)

def State.step (s : State) : Action → Option State
  | .run b defaults async ctx => s.run b defaults async ctx
  | .startCallback i => s.startCallback i
  | .closureRet i => s.closureRet i
  | .startRet i rc => s.startRet i rc
  | .stopWithCode rc => some (s.stopWithCode none rc)

/-- The runs of a process, from its start. -/
def lts : Lts State Action where
  init := ⟨[], .empty, [], []⟩
  step := State.step

end SpdkIo.App
