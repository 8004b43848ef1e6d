import SpdkIo.Env.Builder
import SpdkIo.Thread.Local.Model

/-!
# The application framework and the thread library

`SpdkAppBuilder::run` and `start_callback` (`app.rs`) on the OS thread of `SpdkIo.Thread.Local`:
what they do to the thread library, which the framework initialises and finalises on its own. `run`
takes two steps, up to the start of its callback and from the return of `spdk_app_start`; the
callback's operations on threads are steps in between.

SPDK: `spdk_app_start` initialises the thread library before it calls `start_callback`, or returns
without calling it; when `spdk_app_fini` returns, the library is finalised. Which threads the
framework creates, which are left in the end and which is current are up to SPDK.
-/

namespace SpdkIo.Thread.Local

/-- The OS thread, and the number of its runs whose callback was called and that have not
returned. -/
structure AppState where
  os : State
  running : Nat

namespace AppState

/-- `spdk_app_fini`; the threads in `left` are left. -/
def spdkAppFini (s : AppState) (left : List SpdkId) (thread : Option SpdkId) : AppState :=
  { s with os := { s.os with ready := false, threads := s.os.threads.filter (· ∈ left), thread } }

/-- `start_callback`, up to the call of the closure. -/
def startCallback (s : AppState) : AppState := { s with os := s.os.assumeThreadLibInitialized }

/-- `SpdkAppBuilder::run`, with `spdk_app_start` calling the callback after it initialised the
library and created `created` threads. -/
def run (s : AppState) (b : SpdkAppBuilder) (defaults : AppOpts) (created : Nat)
    (thread : Option SpdkId) : Result AppState := do
  let _ ← b.opts defaults
  let started := { s with
    os := { s.os with
      ready := true
      inits := s.os.inits ++ [Init.mk true s.os.ready]
      threads := s.os.threads ++ List.range' s.os.next created
      next := s.os.next + created
      thread }
    running := s.running + 1 }
  return started.startCallback

/-- `SpdkAppBuilder::run`, with `spdk_app_start` returning without a call of the callback. -/
def runFailed (s : AppState) (b : SpdkAppBuilder) (defaults : AppOpts) (left : List SpdkId)
    (thread : Option SpdkId) : Result AppState := do
  let _ ← b.opts defaults
  return s.spdkAppFini left thread

/-- `run` after `spdk_app_start` returned. -/
def runRet (s : AppState) (left : List SpdkId) (thread : Option SpdkId) : Option AppState :=
  if 0 < s.running then
    some { s.spdkAppFini left thread with running := s.running - 1 }
  else none

end AppState

/-! ## Runs -/

/-- The operations of the OS thread, and the choices of SPDK. -/
inductive AppAction
  | thread (a : Action)
  | run (b : SpdkAppBuilder) (defaults : AppOpts) (created : Nat) (thread : Option SpdkId)
  | runFailed (b : SpdkAppBuilder) (defaults : AppOpts) (left : List SpdkId)
    (thread : Option SpdkId)
  | runRet (left : List SpdkId) (thread : Option SpdkId)

/-- A `run` that fails on its own changes nothing. -/
def AppState.step (s : AppState) : AppAction → Option AppState
  | .thread a => (s.os.step a).map fun os => { s with os }
  | .run b defaults created thread =>
    match s.run b defaults created thread with
    | .error _ => some s
    | .ok s' => some s'
  | .runFailed b defaults left thread =>
    match s.runFailed b defaults left thread with
    | .error _ => some s
    | .ok s' => some s'
  | .runRet left thread => s.runRet left thread

/-- The runs of an OS thread in a process that has not used SPDK. -/
def appLts : Lts AppState AppAction where
  init := ⟨lts.init, 0⟩
  step := AppState.step

end SpdkIo.Thread.Local
