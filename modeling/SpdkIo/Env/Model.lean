import SpdkIo.Env.Builder
import SpdkIo.Lib.Lts

/-!
# The environment of a process

`SpdkEnvBuilder::build`, `SpdkEnv::is_initialized` and the drop of an `SpdkEnv` (`env.rs`), and
`SpdkAppBuilder::run` (`app.rs`), the two ways in which a process starts SPDK. Only the first looks
at `ENV_INITIALIZED`.

`run` takes two steps, up to the call of `spdk_app_start` and from its return: what its callback
does in between are steps of their own. The results of the SPDK calls are part of the action, and
the calls that start and stop SPDK are logged.
-/

namespace SpdkIo.Env

/-- A call of SPDK. -/
inductive Call
  | logSetPrintLevel (level : LogLevel)
  | envInit (opts : EnvOpts) (rc : Int32)
  | envFini
  | appStart (opts : AppOpts)
  | appFini
  deriving DecidableEq

/-- The state of the process. -/
structure State where
  /-- `ENV_INITIALIZED` -/
  flag : Bool
  /-- the `SpdkEnv` guards that are alive -/
  guards : Nat
  /-- the guards that were dropped -/
  dropped : Nat
  /-- the calls of `spdk_app_start` that have not returned -/
  running : Nat
  /-- all calls of `spdk_app_start` -/
  runs : Nat
  calls : List Call

namespace State

/-- `SpdkEnv::is_initialized` -/
def isInitialized (s : State) : Bool := s.flag

/-- `SpdkEnvBuilder::build`, with `spdk_env_init` returning `rc`. The result stands for the
guard. -/
def build (s : State) (b : SpdkEnvBuilder) (defaults : EnvOpts) (rc : Int32) :
    Result Unit × State :=
  if s.flag then (.error .alreadyInitialized, s)
  else
    let s := { s with flag := true }
    match b.opts defaults with
    | .error e => (.error e, s)
    | .ok opts =>
      let calls := s.calls ++ b.logLevel.toList.map .logSetPrintLevel ++ [.envInit opts rc]
      if rc ≠ 0 then
        let message := "spdk_env_init failed with error code " ++ toString rc
        (.error (.envInit message), { s with flag := false, calls })
      else (.ok (), { s with guards := s.guards + 1, calls })

/-- `SpdkEnv::drop` -/
def drop (s : State) : Option State :=
  if 0 < s.guards then
    some { s with
      guards := s.guards - 1
      dropped := s.dropped + 1
      calls := s.calls ++ [.envFini]
      flag := false }
  else none

/-- `SpdkAppBuilder::run`, up to the call of `spdk_app_start`. -/
def run (s : State) (b : SpdkAppBuilder) (defaults : AppOpts) : Result State := do
  let opts ← b.opts defaults
  return { s with
    running := s.running + 1
    runs := s.runs + 1
    calls := s.calls ++ [.appStart opts] }

/-- `run` after `spdk_app_start` returned `rc`. -/
def runRet (s : State) (rc : Int32) : Option (Result Unit × State) :=
  if 0 < s.running then
    let s := { s with running := s.running - 1, calls := s.calls ++ [.appFini] }
    if rc ≠ 0 then
      let message := "spdk_app_start failed with error code " ++ toString rc
      some (.error (.envInit message), s)
    else some (.ok (), s)
  else none

end State

/-! ## Runs -/

/-- The steps of the process. -/
inductive Action
  | build (b : SpdkEnvBuilder) (defaults : EnvOpts) (rc : Int32)
  | drop
  | run (b : SpdkAppBuilder) (defaults : AppOpts)
  | runRet (rc : Int32)

def State.step (s : State) : Action → Option State
  | .build b defaults rc => some (s.build b defaults rc).2
  | .drop => s.drop
  | .run b defaults =>
    match s.run b defaults with
    | .error _ => some s
    | .ok s' => some s'
  | .runRet rc => (s.runRet rc).map (·.2)

/-- The runs of a process that has not used SPDK. -/
def lts : Lts State Action where
  init := ⟨false, 0, 0, 0, 0, []⟩
  step := State.step

end SpdkIo.Env
