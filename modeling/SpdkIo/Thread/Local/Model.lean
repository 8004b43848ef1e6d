import Mathlib.Logic.Function.Iterate
import SpdkIo.CString
import SpdkIo.Lib.Lts

/-!
# The SPDK threads of one OS thread

The functions of `thread.rs` that create, poll and drop SPDK threads, run to their end by a single
OS thread. Where `SpdkIo.Thread.Model` takes their atomic accesses one by one, each function is here
one step from a state to the next. The results of the SPDK calls are arguments.

SPDK: `spdk_set_thread` sets the current thread of the OS thread, and `spdk_thread_poll` sets it to
the polled thread and back to what it was.
-/

namespace SpdkIo.Thread.Local

/-- A call of `thread_lib_init` or `thread_lib_init_ext`, or SPDK's own initialisation: whether it
went on to initialise the library, and whether the library was initialised before. -/
structure Init where
  called : Bool
  ready : Bool
  deriving DecidableEq

/-- A drop of an `SpdkThread`, with the current thread before and after it. -/
structure Drop where
  before : Option SpdkId
  id : SpdkId
  after : Option SpdkId
  deriving DecidableEq

structure State where
  /-- `THREAD_LIB_INITIALIZED` -/
  flag : Bool
  /-- the thread library is initialised -/
  ready : Bool
  /-- the SPDK threads, which `spdk_thread_get_count` counts -/
  threads : List SpdkId
  /-- the next SPDK thread to be created -/
  next : SpdkId
  /-- the `SpdkThread` values -/
  owned : List SpdkId
  /-- `spdk_get_thread` -/
  thread : Option SpdkId
  inits : List Init
  drops : List Drop

namespace State

/-! ## The library -/

/-- `thread_lib_init` and `thread_lib_init_ext`, with `fn` returning `rc`. -/
def threadLibInit (s : State) (fn : InitFn) (rc : Int32) : Result Unit × State :=
  if s.flag then (.ok (), { s with inits := s.inits ++ [Init.mk false s.ready] })
  else
    let inits := s.inits ++ [Init.mk true s.ready]
    if rc ≠ 0 then
      let message := fn.name ++ " failed with error code " ++ toString rc
      (.error (.envInit message), { s with flag := false, inits })
    else (.ok (), { s with flag := true, ready := true, inits })

/-- `assume_thread_lib_initialized` -/
def assumeThreadLibInitialized (s : State) : State := { s with flag := true }

/-- `thread_lib_fini` -/
def threadLibFini (s : State) : State :=
  if s.flag then { s with flag := false, ready := false } else s

/-! ## Threads -/

/-- `SpdkThread::attach`, with `spdk_thread_create` returning NULL or a new thread. -/
def attach (s : State) (name : List UInt8) (null : Bool) : Result SpdkId × State :=
  match Thread.State.cstringNew name with
  | .error e => (.error e, s)
  | .ok _ =>
    if null then (.error (.envInit "spdk_thread_create returned NULL"), s)
    else
      (.ok s.next, { s with
        threads := s.threads ++ [s.next]
        next := s.next + 1
        owned := s.owned ++ [s.next]
        thread := some s.next })

/-- `SpdkThread::current` and `SpdkThread::current_with_mempool_size`, which initialises the library
with `fn`. -/
def currentBy (s : State) (fn : InitFn) (name : List UInt8) (rc : Int32) (null : Bool) :
    Result SpdkId × State :=
  match s.threadLibInit fn rc with
  | (.error e, s) => (.error e, s)
  | (.ok (), s) => s.attach name null

/-- `SpdkThread::current` -/
def current (s : State) (name : List UInt8) (rc : Int32) (null : Bool) :
    Result SpdkId × State :=
  s.currentBy .libInit name rc null

/-- `SpdkThread::current_with_mempool_size` -/
def currentWithMempoolSize (s : State) (name : List UInt8) (msgMempoolSize : UInt64) (rc : Int32)
    (null : Bool) : Result SpdkId × State :=
  s.currentBy (.libInitExt msgMempoolSize) name rc null

/-- `SpdkThread::get_current` -/
def getCurrent (s : State) : Option SpdkId := s.thread

/-- `spdk_thread_poll` -/
def pollThread (s : State) (id : SpdkId) : State :=
  let polled := { s with thread := some id }
  { polled with thread := s.thread }

/-- `SpdkThread::poll` -/
def poll (s : State) (id : SpdkId) : Option State :=
  if id ∈ s.owned then some (s.pollThread id) else none

/-- `SpdkThread::drop`; the thread has exited after `polls` polls. -/
def drop (s : State) (id : SpdkId) (polls : Nat) : Option State :=
  if id ∈ s.owned then
    let exited := (pollThread · id)^[polls] s
    let cleared := { exited with thread := none }
    let destroyed := { cleared with
      threads := cleared.threads.erase id
      owned := cleared.owned.erase id
      drops := cleared.drops ++ [Drop.mk s.getCurrent id cleared.getCurrent] }
    some (if destroyed.threads.length = 0 then destroyed.threadLibFini else destroyed)
  else none

end State

/-! ## Runs -/

/-- The operations of the OS thread. -/
inductive Action
  | current (name : List UInt8) (rc : Int32) (null : Bool)
  | currentWithMempoolSize (name : List UInt8) (msgMempoolSize : UInt64) (rc : Int32) (null : Bool)
  | attach (name : List UInt8) (null : Bool)
  | poll (id : SpdkId)
  | drop (id : SpdkId) (polls : Nat)

def State.step (s : State) : Action → Option State
  | .current name rc null => some (s.current name rc null).2
  | .currentWithMempoolSize name size rc null =>
    some (s.currentWithMempoolSize name size rc null).2
  | .attach name null => some (s.attach name null).2
  | .poll id => s.poll id
  | .drop id polls => s.drop id polls

/-- The runs of an OS thread in a process that has not used SPDK threads. -/
def lts : Lts State Action where
  init := ⟨false, false, [], 0, [], none, [], []⟩
  step := State.step

end SpdkIo.Thread.Local
