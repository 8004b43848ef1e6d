import SpdkIo.Error
import SpdkIo.Lib.Lts

/-!
# The thread library

`SpdkThread::current`, `SpdkThread::current_with_mempool_size` and the drop of an `SpdkThread`
(`thread.rs`), which initialise and finalise SPDK's thread library through the flag
`THREAD_LIB_INITIALIZED`.

Any number of OS threads run these functions. Each is at a program counter (`Pc`), and a step is
one atomic access to the flag or one SPDK call of one OS thread; the two init functions of SPDK
take two steps, since they return later than they are called. The outcomes of the SPDK calls are
part of the action.
-/

namespace SpdkIo.Thread

abbrev OsId := Nat

/-- An SPDK thread. -/
abbrev SpdkId := Nat

/-- The init function of SPDK that is called. -/
inductive InitFn
  | libInit
  | libInitExt (msgMempoolSize : UInt64)
  deriving DecidableEq

def InitFn.name : InitFn → String
  | .libInit => "spdk_thread_lib_init"
  | .libInitExt _ => "spdk_thread_lib_init_ext"

/-- What an OS thread does next. A name is the bytes of the `&str`. -/
inductive Pc
  | idle
  /-- in the init function, which is to return -/
  | libInit (fn : InitFn) (name : List UInt8)
  /-- `THREAD_LIB_INITIALIZED.store(false)` -/
  | libInitFailed (fn : InitFn) (rc : Int32)
  /-- `CString::new(name)` -/
  | attach (name : List UInt8)
  /-- `spdk_thread_create` -/
  | create
  /-- `spdk_set_thread(ptr)` -/
  | setThread (id : SpdkId)
  /-- `while !spdk_thread_is_exited(..)` -/
  | exiting (id : SpdkId)
  /-- `spdk_set_thread(null)` -/
  | clearThread (id : SpdkId)
  /-- `spdk_thread_destroy` -/
  | destroy (id : SpdkId)
  /-- `Self::count() == 0` -/
  | count
  /-- `THREAD_LIB_INITIALIZED.swap(false)` -/
  | finiSwap
  /-- `spdk_thread_lib_fini` -/
  | fini
  deriving DecidableEq

/-- An OS thread: its `SpdkThread` values, its current SPDK thread, and the result of its last
call. -/
structure OsThread where
  pc : Pc
  owned : List SpdkId
  current : Option SpdkId
  returned : Option (Result SpdkId)

/-- The state of the process. -/
structure State where
  /-- `THREAD_LIB_INITIALIZED` -/
  flag : Bool
  /-- an init call has returned success, and no fini call has started since -/
  ready : Bool
  /-- the SPDK threads, which `spdk_thread_get_count` counts -/
  threads : List SpdkId
  /-- the next SPDK thread to be created -/
  next : SpdkId
  os : List OsThread

namespace State

def set (s : State) (i : OsId) (o : OsThread) : State := { s with os := s.os.set i o }

/-! ## Creation -/

/-- `thread_lib_init` and `thread_lib_init_ext`, up to the call of `fn`: if the flag was raised they
return `Ok(())` and the caller goes on. -/
def threadLibInit (s : State) (i : OsId) (fn : InitFn) (name : List UInt8) : Option State :=
  s.os[i]?.bind fun o =>
    match o.pc with
    | .idle =>
      if s.flag then some (s.set i { o with pc := .attach name })
      else some { s.set i { o with pc := .libInit fn name } with flag := true }
    | _ => none

/-- `SpdkThread::current` -/
def current (s : State) (i : OsId) (name : List UInt8) : Option State :=
  s.threadLibInit i .libInit name

/-- `SpdkThread::current_with_mempool_size` -/
def currentWithMempoolSize (s : State) (i : OsId) (name : List UInt8) (msgMempoolSize : UInt64) :
    Option State :=
  s.threadLibInit i (.libInitExt msgMempoolSize) name

/-- The init function returns `rc`. -/
def initRet (s : State) (i : OsId) (rc : Int32) : Option State :=
  s.os[i]?.bind fun o =>
    match o.pc with
    | .libInit fn name =>
      if rc ≠ 0 then some (s.set i { o with pc := .libInitFailed fn rc })
      else some { s.set i { o with pc := .attach name } with ready := true }
    | _ => none

/-- The flag is lowered after the init function failed. -/
def storeFalse (s : State) (i : OsId) : Option State :=
  s.os[i]?.bind fun o =>
    match o.pc with
    | .libInitFailed fn rc =>
      let message := fn.name ++ " failed with error code " ++ toString rc
      some { s.set i { o with pc := .idle, returned := some (.error (.envInit message)) } with
        flag := false }
    | _ => none

/-- `CString::new`: the position of a NUL byte is an error. -/
def cstringNew (name : List UInt8) : Result (List UInt8) :=
  match name.findIdx? (· == 0) with
  | some position => .error (.nulError position name)
  | none => .ok name

/-- `attach`, before the SPDK call. -/
def attach (s : State) (i : OsId) : Option State :=
  s.os[i]?.bind fun o =>
    match o.pc with
    | .attach name =>
      match cstringNew name with
      | .ok _ => some (s.set i { o with pc := .create })
      | .error e => some (s.set i { o with pc := .idle, returned := some (.error e) })
    | _ => none

/-- `spdk_thread_create`, which may return NULL. -/
def create (s : State) (i : OsId) (null : Bool) : Option State :=
  s.os[i]?.bind fun o =>
    match o.pc with
    | .create =>
      if null then
        let e := Error.envInit "spdk_thread_create returned NULL"
        some (s.set i { o with pc := .idle, returned := some (.error e) })
      else
        some { s.set i { o with pc := .setThread s.next } with
          threads := s.threads ++ [s.next]
          next := s.next + 1 }
    | _ => none

/-- `spdk_set_thread`, and the return of the `SpdkThread`. -/
def setThread (s : State) (i : OsId) : Option State :=
  s.os[i]?.bind fun o =>
    match o.pc with
    | .setThread id => some (s.set i
        { pc := .idle, owned := o.owned ++ [id], current := some id, returned := some (.ok id) })
    | _ => none

/-! ## Drop -/

/-- `SpdkThread::drop` on the OS thread that owns it: `spdk_thread_exit`. -/
def drop (s : State) (i : OsId) (id : SpdkId) : Option State :=
  s.os[i]?.bind fun o =>
    match o.pc with
    | .idle =>
      if id ∈ o.owned then some (s.set i { o with pc := .exiting id, owned := o.owned.erase id })
      else none
    | _ => none

/-- `spdk_thread_is_exited`, or else one more poll. -/
def pollExit (s : State) (i : OsId) (exited : Bool) : Option State :=
  s.os[i]?.bind fun o =>
    match o.pc with
    | .exiting id =>
      if exited then some (s.set i { o with pc := .clearThread id }) else some s
    | _ => none

def clearThread (s : State) (i : OsId) : Option State :=
  s.os[i]?.bind fun o =>
    match o.pc with
    | .clearThread id => some (s.set i { o with pc := .destroy id, current := none })
    | _ => none

/-- `spdk_thread_destroy` -/
def destroy (s : State) (i : OsId) : Option State :=
  s.os[i]?.bind fun o =>
    match o.pc with
    | .destroy id =>
      some { s.set i { o with pc := .count } with threads := s.threads.erase id }
    | _ => none

/-- `Self::count() == 0` -/
def count (s : State) (i : OsId) : Option State :=
  s.os[i]?.bind fun o =>
    match o.pc with
    | .count =>
      if s.threads.length = 0 then some (s.set i { o with pc := .finiSwap })
      else some (s.set i { o with pc := .idle })
    | _ => none

/-- `thread_lib_fini`, up to the call of `spdk_thread_lib_fini`. -/
def threadLibFini (s : State) (i : OsId) : Option State :=
  s.os[i]?.bind fun o =>
    match o.pc with
    | .finiSwap =>
      if s.flag then some { s.set i { o with pc := .fini } with flag := false }
      else some (s.set i { o with pc := .idle })
    | _ => none

/-- `spdk_thread_lib_fini` -/
def fini (s : State) (i : OsId) : Option State :=
  s.os[i]?.bind fun o =>
    match o.pc with
    | .fini => some { s.set i { o with pc := .idle } with ready := false }
    | _ => none

/-- A new OS thread. -/
def spawn (s : State) : State := { s with os := s.os ++ [⟨.idle, [], none, none⟩] }

end State

/-! ## Runs -/

/-- The steps of the OS threads. -/
inductive Action
  | spawn
  | current (i : OsId) (name : List UInt8)
  | currentWithMempoolSize (i : OsId) (name : List UInt8) (msgMempoolSize : UInt64)
  | initRet (i : OsId) (rc : Int32)
  | storeFalse (i : OsId)
  | attach (i : OsId)
  | create (i : OsId) (null : Bool)
  | setThread (i : OsId)
  | drop (i : OsId) (id : SpdkId)
  | pollExit (i : OsId) (exited : Bool)
  | clearThread (i : OsId)
  | destroy (i : OsId)
  | count (i : OsId)
  | threadLibFini (i : OsId)
  | fini (i : OsId)

def State.step (s : State) : Action → Option State
  | .spawn => some s.spawn
  | .current i name => s.current i name
  | .currentWithMempoolSize i name size => s.currentWithMempoolSize i name size
  | .initRet i rc => s.initRet i rc
  | .storeFalse i => s.storeFalse i
  | .attach i => s.attach i
  | .create i null => s.create i null
  | .setThread i => s.setThread i
  | .drop i id => s.drop i id
  | .pollExit i exited => s.pollExit i exited
  | .clearThread i => s.clearThread i
  | .destroy i => s.destroy i
  | .count i => s.count i
  | .threadLibFini i => s.threadLibFini i
  | .fini i => s.fini i

/-- The runs of the OS threads, from a process that has not used SPDK threads. -/
def lts : Lts State Action where
  init := ⟨false, false, [], 0, []⟩
  step := State.step

end SpdkIo.Thread
