import SpdkIo.Thread.Model

/-!
# Spawned threads

`SpdkThread::spawn` and `JoinHandle` (`thread.rs`) over the thread library of `SpdkIo.Thread`: a new
OS thread attaches an SPDK thread without a look at the library, runs a closure with it and drops
it, whether the closure returns or panics.

The process starts with one OS thread, the main thread, number 0; all others are spawned, the `k`-th
of them being the OS thread `k + 1`. A closure may do what the main thread may, except drop the
`SpdkThread` it has a reference to. `T` are the values of the closures.
-/

namespace SpdkIo.Thread

/-- The OS thread that takes the step. -/
def Action.actor : Action → Option OsId
  | .spawn => none
  | .current i _ | .currentWithMempoolSize i _ _ | .initRet i _ | .storeFalse i | .attach i
  | .create i _ | .setThread i | .drop i _ | .pollExit i _ | .clearThread i | .destroy i | .count i
  | .threadLibFini i | .fini i => some i

namespace Spawn

/-- Where a spawned OS thread is; the outcome of its closure is a value, or a panic. -/
inductive Phase (T : Type)
  /-- in `SpdkThread::attach` -/
  | attaching
  /-- in the closure, with a reference to its `SpdkThread` -/
  | running (id : SpdkId)
  /-- the `SpdkThread` is dropped -/
  | dropping (id : SpdkId) (outcome : Option T)
  /-- the OS thread has ended; its `SpdkThread` was `id`, if it had one -/
  | ended (id : Option SpdkId) (outcome : Option T)

variable {T : Type}

def Phase.hasEnded : Phase T → Bool
  | .ended _ _ => true
  | _ => false

/-- The steps of the thread library that the OS thread may take. -/
def Phase.allows : Phase T → Thread.Action → Bool
  | .attaching, .attach _ | .attaching, .create _ _ | .attaching, .setThread _ => true
  | .running id, .drop _ id' => id' != id
  | .running _, _ => true
  | .dropping _ _, .pollExit _ _ | .dropping _ _, .clearThread _ | .dropping _ _, .destroy _
  | .dropping _ _, .count _ | .dropping _ _, .threadLibFini _ | .dropping _ _, .fini _ => true
  | _, _ => false

/-- What `JoinHandle::join` returns. -/
def joinResult : Option T → Result T
  | some value => .ok value
  | none => .error .threadPanic

structure State (T : Type) where
  lib : Thread.State
  spawned : List (Phase T)
  /-- for each `JoinHandle` that was joined: its thread, and the result -/
  joined : List (Nat × Result T)

namespace State

def setPhase (s : State T) (k : Nat) (phase : Phase T) : State T :=
  { s with spawned := s.spawned.set k phase }

/-- The OS thread `i` may take the step `a` of the thread library. -/
def allows (s : State T) (a : Thread.Action) : OsId → Bool
  | 0 => true
  | k + 1 => s.spawned[k]?.any (·.allows a)

/-- A step of the thread library. -/
def libStep (s : State T) (a : Thread.Action) : Option (State T) :=
  a.actor.bind fun i =>
    if s.allows a i then (s.lib.step a).map fun lib => { s with lib } else none

/-- The OS thread `i` runs the code of `main` or of a closure. -/
def runs (s : State T) : OsId → Bool
  | 0 => true
  | k + 1 => s.spawned[k]?.any fun
    | .running _ => true
    | _ => false

/-- `SpdkThread::spawn` on the OS thread `i`. A name with a NUL byte panics in the caller, before
there is an OS thread. -/
def spawn (s : State T) (i : OsId) (name : List UInt8) : Option (State T) :=
  s.lib.os[i]?.bind fun o =>
    if o.pc = .idle ∧ s.runs i = true ∧ name.contains 0 = false then
      some { s with
        lib := { s.lib with os := s.lib.os ++ [⟨.attach name, [], none, none⟩] }
        spawned := s.spawned ++ [.attaching] }
    else none

/-- `attach` returns: the closure is called, or `expect` panics. -/
def attachRet (s : State T) (k : Nat) : Option (State T) :=
  s.spawned[k]?.bind fun phase => s.lib.os[k + 1]?.bind fun o =>
    match phase, o.pc, o.returned with
    | .attaching, .idle, some (.ok id) => some (s.setPhase k (.running id))
    | .attaching, .idle, some (.error _) => some (s.setPhase k (.ended none none))
    | _, _, _ => none

/-- The closure returns a value, or panics: `spdk_thread` is dropped. -/
def closureRet (s : State T) (k : Nat) (outcome : Option T) : Option (State T) :=
  s.spawned[k]?.bind fun phase =>
    match phase with
    | .running id => (s.lib.step (.drop (k + 1) id)).map fun lib =>
      { s.setPhase k (.dropping id outcome) with lib }
    | _ => none

/-- The drop is done, and the OS thread ends. -/
def exit (s : State T) (k : Nat) : Option (State T) :=
  s.spawned[k]?.bind fun phase => s.lib.os[k + 1]?.bind fun o =>
    match phase, o.pc with
    | .dropping id outcome, .idle => some (s.setPhase k (.ended (some id) outcome))
    | _, _ => none

/-- `JoinHandle::join`, which uses the handle up. -/
def join (s : State T) (k : Nat) : Option (State T) :=
  s.spawned[k]?.bind fun phase =>
    match phase with
    | .ended _ outcome =>
      if k ∈ s.joined.map (·.1) then none
      else some { s with joined := s.joined ++ [(k, joinResult outcome)] }
    | _ => none

end State

/-! ## Runs -/

inductive Action (T : Type)
  | lib (a : Thread.Action)
  | spawn (i : OsId) (name : List UInt8)
  | attachRet (k : Nat)
  | closureRet (k : Nat) (outcome : Option T)
  | exit (k : Nat)
  | join (k : Nat)

def State.step (s : State T) : Action T → Option (State T)
  | .lib a => s.libStep a
  | .spawn i name => s.spawn i name
  | .attachRet k => s.attachRet k
  | .closureRet k outcome => s.closureRet k outcome
  | .exit k => s.exit k
  | .join k => s.join k

/-- The runs of a process that has not used SPDK threads. -/
def lts (T : Type) : Lts (State T) (Action T) where
  init := ⟨⟨false, false, [], 0, [⟨.idle, [], none, none⟩]⟩, [], []⟩
  step := State.step

end Spawn

end SpdkIo.Thread
