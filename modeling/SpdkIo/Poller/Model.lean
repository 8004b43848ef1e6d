import SpdkIo.Lib.Lts
import SpdkIo.Lib.Oneshot

/-!
# The poller task

`spdk_poller` and `spdk_poller_limited` (`poller.rs`) as an executor sees them: futures that it
polls, which call `thread.poll()` any number of times before they return `Pending`. A step is a poll
of the future by the executor (`resume`), up to the loop, or one call of `thread.poll()` with what
follows it; its result is part of the action.
-/

namespace SpdkIo.Poller

/-- `YieldNow` -/
structure YieldNow where
  yielded : Bool

/-- `yield_now()` -/
def yieldNow : YieldNow := ⟨false⟩

/-- `YieldNow::poll`, and whether it woke the task. -/
def YieldNow.poll (self : YieldNow) : Poll Unit × YieldNow × Bool :=
  if self.yielded then (.ready (), self, false) else (.pending, ⟨true⟩, true)

/-- Where the task is. `left` is the number of iterations left, `none` in the loop without end. -/
inductive Pc
  | unresumed
  /-- about to call `thread.poll()` -/
  | loop (left : Option Nat)
  /-- at `yield_now().await`, the executor has got `Pending` -/
  | yielding (y : YieldNow) (left : Option Nat)
  | returned
  | panicked (message : String)

structure State where
  pc : Pc
  /-- the results of `thread.poll()` -/
  works : List Int32
  /-- the polls of the future -/
  resumes : Nat
  /-- those that returned `Pending` -/
  pendings : Nat
  /-- the calls of the waker -/
  wakes : Nat

namespace State

/-- The next iteration, if there is one. -/
def next (s : State) (left : Option Nat) : State :=
  if left = some 0 then { s with pc := .returned } else { s with pc := .loop left }

/-- `y.await` -/
def await (s : State) (y : YieldNow) (left : Option Nat) : State :=
  let (p, y, woken) := y.poll
  let s := { s with wakes := s.wakes + woken.toNat }
  match p with
  | .ready () => s.next left
  | .pending => { s with pc := .yielding y left, pendings := s.pendings + 1 }

/-- The executor polls the future, on an OS thread with a current SPDK thread or without. -/
def resume (maxIters : UInt64) (s : State) (current : Bool) : Option State :=
  let polled := { s with resumes := s.resumes + 1 }
  match s.pc with
  | .unresumed =>
    if maxIters = 0 then
      if current then some (polled.next none)
      else some { polled with pc := .panicked "spdk_poller called outside SPDK thread context" }
    else if current then some (polled.next (some maxIters.toNat))
    else some
      { polled with pc := .panicked "spdk_poller_limited called outside SPDK thread context" }
  | .yielding y left => some (polled.await y left)
  | _ => none

/-- `let work_done = thread.poll();` and the rest of the iteration. -/
def threadPoll (s : State) (work : Int32) : Option State :=
  match s.pc with
  | .loop left =>
    let s := { s with works := s.works ++ [work] }
    let left := left.map (· - 1)
    if work = 0 then some (s.await yieldNow left) else some (s.next left)
  | _ => none

end State

inductive Action
  | resume (current : Bool)
  | threadPoll (work : Int32)

def State.step (maxIters : UInt64) (s : State) : Action → Option State
  | .resume current => s.resume maxIters current
  | .threadPoll work => s.threadPoll work

/-- The runs of `spdk_poller_limited(max_iters)`, which is `spdk_poller()` if `max_iters` is 0. -/
def lts (maxIters : UInt64) : Lts State Action where
  init := ⟨.unresumed, [], 0, 0, 0⟩
  step := State.step maxIters

end SpdkIo.Poller
