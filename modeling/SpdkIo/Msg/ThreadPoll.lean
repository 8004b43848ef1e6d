import SpdkIo.Msg.Model

/-!
# Polls of a thread

`SpdkThread::poll` and `CurrentThread::poll` (`thread.rs`) over the messages of `SpdkIo.Msg`, and
what happens between two polls of a thread. The steps in between are any steps that meet a condition
`G` of the caller's.

SPDK: `spdk_thread_poll` runs at least the first message of the thread's queue, runs callbacks one
after the other, so that what it started has returned when it returns, and returns 0 only if there
was no message. A thread is polled on its own OS thread only.
-/

namespace SpdkIo.Msg

variable {T : Type} {O : Oneshot (Result T)}

/-- `poll` of the thread `t`, with the result `work`. -/
structure ThreadPoll (G : Action T → Prop) (t : ThreadId) (work : Int32) (s s' : State O) :
    Prop where
  steps : (lts O).StepsBy (fun _ => G) s s'
  first : ∀ e rest, s.queues.queue t = e :: rest →
    ∃ (m : Message O) (v : T), s'.msgs[e.msg]? = some m ∧ m.stage = .finished v
  returned : ∀ (j : MsgId) (m' : Message O), s'.msgs[j]? = some m' → m'.target = t →
    m'.stage = .running → ∃ m : Message O, s.msgs[j]? = some m ∧ m.stage = .running
  idle : work = 0 → s.queues.queue t = []

/-- Steps outside of the polls of `t`. -/
def Others (G : Action T → Prop) (t : ThreadId) : State O → State O → Prop :=
  (lts O).StepsBy fun _ a => a ≠ .begin t ∧ G a

end SpdkIo.Msg
