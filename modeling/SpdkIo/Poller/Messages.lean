import SpdkIo.Msg.BlockOn
import SpdkIo.Poller.Model

/-!
# The poller task and the messages of its thread

`spdk_poller` (`poller.rs`) on the OS thread of an SPDK thread, over the messages of `SpdkIo.Msg`:
each `thread.poll()` of the task is a poll of the thread. The other tasks of the executor and other
OS threads send, call and await as they like, and the other tasks poll the thread as well
(`SpdkThread::poll`, `block_on`, `connect_async`, a second poller).
-/

namespace SpdkIo.Poller

open Msg (ThreadPoll Others)

variable {T : Type} {O : Oneshot (Result T)}

/-- The process and the task. -/
structure Exec (O : Oneshot (Result T)) where
  msg : Msg.State O
  poller : State
  /-- the number of messages that SPDK had accepted for the thread when the task last polled it -/
  seen : Nat

/-- The steps, with the task on the OS thread of `t`. -/
inductive Exec.Step (t : ThreadId) : Exec O → Exec O → Prop
  | resume {e : Exec O} {poller : State} :
    e.poller.resume 0 true = some poller → Step t e { e with poller }
  | threadPoll {e : Exec O} {msg : Msg.State O} {poller : State} {work : Int32} :
    e.poller.threadPoll work = some poller → ThreadPoll (fun _ => True) t work e.msg msg →
      Step t e ⟨msg, poller, (forKey t e.msg.queues.pushed).length⟩
  | otherPoll {e : Exec O} {msg : Msg.State O} {work : Int32} :
    ThreadPoll (fun _ => True) t work e.msg msg → Step t e { e with msg }
  | others {e : Exec O} {msg : Msg.State O} :
    Others (fun _ => True) t e.msg msg → Step t e { e with msg }

/-- The states of the runs from `msg₀`, in which the task is spawned. -/
def Exec.Run (t : ThreadId) (msg₀ : Msg.State O) : Exec O → Prop :=
  Relation.ReflTransGen (Exec.Step t) ⟨msg₀, (lts 0).init, 0⟩

end SpdkIo.Poller
