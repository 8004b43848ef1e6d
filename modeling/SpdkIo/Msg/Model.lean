import SpdkIo.Complete
import SpdkIo.Lib.Boxes
import SpdkIo.Lib.Fifo
import SpdkIo.Lib.Lts

/-!
# Messages between threads

`ThreadHandle::send`, `ThreadHandle::call` and `msg_callback` of `thread.rs`: closures are boxed,
and the box travels to the target thread as the context of a message.

A message is a closure that was sent. Its box is there from `send` until `msg_callback` takes it
out; then the closure runs (`begin`) until it returns (`finish`), and whatever happens in between
may be steps of other messages, also ones the closure sends itself. The closure that `call` sends
owns the sender of the call's channel and sends its value when it returns.

SPDK: `spdk_thread_send_msg` accepts a message (`rc == 0`), and puts it at the end of the target's
queue, or refuses it, and never runs its callback. A poll of the target runs the callback of the
first message of its queue. The code does not look at `rc`.
-/

namespace SpdkIo

abbrev ThreadId := Nat
abbrev MsgId := Nat

/-- Where a closure is. -/
inductive Stage (T : Type)
  /-- boxed, the box owned by a message that SPDK accepted -/
  | queued (ctx : Addr)
  /-- boxed, the message refused -/
  | refused (ctx : Addr)
  | running
  | finished (value : T)

/-- SPDK refused the message. -/
def Stage.isRefused {T : Type} : Stage T → Bool
  | .refused _ => true
  | _ => false

/-- The receiver that `call` returns. -/
inductive Receiver (T : Type)
  /-- the message is a `send` -/
  | absent
  | held
  | resolved (result : Result T)
  | dropped

/-- A closure that was sent; `chan` is the channel of its `call`. The values of all calls are in
`T`. -/
structure Message {T : Type} (O : Oneshot (Result T)) where
  target : ThreadId
  stage : Stage T
  rx : Receiver T
  chan : O.Chan

/-- An entry of a thread's queue: its context, and the message it was queued for, which SPDK does
not know. -/
structure Envelope where
  ctx : Addr
  msg : MsgId
  deriving DecidableEq, Repr

namespace Msg

/-- The state of the process. A box holds a closure, given by its message. -/
structure State {T : Type} (O : Oneshot (Result T)) where
  msgs : List (Message O)
  heap : Boxes MsgId
  queues : Fifo ThreadId Envelope
  /-- for each callback that ran: its thread, and the closure that `from_raw` gave -/
  ran : List (ThreadId × Option MsgId)
  /-- for each receiver that resolved: its call, and the result -/
  resolved : List (MsgId × Result T)

variable {T : Type} {O : Oneshot (Result T)}

namespace State

/-- `spdk_thread_send_msg` with a closure boxed at `ctx`, returning `rc`. -/
def sendMsg (s : State O) (target : ThreadId) (rx : Receiver T) (ctx : Addr) (rc : Int32) :
    Option (State O) :=
  (s.heap.intoRaw s.msgs.length ctx).map fun heap =>
    if rc = 0 then
      { s with
        msgs := s.msgs ++ [⟨target, .queued ctx, rx, completion O⟩]
        heap
        queues := s.queues.push target ⟨ctx, s.msgs.length⟩ }
    else
      { s with msgs := s.msgs ++ [⟨target, .refused ctx, rx, completion O⟩], heap }

/-- `ThreadHandle::send` -/
def send (s : State O) (target : ThreadId) (ctx : Addr) (rc : Int32) : Option (State O) :=
  s.sendMsg target .absent ctx rc

/-- `ThreadHandle::call`: `send` of a closure that owns the sender. -/
def call (s : State O) (target : ThreadId) (ctx : Addr) (rc : Int32) : Option (State O) :=
  s.sendMsg target .held ctx rc

def setMsg (s : State O) (i : MsgId) (m : Message O) : State O := { s with msgs := s.msgs.set i m }

/-- `msg_callback` for the first message of `t`, until the closure is called. -/
def begin (s : State O) (t : ThreadId) : Option (State O) :=
  (s.queues.pop t).map fun (e, queues) =>
    let (f, heap) := s.heap.fromRaw e.ctx
    let s' := { s with heap, queues, ran := s.ran ++ [(t, f)] }
    match f with
    | some i =>
      match s.msgs[i]? with
      | some m => s'.setMsg i { m with stage := .running }
      | none => s'
    | none => s'

/-- The closure returns; that of a `call` sends its value. -/
def finish (s : State O) (i : MsgId) (value : T) : Option (State O) :=
  s.msgs[i]?.bind fun m =>
    match m.stage with
    | .running =>
      match m.rx with
      | .absent => some (s.setMsg i { m with stage := .finished value })
      | _ => some (s.setMsg i
          { m with stage := .finished value, chan := CompletionSender.success O m.chan value })
    | _ => none

/-- A poll of the receiver. -/
def poll (s : State O) (i : MsgId) : Option (State O) :=
  s.msgs[i]?.bind fun m =>
    match m.rx with
    | .held =>
      match CompletionReceiver.poll O m.chan with
      | (.ready result, chan) =>
        some { s.setMsg i { m with rx := .resolved result, chan } with
          resolved := s.resolved ++ [(i, result)] }
      | (.pending, chan) => some (s.setMsg i { m with chan })
    | _ => none

/-- The receiver is dropped. -/
def dropRx (s : State O) (i : MsgId) : Option (State O) :=
  s.msgs[i]?.bind fun m =>
    match m.rx with
    | .held => some (s.setMsg i { m with rx := .dropped })
    | _ => none

end State

/-- The steps of the threads. -/
inductive Action (T : Type)
  | send (target : ThreadId) (ctx : Addr) (rc : Int32)
  | call (target : ThreadId) (ctx : Addr) (rc : Int32)
  | begin (t : ThreadId)
  | finish (i : MsgId) (value : T)
  | poll (i : MsgId)
  | dropRx (i : MsgId)

def State.step (s : State O) : Action T → Option (State O)
  | .send target ctx rc => s.send target ctx rc
  | .call target ctx rc => s.call target ctx rc
  | .begin t => s.begin t
  | .finish i value => s.finish i value
  | .poll i => s.poll i
  | .dropRx i => s.dropRx i

/-- The runs of the messages, from a state without any. -/
def lts (O : Oneshot (Result T)) : Lts (State O) (Action T) where
  init := ⟨[], .empty, .empty, [], []⟩
  step := State.step

end Msg

end SpdkIo
