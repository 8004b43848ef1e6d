import Mathlib.Tactic.Common

/-!
# One-shot channels

A one-shot channel carries one value from its sender to its receiver, a future. `Oneshot α` is the
interface of such a channel with its documented behaviour as laws; a development over it holds for
every implementation. `Oneshot.cell` is one.

A channel is `Waiting` while its sender is there and has not sent, and `Holding v` once `v` was sent
and until it is received.
-/

/-- The result of polling a future. -/
inductive Poll (β : Type*)
  | pending
  | ready (value : β)
  deriving DecidableEq, Repr

/-- The error of a receiver whose sender was dropped. -/
inductive Canceled
  | canceled
  deriving DecidableEq, Repr

/-- A one-shot channel for values in `α`. -/
structure Oneshot (α : Type) where
  Chan : Type
  /-- `channel()` -/
  channel : Chan
  /-- `Sender::send`; the sender is used up -/
  send : Chan → α → Chan
  /-- the sender is dropped -/
  dropSender : Chan → Chan
  /-- `Receiver::poll` -/
  poll : Chan → Poll (Except Canceled α) × Chan
  Waiting : Chan → Prop
  Holding : Chan → α → Prop
  waiting_channel : Waiting channel
  holding_send {c : Chan} {v : α} : Waiting c → Holding (send c v) v
  poll_waiting {c : Chan} : Waiting c → (poll c).1 = .pending ∧ Waiting (poll c).2
  poll_holding {c : Chan} {v : α} : Holding c v → (poll c).1 = .ready (.ok v)

namespace Oneshot

/-- The state of a channel kept as a cell. -/
inductive Cell (α : Type)
  | waiting
  | holding (v : α)
  | canceled
  | taken
  deriving DecidableEq, Repr

/-- A channel as a cell: the value is kept until the receiver takes it. -/
def cell (α : Type) : Oneshot α where
  Chan := Cell α
  channel := .waiting
  send _ v := .holding v
  dropSender
    | .waiting => .canceled
    | c => c
  poll
    | .waiting => (.pending, .waiting)
    | .holding v => (.ready (.ok v), .taken)
    | .canceled => (.ready (.error .canceled), .canceled)
    | .taken => (.ready (.error .canceled), .taken)
  Waiting c := c = .waiting
  Holding c v := c = .holding v
  waiting_channel := rfl
  holding_send _ := rfl
  poll_waiting h := by rw [h]; exact ⟨rfl, rfl⟩
  poll_holding h := by rw [h]

end Oneshot
