import SpdkIo.BlockOn
import SpdkIo.Event.Model

/-!
# Blocking on an event

`block_on` (`complete.rs`) on the receiver that `SpdkEvent::call_on_async` returned, on a reactor,
over the events of `SpdkIo.Event`. The reactor runs `block_on`, so that it processes no event of its
lcore until `block_on` returns; `spdk_thread_poll` runs the messages and pollers of an SPDK thread
and processes none either. The receiver is owned by `block_on`: nobody else polls or drops it.
-/

namespace SpdkIo.Event

variable {T : Type} {O : Oneshot (Result T)}

/-- A poll of the receiver of the closure `i`, with its result. -/
def State.pollRx (s : State O) (i : ClosureId) : Option (Poll (Result T) × State O) :=
  (s.poll i).bind fun s' => s'.closures[i]?.map fun c =>
    match c.rx with
    | .resolved result => (.ready result, s')
    | _ => (.pending, s')

/-- The action does not touch the receiver of `i`. -/
def Action.leaves (i : ClosureId) : Action T → Prop
  | .poll j | .dropRx j => j ≠ i
  | _ => True

/-- The reactor of `lcore` processes no event. -/
def Busy (lcore : Lcore) (s : State O) : Action T → Prop
  | .process k => ∀ e events, s.events.pop k = some (e, events) → e.lcore ≠ lcore
  | _ => True

/-- What may happen while the reactor of `lcore` awaits the closure `i`. -/
def Meanwhile (i : ClosureId) (lcore : Lcore) : State O → State O → Prop :=
  (lts O).StepsBy fun s a => Busy lcore s a ∧ a.leaves i

/-- The receiver of the closure `i`, awaited on the reactor of `lcore`, on an SPDK thread in `τ`. -/
def awaiting (τ : Type) (i : ClosureId) (lcore : Lcore) : Blocking τ (State O) (Result T) where
  poll s r s' := s.pollRx i = some (r, s')
  threadPoll _ := Meanwhile i lcore
  others := Meanwhile i lcore

end SpdkIo.Event
