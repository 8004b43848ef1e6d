import SpdkIo.BlockOn
import SpdkIo.Msg.ThreadPoll

/-!
# Blocking on a call

`block_on` (`complete.rs`) on the receiver that `ThreadHandle::call` returned, over the messages of
`SpdkIo.Msg`. The receiver is owned by `block_on`: nobody else polls or drops it.
-/

namespace SpdkIo.Msg

variable {T : Type} {O : Oneshot (Result T)}

/-- A poll of the receiver of the call `i`, with its result. -/
def State.pollRx (s : State O) (i : MsgId) : Option (Poll (Result T) × State O) :=
  (s.poll i).bind fun s' => s'.msgs[i]?.map fun m =>
    match m.rx with
    | .resolved result => (.ready result, s')
    | _ => (.pending, s')

/-- The action does not touch the receiver of `i`. -/
def Action.leaves (i : MsgId) : Action T → Prop
  | .poll j | .dropRx j => j ≠ i
  | _ => True

/-- The receiver of the call `i`, awaited on the OS thread of `t`. -/
def awaiting (i : MsgId) (t : ThreadId) : Blocking ThreadId (State O) (Result T) where
  poll s r s' := s.pollRx i = some (r, s')
  threadPoll t s s' := ∃ work, ThreadPoll (Action.leaves i) t work s s'
  others := Others (Action.leaves i) t

end SpdkIo.Msg
