import SpdkIo.BlockOn
import SpdkIo.Io.Model

/-!
# Blocking on an operation

`block_on` (`complete.rs`) on the future of an operation of `SpdkIo.Io`. The future is owned by
`block_on`: nobody else polls or drops it. SPDK may run callbacks at any moment, also the one of the
operation while it is submitted; a poll of the SPDK thread is steps of SPDK and of the callbacks.
-/

namespace SpdkIo.Io

variable {O : Oneshot (Result Unit)}

/-- The action does not touch the future of `i`. -/
def Action.leaves (i : OpId) : Action → Prop
  | .submit j _ _ | .ret j | .poll j | .drop j => j ≠ i
  | _ => True

/-- What the last poll of the future of `i` returned. -/
def State.polled (s : State O) (i : OpId) : Option (Poll (Result Unit)) :=
  s.ops[i]?.bind fun op =>
    match op.fut with
    | .awaiting => some .pending
    | .returned result => some (.ready result)
    | _ => none

/-- A poll of the future of `i` that returns `r`. In the first one, other steps may be taken while
it is in the SPDK call. -/
inductive PollFut (i : OpId) (s : State O) (r : Poll (Result Unit)) (s' : State O) : Prop
  | first {ctx : Addr} {rc : Int32} {s₁ s₂ : State O} :
    s.submit i ctx rc = some s₁ → (lts O).StepsBy (fun _ => Action.leaves i) s₁ s₂ →
      s₂.ret i = some s' → s'.polled i = some r → PollFut i s r s'
  | later : s.poll i = some s' → s'.polled i = some r → PollFut i s r s'

/-- The future of the operation `i`, awaited on an OS thread with an SPDK thread in `τ`. -/
def awaiting (τ : Type) (i : OpId) : Blocking τ (State O) (Result Unit) where
  poll := PollFut i
  threadPoll _ := (lts O).StepsBy fun _ => Action.leaves i
  others := (lts O).StepsBy fun _ => Action.leaves i

end SpdkIo.Io
