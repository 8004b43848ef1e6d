import SpdkIo.Error
import SpdkIo.Lib.Oneshot

/-!
# Completions

`CompletionSender` and `CompletionReceiver` of `complete.rs`: the two halves of a one-shot channel
of results. The channel is a parameter (`Oneshot`); both halves are written on the channel they
share. `into_raw` and `from_raw` move a sender into a box and out of it (`Boxes`).
-/

namespace SpdkIo

variable {T : Type} (O : Oneshot (Result T))

/-- `completion()` -/
def completion : O.Chan := O.channel

/-- `CompletionSender::complete` -/
def CompletionSender.complete (tx : O.Chan) (result : Result T) : O.Chan := O.send tx result

/-- `CompletionSender::success` -/
def CompletionSender.success (tx : O.Chan) (value : T) : O.Chan := O.send tx (.ok value)

/-- `CompletionReceiver::poll` -/
def CompletionReceiver.poll (rx : O.Chan) : Poll (Result T) × O.Chan :=
  match O.poll rx with
  | (.ready (.ok result), rx) => (.ready result, rx)
  | (.ready (.error _), rx) => (.ready (.error .cancelled), rx)
  | (.pending, rx) => (.pending, rx)

namespace CompletionReceiver

variable {O} {rx : O.Chan}

theorem poll_waiting (h : O.Waiting rx) : ∃ rx', O.Waiting rx' ∧ poll O rx = (.pending, rx') := by
  obtain ⟨hp, hw⟩ := O.poll_waiting h
  unfold poll
  rcases hr : O.poll rx with ⟨p, rx'⟩
  rw [hr] at hp hw
  subst hp
  exact ⟨rx', hw, rfl⟩

theorem poll_holding {result : Result T} (h : O.Holding rx result) :
    ∃ rx', poll O rx = (.ready result, rx') := by
  have hp := O.poll_holding h
  unfold poll
  rcases hr : O.poll rx with ⟨p, rx'⟩
  rw [hr] at hp
  subst hp
  exact ⟨rx', rfl⟩

/-- A poll of a channel that holds a value once there is one with `p`, and is waiting until then. -/
theorem poll_cases {p : T → Prop} {r : Poll (Result T)} {rx' : O.Chan}
    (hholding : ∀ v, p v → O.Holding rx (.ok v)) (hwaiting : (∀ v, ¬ p v) → O.Waiting rx)
    (h : poll O rx = (r, rx')) :
    (r = .pending ∧ (∀ v, ¬ p v) ∧ O.Waiting rx') ∨ ∃ v, r = .ready (.ok v) ∧ p v := by
  by_cases hp : ∃ v, p v
  · obtain ⟨v, hv⟩ := hp
    obtain ⟨rx'', hready⟩ := poll_holding (hholding v hv)
    rw [h, Prod.mk.injEq] at hready
    exact .inr ⟨v, hready.1, hv⟩
  · have hn : ∀ v, ¬ p v := fun v hv => hp ⟨v, hv⟩
    obtain ⟨rx'', hw, hpend⟩ := poll_waiting (hwaiting hn)
    rw [h, Prod.mk.injEq] at hpend
    obtain ⟨hpend, rfl⟩ := hpend
    exact .inl ⟨hpend, hn, hw⟩

end CompletionReceiver

end SpdkIo
