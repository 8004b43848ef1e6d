import SpdkIo.Lib.Oneshot

/-!
# `block_on`

The loop of `block_on` (`complete.rs`) over any future: the future is polled, and while it is
pending the SPDK thread that was current at the start is polled. A future, the thread and what
other OS threads do meanwhile are given as a `Blocking`; the waker does nothing.
-/

namespace SpdkIo

/-- What `block_on` runs on: the states `σ`, with the SPDK threads `τ`. -/
structure Blocking (τ σ β : Type*) where
  /-- a poll of the future -/
  poll : σ → Poll β → σ → Prop
  /-- a poll of an SPDK thread -/
  threadPoll : τ → σ → σ → Prop
  /-- what other OS threads do -/
  others : σ → σ → Prop

namespace BlockOn

/-- Where the call is. -/
inductive Pc (β : Type*)
  /-- `block_on called outside SPDK thread context` -/
  | panicked
  /-- about to poll the future -/
  | future
  /-- about to poll the thread -/
  | thread
  | returned (result : β)

variable {τ σ β : Type*}

/-- One assertion for each place of the loop. -/
def Pc.Holds (future thread : σ → Prop) (done : β → σ → Prop) : Pc β → σ → Prop
  | .panicked, _ => False
  | .future, s => future s
  | .thread, s => thread s
  | .returned r, s => done r s

/-- The calls from the state `s₀`, with the current thread `current`, after `n` polls of the
thread. -/
inductive Run (W : Blocking τ σ β) (current : Option τ) (s₀ : σ) : Nat → Pc β → σ → Prop
  | panic : current = none → Run W current s₀ 0 .panicked s₀
  | start {t : τ} : current = some t → Run W current s₀ 0 .future s₀
  | others {n : Nat} {pc : Pc β} {s s' : σ} :
    Run W current s₀ n pc s → W.others s s' → Run W current s₀ n pc s'
  | pending {n : Nat} {s s' : σ} :
    Run W current s₀ n .future s → W.poll s .pending s' → Run W current s₀ n .thread s'
  | ready {n : Nat} {s s' : σ} {r : β} :
    Run W current s₀ n .future s → W.poll s (.ready r) s' →
      Run W current s₀ n (.returned r) s'
  | threadPoll {n : Nat} {s s' : σ} {t : τ} :
    Run W current s₀ n .thread s → current = some t → W.threadPoll t s s' →
      Run W current s₀ (n + 1) .future s'

/-- **The loop rule**: `future` and `thread` hold before the polls, and `done` after the return. -/
theorem Run.rule (future thread : Nat → σ → Prop) (done : Nat → β → σ → Prop)
    {W : Blocking τ σ β} {t : τ} {s₀ : σ} (h0 : future 0 s₀)
    (hfuture : ∀ {n s s'}, future n s → W.others s s' → future n s')
    (hthread : ∀ {n s s'}, thread n s → W.others s s' → thread n s')
    (hdone : ∀ {n r s s'}, done n r s → W.others s s' → done n r s')
    (hpending : ∀ {n s s'}, future n s → W.poll s .pending s' → thread n s')
    (hready : ∀ {n r s s'}, future n s → W.poll s (.ready r) s' → done n r s')
    (hpoll : ∀ {n s s'}, thread n s → W.threadPoll t s s' → future (n + 1) s')
    {n : Nat} {pc : Pc β} {s : σ} (h : Run W (some t) s₀ n pc s) :
    pc.Holds (future n) (thread n) (done n) s := by
  induction h with
  | panic hc => cases hc
  | start _ => exact h0
  | @others n pc s s' _ ho ih =>
    cases pc with
    | panicked => exact ih
    | future => exact hfuture ih ho
    | thread => exact hthread ih ho
    | returned r => exact hdone ih ho
  | pending _ hp ih => exact hpending ih hp
  | ready _ hp ih => exact hready ih hp
  | threadPoll _ hc hp ih =>
    cases hc
    exact hpoll ih hp

end BlockOn

end SpdkIo
