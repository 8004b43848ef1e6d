import SpdkIo.Msg.Proof.BlockOn
import SpdkIo.Poller.Messages
import SpdkIo.Poller.Proof.Limited

/-!
# The poller task delivers

`yield_delivers`: when `spdk_poller` yields to the other tasks, every message that SPDK had accepted
for its thread before its last poll has run to its end, so that each call among them is ready. The
task yields only after a poll that found no message, and what had run has still run after any steps
of the others, also when they poll the thread themselves.
-/

namespace SpdkIo.Poller

open Msg (ThreadPoll Finished Held PushedAt Quiet accepted inv_of_reach)

variable {T : Type} {O : Oneshot (Result T)} {e e' : Exec O} {t : ThreadId}

structure Exec.Inv (t : ThreadId) (e : Exec O) : Prop where
  reach : (Msg.lts O).Reach e.msg
  quiet : Quiet t e.msg
  seen : e.seen ≤ accepted e.msg t
  delivered : ∀ y left, e.poller.pc = .yielding y left →
    ∀ p i, PushedAt e.msg t p i → p < e.seen → ∃ v, Finished e.msg i v

/-- The task yields after a poll without work only. -/
theorem work_of_yielding {s s' : State} {work : Int32} {y : YieldNow} {left : Option Nat}
    (hs : s.threadPoll work = some s') (hpc : s'.pc = .yielding y left) : work = 0 := by
  by_contra hne
  unfold State.threadPoll at hs
  split at hs
  · simp only [if_neg hne] at hs
    obtain rfl := Option.some.inj hs
    unfold State.next at hpc
    split at hpc
    · cases hpc
    · cases hpc
  · cases hs

/-- A task that is still yielding after it was resumed was before. -/
theorem yielding_of_resume {s s' : State} {y : YieldNow} {left : Option Nat}
    (hs : s.resume 0 true = some s') (hpc : s'.pc = .yielding y left) :
    ∃ y left, s.pc = .yielding y left := by
  unfold State.resume at hs
  cases h : s.pc with
  | yielding y left => exact ⟨y, left, rfl⟩
  | unresumed =>
    simp only [h, if_true] at hs
    obtain rfl := Option.some.inj hs
    simp [State.next] at hpc
  | loop left => simp [h] at hs
  | returned => simp [h] at hs
  | panicked message => simp [h] at hs

/-- Any steps of the messages after which the thread is quiet. -/
theorem Exec.Inv.steps (h : e.Inv t) {H : Msg.State O → Msg.Action T → Prop} {msg : Msg.State O}
    (hs : (Msg.lts O).StepsBy H e.msg msg) (hquiet : Quiet t msg) :
    Exec.Inv t { e with msg } := by
  refine ⟨h.reach.stepsBy hs, hquiet, Nat.le_trans h.seen (Msg.accepted_stepsBy h.reach hs),
    fun y left hpc p i hpush hlt => ?_⟩
  have hpush₀ := Msg.pushedAt_of_stepsBy h.reach hs hpush (Nat.lt_of_lt_of_le hlt h.seen)
  obtain ⟨v, hv⟩ := h.delivered y left hpc p i hpush₀ hlt
  exact ⟨v, Msg.finished_stepsBy h.reach hs hv⟩

theorem Exec.Inv.step (h : e.Inv t) (hs : Exec.Step t e e') : e'.Inv t := by
  cases hs with
  | resume hs =>
    refine ⟨h.reach, h.quiet, h.seen, fun y left hpc => ?_⟩
    obtain ⟨y₀, left₀, hpc₀⟩ := yielding_of_resume hs hpc
    exact h.delivered y₀ left₀ hpc₀
  | threadPoll hs hp =>
    refine ⟨h.reach.stepsBy hp.steps, hp.quiet h.reach h.quiet,
      Msg.accepted_stepsBy h.reach hp.steps, fun y left hpc p i hpush hlt => ?_⟩
    -- the poll found no message, so all that were accepted had run
    have hempty := hp.idle (work_of_yielding hs hpc)
    have hpush₀ := Msg.pushedAt_of_stepsBy h.reach hp.steps hpush hlt
    obtain ⟨v, hv⟩ := h.quiet.finished h.reach hpush₀ hempty
    exact ⟨v, Msg.finished_stepsBy h.reach hp.steps hv⟩
  | otherPoll hp => exact h.steps hp.steps (hp.quiet h.reach h.quiet)
  | others ho => exact h.steps ho (h.quiet.others h.reach ho)

theorem Exec.inv_of_run {msg₀ : Msg.State O} (h₀ : (Msg.lts O).Reach msg₀) (hquiet : Quiet t msg₀)
    (h : Exec.Run t msg₀ e) : e.Inv t := by
  induction h with
  | refl =>
    exact ⟨h₀, hquiet, Nat.zero_le _, fun y left hpc => nomatch (hpc : Pc.unresumed = _)⟩
  | tail _ hs ih => exact ih.step hs

/-- **When the task yields**, each message that was accepted for its thread before its last poll has
run to its end, and the next poll of its receiver, if it is a call, gives its value. -/
theorem yield_delivers {msg₀ : Msg.State O} {t : ThreadId} {e : Exec O}
    (h₀ : (Msg.lts O).Reach msg₀) (hquiet : Quiet t msg₀) (h : Exec.Run t msg₀ e) {y : YieldNow}
    {left : Option Nat} (hpc : e.poller.pc = .yielding y left) :
    ∀ p i, PushedAt e.msg t p i → p < e.seen → (∃ v, Finished e.msg i v) ∧
      (Held e.msg i → ∃ v s', Finished e.msg i v ∧
        e.msg.pollRx i = some (.ready (.ok v), s')) := by
  have hinv := Exec.inv_of_run h₀ hquiet h
  intro p i hpush hlt
  obtain ⟨v, hv⟩ := hinv.delivered y left hpc p i hpush hlt
  refine ⟨⟨v, hv⟩, fun hheld => ?_⟩
  rcases Msg.pollRx_cases (Msg.inv_of_reach hinv.reach) hheld with ⟨w, s', hw, hr, -⟩ | ⟨hn, -⟩
  · exact ⟨w, s', hw, hr⟩
  · exact absurd hv (hn v)

/-- One call, a poll that runs it and one without work: the task yields, and the call is ready, also
after another task polled the thread. -/
theorem yield_delivers_one : ∃ (s : Msg.State (.cell (Result Nat))) (v : Nat) (s' : _),
    s.pollRx 0 = some (.ready (.ok v), s') := by
  let s₀ : Msg.State (.cell (Result Nat)) := ((Msg.lts _).init.step (.call 1 7 0)).get rfl
  let s₁ := (s₀.step (.begin 1)).get rfl
  let s₂ := (s₁.step (.finish 0 10)).get rfl
  let p₁ := ((lts 0).init.resume 0 true).get rfl
  let p₂ := (p₁.threadPoll 1).get rfl
  let p₃ := (p₂.threadPoll 0).get rfl
  have hrunning : ∀ (i : MsgId) (m : Message (.cell (Result Nat))), s₂.msgs[i]? = some m →
      m.stage ≠ .running := by
    intro i m hm
    cases i with
    | zero =>
      cases hm
      nofun
    | succ i => cases hm
  have hpoll₁ : ThreadPoll (fun _ => True) 1 1 s₀ s₂ :=
    { steps := ((Lts.StepsBy.refl s₀).next (a := .begin 1) trivial rfl).next
        (a := .finish 0 10) trivial rfl
      first := by
        intro e rest hq
        cases hq
        exact ⟨_, 10, rfl, rfl⟩
      returned := fun i m hm _ hrun => absurd hrun (hrunning i m hm)
      idle := nofun }
  have hpoll₂ : ThreadPoll (fun _ => True) 1 0 s₂ s₂ :=
    { steps := .refl s₂
      first := nofun
      returned := fun i m hm _ hrun => absurd hrun (hrunning i m hm)
      idle := fun _ => rfl }
  have hresume : (lts 0).init.resume 0 true = some p₁ := rfl
  have hwork : p₁.threadPoll 1 = some p₂ := rfl
  have hidle : p₂.threadPoll 0 = some p₃ := rfl
  have hrun : Exec.Run 1 s₀ ⟨s₂, p₃, 1⟩ :=
    (((Relation.ReflTransGen.single (.resume hresume)).tail (.threadPoll hwork hpoll₁)).tail
      (.threadPoll hidle hpoll₂)).tail (.otherPoll hpoll₂)
  have hquiet : Quiet 1 s₀ := by
    intro i m hm _
    cases i with
    | zero =>
      cases hm
      nofun
    | succ i => cases hm
  obtain ⟨-, hready⟩ := @yield_delivers _ _ s₀ 1 ⟨s₂, p₃, 1⟩
    (.next (a := .call 1 7 0) .init trivial rfl) hquiet hrun ⟨true⟩ none rfl 0 0
    ⟨⟨7, 0⟩, rfl, rfl⟩ (by decide)
  obtain ⟨v, s', -, hv⟩ := hready ⟨_, rfl, rfl⟩
  exact ⟨s₂, v, s', hv⟩

end SpdkIo.Poller
