import SpdkIo.Msg.Proof.Effect
import SpdkIo.Msg.ThreadPoll

/-!
# What a poll of a thread does to its messages

A poll takes at least one message out, if there is one (`ThreadPoll.taken_lt`), and what it takes
out has returned (`ThreadPoll.finished`). Between two polls no message of the thread is taken
(`taken_others`).
-/

namespace SpdkIo.Msg

variable {T : Type} {O : Oneshot (Result T)} {s s' : State O} {a : Action T} {i : MsgId}
  {t : ThreadId} {n p : Nat} {G : Action T → Prop} {H : State O → Action T → Prop}

/-- The closure of `i` has returned `v`. -/
def Finished (s : State O) (i : MsgId) (v : T) : Prop :=
  ∃ m, s.msgs[i]? = some m ∧ m.stage = .finished v

theorem finished_step (h : Inv s) (hs : s.step a = some s') {v : T} (hf : Finished s i v) :
    Finished s' i v := by
  obtain ⟨m, hm, hv⟩ := hf
  obtain ⟨m', hm', hmove⟩ := step_moves h hs hm
  exact ⟨m', hm', hmove.finished hv⟩

theorem finished_stepsBy (h : (lts O).Reach s) (hs : (lts O).StepsBy H s s') {v : T}
    (hf : Finished s i v) : Finished s' i v := by
  refine (hs.keeps (I := fun s' => (lts O).Reach s' ∧ Finished s' i v) ?_ ⟨h, hf⟩).2
  intro s₁ a s₂ hi _ ha
  exact ⟨hi.1.next trivial ha, finished_step (inv_of_reach hi.1) ha hi.2⟩

theorem pushedAt_stepsBy (h : (lts O).Reach s) (hs : (lts O).StepsBy H s s')
    (hp : PushedAt s t p i) : PushedAt s' t p i := by
  refine (hs.keeps (I := fun s' => (lts O).Reach s' ∧ PushedAt s' t p i) ?_ ⟨h, hp⟩).2
  intro s₁ a s₂ hi _ ha
  exact ⟨hi.1.next trivial ha, pushedAt_step (inv_of_reach hi.1) ha hi.2⟩

/-- The number of messages that SPDK accepted for `t`. -/
def accepted (s : State O) (t : ThreadId) : Nat := (forKey t s.queues.pushed).length

theorem accepted_step (h : Inv s) (hs : s.step a = some s') : accepted s t ≤ accepted s' t := by
  obtain ⟨l, hl⟩ := (step_logs h hs).pushed
  have hlen : accepted s' t = accepted s t + (forKey t l).length := by
    show (forKey t s'.queues.pushed).length = (forKey t s.queues.pushed).length + _
    rw [hl, forKey_append, List.length_append]
  omega

theorem accepted_stepsBy (h : (lts O).Reach s) (hs : (lts O).StepsBy H s s') :
    accepted s t ≤ accepted s' t := by
  refine (hs.keeps (I := fun s' => (lts O).Reach s' ∧ accepted s t ≤ accepted s' t) ?_
    ⟨h, le_rfl⟩).2
  intro s₁ a s₂ hi _ ha
  exact ⟨hi.1.next trivial ha, Nat.le_trans hi.2 (accepted_step (inv_of_reach hi.1) ha)⟩

/-- What was accepted before some steps keeps its place. -/
theorem pushedAt_of_stepsBy (h : (lts O).Reach s) (hs : (lts O).StepsBy H s s')
    (hp : PushedAt s' t p i) (hlt : p < accepted s t) : PushedAt s t p i := by
  revert hp
  refine (hs.keeps (I := fun s' => (lts O).Reach s' ∧ p < accepted s' t ∧
    (PushedAt s' t p i → PushedAt s t p i)) ?_ ⟨h, hlt, id⟩).2.2
  intro s₁ a s₂ hi _ ha
  have hinv := inv_of_reach hi.1
  exact ⟨hi.1.next trivial ha, Nat.lt_of_lt_of_le hi.2.1 (accepted_step hinv ha),
    fun hp => hi.2.2 (pushedAt_of_step hinv ha hi.2.1 hp)⟩

/-- No closure of `t` is running: its OS thread is in none of them. -/
def Quiet (t : ThreadId) (s : State O) : Prop :=
  ∀ (i : MsgId) (m : Message O), s.msgs[i]? = some m → m.target = t → m.stage ≠ .running

/-- In a quiet thread, what was taken out has returned. -/
theorem Quiet.finished (hq : Quiet t s) (h : (lts O).Reach s) (hpush : PushedAt s t p i)
    (hempty : s.queues.queue t = []) : ∃ v, Finished s i v := by
  obtain ⟨m, hm, ht, hplace⟩ := (inv_of_reach h).placed hpush
  rcases hplace with ⟨-, hst⟩ | ⟨-, -, hne⟩
  · cases hstage : m.stage with
    | queued ctx =>
      rw [hstage] at hst
      cases hst
    | refused ctx =>
      rw [hstage] at hst
      cases hst
    | running => exact absurd hstage (hq i m hm ht)
    | finished v => exact ⟨v, m, hm, hstage⟩
  · exact absurd hempty hne

/-! ## Between the polls -/

theorem Quiet.others (hq : Quiet t s) (h : (lts O).Reach s) (ho : Others G t s s') :
    Quiet t s' := by
  refine (Lts.StepsBy.keeps ho (I := fun s' => (lts O).Reach s' ∧ Quiet t s') ?_ ⟨h, hq⟩).2
  intro s₁ a s₂ hi ha hs
  refine ⟨hi.1.next trivial hs, fun i m hm ht hrun => ?_⟩
  cases hold : s₁.msgs[i]? with
  | none =>
    have hnew := new_msg (inv_of_reach hi.1) hs hold hm
    rw [hrun] at hnew
    cases hnew
  | some m₁ =>
    obtain ⟨m₂, hm₂, hmove⟩ := step_moves (inv_of_reach hi.1) hs hold
    rw [hm] at hm₂
    cases hm₂
    obtain hst | ⟨hbegin, -⟩ | ⟨-, v, -, hst⟩ := hmove.stage
    · exact hi.2 i m₁ hold (hmove.target.symm.trans ht) (hst.symm.trans hrun)
    · rw [hmove.target.symm.trans ht] at hbegin
      exact ha.1 hbegin
    · cases hst.symm.trans hrun

/-- Other OS threads take no message of `t`. -/
theorem taken_others (h : (lts O).Reach s) (ho : Others G t s s') : taken s' t = taken s t := by
  refine (Lts.StepsBy.keeps ho (I := fun s' => (lts O).Reach s' ∧ taken s' t = taken s t) ?_
    ⟨h, rfl⟩).2
  intro s₁ a s₂ hi ha hs
  obtain ⟨l, hl, hnil⟩ := (step_logs (inv_of_reach hi.1) hs).popped
  refine ⟨hi.1.next trivial hs, ?_⟩
  rw [taken, hl, forKey_append, hnil t ha.1, List.append_nil]
  exact hi.2

/-! ## A poll -/

theorem ThreadPoll.quiet {work : Int32} (hp : ThreadPoll G t work s s') (h : (lts O).Reach s)
    (hq : Quiet t s) : Quiet t s' := by
  intro i m hm ht hrun
  obtain ⟨m₀, hm₀, hrun₀⟩ := hp.returned i m hm ht hrun
  have htarget : m.target = m₀.target := by
    have hkeep : (lts O).Reach s' ∧ ∃ m, s'.msgs[i]? = some m ∧ m.target = m₀.target := by
      refine hp.steps.keeps (I := fun s' => (lts O).Reach s' ∧
        ∃ m, s'.msgs[i]? = some m ∧ m.target = m₀.target) ?_ ⟨h, m₀, hm₀, rfl⟩
      intro s₁ a s₂ hi _ ha
      obtain ⟨hr, m₁, hm₁, ht₁⟩ := hi
      obtain ⟨m₂, hm₂, hmove⟩ := step_moves (inv_of_reach hr) ha hm₁
      exact ⟨hr.next trivial ha, m₂, hm₂, hmove.target.trans ht₁⟩
    obtain ⟨-, m₁, hm₁, ht₁⟩ := hkeep
    rw [hm] at hm₁
    cases hm₁
    exact ht₁
  exact hq i m₀ hm₀ (htarget.symm.trans ht) hrun₀

/-- **A poll takes a message out**, if there is one. -/
theorem ThreadPoll.taken_lt {work : Int32} (hp : ThreadPoll G t work s s') (h : (lts O).Reach s)
    (hq : s.queues.queue t ≠ []) : taken s t < taken s' t := by
  obtain ⟨e, rest, he⟩ := List.exists_cons_of_ne_nil hq
  have hpush := pushedAt_stepsBy h hp.steps (pushedAt_head he)
  obtain ⟨m, hm, -, hplace⟩ := (inv_of_reach (h.stepsBy hp.steps)).placed hpush
  obtain ⟨m', v, hm', hv⟩ := hp.first e rest he
  rw [hm] at hm'
  cases hm'
  -- the first message has returned, so it is not queued
  rcases hplace with ⟨hlt, -⟩ | ⟨-, ⟨ctx, hst⟩, -⟩
  · exact hlt
  · cases hst.symm.trans hv

/-- **A message that a poll of its thread has started** has returned. -/
theorem ThreadPoll.finished {work : Int32} (hp : ThreadPoll G t work s s') (h : (lts O).Reach s)
    (hpush : PushedAt s t p i) (hn : taken s t ≤ p) (hn' : p < taken s' t) :
    ∃ v, Finished s' i v := by
  obtain ⟨m', hm', ht, hplace⟩ := (inv_of_reach (h.stepsBy hp.steps)).placed
    (pushedAt_stepsBy h hp.steps hpush)
  obtain ⟨m, hm, -, hold⟩ := (inv_of_reach h).placed hpush
  rcases hplace with ⟨-, hst⟩ | ⟨hle, -⟩
  · cases hstage : m'.stage with
    | queued ctx =>
      rw [hstage] at hst
      cases hst
    | refused ctx =>
      rw [hstage] at hst
      cases hst
    | finished v => exact ⟨v, m', hm', hstage⟩
    | running =>
      obtain ⟨m₁, hm₁, hrun⟩ := hp.returned i m' hm' ht hstage
      rw [hm] at hm₁
      cases hm₁
      rcases hold with ⟨hlt, -⟩ | ⟨-, ⟨ctx, hq⟩, -⟩
      · omega
      · cases hq.symm.trans hrun
  · omega

end SpdkIo.Msg
