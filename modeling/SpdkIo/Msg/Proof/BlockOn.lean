import SpdkIo.Msg.BlockOn
import SpdkIo.Msg.Proof.Delivery
import SpdkIo.Msg.Proof.ThreadPoll

/-!
# Blocking on a call returns

`blockOn_call`: `block_on` of a call to the current thread returns the value of the closure, after
at most one poll of the thread for each message that was queued before the call, and one for the
call. Each poll takes a message out (`ThreadPoll.taken_lt`), and the place of the call in the log of
the pushed messages stays (`Awaits`). `blockOn_refused`: if SPDK refused the message, `block_on`
polls for ever.
-/

namespace SpdkIo.Msg

variable {T : Type} {O : Oneshot (Result T)} {s s' : State O} {a : Action T} {i : MsgId}
  {t : ThreadId} {n k p : Nat}

/-- The receiver of `i` is there, and nobody has polled it to its end. -/
def Held (s : State O) (i : MsgId) : Prop := ∃ m, s.msgs[i]? = some m ∧ m.rx = .held

theorem held_step (h : Inv s) (hs : s.step a = some s') (ha : a.leaves i) (hh : Held s i) :
    Held s' i := by
  obtain ⟨m, hm, hrx⟩ := hh
  obtain ⟨m', hm', hmove⟩ := step_moves h hs hm
  refine ⟨m', hm', ?_⟩
  obtain hr | rfl | rfl := hmove.rx
  · exact hr.trans hrx
  · exact absurd rfl ha
  · exact absurd rfl ha

/-! ## A poll of the receiver -/

/-- **A poll of a receiver that is held** gives the value of its closure, if that has returned, and
else is pending and leaves everything but the channel. -/
theorem pollRx_cases (h : Inv s) (hh : Held s i) :
    (∃ v s', Finished s i v ∧ s.pollRx i = some (.ready (.ok v), s') ∧
      s.step (.poll i) = some s') ∨
    ((∀ v, ¬ Finished s i v) ∧ ∃ s', s.pollRx i = some (.pending, s') ∧
      s.step (.poll i) = some s' ∧ Held s' i) := by
  obtain ⟨m, hm, hrx⟩ := hh
  rcases hp : CompletionReceiver.poll O m.chan with ⟨r, chan⟩
  obtain ⟨rfl, hn, -⟩ | ⟨v, rfl, hv⟩ := poll_held (h.msgs hm) hrx hp
  · refine .inr ⟨fun v hf => ?_, s.setMsg i { m with chan }, ?_, ?_, ?_⟩
    · obtain ⟨m', hm', hv⟩ := hf
      rw [hm] at hm'
      cases hm'
      exact hn v hv
    · simp [State.pollRx, State.poll, hm, hrx, hp, State.setMsg, Table.set_self hm]
    · show s.poll i = _
      simp [State.poll, hm, hrx, hp]
    · exact ⟨_, Table.set_self hm, hrx⟩
  · refine .inl ⟨v, { s.setMsg i { m with rx := .resolved (.ok v), chan } with
      resolved := s.resolved ++ [(i, .ok v)] }, ⟨m, hm, hv⟩, ?_, ?_⟩
    · simp [State.pollRx, State.poll, hm, hrx, hp, State.setMsg, Table.set_self hm]
    · show s.poll i = _
      simp [State.poll, hm, hrx, hp]

/-! ## The loop -/

/-- What the steps keep of a message that was pushed, while its receiver is left alone. -/
structure Awaits (t : ThreadId) (p : Nat) (i : MsgId) (s : State O) : Prop where
  reach : (lts O).Reach s
  pushed : PushedAt s t p i
  held : Held s i

theorem Awaits.step (h : Awaits t p i s) (ha : a.leaves i) (hs : s.step a = some s') :
    Awaits t p i s' where
  reach := h.reach.next trivial hs
  pushed := pushedAt_step (inv_of_reach h.reach) hs h.pushed
  held := held_step (inv_of_reach h.reach) hs ha h.held

theorem Awaits.threadPoll {work : Int32} (h : Awaits t p i s)
    (hp : ThreadPoll (Action.leaves i) t work s s') : Awaits t p i s' :=
  hp.steps.keeps (fun hi ha hs => hi.step ha hs) h

theorem Awaits.others (h : Awaits t p i s) (ho : Others (Action.leaves i) t s s') :
    Awaits t p i s' :=
  Lts.StepsBy.keeps ho (fun hi ha hs => hi.step ha.2 hs) h

/-- The message is still queued, and each of the `n` polls has taken a message out. -/
structure Queued (t : ThreadId) (k p : Nat) (i : MsgId) (n : Nat) (s : State O) : Prop
    extends Awaits t p i s where
  progress : k + n ≤ taken s t
  waits : taken s t ≤ p

/-- The closure has returned, in time. -/
structure Done (k p : Nat) (i : MsgId) (n : Nat) (v : T) (s : State O) : Prop where
  reach : (lts O).Reach s
  finished : Finished s i v
  bound : k + n ≤ p + 1

theorem Queued.not_finished (h : Queued t k p i n s) (v : T) : ¬ Finished s i v := by
  intro hf
  obtain ⟨m, hm, hv⟩ := hf
  obtain ⟨m', hm', -, hplace⟩ := (inv_of_reach h.reach).placed h.pushed
  rw [hm] at hm'
  cases hm'
  have := h.waits
  rcases hplace with ⟨hlt, -⟩ | ⟨-, ⟨ctx, hq⟩, -⟩
  · omega
  · cases hq.symm.trans hv

theorem Queued.others (h : Queued t k p i n s) (ho : Others (Action.leaves i) t s s') :
    Queued t k p i n s' where
  toAwaits := h.toAwaits.others ho
  progress := by rw [taken_others h.reach ho]; exact h.progress
  waits := by rw [taken_others h.reach ho]; exact h.waits

theorem Done.others {v : T} (h : Done k p i n v s) (ho : Others (Action.leaves i) t s s') :
    Done k p i n v s' where
  reach := Lts.StepsBy.keeps ho (fun hr _ hs => hr.next trivial hs) h.reach
  finished := finished_stepsBy h.reach ho h.finished
  bound := h.bound

/-- A poll of the thread: the message moves up, or has returned. -/
theorem Queued.threadPoll {work : Int32} (h : Queued t k p i n s)
    (hp : ThreadPoll (Action.leaves i) t work s s') :
    Queued t k p i (n + 1) s' ∨ (Held s' i ∧ ∃ v, Done k p i (n + 1) v s') := by
  have hprogress := h.progress
  have hwaits := h.waits
  obtain ⟨m, -, -, hplace⟩ := (inv_of_reach h.reach).placed h.pushed
  have hq : s.queues.queue t ≠ [] := by
    rcases hplace with ⟨hlt, -⟩ | ⟨-, -, hq⟩
    · omega
    · exact hq
  have hlt := hp.taken_lt h.reach hq
  rcases Nat.lt_or_ge p (taken s' t) with hn | hn
  · obtain ⟨v, hv⟩ := hp.finished h.reach h.pushed hwaits hn
    exact .inr ⟨(h.toAwaits.threadPoll hp).held, v, (h.toAwaits.threadPoll hp).reach, hv, by omega⟩
  · exact .inl ⟨h.toAwaits.threadPoll hp, by omega, hn⟩

/-- What holds before a poll of the receiver. -/
def AtFuture (t : ThreadId) (k p : Nat) (i : MsgId) (n : Nat) (s : State O) : Prop :=
  Queued t k p i n s ∨ (Held s i ∧ ∃ v, Done k p i n v s)

theorem AtFuture.others (h : AtFuture t k p i n s) (ho : Others (Action.leaves i) t s s') :
    AtFuture t k p i n s' := by
  rcases h with h | ⟨hh, v, h⟩
  · exact .inl (h.others ho)
  · refine .inr ⟨?_, v, h.others ho⟩
    exact (Lts.StepsBy.keeps ho (I := fun s => (lts O).Reach s ∧ Held s i)
      (fun hi ha hs => ⟨hi.1.next trivial hs, held_step (inv_of_reach hi.1) hs ha.2 hi.2⟩)
      ⟨h.reach, hh⟩).2

theorem AtFuture.pending (h : AtFuture t k p i n s) (hp : s.pollRx i = some (.pending, s')) :
    Queued t k p i n s' := by
  rcases h with h | ⟨hh, v, h⟩
  · rcases pollRx_cases (inv_of_reach h.reach) h.held with ⟨v, s₁, hf, -⟩ | ⟨-, s₁, hr, hs, hh⟩
    · exact absurd hf (h.not_finished v)
    · rw [hp] at hr
      cases hr
      have htaken : taken s' t = taken s t := by
        obtain ⟨l, hl, hnil⟩ := (step_logs (inv_of_reach h.reach) hs).popped
        rw [taken, hl, forKey_append, hnil t (fun hc => by cases hc), List.append_nil, taken]
      exact
        { reach := h.reach.next (a := .poll i) trivial hs
          pushed := pushedAt_step (inv_of_reach h.reach) hs h.pushed
          held := hh
          progress := by rw [htaken]; exact h.progress
          waits := by rw [htaken]; exact h.waits }
  · rcases pollRx_cases (inv_of_reach h.reach) hh with ⟨w, s₁, -, hr, -⟩ | ⟨hn, -⟩
    · rw [hp] at hr
      cases hr
    · exact absurd h.finished (hn v)

theorem AtFuture.ready (h : AtFuture t k p i n s) {r : Result T}
    (hp : s.pollRx i = some (.ready r, s')) : ∃ v, r = .ok v ∧ Done k p i n v s' := by
  rcases h with h | ⟨hh, v, h⟩
  · rcases pollRx_cases (inv_of_reach h.reach) h.held with ⟨v, s₁, hf, -⟩ | ⟨-, s₁, hr, -⟩
    · exact absurd hf (h.not_finished v)
    · rw [hp] at hr
      cases hr
  · rcases pollRx_cases (inv_of_reach h.reach) hh with ⟨w, s₁, hf, hr, hs⟩ | ⟨hn, -⟩
    · rw [hp] at hr
      cases hr
      exact ⟨w, rfl, h.reach.next (a := .poll i) trivial hs,
        finished_step (inv_of_reach h.reach) hs hf, h.bound⟩
    · exact absurd h.finished (hn v)

/-- A poll of the receiver can be made, and returns the value when the time has come. -/
theorem AtFuture.poll (h : AtFuture t k p i n s) :
    ∃ r s', s.pollRx i = some (r, s') ∧ (k + n = p + 1 → ∃ v, r = .ready (.ok v)) := by
  rcases h with h | ⟨hh, v, h⟩
  · have hprogress := h.progress
    have hwaits := h.waits
    rcases pollRx_cases (inv_of_reach h.reach) h.held with ⟨v, s₁, -, hr, -⟩ | ⟨-, s₁, hr, -⟩
    · exact ⟨_, s₁, hr, fun _ => ⟨v, rfl⟩⟩
    · exact ⟨_, s₁, hr, fun hk => by omega⟩
  · rcases pollRx_cases (inv_of_reach h.reach) hh with ⟨w, s₁, -, hr, -⟩ | ⟨hn, -⟩
    · exact ⟨_, s₁, hr, fun _ => ⟨w, rfl⟩⟩
    · exact absurd h.finished (hn v)

/-! ## The results -/

/-- An accepted call waits behind the messages that were queued before it. -/
theorem queued_of_call {ctx : Addr} (h : (lts O).Reach s) (hc : s.step (.call t ctx 0) = some s') :
    Queued t (taken s t) (taken s t + (s.queues.queue t).length) s.msgs.length 0 s' := by
  have hs' : (lts O).Reach s' := h.next (a := .call t ctx 0) trivial hc
  replace hc : s.sendMsg t .held ctx 0 = some s' := hc
  unfold State.sendMsg at hc
  obtain ⟨heap, -, rfl⟩ := Option.map_eq_some_iff.1 hc
  simp only [if_true] at hs' ⊢
  have hlen : (forKey t s.queues.pushed).length = taken s t + (s.queues.queue t).length := by
    rw [← s.queues.fifo, List.length_append, taken]
  exact
    { reach := hs'
      pushed := by
        refine ⟨⟨ctx, s.msgs.length⟩, ?_, rfl⟩
        show (forKey t (s.queues.pushed ++ [(t, ⟨ctx, s.msgs.length⟩)]))[_]? = _
        rw [forKey_append, forKey_singleton_self, ← hlen, List.getElem?_concat_length]
      held := ⟨_, List.getElem?_concat_length, rfl⟩
      progress := Nat.le_refl _
      waits := Nat.le_add_right _ _ }

/-- **`block_on` of a call to the current thread** polls the thread at most once for each message
that was queued before, and once for the call; then it returns the value of the closure. -/
theorem blockOn_call {s₀ s₁ s : State O} {t : ThreadId} {ctx : Addr} {n : Nat}
    {pc : BlockOn.Pc (Result T)} (h : (lts O).Reach s₀)
    (hc : s₀.step (.call t ctx 0) = some s₁)
    (hr : BlockOn.Run (awaiting s₀.msgs.length t) (some t) s₁ n pc s) :
    n ≤ (s₀.queues.queue t).length + 1 ∧
      (pc = .future → ∃ r s', s.pollRx s₀.msgs.length = some (r, s') ∧
        (n = (s₀.queues.queue t).length + 1 → ∃ v, r = .ready (.ok v))) ∧
      ∀ r, pc = .returned r → ∃ v, r = .ok v ∧ Finished s s₀.msgs.length v := by
  let k := taken s₀ t
  let p := k + (s₀.queues.queue t).length
  have hrun := BlockOn.Run.rule (AtFuture t k p s₀.msgs.length) (Queued t k p s₀.msgs.length)
    (fun n r s => ∃ v, r = .ok v ∧ Done k p s₀.msgs.length n v s)
    (.inl (queued_of_call h hc)) (fun hi ho => hi.others ho) (fun hi ho => hi.others ho)
    (fun hi ho => hi.imp fun _ hv => ⟨hv.1, hv.2.others ho⟩) (fun hi hp => hi.pending hp)
    (fun hi hp => hi.ready hp)
    (fun hi hp => Exists.elim hp fun _ hp => hi.threadPoll hp) hr
  cases pc with
  | panicked => exact hrun.elim
  | future =>
    obtain ⟨r, s', hp, hlast⟩ := AtFuture.poll hrun
    refine ⟨?_, fun _ => ⟨r, s', hp, fun hn => hlast (by omega)⟩, fun _ hr' => by cases hr'⟩
    rcases hrun with hq | ⟨-, v, hd⟩
    · have := hq.progress
      have := hq.waits
      omega
    · have := hd.bound
      omega
  | thread =>
    have := hrun.progress
    have := hrun.waits
    refine ⟨by omega, fun hc => ?_, fun _ hc => ?_⟩
    · cases hc
    · cases hc
  | returned r =>
    obtain ⟨v, rfl, hd⟩ := hrun
    have := hd.bound
    refine ⟨by omega, fun hc => ?_, fun r' hr' => ?_⟩
    · cases hc
    · cases hr'
      exact ⟨v, rfl, hd.finished⟩

/-- A call to a thread without messages, after one poll of the thread: the closure has run, and the
next poll of the receiver gives its value. -/
theorem blockOn_call_alone : ∃ (s : State (.cell (Result Nat))) (v : Nat) (s' : _),
    s.pollRx 0 = some (.ready (.ok v), s') := by
  let s₁ : State (.cell (Result Nat)) := ((lts _).init.step (.call 1 7 0)).get rfl
  let s₂ := ((s₁.pollRx 0).get rfl).2
  let s₃ := ((s₂.step (.begin 1)).get rfl)
  let s₄ := ((s₃.step (.finish 0 10)).get rfl)
  have hpoll : ThreadPoll (Action.leaves 0) 1 1 s₂ s₄ :=
    { steps := ((Lts.StepsBy.refl s₂).next (a := .begin 1) trivial rfl).next
        (a := .finish 0 10) trivial rfl
      first := by
        intro e rest hq
        cases hq
        exact ⟨_, 10, rfl, rfl⟩
      returned := by
        intro j m' hm' _ hrun
        cases j with
        | zero =>
          cases hm'
          cases hrun
        | succ j => cases hm'
      idle := nofun }
  have hr : BlockOn.Run (awaiting 0 1) (some 1) s₁ 1 .future s₄ :=
    .threadPoll (.pending (.start rfl) rfl) rfl ⟨_, hpoll⟩
  obtain ⟨-, hfuture, -⟩ := @blockOn_call _ _ (lts _).init s₁ s₄ 1 7 1 .future .init rfl hr
  obtain ⟨r, s', hp, hlast⟩ := hfuture rfl
  obtain ⟨v, rfl⟩ := hlast rfl
  exact ⟨s₄, v, s', hp⟩

/-- The message of `i` was refused. -/
def Refused (s : State O) (i : MsgId) : Prop :=
  ∃ m ctx, s.msgs[i]? = some m ∧ m.stage = .refused ctx

theorem refused_step (h : Inv s) (hs : s.step a = some s') (hr : Refused s i) : Refused s' i := by
  obtain ⟨m, ctx, hm, hst⟩ := hr
  obtain ⟨m', hm', hmove⟩ := step_moves h hs hm
  refine ⟨m', ctx, hm', ?_⟩
  obtain h | ⟨-, ⟨ctx', hq⟩, -⟩ | ⟨hrun, -⟩ := hmove.stage
  · exact h.trans hst
  · cases hq.symm.trans hst
  · cases hrun.symm.trans hst

/-- What stays true of a refused call. -/
structure Ignored (i : MsgId) (s : State O) : Prop where
  reach : (lts O).Reach s
  refused : Refused s i
  held : Held s i

theorem Ignored.step (h : Ignored i s) (ha : a.leaves i) (hs : s.step a = some s') :
    Ignored i s' where
  reach := h.reach.next trivial hs
  refused := refused_step (inv_of_reach h.reach) hs h.refused
  held := held_step (inv_of_reach h.reach) hs ha h.held

theorem Ignored.threadPoll {work : Int32} (h : Ignored i s)
    (hp : ThreadPoll (Action.leaves i) t work s s') : Ignored i s' :=
  hp.steps.keeps (fun hi ha hs => hi.step ha hs) h

/-- A poll of its receiver is pending. -/
theorem Ignored.pollRx (h : Ignored i s) : ∃ s', s.pollRx i = some (.pending, s') ∧
    Ignored i s' := by
  rcases pollRx_cases (inv_of_reach h.reach) h.held with ⟨v, s', hf, -⟩ | ⟨-, s', hr, hs, hh⟩
  · obtain ⟨m, ctx, hm, hst⟩ := h.refused
    obtain ⟨m', hm', hv⟩ := hf
    rw [hm] at hm'
    cases hm'
    cases hst.symm.trans hv
  · exact ⟨s', hr, h.reach.next (a := .poll i) trivial hs,
      refused_step (inv_of_reach h.reach) hs h.refused, hh⟩

theorem ignored_of_call {ctx : Addr} {rc : Int32} (h : (lts O).Reach s) (hrc : rc ≠ 0)
    (hc : s.step (.call t ctx rc) = some s') : Ignored s.msgs.length s' := by
  have hs' : (lts O).Reach s' := h.next (a := .call t ctx rc) trivial hc
  replace hc : s.sendMsg t .held ctx rc = some s' := hc
  unfold State.sendMsg at hc
  obtain ⟨heap, -, rfl⟩ := Option.map_eq_some_iff.1 hc
  simp only [if_neg hrc] at hs' ⊢
  exact ⟨hs', ⟨_, ctx, List.getElem?_concat_length, rfl⟩, _, List.getElem?_concat_length, rfl⟩

/-- **`block_on` of a call that SPDK refused** never returns, however often it polls. -/
theorem blockOn_refused {s₀ s₁ s : State O} {t u : ThreadId} {ctx : Addr} {rc : Int32} {n : Nat}
    {pc : BlockOn.Pc (Result T)} (h : (lts O).Reach s₀) (hrc : rc ≠ 0)
    (hc : s₀.step (.call t ctx rc) = some s₁)
    (hr : BlockOn.Run (awaiting s₀.msgs.length u) (some u) s₁ n pc s) :
    (∀ r, pc ≠ .returned r) ∧ ∃ s', s.pollRx s₀.msgs.length = some (.pending, s') := by
  have hothers : ∀ {s s' : State O}, Ignored s₀.msgs.length s →
      Others (Action.leaves s₀.msgs.length) u s s' → Ignored s₀.msgs.length s' := fun hi ho =>
    Lts.StepsBy.keeps ho (fun hi ha hs => hi.step ha.2 hs) hi
  have hpending : ∀ {r} {s s' : State O}, Ignored s₀.msgs.length s →
      s.pollRx s₀.msgs.length = some (r, s') → r = .pending ∧ Ignored s₀.msgs.length s' := by
    intro r s s' hi hp
    obtain ⟨s₂, hs₂, hi₂⟩ := hi.pollRx
    rw [hp] at hs₂
    cases hs₂
    exact ⟨rfl, hi₂⟩
  have hrun := BlockOn.Run.rule (fun _ => Ignored s₀.msgs.length) (fun _ => Ignored s₀.msgs.length)
    (fun _ _ _ => False) (ignored_of_call h hrc hc) hothers hothers (fun hi _ => hi)
    (fun hi hp => (hpending hi hp).2) (fun hi hp => by cases (hpending hi hp).1)
    (fun hi hp => Exists.elim hp fun _ hp => hi.threadPoll hp) hr
  cases pc with
  | panicked => exact hrun.elim
  | future =>
    obtain ⟨s', hs', -⟩ := Ignored.pollRx hrun
    exact ⟨fun _ => nofun, s', hs'⟩
  | thread =>
    obtain ⟨s', hs', -⟩ := Ignored.pollRx hrun
    exact ⟨fun _ => nofun, s', hs'⟩
  | returned r => exact hrun.elim

/-- A call that is refused for want of a message, after a poll of the thread. -/
theorem blockOn_refused_pending : ∃ (s : State (.cell (Result Nat))) (s' : _),
    s.pollRx 0 = some (.pending, s') := by
  let s₁ : State (.cell (Result Nat)) := ((lts _).init.step (.call 1 7 (-12))).get rfl
  let s₂ := ((s₁.pollRx 0).get rfl).2
  have hpoll : ThreadPoll (Action.leaves 0) 1 0 s₂ s₂ :=
    { steps := .refl s₂
      first := fun _ _ hq => by cases hq
      returned := fun _ m' hm' _ hrun => ⟨m', hm', hrun⟩
      idle := fun _ => rfl }
  have hr : BlockOn.Run (awaiting 0 1) (some 1) s₁ 1 .future s₂ :=
    .threadPoll (.pending (.start rfl) rfl) rfl ⟨_, hpoll⟩
  obtain ⟨-, s', hs'⟩ := @blockOn_refused _ _ (lts _).init s₁ s₂ 1 1 7 (-12) 1 .future .init
    (by decide) rfl hr
  exact ⟨s₂, s', hs'⟩

end SpdkIo.Msg
