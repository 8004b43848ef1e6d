import SpdkIo.Event.BlockOn
import SpdkIo.Event.Proof.Inv

/-!
# Blocking on an event

`blockOn_event`: `block_on` of `call_on_async` returns the value of its own closure, at the first
poll after the closure returned; and if the closure is for the lcore that `block_on` runs on, it
never returns, as the reactor that is to process the event waits for it (`Waits.queued`).
-/

namespace SpdkIo.Event

variable {T : Type} {O : Oneshot (Result T)} {s s' : State O} {a : Action T} {i : ClosureId}
  {c c' : Closure O} {lcore : Lcore}

/-! ## What a step does to one closure -/

/-- The reactor takes out the event of the closure `i`. -/
def Takes (s : State O) (i : ClosureId) (a : Action T) : Prop :=
  ∃ k e events, a = .process k ∧ s.events.pop k = some (e, events) ∧ e.closure = i

/-- What the step `a` makes of the closure `i`. -/
structure Moves (s : State O) (a : Action T) (i : ClosureId) (c c' : Closure O) : Prop where
  lcore : c'.lcore = c.lcore
  rx : a.leaves i → c'.rx = c.rx
  stage : c'.stage = c.stage ∨ c.stage.owned = true ∨ Takes s i a ∨
    c.stage = .running ∧ ∃ v, c'.stage = .finished v

theorem Moves.refl (s : State O) (a : Action T) (i : ClosureId) (c : Closure O) :
    Moves s a i c c := ⟨rfl, fun _ => rfl, .inl rfl⟩

/-- Another closure is replaced, or this one by what the step makes of it. -/
theorem moves_set {j : ClosureId} {d d' : Closure O} (hd : s.closures[j]? = some d)
    (hmove : Moves s a j d d') (hc : s.closures[i]? = some c) :
    ∃ c', (s.closures.set j d')[i]? = some c' ∧ Moves s a i c c' := by
  by_cases hij : j = i
  · subst hij
    obtain rfl := Option.some.inj (hd.symm.trans hc)
    exact ⟨d', Table.set_self hc, hmove⟩
  · exact ⟨c, Table.set_of_ne hij hc, .refl s a i c⟩

theorem moves_append {l : List (Closure O)} (h : ∃ d, l = s.closures ++ [d])
    (hc : s.closures[i]? = some c) : ∃ c', l[i]? = some c' ∧ Moves s a i c c' := by
  obtain ⟨d, rfl⟩ := h
  exact ⟨c, Table.append_of hc, .refl s a i c⟩

/-- `call_on_async` adds one closure. -/
theorem callOnAsync_closures (h : Inv s) {ctx : Addr} {null : Bool}
    (hs : s.callOnAsync lcore ctx null = some s') : ∃ d, s'.closures = s.closures ++ [d] := by
  obtain ⟨⟨r, t⟩, hcall, rfl⟩ := Option.map_eq_some_iff.1 hs
  obtain ⟨-, d, hcl, -⟩ := h.callOnWith .inCall hcall
  have hset : ∀ rx, ∃ d', (t.setRx s.closures.length rx).closures = s.closures ++ [d'] := by
    intro rx
    refine ⟨{ d with rx }, ?_⟩
    unfold State.setRx
    rw [hcl, List.getElem?_concat_length]
    show t.closures.set s.closures.length _ = _
    rw [hcl]
    simp
  cases r with
  | error e => exact hset .dropped
  | ok _ => exact hset .held

theorem step_moves (h : Inv s) (hs : s.step a = some s') (hc : s.closures[i]? = some c) :
    ∃ c', s'.closures[i]? = some c' ∧ Moves s a i c c' := by
  cases a with
  | new lcore ctx null =>
    obtain ⟨⟨r, t⟩, hnew, rfl⟩ := Option.map_eq_some_iff.1 hs
    obtain ⟨-, d, hcl, -⟩ := h.newEvent .absent hnew
    exact moves_append ⟨d, hcl⟩ hc
  | callOn lcore ctx null =>
    obtain ⟨⟨r, t⟩, hcall, rfl⟩ := Option.map_eq_some_iff.1 hs
    obtain ⟨-, d, hcl, -⟩ := h.callOnWith .absent hcall
    exact moves_append ⟨d, hcl⟩ hc
  | callOnAsync lcore ctx null => exact moves_append (callOnAsync_closures h hs) hc
  | call j =>
    obtain ⟨d, event, hd, hst, hcl⟩ := call_closures hs
    rw [hcl]
    exact moves_set hd ⟨rfl, fun _ => rfl, .inr (.inl (by rw [hst]; rfl))⟩ hc
  | dropEvent j =>
    obtain ⟨d, event, hd, hst, hbox, rfl⟩ := h.dropEvent_eq hs
    obtain ⟨chan, heq⟩ := h.dropBox_eq .handle hd hbox
    rw [heq]
    exact moves_set hd ⟨rfl, fun _ => rfl, .inr (.inl (by rw [hst]; rfl))⟩ hc
  | process k =>
    obtain ⟨e, events, d, hpop, hd, -, rfl⟩ := h.process_eq hs
    exact moves_set hd ⟨rfl, fun _ => rfl, .inr (.inr (.inl ⟨k, e, events, rfl, hpop, rfl⟩))⟩ hc
  | finish j value =>
    obtain ⟨d, hd, hs⟩ := Option.bind_eq_some_iff.1 hs
    split at hs
    · rename_i hst
      have hstage : d.stage = .running ∧ ∃ v, Stage.finished value = Stage.finished v :=
        ⟨hst, value, rfl⟩
      split at hs
      · obtain rfl := Option.some.inj hs
        exact moves_set hd ⟨rfl, fun _ => rfl, .inr (.inr (.inr hstage))⟩ hc
      · obtain rfl := Option.some.inj hs
        exact moves_set hd ⟨rfl, fun _ => rfl, .inr (.inr (.inr hstage))⟩ hc
    · cases hs
  | poll j =>
    obtain ⟨d, hd, hs⟩ := Option.bind_eq_some_iff.1 hs
    split at hs
    · split at hs
      · obtain rfl := Option.some.inj hs
        exact moves_set hd ⟨rfl, fun ha => absurd rfl ha, .inl rfl⟩ hc
      · obtain rfl := Option.some.inj hs
        exact moves_set hd ⟨rfl, fun _ => rfl, .inl rfl⟩ hc
    · cases hs
  | dropRx j =>
    obtain ⟨d, hd, hs⟩ := Option.bind_eq_some_iff.1 hs
    split at hs
    · obtain rfl := Option.some.inj hs
      exact moves_set hd ⟨rfl, fun ha => absurd rfl ha, .inl rfl⟩ hc
    · cases hs

/-! ## A reactor that waits -/

/-- The receiver of `i` is awaited on `lcore`. -/
structure Waits (i : ClosureId) (lcore target : Lcore) (queued : Bool) (s : State O) : Prop where
  reach : (lts O).Reach s
  held : ∃ c, s.closures[i]? = some c ∧ c.rx = .held ∧ c.lcore = target ∧
    (queued = true → ∃ ctx, c.stage = .dispatched ctx)

variable {target : Lcore} {queued : Bool}

/-- A busy reactor takes out no event of its own. -/
theorem not_takes (h : Inv s) (hbusy : Busy lcore s a) (hc : s.closures[i]? = some c)
    (hl : c.lcore = lcore) : ¬ Takes s i a := by
  rintro ⟨k, e, events, rfl, hpop, rfl⟩
  obtain ⟨hperm, -, -⟩ := Bag.pop_eq_some hpop
  obtain ⟨d, hd, hdl⟩ := h.lcore e
    (s.events.mem_pushed.2 (.inr (hperm.mem_iff.1 List.mem_cons_self)))
  obtain rfl := Option.some.inj (hd.symm.trans hc)
  exact hbusy e events hpop (hdl.symm.trans hl)

theorem Waits.step (h : Waits i lcore target queued s) (hq : queued = true → target = lcore)
    (hbusy : Busy lcore s a) (ha : a.leaves i) (hs : s.step a = some s') :
    Waits i lcore target queued s' := by
  obtain ⟨c, hc, hrx, hl, hst⟩ := h.held
  have hinv := inv_of_reach h.reach
  obtain ⟨c', hc', hmove⟩ := step_moves hinv hs hc
  refine ⟨h.reach.next trivial hs, c', hc', (hmove.rx ha).trans hrx, hmove.lcore.trans hl,
    fun hqueued => ?_⟩
  obtain ⟨ctx, hctx⟩ := hst hqueued
  obtain hsame | howned | htakes | ⟨hrun, -⟩ := hmove.stage
  · exact ⟨ctx, hsame.trans hctx⟩
  · rw [hctx] at howned
    cases howned
  · exact absurd htakes (not_takes hinv hbusy hc (hl.trans (hq hqueued)))
  · cases hctx.symm.trans hrun

theorem Waits.meanwhile (h : Waits i lcore target queued s) (hq : queued = true → target = lcore)
    (hs : Meanwhile i lcore s s') : Waits i lcore target queued s' :=
  Lts.StepsBy.keeps hs (fun hi ha hstep => hi.step hq ha.1 ha.2 hstep) h

/-- The closure of `i` has returned `v`. -/
def Finished (s : State O) (i : ClosureId) (v : T) : Prop :=
  ∃ c, s.closures[i]? = some c ∧ c.stage = .finished v

theorem finished_step (h : Inv s) (hs : s.step a = some s') {v : T} (hf : Finished s i v) :
    Finished s' i v := by
  obtain ⟨c, hc, hst⟩ := hf
  obtain ⟨c', hc', hmove⟩ := step_moves h hs hc
  refine ⟨c', hc', ?_⟩
  obtain hsame | howned | ⟨k, e, events, -, hpop, rfl⟩ | ⟨hrun, -⟩ := hmove.stage
  · exact hsame.trans hst
  · rw [hst] at howned
    cases howned
  · -- the event of a closure that returned is not queued
    obtain ⟨hperm, -, -⟩ := Bag.pop_eq_some hpop
    obtain ⟨d, hd, hdst⟩ := h.pending e (hperm.mem_iff.1 List.mem_cons_self)
    obtain rfl := Option.some.inj (hd.symm.trans hc)
    cases hdst.symm.trans hst
  · cases hst.symm.trans hrun

/-- A poll of the receiver that is awaited: it is ready exactly if the closure has returned. -/
theorem pollRx_cases (h : Waits i lcore target queued s) :
    (∃ v s', s.pollRx i = some (.ready (.ok v), s') ∧ Finished s i v ∧ Finished s' i v ∧
      (lts O).Reach s') ∨
    ∃ s', s.pollRx i = some (.pending, s') ∧ (∀ v, ¬ Finished s i v) ∧
      Waits i lcore target queued s' := by
  obtain ⟨c, hc, hrx, hl, hst⟩ := h.held
  have hinv := inv_of_reach h.reach
  rcases hp : CompletionReceiver.poll O c.chan with ⟨r, chan⟩
  obtain ⟨rfl, hn, -⟩ | ⟨v, rfl, hv⟩ := poll_held (hinv.closures hc) hrx hp
  · have hs : s.poll i = some (s.setClosure i { c with chan }) := by simp [State.poll, hc, hrx, hp]
    have hset : (s.setClosure i { c with chan }).closures[i]? = some { c with chan } :=
      Table.set_self hc
    refine .inr ⟨s.setClosure i { c with chan }, ?_, ?_, h.reach.next (a := .poll i) trivial hs,
      _, hset, hrx, hl, hst⟩
    · simp only [State.pollRx, hs, Option.bind_some, hset, Option.map_some]
      rw [hrx]
    · rintro v ⟨d, hd, hdv⟩
      obtain rfl := Option.some.inj (hd.symm.trans hc)
      exact hn v hdv
  · let s' : State O := { s.setClosure i { c with rx := .resolved (.ok v), chan } with
      resolved := s.resolved ++ [(i, .ok v)] }
    have hs : s.poll i = some s' := by simp [State.poll, hc, hrx, hp, s']
    have hset : s'.closures[i]? = some { c with rx := .resolved (.ok v), chan } :=
      Table.set_self hc
    refine .inl ⟨v, s', ?_, ⟨c, hc, hv⟩, ⟨_, hset, hv⟩, h.reach.next (a := .poll i) trivial hs⟩
    simp [State.pollRx, hs, hset]

/-! ## `block_on` -/

/-- **`block_on` of a closure on an event** returns its value and nothing else, at the first poll
after the closure returned. On the reactor of the closure's own lcore it never returns. -/
theorem blockOn_event {s₀ : State O} {c₀ : Closure O} {τ : Type} {t : τ} {n : Nat}
    {pc : BlockOn.Pc (Result T)} (h : (lts O).Reach s₀) (hc : s₀.closures[i]? = some c₀)
    (hrx : c₀.rx = .held) (hr : BlockOn.Run (awaiting τ i lcore) (some t) s₀ n pc s) :
    (∀ r, pc = .returned r → ∃ v, r = .ok v ∧ Finished s i v) ∧
    (pc = .future → ∃ r s', s.pollRx i = some (r, s') ∧
      (r = .pending ∧ (∀ v, ¬ Finished s i v) ∨ ∃ v, r = .ready (.ok v) ∧ Finished s i v)) ∧
    (c₀.lcore = lcore → (∃ ctx, c₀.stage = .dispatched ctx) → ∀ r, pc ≠ .returned r) := by
  have hrun : ∀ queued : Bool, (queued = true → c₀.lcore = lcore) →
      (queued = true → ∃ ctx, c₀.stage = .dispatched ctx) →
      pc.Holds (Waits i lcore c₀.lcore queued) (Waits i lcore c₀.lcore queued)
        (fun r s => (lts O).Reach s ∧ queued = false ∧ ∃ v, r = .ok v ∧ Finished s i v) s := by
    intro queued hq hst
    refine BlockOn.Run.rule (fun _ => Waits i lcore c₀.lcore queued)
      (fun _ => Waits i lcore c₀.lcore queued)
      (fun _ r s => (lts O).Reach s ∧ queued = false ∧ ∃ v, r = .ok v ∧ Finished s i v)
      ⟨h, c₀, hc, hrx, rfl, hst⟩ (fun hi ho => hi.meanwhile hq ho) (fun hi ho => hi.meanwhile hq ho)
      (fun hd ho => ?_) (fun hi hp => ?_) (fun hi hp => ?_) (fun hi ho => hi.meanwhile hq ho) hr
    · obtain ⟨hreach, hqueued, v, rfl, hf⟩ := hd
      have hkeep := Lts.StepsBy.keeps ho (I := fun s => (lts O).Reach s ∧ Finished s i v)
        (fun hi _ hs => ⟨hi.1.next trivial hs, finished_step (inv_of_reach hi.1) hs hi.2⟩)
        ⟨hreach, hf⟩
      exact ⟨hkeep.1, hqueued, v, rfl, hkeep.2⟩
    · rcases pollRx_cases hi with ⟨v, s₁, hs₁, -⟩ | ⟨s₁, hs₁, -, hw⟩
      · cases hs₁.symm.trans hp
      · cases hs₁.symm.trans hp
        exact hw
    · rcases pollRx_cases hi with ⟨v, s₁, hs₁, hf, hf₁, hreach⟩ | ⟨s₁, hs₁, -, hw⟩
      · cases hs₁.symm.trans hp
        refine ⟨hreach, ?_, v, rfl, hf₁⟩
        rw [← Bool.not_eq_true]
        intro hqueued
        obtain ⟨c, hc, -, -, hdisp⟩ := hi.held
        obtain ⟨ctx, hctx⟩ := hdisp hqueued
        obtain ⟨d, hd, hdv⟩ := hf
        obtain rfl := Option.some.inj (hd.symm.trans hc)
        cases hctx.symm.trans hdv
      · cases hs₁.symm.trans hp
  refine ⟨?_, ?_, ?_⟩
  · rintro r rfl
    exact (hrun false nofun nofun).2.2
  · rintro rfl
    rcases pollRx_cases (hrun false nofun nofun) with ⟨v, s', hs', hf, -⟩ | ⟨s', hs', hn, -⟩
    · exact ⟨_, s', hs', .inr ⟨v, rfl, hf⟩⟩
    · exact ⟨_, s', hs', .inl ⟨rfl, hn⟩⟩
  · rintro hl hst r rfl
    cases (hrun true (fun _ => hl) (fun _ => hst)).2.1

/-- On the reactor of lcore 0, a closure for lcore 0 is awaited: whatever the first poll returns,
`block_on` does not return it. -/
theorem blockOn_event_own : ∃ s s' : State (.cell (Result Nat)), s.pollRx 0 = some (.pending, s') ∧
    BlockOn.Run (awaiting Unit 0 0) (some ()) s 0 .thread s' := by
  obtain ⟨s, hs, hp⟩ := Lts.exists_of_run (M := lts (.cell (Result Nat)))
    [.callOnAsync 0 7 false, .callOn 1 8 false]
    (fun s => (s.poll 0).isSome && s.closures[0]?.any fun c =>
      c.lcore == 0 && c.stage.called && c.stage.box == some 7) (by decide)
  obtain ⟨hpoll, hp⟩ := Bool.and_eq_true_iff.1 hp
  obtain ⟨c, hc, hp⟩ := (Option.any_eq_true _ _).1 hp
  simp only [Bool.and_eq_true, beq_iff_eq] at hp
  obtain ⟨⟨hl, hcalled⟩, hbox⟩ := hp
  have hrx : c.rx = .held := by
    cases hrx : c.rx with
    | held => rfl
    | absent | inCall | resolved _ | dropped => simp [State.poll, hc, hrx] at hpoll
  have hst : ∃ ctx, c.stage = .dispatched ctx := by
    cases hst : c.stage with
    | dispatched ctx => exact ⟨ctx, rfl⟩
    | held _ | dropped _ => simp [hst, Stage.called] at hcalled
    | running | finished _ => simp [hst, Stage.box] at hbox
  have hrun := @blockOn_event _ _ s 0 0 s c Unit () 0 .future hs hc hrx (.start rfl)
  obtain ⟨r, s', hs', ⟨rfl, -⟩ | ⟨v, rfl, -⟩⟩ := hrun.2.1 rfl
  · exact ⟨s, s', hs', .pending (.start rfl) hs'⟩
  · -- a poll that is ready would make `block_on` return
    have hret := @blockOn_event _ _ s' 0 0 s c Unit () 0 (.returned (.ok v)) hs hc hrx
      (.ready (.start rfl) hs')
    exact absurd rfl (hret.2.2 hl hst (.ok v))

end SpdkIo.Event
