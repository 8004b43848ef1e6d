import SpdkIo.Nvme.Proof.Inv

/-!
# What the connecting calls return

`OwnReturned`: a call whose probe attached a controller and ended with 0 returned that controller,
and no controller was returned by two calls. `ErrClean`: a call that returned an error had polled
its probe to the end, and the controller that the probe attached, if any, has an owner.

Each is kept by exactly the steps that meet a condition: `NotCleared` and `NothingLost`.
-/

namespace SpdkIo.Nvme

open State

variable {R : Type} {s s' : State R}

def OwnReturned (s : State R) : Prop :=
  (∀ r ∈ s.returned, r.last = some 0 → ∀ c, r.attached = some c → r.result = .ok c) ∧
    s.owned.Nodup

/-- The controllers that were returned are dropped by their owners, who detach them. -/
def ErrClean (s : State R) : Prop :=
  ∀ r ∈ s.returned, ∀ e, r.result = .error e →
    (r.started = true → ∃ rc, r.last = some rc ∧ rc ≠ -eagain) ∧
      ∀ c, r.attached = some c → c ∈ s.owned

/-- Where the polling of a call ends with 0, no other call began since its probe attached a
controller. -/
def NotCleared (s : State R) : Action R → Prop
  | .pollRet rc => rc = 0 → ∀ f ∈ s.stack.head?, f.attached.isSome = true → f.nested = false
  | _ => True

/-- A call that has a probe is made on an SPDK thread; if the probe attached a controller, the
polling ends with 0, and the slot is not empty then. -/
def NothingLost (s : State R) : Action R → Prop
  | .connectRet null thread => null = true ∨ thread = true
  | .pollRet rc => rc ≠ -eagain → ∀ f ∈ s.stack.head?, f.attached.isSome = true →
      rc = 0 ∧ s.slot.isSome = true
  | _ => True

theorem taken_eq_ok {slot : Option CtrlrId} {c : CtrlrId} :
    State.taken slot = .ok c ↔ slot = some c := by
  cases slot with
  | none => exact iff_of_false (by intro h; cases h) (by intro h; cases h)
  | some d => exact ⟨fun h => by cases h; rfl, fun h => by cases h; rfl⟩

theorem taken_eq_error {slot : Option CtrlrId} :
    (∃ e, State.taken slot = .error e) ↔ slot.isSome = false := by
  cases slot with
  | none => exact iff_of_true ⟨_, rfl⟩ rfl
  | some d => exact iff_of_false (by rintro ⟨_, h⟩; cases h) (by intro h; cases h)

/-! ## Its own controller -/

/-- Among the calls that have returned, one more. -/
theorem ownReturned_ret {f : Frame R} {rest : List (Frame R)} {started : Bool}
    {last : Option Int32} {result : Result CtrlrId} (h : OwnReturned s)
    (hn : (s.ret f rest started last result).owned.Nodup) :
    OwnReturned (s.ret f rest started last result) ↔
      (last = some 0 → ∀ c, f.attached = some c → result = .ok c) := by
  constructor
  · intro h'
    exact h'.1 ⟨f.call, started, last, f.attached, result⟩ List.mem_concat_self
  · intro hr
    refine ⟨fun r hmem => ?_, hn⟩
    rcases List.mem_append.1 hmem with hmem | hmem
    · exact h.1 r hmem
    · obtain rfl := List.mem_singleton.1 hmem
      exact hr

/-- The slot holds the innermost call's controller exactly if no other call began since. -/
theorem Inv.slot_iff (hi : Inv s) {f : Frame R} {rest : List (Frame R)}
    (hst : s.stack = f :: rest) :
    (∀ c, f.attached = some c → s.slot = some c) ↔
      (f.attached.isSome = true → f.nested = false) := by
  constructor
  · intro h hsome
    obtain ⟨c, hc⟩ := Option.isSome_iff_exists.1 hsome
    rw [← Bool.not_eq_true]
    intro hn
    exact hi.clobbered (mem_of_stack hst) hc hn (h c hc)
  · intro h c hc
    exact hi.top hst hc (h (by rw [hc]; rfl))

variable [Inhabited R]

theorem ownReturned_step (hi : Inv s) (h : OwnReturned s) {a : Action R}
    (hs : s.step a = some s') : OwnReturned s' ↔ NotCleared s a := by
  have hn := (hi.step hs).owned_nodup
  cases stepped hs with
  | connectAsync => exact iff_of_true h trivial
  | attachCb _ _ _ => exact iff_of_true h trivial
  | null _ _ => exact iff_of_true ((ownReturned_ret h hn).2 fun hl => by cases hl) trivial
  | noThread _ => exact iff_of_true ((ownReturned_ret h hn).2 fun hl => by cases hl) trivial
  | phase _ ha =>
    refine iff_of_true h ?_
    rcases ha with rfl | rfl | rfl
    · trivial
    · exact fun h0 => absurd h0 (by decide)
    · trivial
  | @done f rest hst =>
    rw [ownReturned_ret (s := { s with slot := none }) h hn]
    simp only [taken_eq_ok, NotCleared, hst, List.head?_cons, Option.mem_some_iff, forall_eq',
      forall_const]
    exact hi.slot_iff hst
  | failed _ h0 _ =>
    refine iff_of_true ((ownReturned_ret h hn).2 fun hl => ?_) fun hrc => absurd hrc h0
    exact absurd (Option.some.inj hl) h0

/-- **A call returns its own controller** throughout exactly the runs in which no call that ends
with 0 had its slot cleared by another call. In any run no controller is returned twice. -/
theorem ownReturned_iff (s : State R) :
    ((lts R).ReachBy NotCleared s ↔ (lts R).ReachIn OwnReturned s) ∧
      ((lts R).Reach s → s.owned.Nodup) := by
  have h0 : OwnReturned (lts R).init := ⟨fun r hr => (by cases hr), .nil⟩
  exact ⟨Lts.reachBy_iff_reachIn h0 fun hr hp hs => ownReturned_step (Inv.reach hr) hp hs,
    fun hr => (Inv.reach hr).owned_nodup⟩

/-- A nested call that ends before the outer probe attaches its controller. -/
example : ((lts Unit).runBy (fun _ _ => True) (lts Unit).init
    [.connectAsync .zeroed none, .connectRet false true, .pollRet (-eagain),
      .connectAsync .zeroed none, .attachCb 1, .connectRet false true, .pollRet 0,
      .threadPollRet, .attachCb 0, .pollRet 0]).map State.returned =
    some [⟨1, true, some 0, some 1, .ok 1⟩, ⟨0, true, some 0, some 0, .ok 0⟩] := by decide

/-- The probe attaches a controller and is still pending; then `thread.poll()` runs a call for
which there is no controller, and the first call ends without its own. -/
theorem not_ownReturned : ¬ ∀ s, (lts Unit).Reach s → OwnReturned s := by
  intro hall
  let d : SpdkNvmeCtrlrOpts Unit := .zeroed
  obtain ⟨s, hs, hp⟩ := Lts.exists_of_run (M := lts Unit)
    [.connectAsync d none, .connectRet false true, .attachCb 0, .pollRet (-eagain),
      .connectAsync d none, .connectRet true true, .threadPollRet, .pollRet 0]
    (fun s => decide (s.returned = [⟨1, false, none, none, .error .controllerNotFound⟩,
      ⟨0, true, some 0, some 0, .error .controllerNotFound⟩])) (by decide)
  have hret := of_decide_eq_true hp
  have hown := (hall s hs).1 ⟨0, true, some 0, some 0, .error .controllerNotFound⟩
    (by rw [hret]; exact List.mem_cons_of_mem _ List.mem_cons_self) rfl 0 rfl
  cases hown

/-! ## Errors -/

omit [Inhabited R] in
theorem errClean_ret {f : Frame R} {rest : List (Frame R)} {started : Bool}
    {last : Option Int32} {result : Result CtrlrId} (h : ErrClean s)
    (hf : ∀ c, f.attached = some c → c ∉ s.owned) :
    ErrClean (s.ret f rest started last result) ↔
      ((∃ e, result = .error e) →
        (started = true → ∃ rc, last = some rc ∧ rc ≠ -eagain) ∧ f.attached.isSome = false) := by
  constructor
  · rintro h' ⟨e, rfl⟩
    obtain ⟨hterm, hown⟩ := h' ⟨f.call, started, last, f.attached, .error e⟩
      List.mem_concat_self e rfl
    refine ⟨hterm, ?_⟩
    rw [← Bool.not_eq_true]
    intro hsome
    obtain ⟨c, hc⟩ := Option.isSome_iff_exists.1 hsome
    have := hown c hc
    rw [owned_ret, show (Except.error e : Result CtrlrId).toOption = none from rfl,
      Option.toList_none, List.append_nil] at this
    exact hf c hc this
  · intro hr r hmem e he
    rcases List.mem_append.1 hmem with hmem | hmem
    · refine ⟨(h r hmem e he).1, fun c hc => ?_⟩
      rw [owned_ret]
      exact List.mem_append_left _ ((h r hmem e he).2 c hc)
    · obtain rfl := List.mem_singleton.1 hmem
      obtain ⟨hterm, hnone⟩ := hr ⟨e, he⟩
      refine ⟨hterm, fun c hc => ?_⟩
      rw [show f.attached = some c from hc] at hnone
      cases hnone

theorem errClean_step (hi : Inv s) (h : ErrClean s) {a : Action R} (hs : s.step a = some s') :
    ErrClean s' ↔ NothingLost s a := by
  -- the controller of a call in progress was not returned
  have hnot : ∀ {f rest}, s.stack = f :: rest → ∀ c, f.attached = some c → c ∉ s.owned :=
    fun hst c hc => (hi.attached (mem_of_stack hst) hc).2
  cases stepped hs with
  | connectAsync => exact iff_of_true h trivial
  | attachCb _ _ _ => exact iff_of_true h trivial
  | null hst hf =>
    refine iff_of_true ((errClean_ret h (hnot hst)).2 fun _ => ⟨fun hc => (by cases hc), ?_⟩)
      (.inl rfl)
    rw [hf]
    rfl
  | noThread hst =>
    rw [errClean_ret h (hnot hst)]
    refine iff_of_false (fun hr => ?_) (fun hg => by rcases hg with hg | hg <;> cases hg)
    obtain ⟨rc, hrc, -⟩ := (hr ⟨_, rfl⟩).1 rfl
    cases hrc
  | phase _ ha =>
    refine iff_of_true h ?_
    rcases ha with rfl | rfl | rfl
    · exact .inr rfl
    · exact fun hne => absurd rfl hne
    · trivial
  | @done f rest hst =>
    rw [errClean_ret (s := { s with slot := none }) h (hnot hst), taken_eq_error]
    have h0 : ∃ rc, some (0 : Int32) = some rc ∧ rc ≠ -eagain := ⟨0, rfl, by decide⟩
    have hne : (0 : Int32) ≠ -eagain := by decide
    simp only [h0, NothingLost, hst, hne, List.head?_cons, Option.mem_some_iff, forall_eq',
      true_and, forall_const, ne_eq, not_false_eq_true]
    cases f.attached.isSome <;> cases s.slot.isSome <;> decide
  | @failed f rest rc hst h0 hne =>
    rw [errClean_ret h (hnot hst)]
    have hterm : ∃ r, some rc = some r ∧ r ≠ -eagain := ⟨rc, rfl, hne⟩
    simp only [hterm, NothingLost, hst, hne, h0, List.head?_cons, Option.mem_some_iff, forall_eq',
      true_and, false_and, forall_const, ne_eq, not_false_eq_true]
    cases f.attached.isSome
    · exact iff_of_true (fun _ => rfl) (fun hc => by cases hc)
    · exact iff_of_false (fun hc => by cases hc ⟨_, rfl⟩) (fun hc => hc rfl)

/-- **A call that fails leaves nothing behind** throughout exactly the runs whose steps meet
`NothingLost`. -/
theorem errClean_iff (s : State R) :
    (lts R).ReachBy NothingLost s ↔ (lts R).ReachIn ErrClean s := by
  have h0 : ErrClean (lts R).init := fun r hr => by cases hr
  exact Lts.reachBy_iff_reachIn h0 fun hr hp hs => errClean_step (Inv.reach hr) hp hs

/-- Without an SPDK thread the probe is not polled; the controller that it attached stays in the
slot. -/
theorem not_errClean : ¬ ∀ s, (lts Unit).Reach s → ErrClean s := by
  intro hall
  obtain ⟨s, hs, hp⟩ := Lts.exists_of_run (M := lts Unit)
    [.connectAsync .zeroed none, .attachCb 0, .connectRet false false]
    (fun s => decide (s.returned = [⟨0, true, none, some 0, .error (.os 22)⟩])) (by decide)
  have hret := of_decide_eq_true hp
  obtain ⟨rc, hrc, -⟩ := (hall s hs ⟨0, true, none, some 0, .error (.os 22)⟩
    (by rw [hret]; exact List.mem_cons_self) _ rfl).1 rfl
  cases hrc

end SpdkIo.Nvme
