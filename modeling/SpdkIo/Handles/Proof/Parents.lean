import SpdkIo.Handles.Model
import SpdkIo.Lib.Table

/-!
# Handles outlive their parents

`safe_of_childrenFirst`: SPDK is never called with the object of a destroyed parent, as long as no
parent is dropped while a queue pair, a thread handle or a subsystem of it is alive. The types do
not ask for this: `handles_not_safe`, for each of the three. A namespace needs no condition.
-/

namespace SpdkIo.Handles

/-- No step passes SPDK the object of a handle of this kind whose parent was destroyed. -/
def State.SafeFor (s : State) (kind : HandleKind) : Prop :=
  ∀ a s', s.step a = some s' → ∀ h ∈ s.passed a, ∀ handle, s.handles[h]? = some handle →
    handle.kind = kind → ∃ p, s.parents[handle.parent]? = some p ∧ p.alive = true

def State.Safe (s : State) : Prop := ∀ kind, s.SafeFor kind

/-- A parent is dropped only when its handles without a lifetime, of the kinds given, are gone. -/
def ChildrenFirst (kinds : HandleKind → Bool) (s : State) : Action → Prop
  | .dropParent p => (s.handles.any fun h =>
      h.alive && kinds h.kind && !h.kind.borrowsParent && h.parent == p) = false
  | _ => True

instance (kinds : HandleKind → Bool) (s : State) : ∀ a, Decidable (ChildrenFirst kinds s a)
  | .dropParent p => inferInstanceAs (Decidable ((s.handles.any fun h =>
      h.alive && kinds h.kind && !h.kind.borrowsParent && h.parent == p) = false))
  | .create _ | .allocIoQpair _ | .nvmeNamespace _ | .handle _ | .createSubsystem _
  | .findSubsystem _ | .clone _ | .method _ _ | .submit _ _ | .dropHandle _ => .isTrue trivial

/-- Handles of these kinds that are alive have a parent that is alive. -/
def Inv (kinds : HandleKind → Bool) (s : State) : Prop :=
  ∀ h ∈ s.handles, h.alive = true → kinds h.kind = true →
    ∃ p, s.parents[h.parent]? = some p ∧ p.alive = true

variable {kinds : HandleKind → Bool} {s s' : State}

/-! ## Steps -/

theorem Inv.create (hi : Inv kinds s) (kind : ParentKind) : Inv kinds (s.create kind) :=
  fun h hh ha hk => Table.exists_append (hi h hh ha hk)

/-- A new handle has a parent that is alive. -/
theorem Inv.append {h : Handle} (hi : Inv kinds s)
    (hp : kinds h.kind = true → ∃ p, s.parents[h.parent]? = some p ∧ p.alive = true) :
    Inv kinds { s with handles := s.handles ++ [h] } := by
  intro x hx ha hk
  rcases List.mem_append.1 hx with hx | hx
  · exact hi x hx ha hk
  · obtain rfl := List.mem_singleton.1 hx
    exact hp hk

theorem Inv.derive (hi : Inv kinds s) {kind : HandleKind} {p : ParentId}
    (hs : s.derive kind p = some s') : Inv kinds s' := by
  obtain ⟨parent, hp, hs⟩ := Option.bind_eq_some_iff.1 hs
  obtain ⟨⟨halive, -⟩, hs⟩ := Option.ite_none_right_eq_some.1 hs
  cases hs
  exact hi.append fun _ => ⟨parent, hp, halive⟩

theorem Inv.clone (hi : Inv kinds s) {h : HandleId} (hs : s.clone h = some s') :
    Inv kinds s' := by
  obtain ⟨handle, hh, hs⟩ := Option.bind_eq_some_iff.1 hs
  obtain ⟨⟨halive, -⟩, hs⟩ := Option.ite_none_right_eq_some.1 hs
  cases hs
  exact hi.append (hi handle (List.mem_of_getElem? hh) halive)

theorem Inv.dropHandle (hi : Inv kinds s) {h : HandleId} (hs : s.dropHandle h = some s') :
    Inv kinds s' := by
  obtain ⟨handle, -, hs⟩ := Option.bind_eq_some_iff.1 hs
  obtain ⟨-, hs⟩ := Option.ite_none_right_eq_some.1 hs
  cases hs
  intro x hx ha hk
  rcases List.mem_or_eq_of_mem_set hx with hx | rfl
  · exact hi x hx ha hk
  · cases ha

/-- The handles that are alive are not of the parent that is dropped: those with a lifetime by the
borrow checker, the others by the condition. -/
theorem Inv.dropParent (hi : Inv kinds s) {p : ParentId}
    (hfirst : ChildrenFirst kinds s (.dropParent p)) (hs : s.dropParent p = some s') :
    Inv kinds s' := by
  obtain ⟨parent, hp, hs⟩ := Option.bind_eq_some_iff.1 hs
  obtain ⟨⟨-, hborrow⟩, hs⟩ := Option.ite_none_right_eq_some.1 hs
  cases hs
  intro x hx ha hk
  obtain ⟨q, hq, hqa⟩ := hi x hx ha hk
  have hne : p ≠ x.parent := by
    rintro rfl
    have h1 := List.any_eq_false.1 hborrow x hx
    have h2 := List.any_eq_false.1 hfirst x hx
    cases hb : x.kind.borrowsParent <;> simp [ha, hk, hb] at h1 h2
  exact ⟨q, Table.set_of_ne hne hq, hqa⟩

theorem Inv.step (hi : Inv kinds s) {a : Action} (hfirst : ChildrenFirst kinds s a)
    (hs : s.step a = some s') : Inv kinds s' := by
  cases a with
  | create kind =>
    cases hs
    exact hi.create kind
  | allocIoQpair p | nvmeNamespace p | handle p | createSubsystem p | findSubsystem p =>
    exact hi.derive hs
  | clone h => exact hi.clone hs
  | method h m =>
    obtain ⟨handle, -, hs⟩ := Option.bind_eq_some_iff.1 hs
    obtain ⟨-, hs⟩ := Option.ite_none_right_eq_some.1 hs
    cases hs
    exact hi
  | submit ns qpair =>
    obtain ⟨n, -, hs⟩ := Option.bind_eq_some_iff.1 hs
    obtain ⟨q, -, hs⟩ := Option.bind_eq_some_iff.1 hs
    obtain ⟨-, hs⟩ := Option.ite_none_right_eq_some.1 hs
    cases hs
    exact hi
  | dropHandle h => exact hi.dropHandle hs
  | dropParent p => exact hi.dropParent hfirst hs

/-! ## Runs -/

/-- A step passes SPDK the objects of handles that are alive. -/
theorem alive_of_passed {a : Action} (hs : s.step a = some s') {h : HandleId}
    (hh : h ∈ s.passed a) {handle : Handle} (hget : s.handles[h]? = some handle) :
    handle.alive = true := by
  cases a with
  | method h' m =>
    obtain rfl := List.mem_singleton.1 hh
    obtain ⟨x, hx, hs⟩ := Option.bind_eq_some_iff.1 hs
    obtain rfl := Option.some.inj (hget.symm.trans hx)
    exact (Option.ite_none_right_eq_some.1 hs).1.1
  | submit ns qpair =>
    obtain ⟨n, hn, hs⟩ := Option.bind_eq_some_iff.1 hs
    obtain ⟨q, hq, hs⟩ := Option.bind_eq_some_iff.1 hs
    obtain ⟨⟨hna, -, hqa, -⟩, -⟩ := Option.ite_none_right_eq_some.1 hs
    rcases List.mem_cons.1 hh with rfl | hh
    · obtain rfl := Option.some.inj (hget.symm.trans hn)
      exact hna
    · obtain rfl := List.mem_singleton.1 hh
      obtain rfl := Option.some.inj (hget.symm.trans hq)
      exact hqa
  | dropHandle h' =>
    have hh' : h ∈ if s.handles[h']?.any (·.kind.hasDrop) then [h'] else [] := hh
    split at hh'
    · obtain rfl := List.mem_singleton.1 hh'
      obtain ⟨x, hx, hs⟩ := Option.bind_eq_some_iff.1 hs
      obtain rfl := Option.some.inj (hget.symm.trans hx)
      exact (Option.ite_none_right_eq_some.1 hs).1
    · cases hh'
  | _ => cases hh

theorem safeFor_of_childrenFirst (h : lts.ReachBy (ChildrenFirst kinds) s) {kind : HandleKind}
    (hk : kinds kind = true) : s.SafeFor kind := by
  have hinv : Inv kinds s :=
    Lts.ReachBy.invariant (G := ChildrenFirst kinds) (I := Inv kinds) (fun x hx => by cases hx)
      (fun hi hg hs => hi.step hg hs) h
  intro a s' hs i hi handle hget hkind
  exact hinv handle (List.mem_of_getElem? hget) (alive_of_passed hs hi hget) (hkind ▸ hk)

/-- The lifetime of a namespace is enough: it is safe in every run. -/
theorem safeFor_nvmeNamespace (h : lts.Reach s) : s.SafeFor .nvmeNamespace := by
  have hfirst : lts.ReachBy (ChildrenFirst (· == .nvmeNamespace)) s := by
    refine h.mono fun s a _ => ?_
    cases a with
    | dropParent p =>
      refine List.any_eq_false.2 fun x _ => ?_
      cases hk : x.kind <;> simp [HandleKind.borrowsParent]
    | _ => trivial
  exact safeFor_of_childrenFirst hfirst rfl

/-- **SPDK is not called with the object of a destroyed parent**, in every run that drops the
handles without a lifetime before their parent. -/
theorem safe_of_childrenFirst (h : lts.ReachBy (ChildrenFirst fun _ => true) s) : s.Safe :=
  fun _ => safeFor_of_childrenFirst h rfl

/-- Two controllers: a queue pair of the first is dropped, and one of the second used with a
namespace of the first. -/
theorem safe_of_childrenFirst_two : ∃ s s' : State,
    s.step (.submit 0 2) = some s' ∧ ∃ p, s.parents[1]? = some p ∧ p.alive = true := by
  obtain ⟨s, hs, hp⟩ := Lts.exists_of_runBy (M := lts)
    (G := ChildrenFirst fun _ => true)
    [.create .controller, .create .controller, .nvmeNamespace 0, .allocIoQpair 0,
     .allocIoQpair 1, .create .thread, .handle 2, .clone 3, .dropHandle 1, .dropHandle 3,
     .dropHandle 4, .dropParent 2]
    (fun s => (s.step (.submit 0 2)).isSome && s.handles[2]? == some ⟨.nvmeQpair, 1, true⟩)
    (by decide)
  obtain ⟨hsubmit, hqpair⟩ := Bool.and_eq_true_iff.1 hp
  obtain ⟨s', hs'⟩ := Option.isSome_iff_exists.1 hsubmit
  exact ⟨s, s', hs', safe_of_childrenFirst hs .nvmeQpair (.submit 0 2) s' hs' 2
    (List.mem_cons_of_mem _ List.mem_cons_self) _ (eq_of_beq hqpair) rfl⟩

/-- A run after which the first handle can be passed to SPDK, its parent destroyed. -/
theorem not_safeFor_of_run {kind : HandleKind} (as : List Action) (a : Action)
    (h : (lts.runBy (fun _ _ => True) lts.init as).any (fun s =>
      (s.step a).isSome && s.passed a == [0] && s.handles[0]? == some ⟨kind, 0, true⟩ &&
        s.parents[0]?.any (!·.alive)) = true) :
    ¬ ∀ s, lts.Reach s → s.SafeFor kind := by
  intro hall
  obtain ⟨s, hs, hp⟩ := Lts.exists_of_run as _ h
  simp only [Bool.and_eq_true, beq_iff_eq] at hp
  obtain ⟨⟨⟨hstep, hpassed⟩, hhandle⟩, hdead⟩ := hp
  obtain ⟨s', hs'⟩ := Option.isSome_iff_exists.1 hstep
  obtain ⟨p, hparent, hnot⟩ := (Option.any_eq_true _ _).1 hdead
  obtain ⟨q, hq, halive⟩ := hall s hs a s' hs' 0 (by rw [hpassed]; exact List.mem_cons_self) _
    hhandle rfl
  obtain rfl := Option.some.inj (hparent.symm.trans hq)
  rw [halive] at hnot
  cases hnot

/-- The handles without a lifetime outlive their parent: a queue pair is freed after its
controller was detached, a closure sent to a destroyed thread, a subsystem of a destroyed target
queried. -/
theorem handles_not_safe :
    (¬ ∀ s, lts.Reach s → s.SafeFor .nvmeQpair) ∧
      (¬ ∀ s, lts.Reach s → s.SafeFor .threadHandle) ∧
      ¬ ∀ s, lts.Reach s → s.SafeFor .nvmfSubsystem := by
  refine ⟨?_, ?_, ?_⟩
  · exact not_safeFor_of_run [.create .controller, .allocIoQpair 0, .dropParent 0]
      (.dropHandle 0) (by decide)
  · exact not_safeFor_of_run [.create .thread, .handle 0, .dropParent 0] (.method 0 .send)
      (by decide)
  · exact not_safeFor_of_run [.create .target, .createSubsystem 0, .dropParent 0]
      (.method 0 .nqn) (by decide)

end SpdkIo.Handles
