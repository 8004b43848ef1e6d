import Mathlib.Logic.Relation
import Mathlib.Tactic.Common

/-!
# Transition systems

A transition system is a guarded step function: `step s a` is the state after the action `a`, or
`none` where `a` cannot be taken. The choices of the environment are part of the action.

`ReachBy G`: the states of the runs whose every step meets the condition `G`; `Reach`: the states
of all runs. A proof over all runs is an inductive invariant (`ReachBy.invariant`); a single run is
evaluated with `runBy` (`exists_of_runBy`).

`ReachIn P`: the states of the runs that never leave `P`. Where a step from a state with `P` leads
to one with `P` exactly if it meets `G`, the runs by `G` are the runs in `P`
(`reachBy_iff_reachIn`).

`Steps`: any number of steps; `StepsBy G`: any number of steps that meet `G`, which keep what every
such step keeps (`StepsBy.keeps`). A relation that is kept when every step of one system
is matched by steps of another relates each of its states to a state of the other
(`ReachBy.simulate`).
-/

/-- A transition system with states `σ` and actions `α`. -/
structure Lts (σ α : Type*) where
  init : σ
  step : σ → α → Option σ

namespace Lts

variable {σ α : Type*} (M : Lts σ α)

/-- The states of the runs whose steps all meet `G`. -/
inductive ReachBy (G : σ → α → Prop) : σ → Prop
  | init : ReachBy G M.init
  | next {s s' : σ} {a : α} : ReachBy G s → G s a → M.step s a = some s' → ReachBy G s'

/-- The states of all runs. -/
def Reach (s : σ) : Prop := M.ReachBy (fun _ _ => True) s

/-- The states of the runs whose states all have `P`. -/
inductive ReachIn (P : σ → Prop) : σ → Prop
  | init : P M.init → ReachIn P M.init
  | next {s s' : σ} {a : α} : ReachIn P s → M.step s a = some s' → P s' → ReachIn P s'

/-- Any number of steps. -/
def Steps (s s' : σ) : Prop := Relation.ReflTransGen (fun s s' => ∃ a, M.step s a = some s') s s'

/-- Any number of steps that all meet `G`. -/
def StepsBy (G : σ → α → Prop) (s s' : σ) : Prop :=
  Relation.ReflTransGen (fun s s' => ∃ a, G s a ∧ M.step s a = some s') s s'

/-- Takes the actions `as` from `s`, as long as they can be taken and meet `G`. -/
def runBy (G : σ → α → Prop) [∀ s a, Decidable (G s a)] : σ → List α → Option σ
  | s, [] => some s
  | s, a :: as => if G s a then (M.step s a).bind fun s' => runBy G s' as else none

variable {M} {G : σ → α → Prop}

/-- **Induction over a run**: what holds initially and is kept by every step that meets `G`. -/
theorem ReachBy.invariant {I : σ → Prop} (h0 : I M.init)
    (hstep : ∀ {s a s'}, I s → G s a → M.step s a = some s' → I s') {s : σ}
    (h : M.ReachBy G s) : I s := by
  induction h with
  | init => exact h0
  | next _ hg hs ih => exact hstep ih hg hs

theorem ReachBy.mono {G' : σ → α → Prop} (hG : ∀ s a, G s a → G' s a) {s : σ}
    (h : M.ReachBy G s) : M.ReachBy G' s := by
  induction h with
  | init => exact .init
  | next _ hg hs ih => exact ih.next (hG _ _ hg) hs

/-- **Induction over all runs.** -/
theorem Reach.invariant {I : σ → Prop} (h0 : I M.init)
    (hstep : ∀ {s a s'}, I s → M.step s a = some s' → I s') {s : σ} (h : M.Reach s) : I s :=
  ReachBy.invariant h0 (fun hi _ hs => hstep hi hs) h

theorem Steps.refl (s : σ) : M.Steps s s := Relation.ReflTransGen.refl

theorem Steps.next {s s' s'' : σ} {a : α} (h : M.Steps s s') (hs : M.step s' a = some s'') :
    M.Steps s s'' := Relation.ReflTransGen.tail h ⟨a, hs⟩

theorem Steps.trans {s s' s'' : σ} (h : M.Steps s s') (h' : M.Steps s' s'') : M.Steps s s'' :=
  Relation.ReflTransGen.trans h h'

theorem Reach.steps {s s' : σ} (h : M.Reach s) (hs : M.Steps s s') : M.Reach s' := by
  induction hs with
  | refl => exact h
  | tail _ ha ih =>
    obtain ⟨a, ha⟩ := ha
    exact ih.next trivial ha

theorem StepsBy.refl (s : σ) : M.StepsBy G s s := Relation.ReflTransGen.refl

theorem StepsBy.next {s s' s'' : σ} {a : α} (h : M.StepsBy G s s') (hg : G s' a)
    (hs : M.step s' a = some s'') : M.StepsBy G s s'' := Relation.ReflTransGen.tail h ⟨a, hg, hs⟩

/-- **What each of the steps keeps**, they keep. -/
theorem StepsBy.keeps {I : σ → Prop} {s s' : σ} (h : M.StepsBy G s s')
    (hstep : ∀ {s a s'}, I s → G s a → M.step s a = some s' → I s') (hi : I s) : I s' := by
  induction h with
  | refl => exact hi
  | tail _ ha ih =>
    obtain ⟨a, hg, ha⟩ := ha
    exact hstep ih hg ha

theorem Reach.stepsBy {s s' : σ} (h : M.Reach s) (hs : M.StepsBy G s s') :
    M.Reach s' :=
  hs.keeps (fun hr _ ha => hr.next trivial ha) h

/-- **Simulation**: `R` relates each state of the runs by `G` to one of another system, if a step
that meets `G` is matched by steps of that system. -/
theorem ReachBy.simulate {τ β : Type*} {N : Lts τ β} {R : σ → τ → Prop}
    (h0 : ∃ t, N.Reach t ∧ R M.init t)
    (hstep : ∀ {s a s' t}, R s t → G s a → M.step s a = some s' → ∃ t', N.Steps t t' ∧ R s' t')
    {s : σ} (h : M.ReachBy G s) : ∃ t, N.Reach t ∧ R s t := by
  induction h with
  | init => exact h0
  | next _ hg hs ih =>
    obtain ⟨t, ht, hr⟩ := ih
    obtain ⟨t', hsteps, hr'⟩ := hstep hr hg hs
    exact ⟨t', ht.steps hsteps, hr'⟩

theorem ReachIn.holds {P : σ → Prop} {s : σ} (h : M.ReachIn P s) : P s := by
  cases h with
  | init hp => exact hp
  | next _ _ hp => exact hp

theorem ReachIn.reach {P : σ → Prop} {s : σ} (h : M.ReachIn P s) : M.Reach s := by
  induction h with
  | init _ => exact .init
  | next _ hs _ ih => exact ih.next trivial hs

/-- **The exact condition of a property**: if a step from a reachable state with `P` keeps `P`
exactly when it meets `G`, a run meets `G` in every step exactly when all its states have `P`. -/
theorem reachBy_iff_reachIn {P : σ → Prop} (h0 : P M.init)
    (hstep : ∀ {s a s'}, M.Reach s → P s → M.step s a = some s' → (P s' ↔ G s a)) {s : σ} :
    M.ReachBy G s ↔ M.ReachIn P s := by
  constructor
  · intro h
    induction h with
    | init => exact .init h0
    | next _ hg hs ih => exact ih.next hs ((hstep ih.reach ih.holds hs).2 hg)
  · intro h
    induction h with
    | init _ => exact .init
    | next hin hs hp ih => exact ih.next ((hstep hin.reach hin.holds hs).1 hp) hs

theorem ReachBy.run [∀ s a, Decidable (G s a)] : ∀ (as : List α) {s s' : σ},
    M.ReachBy G s → M.runBy G s as = some s' → M.ReachBy G s'
  | [], _, _, h, hr => by
    cases hr
    exact h
  | a :: as, s, s', h, hr => by
    rw [runBy] at hr
    split at hr
    · rename_i hg
      obtain ⟨t, ht, hr⟩ := Option.bind_eq_some_iff.1 hr
      exact (h.next hg ht).run as hr
    · cases hr

/-- A run that can be evaluated reaches its last state. -/
theorem exists_of_runBy [∀ s a, Decidable (G s a)] (as : List α) (p : σ → Bool)
    (h : (M.runBy G M.init as).any p = true) : ∃ s, M.ReachBy G s ∧ p s = true := by
  obtain ⟨s, hs, hp⟩ := (Option.any_eq_true _ _).1 h
  exact ⟨s, ReachBy.init.run as hs, hp⟩

/-- A run without a condition. -/
theorem exists_of_run (as : List α) (p : σ → Bool)
    (h : (M.runBy (fun _ _ => True) M.init as).any p = true) : ∃ s, M.Reach s ∧ p s = true :=
  exists_of_runBy as p h

end Lts
