import Mathlib.Logic.Function.Basic
import Mathlib.Tactic.Common

/-!
# Stores with names

A store `m` has entries at places, and the entries have names. Where the names are distinct
(`Distinct`) the store is a map from names to entries (`ByName`), and nothing else is
(`ByName.ext`): adding an entry of a new name and changing an entry are updates of the map.
-/

namespace Named

variable {π κ α : Type*} {name : α → κ} {m : π → Option α} {n n' : κ → Option α} {p q : π} {a b : α}
  {f : α → α}

/-- Entries of one name are at one place. -/
def Distinct (name : α → κ) (m : π → Option α) : Prop :=
  ∀ ⦃p q a b⦄, m p = some a → m q = some b → name a = name b → p = q

/-- The map `n` has the entries of the store by their names. -/
def ByName (name : α → κ) (m : π → Option α) (n : κ → Option α) : Prop :=
  ∀ k a, n k = some a ↔ ∃ p, m p = some a ∧ name a = k

theorem ByName.ext (h : ByName name m n) (h' : ByName name m n') : n = n' := by
  funext k
  apply Option.ext
  intro a
  rw [h k a, h' k a]

theorem ByName.isSome_iff (h : ByName name m n) {k : κ} :
    (n k).isSome = true ↔ ∃ p a, m p = some a ∧ name a = k := by
  rw [Option.isSome_iff_exists]
  constructor
  · rintro ⟨a, ha⟩
    obtain ⟨p, hp⟩ := (h k a).1 ha
    exact ⟨p, a, hp⟩
  · rintro ⟨p, a, hp⟩
    exact ⟨a, (h k a).2 ⟨p, hp⟩⟩

/-! ## Changes of the store -/

variable [DecidableEq π]

/-- The entry at `p`, if there is one, is changed. -/
def change (m : π → Option α) (p : π) (f : α → α) : π → Option α :=
  Function.update m p ((m p).map f)

theorem change_update : change (Function.update m p (some a)) p f =
    Function.update m p (some (f a)) := by
  simp [change]

theorem change_eq_some : change m p f q = some b ↔
    ∃ a, m q = some a ∧ b = if q = p then f a else a := by
  by_cases hq : q = p
  · subst hq
    simp [change, eq_comm]
  · simp [change, hq]

theorem Distinct.add (h : Distinct name m) (hnew : ∀ p a, m p = some a → name a ≠ name b) :
    Distinct name (Function.update m q (some b)) := by
  intro p r a c hp hr hname
  by_cases hpq : p = q <;> by_cases hrq : r = q
  · rw [hpq, hrq]
  · subst hpq
    rw [Function.update_self, Option.some.injEq] at hp
    rw [Function.update_of_ne hrq] at hr
    exact absurd (hname.symm.trans (congrArg name hp.symm)) (hnew r c hr)
  · subst hrq
    rw [Function.update_self, Option.some.injEq] at hr
    rw [Function.update_of_ne hpq] at hp
    exact absurd (hname.trans (congrArg name hr.symm)) (hnew p a hp)
  · rw [Function.update_of_ne hpq] at hp
    rw [Function.update_of_ne hrq] at hr
    exact h hp hr hname

/-- A change keeps what an entry has for its name. -/
theorem name_of_change (hf : ∀ a, name (f a) = name a) (hb : change m p f q = some b) :
    ∃ a, m q = some a ∧ name b = name a := by
  obtain ⟨a, ha, rfl⟩ := change_eq_some.1 hb
  refine ⟨a, ha, ?_⟩
  split
  · exact hf a
  · rfl

theorem Distinct.change (h : Distinct name m) (hf : ∀ a, name (f a) = name a) :
    Distinct name (change m p f) := by
  intro q r a b hq hr hname
  obtain ⟨a₀, ha, hna⟩ := name_of_change hf hq
  obtain ⟨b₀, hb, hnb⟩ := name_of_change hf hr
  exact h ha hb (hna.symm.trans (hname.trans hnb))

/-! ## A list as a store -/

theorem change_getElem? (l : List α) (i : Nat) :
    change (fun j => l[j]?) i f = fun j => (l.modify i f)[j]? := by
  funext j
  rw [List.getElem?_modify]
  by_cases hij : i = j
  · subst hij
    simp [change]
  · simp [change, hij, Ne.symm hij]

theorem update_getElem?_length (l : List α) :
    Function.update (fun j => l[j]?) l.length (some a) = fun j => (l ++ [a])[j]? := by
  funext j
  by_cases hj : j = l.length
  · subst hj
    simp
  · rw [Function.update_of_ne hj, List.getElem?_append]
    split
    · rfl
    · rw [List.getElem?_eq_none (by omega), List.getElem?_eq_none (by simp; omega)]

/-! ## Changes of the map -/

variable [DecidableEq κ]

/-- **An entry of a new name** is added to the map. -/
theorem ByName.add (h : ByName name m n) (hq : m q = none)
    (hnew : ∀ p a, m p = some a → name a ≠ name b) :
    ByName name (Function.update m q (some b)) (Function.update n (name b) (some b)) := by
  intro k a
  by_cases hk : k = name b
  · subst hk
    rw [Function.update_self, Option.some.injEq]
    constructor
    · rintro rfl
      exact ⟨q, Function.update_self .., rfl⟩
    · rintro ⟨p, hp, hname⟩
      by_cases hpq : p = q
      · subst hpq
        rw [Function.update_self, Option.some.injEq] at hp
        exact hp
      · rw [Function.update_of_ne hpq] at hp
        exact absurd hname (hnew p a hp)
  · rw [Function.update_of_ne hk, h k a]
    constructor
    · rintro ⟨p, hp, hname⟩
      have hpq : p ≠ q := by
        rintro rfl
        cases hp.symm.trans hq
      exact ⟨p, by rw [Function.update_of_ne hpq, hp], hname⟩
    · rintro ⟨p, hp, hname⟩
      by_cases hpq : p = q
      · subst hpq
        rw [Function.update_self, Option.some.injEq] at hp
        exact absurd (hname.symm.trans (congrArg name hp.symm)) hk
      · rw [Function.update_of_ne hpq] at hp
        exact ⟨p, hp, hname⟩

/-- **A change of an entry** that keeps its name changes the map at this name. -/
theorem ByName.change (hm : Distinct name m) (h : ByName name m n) (ha : m p = some a)
    (hf : ∀ a, name (f a) = name a) : ByName name (change m p f) (change n (name a) f) := by
  intro k b
  rw [change_eq_some]
  constructor
  · rintro ⟨c, hc, rfl⟩
    obtain ⟨q, hq, rfl⟩ := (h k c).1 hc
    -- the entry of the name is at `p` exactly if it is the changed one
    have hiff : name c = name a ↔ q = p :=
      ⟨hm hq ha, fun hqp => by rw [hqp, ha, Option.some.injEq] at hq; rw [hq]⟩
    refine ⟨q, change_eq_some.2 ⟨c, hq, by simp only [hiff]⟩, ?_⟩
    split
    · exact hf c
    · rfl
  · rintro ⟨q, hq, rfl⟩
    obtain ⟨c, hc, rfl⟩ := change_eq_some.1 hq
    have hiff : name c = name a ↔ q = p :=
      ⟨hm hc ha, fun hqp => by rw [hqp, ha, Option.some.injEq] at hc; rw [hc]⟩
    by_cases hqp : q = p
    · refine ⟨c, (h _ c).2 ⟨q, hc, by rw [if_pos hqp, hf]⟩, ?_⟩
      rw [if_pos hqp, if_pos (by rw [hf]; exact hiff.2 hqp)]
    · refine ⟨c, (h _ c).2 ⟨q, hc, by rw [if_neg hqp]⟩, ?_⟩
      rw [if_neg hqp, if_neg fun hname => hqp (hiff.1 hname)]

end Named
