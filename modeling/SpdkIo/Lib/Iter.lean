import Mathlib.Tactic.Common

/-!
# Iterators

An iterator is a state and a function `next`, which returns an element or `none`, and the state to
go on from. An iterator may go on after it returned `none`, so what it yields is about every call:
`Yields next s l` says that the calls from `s` return the elements of `l` in turn, and `none` from
then on. Such an iterator is collected after finitely many calls (`collect_of_yields`).
-/

namespace Iter

variable {σ α : Type*} (next : σ → Option α × σ)

/-- What call number `i` from `s` returns. -/
def nth : Nat → σ → Option α
  | 0, s => (next s).1
  | i + 1, s => nth i (next s).2

/-- `collect`, in at most `n` calls: the elements up to the first `none`. -/
def collect : Nat → σ → Option (List α)
  | 0, _ => none
  | n + 1, s =>
    match next s with
    | (none, _) => some []
    | (some a, s') => (collect n s').map (a :: ·)

/-- The calls from `s` return the elements of `l`, and then `none`. -/
def Yields (s : σ) (l : List α) : Prop := ∀ i, nth next i s = l[i]?

variable {next} {s s' : σ} {a : α} {l : List α}

theorem Yields.cons (h : next s = (some a, s')) (hl : Yields next s' l) :
    Yields next s (a :: l) := by
  intro i
  cases i with
  | zero => rw [nth, h, List.getElem?_cons_zero]
  | succ i => rw [nth, h, List.getElem?_cons_succ, hl i]

/-- An iterator that returns `none` and stays where it is has ended. -/
theorem Yields.ended (h : next s = (none, s)) : Yields next s [] := by
  intro i
  rw [List.getElem?_nil]
  induction i with
  | zero => rw [nth, h]
  | succ i ih => rw [nth, h, ih]

theorem Yields.nil (h : Yields next s []) : ∃ s', next s = (none, s') := by
  have h0 : (next s).1 = none := h 0
  rcases hs : next s with ⟨r, s'⟩
  rw [hs] at h0
  subst h0
  exact ⟨s', rfl⟩

theorem Yields.uncons (h : Yields next s (a :: l)) :
    ∃ s', next s = (some a, s') ∧ Yields next s' l := by
  have h0 : (next s).1 = some a := h 0
  rcases hs : next s with ⟨r, s'⟩
  rw [hs] at h0
  subst h0
  refine ⟨s', rfl, fun i => ?_⟩
  have hi := h (i + 1)
  rwa [nth, hs, List.getElem?_cons_succ] at hi

/-- **Collecting ends** at the first `none`, with the elements before it. -/
theorem collect_of_yields {n : Nat} (h : Yields next s l) (hn : l.length < n) :
    collect next n s = some l := by
  induction l generalizing s n with
  | nil =>
    obtain ⟨n, rfl⟩ : ∃ m, n = m + 1 := ⟨n - 1, by omega⟩
    obtain ⟨s', hs⟩ := h.nil
    rw [collect, hs]
  | cons a l ih =>
    rw [List.length_cons] at hn
    obtain ⟨n, rfl⟩ : ∃ m, n = m + 1 := ⟨n - 1, by omega⟩
    obtain ⟨s', hs, hl⟩ := h.uncons
    have hcollect : collect next n s' = some l := ih hl (by omega)
    rw [collect, hs]
    simp only [hcollect, Option.map_some]

end Iter
