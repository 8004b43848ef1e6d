import Mathlib.Data.List.Induction
import Mathlib.Data.List.Nodup

/-!
# First occurrences

`List.eraseDups` keeps the first occurrence of every element, in order. A loop that keeps a set of
what it has seen computes it element by element (`eraseDups_snoc`). The result has no repetition,
a list without repetition is its own result, it commutes with a filter, and repetitions do not
matter to the first occurrences of a function's values.
-/

namespace Dedup

variable {α β : Type} [BEq α] [LawfulBEq α] [BEq β] [LawfulBEq β]

/-- An element at the end is kept exactly when it is new. -/
theorem eraseDups_snoc (l : List α) (a : α) :
    (l ++ [a]).eraseDups = if a ∈ l then l.eraseDups else l.eraseDups ++ [a] := by
  rw [List.eraseDups_append]
  by_cases ha : a ∈ l
  · simp [List.removeAll, ha]
  · simp [List.removeAll, ha, List.eraseDups_cons]

theorem nodup_eraseDups (l : List α) : l.eraseDups.Nodup := by
  induction l using List.reverseRecOn with
  | nil => simp
  | append_singleton l a ih =>
    rw [eraseDups_snoc]
    split
    · exact ih
    · rename_i ha
      rw [List.nodup_append]
      refine ⟨ih, List.nodup_singleton a, fun x hx y hy => ?_⟩
      rw [List.mem_singleton] at hy
      rintro rfl
      exact ha (hy ▸ List.mem_eraseDups.1 hx)

theorem eraseDups_of_nodup {l : List α} (h : l.Nodup) : l.eraseDups = l := by
  induction l using List.reverseRecOn with
  | nil => rfl
  | append_singleton l a ih =>
    rw [List.nodup_append] at h
    rw [eraseDups_snoc, if_neg fun ha => h.2.2 a ha a (by simp) rfl, ih h.1]

theorem eraseDups_filter (l : List α) (p : α → Bool) :
    (l.filter p).eraseDups = l.eraseDups.filter p := by
  induction l using List.reverseRecOn with
  | nil => rfl
  | append_singleton l a ih =>
    rw [List.filter_append, eraseDups_snoc]
    cases hp : p a with
    | false =>
      have hnil : [a].filter p = [] := by simp [hp]
      rw [hnil, List.append_nil, ih]
      split
      · rfl
      · rw [List.filter_append, hnil, List.append_nil]
    | true =>
      have hone : [a].filter p = [a] := by simp [hp]
      have hmem : a ∈ l.filter p ↔ a ∈ l := by simp [hp]
      rw [hone, eraseDups_snoc, ih]
      by_cases ha : a ∈ l
      · rw [if_pos ha, if_pos (hmem.2 ha)]
      · rw [if_neg ha, if_neg (mt hmem.1 ha), List.filter_append, hone]

theorem eraseDups_filterMap (l : List α) (f : α → Option β) :
    (l.eraseDups.filterMap f).eraseDups = (l.filterMap f).eraseDups := by
  induction l using List.reverseRecOn with
  | nil => rfl
  | append_singleton l a ih =>
    rw [eraseDups_snoc, List.filterMap_append]
    cases hf : f a with
    | none =>
      have hnil : [a].filterMap f = [] := by simp [hf]
      rw [hnil, List.append_nil, ← ih]
      split
      · rfl
      · rw [List.filterMap_append, hnil, List.append_nil]
    | some b =>
      have hone : [a].filterMap f = [b] := by simp [hf]
      rw [hone, eraseDups_snoc]
      by_cases ha : a ∈ l
      · rw [if_pos ha, if_pos (List.mem_filterMap.2 ⟨a, ha, hf⟩), ih]
      · have hmem : b ∈ l.eraseDups.filterMap f ↔ b ∈ l.filterMap f := by
          simp only [List.mem_filterMap, List.mem_eraseDups]
        rw [if_neg ha, List.filterMap_append, hone, eraseDups_snoc, ih]
        by_cases hb : b ∈ l.filterMap f
        · rw [if_pos hb, if_pos (hmem.2 hb)]
        · rw [if_neg hb, if_neg (mt hmem.1 hb)]

end Dedup
