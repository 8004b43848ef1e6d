import Mathlib.Data.List.Nodup

/-!
# Lists as tables

A list whose entries are numbered by their positions: entries are added at the end and replaced
(`List.set`), never removed.
-/

namespace Table

variable {α : Type*} {l : List α} {i j : Nat} {a b c : α}

theorem set_self (h : l[i]? = some a) : (l.set i b)[i]? = some b :=
  List.getElem?_set_self (List.getElem?_eq_some_iff.1 h).1

theorem set_of_ne (hne : i ≠ j) (h : l[j]? = some a) : (l.set i b)[j]? = some a := by
  rw [List.getElem?_set_ne hne, h]

/-- An entry of the new table is the new one, or another entry of the old table. -/
theorem set_cases (h : (l.set i b)[j]? = some c) : (i = j ∧ c = b) ∨ (i ≠ j ∧ l[j]? = some c) := by
  by_cases hij : i = j
  · subst hij
    have hlt : i < l.length := by
      have := (List.getElem?_eq_some_iff.1 h).1
      rwa [List.length_set] at this
    rw [List.getElem?_set_self hlt] at h
    exact .inl ⟨rfl, (Option.some.inj h).symm⟩
  · rw [List.getElem?_set_ne hij] at h
    exact .inr ⟨hij, h⟩

/-- What holds of every entry stays, if the new entry has it. -/
theorem forall_set {p : α → Prop} (hl : ∀ {j : ℕ} {c}, l[j]? = some c → p c) (hb : p b)
    (h : (l.set i b)[j]? = some c) : p c := by
  rcases set_cases h with ⟨-, rfl⟩ | ⟨-, h⟩
  · exact hb
  · exact hl h

theorem append_of (h : l[j]? = some a) : (l ++ [b])[j]? = some a := by
  rw [List.getElem?_append_left (List.getElem?_eq_some_iff.1 h).1, h]

/-- An entry of the longer table is the new one, or an entry of the old table. -/
theorem append_cases (h : (l ++ [b])[j]? = some c) : (j = l.length ∧ c = b) ∨ l[j]? = some c := by
  rcases Nat.lt_or_ge j l.length with hj | hj
  · rw [List.getElem?_append_left hj] at h
    exact .inr h
  · rw [List.getElem?_append_right hj, List.getElem?_singleton] at h
    split at h
    · rename_i h0
      exact .inl ⟨by omega, (Option.some.inj h).symm⟩
    · cases h

theorem forall_append {p : α → Prop} (hl : ∀ {j : ℕ} {c}, l[j]? = some c → p c) (hb : p b)
    (h : (l ++ [b])[j]? = some c) : p c := by
  rcases append_cases h with ⟨-, rfl⟩ | h
  · exact hb
  · exact hl h

/-- What holds of an entry stays, if the replaced entry keeps it. -/
theorem exists_set {p : α → Prop} (ha : l[i]? = some a) (hab : p a → p b)
    (h : ∃ c, l[j]? = some c ∧ p c) : ∃ c, (l.set i b)[j]? = some c ∧ p c := by
  obtain ⟨c, hc, hp⟩ := h
  by_cases hij : i = j
  · subst hij
    obtain rfl := Option.some.inj (ha.symm.trans hc)
    exact ⟨b, set_self ha, hab hp⟩
  · exact ⟨c, set_of_ne hij hc, hp⟩

theorem exists_append {p : α → Prop} (h : ∃ c, l[j]? = some c ∧ p c) :
    ∃ c, (l ++ [b])[j]? = some c ∧ p c := by
  obtain ⟨c, hc, hp⟩ := h
  exact ⟨c, append_of hc, hp⟩

/-- Replacing an entry moves a count by what the two entries count. -/
theorem countP_set (p : α → Bool) (h : l[i]? = some a) :
    (l.set i b).countP p + (if p a then 1 else 0) = l.countP p + (if p b then 1 else 0) := by
  obtain ⟨hlt, ha⟩ := List.getElem?_eq_some_iff.1 h
  rw [List.countP_set hlt, ha]
  have hpos : p a = true → 0 < l.countP p := fun hp =>
    List.countP_pos_iff.2 ⟨a, List.mem_of_getElem? h, hp⟩
  by_cases hp : p a = true
  · have := hpos hp
    simp only [hp, if_true]
    omega
  · rw [if_neg hp]
    omega

/-- A log whose keys are distinct, with an entry for a new key. -/
theorem nodup_map_append {β : Type*} {f : α → β} (h : (l.map f).Nodup) (hn : f a ∉ l.map f) :
    ((l ++ [a]).map f).Nodup := by
  rw [List.map_append, List.map_singleton]
  refine h.append (List.nodup_singleton _) fun k hk hk' => hn ?_
  obtain rfl := List.mem_singleton.1 hk'
  exact hk

/-- An index is not in a log of indices whose entries all have what its entry has not. -/
theorem notMem_of_log {β : Type*} {log : List β} {key : β → Nat} {p : β → α → Prop}
    (hlog : ∀ e ∈ log, ∃ b, l[key e]? = some b ∧ p e b) (ha : l[i]? = some a)
    (hn : ∀ e, ¬ p e a) : i ∉ log.map key := by
  intro hmem
  obtain ⟨e, he, rfl⟩ := List.mem_map.1 hmem
  obtain ⟨b, hb, hp⟩ := hlog e he
  rw [ha] at hb
  cases hb
  exact hn e hp

/-- Replacing an entry swaps what the two entries contribute. -/
theorem flatMap_set_perm {β : Type*} (f : α → List β) :
    ∀ {l : List α} {i : Nat}, l[i]? = some a →
      ((l.set i b).flatMap f ++ f a).Perm (l.flatMap f ++ f b)
  | x :: l, 0, h => by
    obtain rfl := Option.some.inj h
    simp only [List.set_cons_zero, List.flatMap_cons, List.append_assoc]
    rw [← List.append_assoc (f x)]
    exact List.perm_append_comm.trans (List.perm_append_comm.append_right _)
  | x :: l, i + 1, h => by
    simp only [List.set_cons_succ, List.flatMap_cons, List.append_assoc]
    have hl : l[i]? = some a := h
    exact (flatMap_set_perm f hl).append_left _

/-- Entries that contribute distinct elements only are found by any of them. -/
theorem index_unique {β : Type*} {f : α → List β} (hl : (l.flatMap f).Nodup) {x : β}
    (hi : l[i]? = some a) (hj : l[j]? = some b) (ha : x ∈ f a) (hb : x ∈ f b) : i = j := by
  have hdisj := (List.nodup_flatMap.1 hl).2
  rw [List.pairwise_iff_getElem] at hdisj
  obtain ⟨hlti, rfl⟩ := List.getElem?_eq_some_iff.1 hi
  obtain ⟨hltj, rfl⟩ := List.getElem?_eq_some_iff.1 hj
  rcases Nat.lt_trichotomy i j with hij | hij | hij
  · exact absurd hb (hdisj i j hlti hltj hij ha)
  · exact hij
  · exact absurd ha (hdisj j i hltj hlti hij hb)

end Table
