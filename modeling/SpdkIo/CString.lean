import SpdkIo.Thread.Model

/-!
# C strings

`CString::new` of the texts that the builders and `SpdkThread` pass to SPDK: which texts it takes,
and its use on an `Option`.
-/

namespace SpdkIo

open Thread.State (cstringNew)

/-- A text without a NUL byte is taken as it is. -/
theorem cstringNew_of_notMem {name : List UInt8} (h : 0 ∉ name) : cstringNew name = .ok name := by
  have hf : name.findIdx? (· == 0) = none := by
    rw [List.findIdx?_eq_none_iff]
    intro b hb
    rw [beq_eq_false_iff_ne]
    rintro rfl
    exact h hb
  unfold cstringNew
  rw [hf]

/-- A NUL byte is an error. -/
theorem cstringNew_of_mem {name : List UInt8} (h : 0 ∈ name) : ∃ e, cstringNew name = .error e := by
  unfold cstringNew
  rcases hf : name.findIdx? (· == 0) with _ | position
  · have := List.findIdx?_eq_none_iff.1 hf 0 h
    cases this
  · exact ⟨_, rfl⟩

/-- `s.as_deref().map(CString::new).transpose()` -/
def cstringOpt : Option (List UInt8) → Result (Option (List UInt8))
  | none => .ok none
  | some s => (cstringNew s).map some

/-- No NUL byte in the text, if there is one. -/
def NulFree (s : Option (List UInt8)) : Prop := ∀ t ∈ s, 0 ∉ t

instance (s : Option (List UInt8)) : Decidable (NulFree s) :=
  inferInstanceAs (Decidable (∀ t ∈ s, 0 ∉ t))

theorem cstringOpt_of_nulFree {s : Option (List UInt8)} (h : NulFree s) :
    cstringOpt s = .ok s := by
  rcases s with _ | t
  · rfl
  · rw [cstringOpt, cstringNew_of_notMem (h t rfl)]
    rfl

theorem cstringOpt_of_not {s : Option (List UInt8)} (h : ¬ NulFree s) :
    ∃ e, cstringOpt s = .error e := by
  rcases s with _ | t
  · exact absurd (fun _ ht => by cases ht) h
  · have hm : 0 ∈ t := by
      by_contra hn
      exact h fun _ ht => by cases ht; exact hn
    obtain ⟨e, he⟩ := cstringNew_of_mem hm
    exact ⟨e, by rw [cstringOpt, he]; rfl⟩

end SpdkIo
