import SpdkIo.Pkgconf.Proof.Cflags

/-!
# What clang sees of the deduplicated flags

The include order survives the deduplication. Of a macro, the definition in effect after the first
occurrences of all tokens is the newest one (`macroDefinition_eraseDups`), which need not be the
last.
-/

namespace SpdkIo.Pkgconf

open Text Dedup

/-! ## Include order -/

theorem includeOrder_eraseDups (tokens : List Text) :
    includeOrder tokens.eraseDups = includeOrder tokens :=
  eraseDups_filterMap tokens _

/-! ## Macros -/

theorem macroDefinition_snoc (tokens : List Text) (token name : Text) :
    macroDefinition (tokens ++ [token]) name =
      readMacro name (macroDefinition tokens name) token := by
  simp [macroDefinition]

theorem readMacro_of_def {token name : Text} {definition : Definition} {d : Option Definition}
    (h : macroDef token = some (name, definition)) :
    readMacro name d token = some definition := by
  simp [readMacro, h]

theorem readMacro_of_not_def {token name : Text} {d : Option Definition}
    (h : ∀ definition, macroDef token ≠ some (name, definition)) : readMacro name d token = d := by
  unfold readMacro
  split
  · rename_i key val hd
    rw [if_neg]
    rintro rfl
    exact h val hd
  · rfl

/-- A known token is no newer than the newest definition. -/
theorem newest_snoc_mem {tokens : List Text} {t name token : Text} {definition : Definition}
    (ht : t ∈ tokens) :
    Newest (tokens ++ [t]) name token definition ↔ Newest tokens name token definition := by
  constructor
  · rintro ⟨before, after, he, hd, hn, hold⟩
    rcases List.eq_nil_or_concat after with rfl | ⟨after, u, rfl⟩
    · obtain ⟨rfl, hu⟩ := List.append_inj' he rfl
      cases hu
      exact absurd ht hn
    · rw [List.concat_eq_append] at he hold
      have he' : tokens ++ [t] = (before ++ token :: after) ++ [u] := by simp [he]
      obtain ⟨rfl, -⟩ := List.append_inj' he' rfl
      exact ⟨before, after, rfl, hd, hn, fun v hv => hold v (by simp [hv])⟩
  · rintro ⟨before, after, rfl, hd, hn, hold⟩
    refine ⟨before, after ++ [t], by simp, hd, hn, fun v hv b hb => ?_⟩
    rcases List.mem_append.1 hv with hv | hv
    · exact hold v hv b hb
    · rw [List.mem_singleton] at hv
      subst hv
      -- `v` is `token` itself, or before it, or a definition after it
      rcases List.mem_append.1 ht with hv | hv
      · exact .inl hv
      rcases List.mem_cons.1 hv with hv | hv
      · exact .inr hv
      · exact hold v hv b hb

/-- A new token is the newest definition, or defines another macro. -/
theorem newest_snoc_not_mem {tokens : List Text} {t name token : Text} {definition : Definition}
    (ht : t ∉ tokens) :
    Newest (tokens ++ [t]) name token definition ↔
      (token = t ∧ macroDef t = some (name, definition)) ∨
        ((∀ b, macroDef t ≠ some (name, b)) ∧ Newest tokens name token definition) := by
  constructor
  · rintro ⟨before, after, he, hd, hn, hold⟩
    rcases List.eq_nil_or_concat after with rfl | ⟨after, u, rfl⟩
    · obtain ⟨rfl, hu⟩ := List.append_inj' he rfl
      cases hu
      exact .inl ⟨rfl, hd⟩
    · rw [List.concat_eq_append] at he hold
      have he' : tokens ++ [t] = (before ++ token :: after) ++ [u] := by simp [he]
      obtain ⟨rfl, hu⟩ := List.append_inj' he' rfl
      cases hu
      refine .inr ⟨fun b hb => ht ?_, before, after, rfl, hd, hn, fun v hv => hold v (by simp [hv])⟩
      rcases hold t (by simp) b hb with hv | rfl
      · simp [hv]
      · simp
  · rintro (⟨rfl, hd⟩ | ⟨hnd, before, after, rfl, hd, hn, hold⟩)
    · exact ⟨tokens, [], rfl, hd, ht, by simp⟩
    · refine ⟨before, after ++ [t], by simp, hd, hn, fun v hv b hb => ?_⟩
      rcases List.mem_append.1 hv with hv | hv
      · exact hold v hv b hb
      · rw [List.mem_singleton] at hv
        exact absurd (hv ▸ hb) (hnd b)

/-- **After the first occurrences the newest definition is in effect.** -/
theorem macroDefinition_eraseDups {tokens : List Text} {name : Text} {definition : Definition} :
    macroDefinition tokens.eraseDups name = some definition ↔
      ∃ token, Newest tokens name token definition := by
  induction tokens using List.reverseRecOn with
  | nil =>
    simp [macroDefinition, Newest]
  | append_singleton tokens t ih =>
    rw [eraseDups_snoc]
    by_cases ht : t ∈ tokens
    · simp only [if_pos ht, ih, newest_snoc_mem ht]
    · simp only [if_neg ht, newest_snoc_not_mem ht, macroDefinition_snoc]
      by_cases hd : ∃ b, macroDef t = some (name, b)
      · obtain ⟨b, hb⟩ := hd
        rw [readMacro_of_def hb, hb]
        simp [eq_comm]
      · have hnd : ∀ b, macroDef t ≠ some (name, b) := fun b hb => hd ⟨b, hb⟩
        rw [readMacro_of_not_def hnd, ih]
        simp [hnd]

/-- A macro is defined by the first occurrences when it is by all. -/
theorem macroDefinition_eraseDups_isSome (tokens : List Text) (name : Text) :
    (macroDefinition tokens.eraseDups name).isSome = (macroDefinition tokens name).isSome := by
  have key : ∀ l : List Text, (macroDefinition l name).isSome = true ↔
      ∃ t ∈ l, ∃ b, macroDef t = some (name, b) := by
    intro l
    induction l using List.reverseRecOn with
    | nil => simp [macroDefinition]
    | append_singleton l t ih =>
      rw [macroDefinition_snoc]
      by_cases hd : ∃ b, macroDef t = some (name, b)
      · obtain ⟨b, hb⟩ := hd
        rw [readMacro_of_def hb]
        simp only [Option.isSome_some, true_iff]
        exact ⟨t, by simp, b, hb⟩
      · rw [readMacro_of_not_def fun b hb => hd ⟨b, hb⟩, ih]
        constructor
        · rintro ⟨u, hu, b, hb⟩
          exact ⟨u, by simp [hu], b, hb⟩
        · rintro ⟨u, hu, b, hb⟩
          rcases List.mem_append.1 hu with hu | hu
          · exact ⟨u, hu, b, hb⟩
          · rw [List.mem_singleton] at hu
            exact absurd ⟨b, hu ▸ hb⟩ hd
  rw [Bool.eq_iff_iff, key, key]
  simp only [List.mem_eraseDups]

/-- The flags of tokens that all are compiler flags are printed as their first occurrences. -/
theorem clangArgs_of_isJoined (P : PkgConfigParser) {output : Text}
    (h : ∀ t ∈ splitWhitespace output, isJoined t = true) :
    toClangArgs (P.parseCflags output) = (splitWhitespace output).eraseDups := by
  rw [clangArgs_eq, List.filter_eq_self.2]
  intro t ht
  have hjoined := h t ht
  rw [isJoined, Bool.or_eq_true, Option.any_eq_true, Option.any_eq_true] at hjoined
  rw [isCompilerFlag_iff]
  rcases hjoined with ⟨dir, hdir, -⟩ | ⟨define, hdefine, -⟩
  · rw [stripPrefix_eq_some.1 hdir, compilerFlag_include]
    rfl
  · rw [stripPrefix_eq_some.1 hdefine, compilerFlag_define]
    split <;> rfl

end SpdkIo.Pkgconf
