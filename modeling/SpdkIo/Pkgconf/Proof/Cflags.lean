import SpdkIo.Lib.Dedup
import SpdkIo.Pkgconf.Clang

/-!
# Parsing and printing compiler flags

`parseCflags_eq`: `parse_cflags` reads (`compilerFlag`) the first occurrence of every token.
Printing what was read gives the token back, so the printed result is the list of the first
occurrences of the compiler flags (`clangArgs_eq`); clang finds the same include order in it and,
of every macro, the definition that is the last to occur for the first time.
-/

namespace SpdkIo.Pkgconf

open Text Dedup

/-! ## One token -/

/-- The flag that a token stands for. -/
def compilerFlag (token : Text) : Option CompilerFlag :=
  if let some path := stripPrefix token "-I".toList then some (.includePath path)
  else if let some define := stripPrefix token "-D".toList then
    match splitOnce define '=' with
    | some (key, val) => some (.define key (some val))
    | none => some (.define define none)
  else none

@[simp] theorem compilerFlag_include (path : Text) :
    compilerFlag ("-I".toList ++ path) = some (.includePath path) := by
  have h : stripPrefix ("-I".toList ++ path) "-I".toList = some path := by simp
  simp only [compilerFlag, h]

theorem stripPrefix_I_of_D (define : Text) :
    stripPrefix ("-D".toList ++ define) "-I".toList = none := by
  rw [Option.eq_none_iff_forall_ne_some]
  intro path hp
  have he := stripPrefix_eq_some.1 hp
  simp at he

theorem compilerFlag_define (define : Text) :
    compilerFlag ("-D".toList ++ define) =
      match splitOnce define '=' with
      | some (key, val) => some (.define key (some val))
      | none => some (.define define none) := by
  have h : stripPrefix ("-D".toList ++ define) "-D".toList = some define := by simp
  simp only [compilerFlag, stripPrefix_I_of_D, h]

/-- **Printing undoes reading.** -/
theorem toClangArg_of_compilerFlag {token : Text} {flag : CompilerFlag}
    (h : compilerFlag token = some flag) : flag.toClangArg = token := by
  unfold compilerFlag at h
  split at h
  · rename_i path hp
    cases h
    exact (stripPrefix_eq_some.1 hp).symm
  split at h
  · rename_i define hd
    rw [stripPrefix_eq_some.1 hd]
    split at h
    · rename_i key val hs
      cases h
      rw [(splitOnce_eq_some.1 hs).1]
      simp [CompilerFlag.toClangArg]
    · cases h
      rfl
  · cases h

theorem isCompilerFlag_iff {token : Text} :
    isCompilerFlag token = true ↔ (compilerFlag token).isSome = true := by
  have hpre : ∀ p : Text, p.isPrefixOf token = true ↔ ∃ r, token = p ++ r := by
    intro p
    rw [List.isPrefixOf_iff_prefix]
    exact ⟨fun ⟨r, hr⟩ => ⟨r, hr.symm⟩, fun ⟨r, hr⟩ => ⟨r, hr.symm⟩⟩
  rw [isCompilerFlag, Bool.or_eq_true, hpre, hpre]
  constructor
  · rintro (⟨r, rfl⟩ | ⟨r, rfl⟩)
    · rw [compilerFlag_include]
      rfl
    · rw [compilerFlag_define]
      split <;> rfl
  · intro h
    obtain ⟨flag, hf⟩ := Option.isSome_iff_exists.1 h
    rw [← toClangArg_of_compilerFlag hf]
    cases flag with
    | includePath path => exact .inl ⟨path, rfl⟩
    | define key value =>
      cases value with
      | none => exact .inr ⟨key, rfl⟩
      | some v => exact .inr ⟨key ++ "=".toList ++ v, by simp [CompilerFlag.toClangArg]⟩

/-! ## The loop -/

/-- An iteration appends the flag of a new token. -/
theorem cflagsStep_eq (s : CflagsState) (token : Text) :
    cflagsStep s token =
      match compilerFlag token with
      | some flag =>
        if token ∈ s.seen then s
        else { flags := s.flags ++ [flag], seen := token :: s.seen }
      | none => s := by
  unfold cflagsStep compilerFlag
  cases h1 : stripPrefix token "-I".toList with
  | some path => rfl
  | none =>
  cases h2 : stripPrefix token "-D".toList with
  | none => rfl
  | some define =>
  cases h3 : splitOnce define '=' with
  | none => simp only [h3]
  | some kv => simp only [h3]

/-- The loop variables after `tokens`. -/
structure CflagsRead (tokens : List Text) (s : CflagsState) : Prop where
  flags : s.flags = tokens.eraseDups.filterMap compilerFlag
  seen : ∀ t, t ∈ s.seen ↔ t ∈ tokens ∧ (compilerFlag t).isSome = true

theorem CflagsRead.init : CflagsRead [] {} where
  flags := rfl
  seen t := by simp

theorem CflagsRead.step {tokens : List Text} {s : CflagsState} (h : CflagsRead tokens s)
    (token : Text) : CflagsRead (tokens ++ [token]) (cflagsStep s token) := by
  rw [cflagsStep_eq]
  cases hf : compilerFlag token with
  | none =>
    refine ⟨?_, fun t => ?_⟩
    · dsimp only
      rw [eraseDups_snoc, h.flags]
      split
      · rfl
      · simp [hf]
    · dsimp only
      rw [h.seen, List.mem_append, List.mem_singleton]
      refine ⟨fun ht => ⟨.inl ht.1, ht.2⟩, fun ⟨ht, hs⟩ => ⟨ht.resolve_right ?_, hs⟩⟩
      rintro rfl
      simp [hf] at hs
  | some flag =>
    have hmem : token ∈ s.seen ↔ token ∈ tokens := by simp [h.seen, hf]
    dsimp only
    by_cases ht : token ∈ tokens
    · rw [if_pos (hmem.2 ht)]
      refine ⟨?_, fun t => ?_⟩
      · rw [eraseDups_snoc, if_pos ht, h.flags]
      · rw [h.seen, List.mem_append, List.mem_singleton]
        refine ⟨fun hs => ⟨.inl hs.1, hs.2⟩, fun ⟨hm, hs⟩ => ⟨?_, hs⟩⟩
        exact hm.elim id fun he => he ▸ ht
    · rw [if_neg (mt hmem.1 ht)]
      refine ⟨?_, fun t => ?_⟩
      · rw [eraseDups_snoc, if_neg ht, h.flags]
        simp [hf]
      · rw [List.mem_cons, h.seen, List.mem_append, List.mem_singleton]
        by_cases he : t = token
        · simp [he, hf]
        · simp [he]

theorem cflagsRead_of_fold (tokens : List Text) :
    CflagsRead tokens (tokens.foldl cflagsStep {}) := by
  induction tokens using List.reverseRecOn with
  | nil => exact .init
  | append_singleton tokens token ih =>
    rw [List.foldl_append]
    exact ih.step token

/-- **`parse_cflags` reads the first occurrence of every token.** -/
theorem parseCflags_eq (P : PkgConfigParser) (output : Text) :
    P.parseCflags output = (splitWhitespace output).eraseDups.filterMap compilerFlag :=
  (cflagsRead_of_fold _).flags

/-! ## The round trip -/

/-- Printing what was read of `tokens` gives the compiler flags among them. -/
theorem toClangArgs_filterMap (tokens : List Text) :
    toClangArgs (tokens.filterMap compilerFlag) = tokens.filter isCompilerFlag := by
  induction tokens with
  | nil => rfl
  | cons token tokens ih =>
    cases hf : compilerFlag token with
    | none =>
      have hn : isCompilerFlag token = false := by
        rw [Bool.eq_false_iff, ne_eq, isCompilerFlag_iff, hf]
        simp
      simp [hf, hn, ih]
    | some flag =>
      have hs : isCompilerFlag token = true := isCompilerFlag_iff.2 (by simp [hf])
      simp only [List.filterMap_cons, hf, List.filter_cons, hs, if_true]
      rw [← ih, toClangArgs, List.map_cons, toClangArg_of_compilerFlag hf, toClangArgs]

theorem clangArgs_eq (P : PkgConfigParser) (output : Text) :
    toClangArgs (P.parseCflags output) =
      ((splitWhitespace output).filter isCompilerFlag).eraseDups := by
  rw [parseCflags_eq, toClangArgs_filterMap, eraseDups_filter]

/-- Reading the compiler flags alone gives the same flags. -/
theorem filterMap_filter_isCompilerFlag (tokens : List Text) :
    (tokens.filter isCompilerFlag).filterMap compilerFlag = tokens.filterMap compilerFlag := by
  rw [List.filterMap_filter]
  refine List.filterMap_congr fun token _ => ?_
  split
  · rfl
  · rename_i hn
    rw [isCompilerFlag_iff, Option.not_isSome_iff_eq_none] at hn
    exact hn.symm

/-- **Printing undoes parsing**: the printed flags are the first occurrences of the `-I` and `-D`
tokens, and parsing them again gives the same flags. -/
theorem parseCflags_roundtrip (P : PkgConfigParser) (output : Text) :
    toClangArgs (P.parseCflags output) =
        ((splitWhitespace output).filter isCompilerFlag).eraseDups ∧
      P.parseCflags (joinSpaces (toClangArgs (P.parseCflags output))) =
        P.parseCflags output := by
  have hargs := clangArgs_eq P output
  refine ⟨hargs, ?_⟩
  have hwords : ∀ t ∈ ((splitWhitespace output).filter isCompilerFlag).eraseDups, Word t := by
    intro t ht
    rw [List.mem_eraseDups, List.mem_filter] at ht
    exact word_of_mem_splitWhitespace ht.1
  rw [hargs, parseCflags_eq, splitWhitespace_joinSpaces hwords,
    eraseDups_of_nodup (nodup_eraseDups _), eraseDups_filter, filterMap_filter_isCompilerFlag,
    ← parseCflags_eq]

end SpdkIo.Pkgconf
