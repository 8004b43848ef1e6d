import SpdkIo.Pkgconf.Proof.Shape

/-!
# Whole-archive regions

The parser reads a `-Wl,` token by the texts that occur in it (`trackRegion`), the linker by its
comma-separated options (`linkerReads`). `codeRegion_eq_iff`: after any tokens the two flags are
equal exactly when the last `-Wl,` token that mentions a marker `Fits`. `markersConsumed_iff` is
the condition under which `parse` agrees with the linker at every library and passes no marker
through.
-/

namespace SpdkIo.Pkgconf

open Text

/-! ## One token -/

theorem isMarker_iff {o : Text} :
    isMarker o = true ↔ o = "--whole-archive".toList ∨ o = "--no-whole-archive".toList := by
  simp [isMarker]

/-- The marker options of a token decide the linker's flag by the last of them. -/
theorem foldl_linkerOption (on : Bool) (os : List Text) :
    os.foldl linkerOption on =
      ((os.filter isMarker).getLast?.map (· == "--whole-archive".toList)).getD on := by
  induction os using List.reverseRecOn with
  | nil => rfl
  | append_singleton os o ih =>
    rw [List.foldl_append, List.filter_append]
    simp only [List.foldl_cons, List.foldl_nil]
    by_cases ho : isMarker o = true
    · rw [List.filter_singleton, ho]
      rcases isMarker_iff.1 ho with rfl | rfl
      · simp [linkerOption]
      · simp [linkerOption]
    · have hne := ho
      rw [isMarker_iff, not_or] at hne
      rw [Bool.not_eq_true] at ho
      rw [List.filter_singleton, ho, linkerOption, if_neg hne.1, if_neg hne.2, ih]
      simp

theorem linkerReads_eq (on : Bool) (wlArgs : Text) :
    linkerReads on wlArgs =
      ((lastMarker wlArgs).map (· == "--whole-archive".toList)).getD on :=
  foldl_linkerOption on _

theorem mem_of_lastMarker {wlArgs o : Text} (h : lastMarker wlArgs = some o) :
    o ∈ splitComma wlArgs ∧ isMarker o = true :=
  List.mem_filter.1 (List.mem_of_getLast? h)

theorem lastMarker_eq_none {wlArgs : Text} :
    lastMarker wlArgs = none ↔ ∀ o ∈ splitComma wlArgs, isMarker o = false := by
  simp [lastMarker]

/-- A marker option is mentioned. -/
theorem mentions_of_lastMarker {wlArgs o : Text} (h : lastMarker wlArgs = some o) :
    Mentions wlArgs := by
  obtain ⟨hm, ho⟩ := mem_of_lastMarker h
  rcases isMarker_iff.1 ho with rfl | rfl
  · exact .inl (infix_of_mem_splitComma hm)
  · exact .inr (infix_of_mem_splitComma hm)

theorem trackRegion_of_mentions {wlArgs : Text} (h : Mentions wlArgs) (on : Bool) :
    trackRegion on wlArgs = !contains wlArgs "--no-whole-archive".toList := by
  unfold trackRegion
  cases hn : contains wlArgs "--no-whole-archive".toList with
  | true => simp
  | false =>
    rcases h with h | h
    · rw [contains_iff.2 h]; rfl
    · rw [contains_iff.2 h] at hn; cases hn

theorem trackRegion_of_not_mentions {wlArgs : Text} (h : ¬ Mentions wlArgs) (on : Bool) :
    trackRegion on wlArgs = on := by
  rw [Mentions, not_or, ← contains_iff, ← contains_iff, Bool.not_eq_true, Bool.not_eq_true] at h
  simp only [trackRegion, h.1, h.2]
  rfl

/-- `Fits` is the agreement of the two readings of a token that mentions a marker. -/
theorem fits_iff {before : List Text} {wlArgs : Text} (h : Mentions wlArgs) (on : Bool) :
    trackRegion on wlArgs = linkerReads (linkerRegion before) wlArgs ↔ Fits before wlArgs := by
  rw [trackRegion_of_mentions h, linkerReads_eq, Fits]
  cases hl : lastMarker wlArgs with
  | none =>
    simp only [Option.map_none, Option.getD_none, ← contains_iff]
    cases contains wlArgs "--no-whole-archive".toList <;> cases linkerRegion before <;> simp
  | some o =>
    obtain ⟨hm, ho⟩ := mem_of_lastMarker hl
    simp only [Option.map_some, Option.getD_some, ← contains_iff]
    rcases isMarker_iff.1 ho with rfl | rfl
    · generalize contains wlArgs "--no-whole-archive".toList = c
      cases c <;> decide
    · -- the option `--no-whole-archive` is found by its text
      rw [contains_iff.2 (infix_of_mem_splitComma hm)]
      decide

/-! ## All tokens -/

/-- The parser's region flag after one token. -/
def codeToken (on : Bool) (flag : Text) : Bool :=
  match token flag with
  | .linker wlArgs => trackRegion on wlArgs
  | _ => on

/-- The parser's region flag after `tokens`. -/
def codeRegion (tokens : List Text) : Bool := tokens.foldl codeToken false

theorem codeRegion_snoc (tokens : List Text) (flag : Text) :
    codeRegion (tokens ++ [flag]) = codeToken (codeRegion tokens) flag := by
  simp [codeRegion]

theorem linkerRegion_snoc (tokens : List Text) (flag : Text) :
    linkerRegion (tokens ++ [flag]) = linkerToken (linkerRegion tokens) flag := by
  simp [linkerRegion]

theorem handleLibrary_region {P : PkgConfigParser} {fs : FileSystem} {dirs : List Text}
    {s s' : ParseState} {n : Text} (h : P.handleLibrary fs dirs s n = some s') :
    s'.inWholeArchiveRegion = s.inWholeArchiveRegion := by
  unfold PkgConfigParser.handleLibrary at h
  split at h
  · split at h
    · split at h
      · obtain ⟨fl, -, rfl⟩ := Option.map_eq_some_iff.1 h
        rfl
      · cases h; rfl
    · cases h; rfl
  · cases h; rfl

theorem step_region {P : PkgConfigParser} {fs : FileSystem} {dirs : List Text}
    {s s' : ParseState} {flag : Text} (h : P.step fs dirs s flag = some s') :
    s'.inWholeArchiveRegion = codeToken s.inWholeArchiveRegion flag := by
  rw [step_eq] at h
  unfold codeToken
  cases ht : token flag with
  | searchPath path => simp only [ht] at h; cases h; rfl
  | linker wlArgs => simp only [ht] at h; cases h; rfl
  | lib n => simp only [ht] at h; exact handleLibrary_region h
  | pthread => simp only [ht] at h; split at h <;> cases h <;> rfl
  | other => simp only [ht] at h; cases h; rfl

theorem loop_region (P : PkgConfigParser) (fs : FileSystem) (dirs tokens : List Text) :
    (P.loop fs dirs tokens).map (·.inWholeArchiveRegion) = some (codeRegion tokens) := by
  induction tokens using List.reverseRecOn with
  | nil => rfl
  | append_singleton tokens flag ih =>
    obtain ⟨s, hs, h⟩ := loop_tracks P fs dirs tokens
    obtain ⟨s', hs', -⟩ := h.step P fs dirs flag
    rw [hs] at ih
    rw [P.loop_snoc, hs, codeRegion_snoc, ← Option.some.inj ih]
    simp [hs', step_region hs']

/-- A token that mentions a marker is the last one that does. -/
theorem lastMentionFits_snoc_mention {tokens : List Text} {flag wlArgs : Text}
    (ht : token flag = .linker wlArgs) (hm : Mentions wlArgs) :
    LastMentionFits (tokens ++ [flag]) ↔ Fits tokens wlArgs := by
  constructor
  · intro h
    exact h tokens flag wlArgs [] rfl ht hm (by simp)
  · intro h before f a after he hf ha hafter
    rcases List.eq_nil_or_concat after with rfl | ⟨after, g, rfl⟩
    · obtain ⟨rfl, hfe⟩ := List.append_inj' he rfl
      obtain rfl : flag = f := by simpa using hfe
      rw [ht, Token.linker.injEq] at hf
      exact hf ▸ h
    · rw [List.concat_eq_append, ← List.cons_append, ← List.append_assoc] at he
      obtain ⟨-, hge⟩ := List.append_inj' he rfl
      obtain rfl : flag = g := by simpa using hge
      exact absurd hm (hafter flag (by simp) wlArgs ht)

/-- A token that mentions no marker changes nothing. -/
theorem lastMentionFits_snoc_skip {tokens : List Text} {flag : Text}
    (hn : ∀ a, token flag = .linker a → ¬ Mentions a) :
    LastMentionFits (tokens ++ [flag]) ↔ LastMentionFits tokens := by
  constructor
  · intro h before f a after he hf ha hafter
    refine h before f a (after ++ [flag]) (by simp [he]) hf ha fun g hg b hb => ?_
    rcases List.mem_append.1 hg with hg | hg
    · exact hafter g hg b hb
    · rw [List.mem_singleton] at hg
      exact hn b (hg ▸ hb)
  · intro h before f a after he hf ha hafter
    rcases List.eq_nil_or_concat after with rfl | ⟨after, g, rfl⟩
    · obtain ⟨-, hfe⟩ := List.append_inj' he rfl
      obtain rfl : flag = f := by simpa using hfe
      exact absurd ha (hn a hf)
    · rw [List.concat_eq_append, ← List.cons_append, ← List.append_assoc] at he
      obtain ⟨rfl, -⟩ := List.append_inj' he rfl
      exact h before f a after rfl hf ha fun g hg => hafter g (by simp [hg])

/-- **The two flags are equal** exactly when the last mention fits. -/
theorem codeRegion_eq_iff (tokens : List Text) :
    codeRegion tokens = linkerRegion tokens ↔ LastMentionFits tokens := by
  induction tokens using List.reverseRecOn with
  | nil => simp [codeRegion, linkerRegion, LastMentionFits]
  | append_singleton tokens flag ih =>
    rw [codeRegion_snoc, linkerRegion_snoc]
    unfold codeToken linkerToken
    cases ht : token flag with
    | linker wlArgs =>
      by_cases hm : Mentions wlArgs
      · rw [lastMentionFits_snoc_mention ht hm]
        exact fits_iff hm _
      · have hl : lastMarker wlArgs = none := by
          cases hl : lastMarker wlArgs with
          | none => rfl
          | some o => exact absurd (mentions_of_lastMarker hl) hm
        rw [lastMentionFits_snoc_skip (by rintro a ha; rw [ht] at ha; cases ha; exact hm), ← ih]
        dsimp only
        rw [trackRegion_of_not_mentions hm, linkerReads_eq, hl]
        rfl
    | searchPath path => rw [lastMentionFits_snoc_skip (by simp [ht]), ← ih]
    | lib n => rw [lastMentionFits_snoc_skip (by simp [ht]), ← ih]
    | pthread => rw [lastMentionFits_snoc_skip (by simp [ht]), ← ih]
    | other => rw [lastMentionFits_snoc_skip (by simp [ht]), ← ih]

/-! ## The arguments that are passed through -/

/-- A token that is passed through gives itself. -/
theorem entry_eq_linkerArg {ts : List Text} {t arg : Text} :
    entry ts t = some (.linkerArg arg) ↔
      arg = t ∧ ∃ wlArgs, token arg = .linker wlArgs ∧ passThrough wlArgs = true := by
  by_cases hl : ∃ wlArgs, token t = .linker wlArgs
  · obtain ⟨wlArgs, ht⟩ := hl
    unfold entry
    rw [ht]
    simp only [← passThrough_eq ht]
    constructor
    · intro h
      split at h
      · rename_i hp
        cases h
        exact ⟨rfl, wlArgs, ht, hp⟩
      · cases h
    · intro ⟨harg, a, ha, hp⟩
      subst harg
      rw [ht, Token.linker.injEq] at ha
      rw [ha, hp]
      rfl
  · refine iff_of_false (fun h => ?_) (fun ⟨harg, a, ha, _⟩ => hl ⟨a, harg ▸ ha⟩)
    unfold entry at h
    split at h
    · cases h
    · rename_i wlArgs ht
      exact hl ⟨wlArgs, ht⟩
    · split at h <;> cases h
    · split at h <;> cases h
    · cases h

theorem mem_image_linkerArg {arg : Text} {ts : List Text} :
    Shape.linkerArg arg ∈ image ts ↔
      arg ∈ ts ∧ ∃ wlArgs, token arg = .linker wlArgs ∧ passThrough wlArgs = true := by
  induction ts using List.reverseRecOn with
  | nil => simp [image, imageFrom]
  | append_singleton ts t ih =>
    rw [image_snoc, List.mem_append, ih, Option.mem_toList, entry_eq_linkerArg, List.mem_append,
      List.mem_singleton, or_and_right]

/-- The parts of a `-Wl,` token are `-Wl` and its options. -/
theorem carriesMarker_iff {flag wlArgs : Text} (ht : token flag = .linker wlArgs) :
    CarriesMarker flag ↔ lastMarker wlArgs ≠ none := by
  have hsplit : splitComma flag = "-Wl".toList :: splitComma wlArgs := by
    rw [token_linker ht]
    have hcomma : ',' ∉ "-Wl".toList := by decide
    exact List.splitOn_append_cons_self_of_not_mem hcomma wlArgs
  rw [CarriesMarker, hsplit, ne_eq, lastMarker_eq_none]
  simp only [List.mem_cons, exists_eq_or_imp, not_forall, Bool.not_eq_false]
  have h0 : isMarker "-Wl".toList = false := by decide
  rw [h0]
  simp

/-- **`parse` reads the markers as the linker does and passes none through** exactly when, before
every library, the last token that mentions a marker fits, and no passed-through token has a
marker option. -/
theorem markersConsumed_iff (P : PkgConfigParser) (fs : FileSystem) (pkgConfigOutput : Text) :
    MarkersConsumed P fs pkgConfigOutput ↔
      (∀ i flag n, (splitWhitespace pkgConfigOutput)[i]? = some flag → token flag = .lib n →
        LastMentionFits ((splitWhitespace pkgConfigOutput).take i)) ∧
      ∀ flag ∈ splitWhitespace pkgConfigOutput, ∀ wlArgs, token flag = .linker wlArgs →
        passThrough wlArgs = true → lastMarker wlArgs = none := by
  obtain ⟨s, hs, h⟩ := loop_tracks P fs (libDirs (splitWhitespace pkgConfigOutput))
    (splitWhitespace pkgConfigOutput)
  have hparse : P.parse fs pkgConfigOutput = some s.flags := by
    simp [PkgConfigParser.parse, hs]
  have hregion : ∀ i, (P.regionAt fs (splitWhitespace pkgConfigOutput) i =
      some (linkerRegion ((splitWhitespace pkgConfigOutput).take i))) ↔
      LastMentionFits ((splitWhitespace pkgConfigOutput).take i) := by
    intro i
    rw [PkgConfigParser.regionAt, loop_region, Option.some.injEq, codeRegion_eq_iff]
  have hargs : ∀ arg, LinkerFlag.linkerArg arg ∈ s.flags ↔
      Shape.linkerArg arg ∈ image (splitWhitespace pkgConfigOutput) := by
    intro arg
    rw [← h.shape, List.mem_map]
    constructor
    · exact fun hm => ⟨_, hm, rfl⟩
    · rintro ⟨fl, hm, he⟩
      cases fl with
      | linkerArg a => cases he; exact hm
      | searchPath p => cases he
      | library n k => cases he
  simp only [MarkersConsumed, hparse, Option.some.injEq, exists_eq_left', RegionsAgree, hregion,
    hargs, mem_image_linkerArg]
  refine and_congr_right fun _ => ?_
  constructor
  · intro hno flag hm wlArgs ht hp
    have := hno flag ⟨hm, wlArgs, ht, hp⟩
    rwa [carriesMarker_iff ht, not_not] at this
  · rintro hno arg ⟨hm, wlArgs, ht, hp⟩
    rw [carriesMarker_iff ht, not_not]
    exact hno arg hm wlArgs ht hp

/-- Two markers in one token: the linker is inside the region, the parser is not. -/
theorem not_markersConsumed :
    ¬ MarkersConsumed .new (fun _ => false)
      "-Wl,--no-whole-archive,--whole-archive,--export-dynamic -la".toList := by
  rintro ⟨flags, -, hr, -⟩
  exact absurd (hr 1 "-la".toList "a".toList (by decide) (by decide)) (by decide)

end SpdkIo.Pkgconf
