import Mathlib.Data.List.Pairwise
import SpdkIo.Pkgconf.Proof.Shape

/-!
# The kinds of the libraries

`Kinded tokens s`: after `tokens`, a library first named by a `-l` or `-l:` token has an index,
and the entry at it has the kind its tokens so far give it (`HasKind`); a library first named by
`-pthread`, or not named yet, has no index. Every iteration keeps it (`Kinded.step`): the first
token decides the kind, a later one inside a whole-archive region turns `Static` into
`WholeArchive`. A library without an index keeps the kind `Default` (`Unindexed`). Together they
say which entry a library has (`library_mem_iff`).
-/

namespace SpdkIo.Pkgconf

open Text

theorem HasKind.congr {k : LinkKind} {a w w' : Prop} (h : HasKind k a w) (hw : w ↔ w') :
    HasKind k a w' := by
  unfold HasKind at *
  rwa [← hw]

/-- A library that is not static is not changed by having to be whole. -/
theorem HasKind.keep {k : LinkKind} {a w : Prop} (h : HasKind k a w) (hk : k ≠ .static) :
    HasKind k a True := by
  obtain ⟨h1, h2, h3⟩ := h
  have h2 : ¬ (a ∧ ¬ w) := fun hc => hk (h2.2 hc)
  refine ⟨?_, ?_, h3⟩
  · rw [h1]
    exact ⟨fun hc => ⟨hc.1, trivial⟩, fun hc => ⟨hc.1, Classical.not_not.1 fun hw => h2 ⟨hc.1, hw⟩⟩⟩
  · simp [hk]

/-- A static library that has to be whole becomes `WholeArchive`. -/
theorem HasKind.upgrade {a w : Prop} (h : HasKind .static a w) : HasKind .wholeArchive a True := by
  have ha : a := (h.2.1.1 rfl).1
  simp [HasKind, ha]

/-! ## First tokens and regions -/

theorem firstNaming_snoc {ts : List Text} {t n : Text} :
    firstNaming (ts ++ [t]) n =
      (firstNaming ts n).or (if (token t).name = some n then some (token t) else none) := by
  simp [firstNaming, List.find?_append, List.find?_singleton]

theorem firstNaming_snoc_of_ne {ts : List Text} {t n : Text} (h : (token t).name ≠ some n) :
    firstNaming (ts ++ [t]) n = firstNaming ts n := by
  rw [firstNaming_snoc, if_neg h, Option.or_none]

theorem firstNaming_isSome {ts : List Text} {n : Text} :
    (firstNaming ts n).isSome = true ↔ Named ts n := by
  simp [firstNaming, Named]

theorem firstNaming_eq_none {ts : List Text} {n : Text} :
    firstNaming ts n = none ↔ ¬ Named ts n := by
  rw [← firstNaming_isSome]
  simp

/-- A library that is named keeps its first token. -/
theorem firstNaming_snoc_of_named {ts : List Text} {t n : Text} (h : Named ts n) :
    firstNaming (ts ++ [t]) n = firstNaming ts n := by
  rw [firstNaming_snoc, Option.or_of_isSome (firstNaming_isSome.2 h)]

theorem name_of_firstNaming {ts : List Text} {n : Text} {t : Token}
    (h : firstNaming ts n = some t) : t.name = some n := by
  simpa using List.find?_some h

section
variable (P : PkgConfigParser) (fs : FileSystem) (dirs : List Text)

/-- `ReachedInRegion` over a prefix of the tokens, with the directories of all of them. -/
def Reached (tokens : List Text) (n : Text) : Prop :=
  ∃ i flag, tokens[i]? = some flag ∧ token flag = .lib n ∧
    ∃ s, P.loop fs dirs (tokens.take i) = some s ∧ s.inWholeArchiveRegion = true

theorem reached_libDirs {tokens : List Text} {n : Text} :
    Reached P fs (libDirs tokens) tokens n ↔ ReachedInRegion P fs tokens n := by
  simp only [Reached, ReachedInRegion, PkgConfigParser.regionAt, Option.map_eq_some_iff]

theorem reached_snoc {tokens : List Text} {flag n : Text} {s : ParseState}
    (hs : P.loop fs dirs tokens = some s) :
    Reached P fs dirs (tokens ++ [flag]) n ↔
      Reached P fs dirs tokens n ∨ (token flag = .lib n ∧ s.inWholeArchiveRegion = true) := by
  constructor
  · rintro ⟨i, t, ht, hn, s', hs', hr⟩
    rw [List.getElem?_append] at ht
    split at ht
    · rename_i hlt
      rw [List.take_append_of_le_length (by omega)] at hs'
      exact .inl ⟨i, t, ht, hn, s', hs', hr⟩
    · rename_i hge
      obtain ⟨hi, rfl⟩ : i - tokens.length = 0 ∧ flag = t := by
        cases hd : i - tokens.length with
        | zero => rw [hd] at ht; simpa using ht
        | succ k => rw [hd] at ht; simp at ht
      rw [show i = tokens.length by omega, List.take_left, hs, Option.some.injEq] at hs'
      subst hs'
      exact .inr ⟨hn, hr⟩
  · rintro (⟨i, t, ht, hn, s', hs', hr⟩ | ⟨hn, hr⟩)
    · have hlt := (List.getElem?_eq_some_iff.1 ht).1
      refine ⟨i, t, by rw [List.getElem?_append_left hlt, ht], hn, s', ?_, hr⟩
      rw [List.take_append_of_le_length (by omega), hs']
    · exact ⟨tokens.length, flag, by simp, hn, s, by rw [List.take_left, hs], hr⟩

theorem not_reached_of_not_named {tokens : List Text} {n : Text} (h : ¬ Named tokens n) :
    ¬ Reached P fs dirs tokens n := by
  rintro ⟨i, t, ht, hn, -⟩
  exact h ⟨t, List.mem_of_getElem? ht, by rw [hn]; rfl⟩

/-! ## The invariant -/

/-- The library has to be linked whole: forced, or named inside a region. -/
def Whole (tokens : List Text) (n : Text) : Prop :=
  n ∈ P.forceWholeArchive ∨ Reached P fs dirs tokens n

/-- The kinds after `tokens` (module doc). -/
structure Kinded (tokens : List Text) (s : ParseState) : Prop where
  entry : ∀ n, firstNaming tokens n = some (.lib n) →
    ∃ i k, s.libIndices.lookup n = some i ∧ s.flags[i]? = some (.library n k) ∧
      HasKind k (P.isStaticAvailable fs n dirs = true) (Whole P fs dirs tokens n)
  noIndex : ∀ n, firstNaming tokens n ≠ some (.lib n) → s.libIndices.lookup n = none

theorem Kinded.init : Kinded P fs dirs [] {} where
  entry n h := by simp [firstNaming] at h
  noIndex n _ := by simp

theorem firstKind_hasKind (s : ParseState) (n : Text) :
    HasKind (firstKind P fs dirs s n) (P.isStaticAvailable fs n dirs = true)
      (n ∈ P.forceWholeArchive ∨ s.inWholeArchiveRegion = true) := by
  unfold firstKind HasKind
  cases P.isStaticAvailable fs n dirs <;> cases s.inWholeArchiveRegion <;>
    by_cases hf : n ∈ P.forceWholeArchive <;> simp [hf]

theorem whole_snoc {tokens : List Text} {flag n m : Text} {s : ParseState}
    (hs : P.loop fs dirs tokens = some s) (ht : token flag = .lib n) :
    Whole P fs dirs (tokens ++ [flag]) m ↔
      Whole P fs dirs tokens m ∨ (n = m ∧ s.inWholeArchiveRegion = true) := by
  rw [Whole, Whole, reached_snoc P fs dirs hs, ht, Token.lib.injEq, or_assoc]

/-- An iteration that gives no library an index keeps `Kinded` if it keeps the entries right. -/
theorem Kinded.frame {tokens tokens' : List Text} {s s' : ParseState}
    (h : Kinded P fs dirs tokens s)
    (hfirst : ∀ n, firstNaming tokens' n = some (.lib n) ↔ firstNaming tokens n = some (.lib n))
    (hi : s'.libIndices = s.libIndices)
    (hentry : ∀ n i k, s.libIndices.lookup n = some i → s.flags[i]? = some (.library n k) →
      HasKind k (P.isStaticAvailable fs n dirs = true) (Whole P fs dirs tokens n) →
      ∃ k', s'.flags[i]? = some (.library n k') ∧
        HasKind k' (P.isStaticAvailable fs n dirs = true) (Whole P fs dirs tokens' n)) :
    Kinded P fs dirs tokens' s' := by
  constructor
  · intro n hn
    obtain ⟨i, k, hl, hk, hkind⟩ := h.entry n ((hfirst n).1 hn)
    obtain ⟨k', hk', hkind'⟩ := hentry n i k hl hk hkind
    exact ⟨i, k', by rw [hi, hl], hk', hkind'⟩
  · intro n hn
    rw [hi]
    exact h.noIndex n fun hc => hn ((hfirst n).2 hc)

/-- An iteration that names no library, or names one without an index, and only appends. -/
theorem Kinded.append {tokens : List Text} {s s' : ParseState} {flag : Text}
    (fl : List LinkerFlag) (h : Kinded P fs dirs tokens s) (hs : P.loop fs dirs tokens = some s)
    (ht : ∀ n, token flag ≠ .lib n) (hf : s'.flags = s.flags ++ fl)
    (hi : s'.libIndices = s.libIndices) : Kinded P fs dirs (tokens ++ [flag]) s' := by
  have hfirst : ∀ n, firstNaming (tokens ++ [flag]) n = some (.lib n) ↔
      firstNaming tokens n = some (.lib n) := by
    intro n
    rw [firstNaming_snoc]
    cases firstNaming tokens n with
    | some t => simp
    | none => simp [ht n]
  have hwhole : ∀ n, Whole P fs dirs tokens n ↔ Whole P fs dirs (tokens ++ [flag]) n := by
    intro n
    simp [Whole, reached_snoc P fs dirs hs, ht n]
  refine h.frame P fs dirs hfirst hi fun n i k _ hk hkind => ⟨k, ?_, hkind.congr (hwhole n)⟩
  rw [hf, List.getElem?_append_left (List.getElem?_eq_some_iff.1 hk).1, hk]

/-- A known library keeps its first token; the region may upgrade its entry. -/
theorem Kinded.known {tokens : List Text} {s s' : ParseState} {flag n : Text}
    (h : Kinded P fs dirs tokens s) (hT : Tracks tokens s) (hs : P.loop fs dirs tokens = some s)
    (ht : token flag = .lib n) (hn : n ∈ s.seenLibs) (he : P.handleLibrary fs dirs s n = some s') :
    Kinded P fs dirs (tokens ++ [flag]) s' := by
  have hfirst : ∀ m, firstNaming (tokens ++ [flag]) m = some (.lib m) ↔
      firstNaming tokens m = some (.lib m) := by
    intro m
    by_cases hmn : m = n
    · rw [firstNaming_snoc_of_named (hmn ▸ (hT.seen n).1 hn)]
    · rw [firstNaming_snoc_of_ne (by simp [ht, Token.name, Ne.symm hmn])]
  obtain ⟨i, hr, hl, hk, he'⟩ | ⟨hk, he'⟩ := handleLibrary_seen P fs dirs hT.indexed hn
  · rw [he, Option.some.injEq] at he'
    subst he'
    refine h.frame P fs dirs hfirst rfl fun m j k hl' hk' hkind => ?_
    by_cases hmn : m = n
    · subst hmn
      rw [hl, Option.some.injEq] at hl'
      subst hl'
      rw [hk, Option.some.injEq, LinkerFlag.library.injEq] at hk'
      obtain ⟨-, rfl⟩ := hk'
      have hlt := (List.getElem?_eq_some_iff.1 hk).1
      refine ⟨.wholeArchive, List.getElem?_set_self hlt, hkind.upgrade.congr ?_⟩
      simp [whole_snoc P fs dirs hs ht, hr]
    · have hij : i ≠ j := by
        rintro rfl
        rw [hk, Option.some.injEq, LinkerFlag.library.injEq] at hk'
        exact hmn hk'.1.symm
      refine ⟨k, (List.getElem?_set_ne hij).trans hk', hkind.congr ?_⟩
      simp [whole_snoc P fs dirs hs ht, Ne.symm hmn]
  · rw [he, Option.some.injEq] at he'
    subst he'
    refine h.frame P fs dirs hfirst rfl fun m j k hl' hk' hkind => ⟨k, hk', ?_⟩
    by_cases hc : n = m ∧ s'.inWholeArchiveRegion = true
    · -- named inside a region, but not static
      obtain ⟨rfl, hr⟩ := hc
      have hstat : k ≠ .static := fun hks => hk hr j hl' (hks ▸ hk')
      exact (hkind.keep hstat).congr (by simp [whole_snoc P fs dirs hs ht, hr])
    · exact hkind.congr (by simp [whole_snoc P fs dirs hs ht, hc])

/-- A new library gets an index and its first kind. -/
theorem Kinded.fresh {tokens : List Text} {s s' : ParseState} {flag n : Text}
    (h : Kinded P fs dirs tokens s) (hT : Tracks tokens s) (hs : P.loop fs dirs tokens = some s)
    (ht : token flag = .lib n) (hn : n ∉ s.seenLibs) (he : P.handleLibrary fs dirs s n = some s') :
    Kinded P fs dirs (tokens ++ [flag]) s' := by
  have hnamed : ¬ Named tokens n := fun hc => hn ((hT.seen n).2 hc)
  have hother : ∀ m, m ≠ n → firstNaming (tokens ++ [flag]) m = firstNaming tokens m := by
    intro m hmn
    exact firstNaming_snoc_of_ne (by simp [ht, Token.name, Ne.symm hmn])
  rw [handleLibrary_fresh P fs dirs hn, Option.some.injEq] at he
  subst he
  constructor
  · intro m hm
    by_cases hmn : m = n
    · subst hmn
      refine ⟨s.flags.length, firstKind P fs dirs s m, by simp, by simp, ?_⟩
      refine (firstKind_hasKind P fs dirs s m).congr ?_
      rw [whole_snoc P fs dirs hs ht]
      simp [Whole, not_reached_of_not_named P fs dirs hnamed]
    · rw [hother m hmn] at hm
      obtain ⟨i, k, hl, hk, hkind⟩ := h.entry m hm
      refine ⟨i, k, ?_, ?_, hkind.congr (by simp [whole_snoc P fs dirs hs ht, Ne.symm hmn])⟩
      · rw [List.lookup_cons, beq_false_of_ne hmn]
        exact hl
      · rw [List.getElem?_append_left (List.getElem?_eq_some_iff.1 hk).1, hk]
  · intro m hm
    by_cases hmn : m = n
    · subst hmn
      refine absurd ?_ hm
      rw [firstNaming_snoc, firstNaming_eq_none.2 hnamed, ht]
      simp [Token.name]
    · rw [hother m hmn] at hm
      rw [List.lookup_cons, beq_false_of_ne hmn]
      exact h.noIndex m hm

/-- `handleLibrary` keeps `Kinded`, for the token that names the library. -/
theorem Kinded.handleLibrary {tokens : List Text} {s s' : ParseState} {flag n : Text}
    (h : Kinded P fs dirs tokens s) (hT : Tracks tokens s) (hs : P.loop fs dirs tokens = some s)
    (ht : token flag = .lib n) (he : P.handleLibrary fs dirs s n = some s') :
    Kinded P fs dirs (tokens ++ [flag]) s' := by
  by_cases hn : n ∈ s.seenLibs
  · exact h.known P fs dirs hT hs ht hn he
  · exact h.fresh P fs dirs hT hs ht hn he

/-- An iteration keeps `Kinded`. -/
theorem Kinded.step {tokens : List Text} {s s' : ParseState} {flag : Text}
    (h : Kinded P fs dirs tokens s) (hT : Tracks tokens s) (hs : P.loop fs dirs tokens = some s)
    (he : P.step fs dirs s flag = some s') : Kinded P fs dirs (tokens ++ [flag]) s' := by
  rw [step_eq] at he
  cases ht : token flag with
  | searchPath path =>
    simp only [ht, Option.some.injEq] at he
    subst he
    exact h.append P fs dirs [.searchPath path] hs (by simp [ht]) rfl rfl
  | linker wlArgs =>
    simp only [ht, Option.some.injEq] at he
    subst he
    cases hp : passThrough wlArgs with
    | true => exact h.append P fs dirs [.linkerArg flag] hs (by simp [ht]) (by simp) rfl
    | false => exact h.append P fs dirs [] hs (by simp [ht]) (by simp) rfl
  | lib n =>
    simp only [ht] at he
    exact h.handleLibrary P fs dirs hT hs ht he
  | pthread =>
    simp only [ht] at he
    split at he
    · cases he
      exact h.append P fs dirs [] hs (by simp [ht]) (by simp) rfl
    · cases he
      exact h.append P fs dirs [.library _ .default] hs (by simp [ht]) rfl rfl
  | other =>
    simp only [ht, Option.some.injEq] at he
    subst he
    exact h.append P fs dirs [] hs (by simp [ht]) (by simp) rfl

theorem kinded_of_loop {tokens : List Text} : ∀ {s : ParseState},
    P.loop fs dirs tokens = some s → Kinded P fs dirs tokens s := by
  induction tokens using List.reverseRecOn with
  | nil =>
    intro s hs
    rw [P.loop_nil, Option.some.injEq] at hs
    exact hs ▸ .init P fs dirs
  | append_singleton tokens flag ih =>
    intro s' hs'
    obtain ⟨s, hs, hT⟩ := loop_tracks P fs dirs tokens
    rw [P.loop_snoc, hs] at hs'
    exact (ih hs).step P fs dirs hT hs hs'

/-! ## Libraries without an index -/

/-- A library without an index has the kind that `-pthread` gives it. -/
def Unindexed (s : ParseState) : Prop :=
  ∀ n k, .library n k ∈ s.flags → s.libIndices.lookup n = none → k = .default

theorem Unindexed.effect {s s' : ParseState} (h : Unindexed s) (he : Effect s s') :
    Unindexed s' := by
  intro m k hm hnone
  cases he with
  | plain fl region hfl =>
    rcases List.mem_append.1 hm with hm | hm
    · exact h m k hm hnone
    · have hname : m ∈ libraryNames fl := mem_libraryNames.2 ⟨k, hm⟩
      rw [hfl] at hname
      cases hname
  | upgrade n i hl hk =>
    rcases List.mem_or_eq_of_mem_set hm with hm | hm
    · exact h m k hm hnone
    · rw [LinkerFlag.library.injEq] at hm
      rw [hm.1, hl] at hnone
      cases hnone
  | fresh n k' hn =>
    have hne : m ≠ n := by
      rintro rfl
      simp at hnone
    rw [List.lookup_cons, beq_false_of_ne hne] at hnone
    rcases List.mem_append.1 hm with hm | hm
    · exact h m k hm hnone
    · rw [List.mem_singleton, LinkerFlag.library.injEq] at hm
      exact absurd hm.1 hne
  | pthread hn =>
    rcases List.mem_append.1 hm with hm | hm
    · exact h m k hm hnone
    · rw [List.mem_singleton, LinkerFlag.library.injEq] at hm
      exact hm.2

theorem unindexed_of_loop {tokens : List Text} {s : ParseState}
    (hs : P.loop fs dirs tokens = some s) : Unindexed s :=
  loop_induction P fs dirs (fun _ _ hm => nomatch hm) (fun h _ he => h.effect he) hs

end

/-! ## The result -/

/-- A library has one entry. -/
theorem entry_unique {tokens : List Text} {s : ParseState} (h : Tracks tokens s) {n : Text}
    {k k' : LinkKind} (hk : .library n k ∈ s.flags) (hk' : .library n k' ∈ s.flags) : k = k' := by
  have hnd := h.libraryNames_nodup
  rw [libraryNames, List.Nodup, List.pairwise_filterMap] at hnd
  let R (a b : LinkerFlag) : Prop := ∀ m, a.shape.libName = some m → b.shape.libName ≠ some m
  have hR : s.flags.Pairwise R := hnd.imp fun hab m ha hb => hab m ha m hb rfl
  have : Std.Symm R := ⟨fun a b hab m hb ha => hab m ha hb⟩
  refine Classical.byContradiction fun hne => ?_
  exact hR.forall hk hk' (by simp [hne]) n rfl rfl

theorem HasKind.unique {k k' : LinkKind} {a w : Prop} (h : HasKind k a w) (h' : HasKind k' a w) :
    k = k' := by
  cases k with
  | default => exact (h'.2.2.2 (h.2.2.1 rfl)).symm
  | static => exact (h'.2.1.2 (h.2.1.1 rfl)).symm
  | wholeArchive => exact (h'.1.2 (h.1.1 rfl)).symm

section
variable {P : PkgConfigParser} {fs : FileSystem} {tokens : List Text} {s : ParseState} {n : Text}
  {k : LinkKind}

/-- A library first named by a `-l` or `-l:` token has the kind of its tokens. -/
theorem hasKind_of_mem (hs : P.loop fs (libDirs tokens) tokens = some s)
    (hm : .library n k ∈ s.flags) (hf : firstNaming tokens n = some (.lib n)) :
    HasKind k (Available P fs tokens n)
      (n ∈ P.forceWholeArchive ∨ ReachedInRegion P fs tokens n) := by
  obtain ⟨i, k', -, hk', hkind⟩ := (kinded_of_loop P fs _ hs).entry n hf
  rw [entry_unique (tracks_of_loop P fs _ hs) hm (List.mem_of_getElem? hk')]
  rw [Whole, reached_libDirs] at hkind
  rwa [← isStaticAvailable_iff]

/-- The first token that names a library is `-l`, `-l:` or `-pthread`. -/
theorem firstNaming_cases (hn : Named tokens n) :
    firstNaming tokens n = some (.lib n) ∨ firstNaming tokens n = some .pthread := by
  obtain ⟨t, ht⟩ := Option.isSome_iff_exists.1 (firstNaming_isSome.2 hn)
  have hname := name_of_firstNaming ht
  rw [ht]
  cases t with
  | lib m => exact .inl (by rw [Token.name] at hname; rw [Option.some.inj hname])
  | pthread => exact .inr rfl
  | searchPath path => cases hname
  | linker wlArgs => cases hname
  | other => cases hname

/-- **The entry of a library**: its kind by its tokens, or `Default` when `-pthread` is its first
token. -/
theorem library_mem_iff (hs : P.loop fs (libDirs tokens) tokens = some s) :
    .library n k ∈ s.flags ↔
      (firstNaming tokens n = some (.lib n) ∧ HasKind k (Available P fs tokens n)
          (n ∈ P.forceWholeArchive ∨ ReachedInRegion P fs tokens n)) ∨
        (firstNaming tokens n = some .pthread ∧ k = .default) := by
  have hT := tracks_of_loop P fs _ hs
  have hdefault : ∀ k', .library n k' ∈ s.flags → firstNaming tokens n = some .pthread →
      k' = .default := by
    intro k' hm hf
    have hne : firstNaming tokens n ≠ some (.lib n) := by simp [hf]
    exact unindexed_of_loop P fs _ hs n k' hm ((kinded_of_loop P fs _ hs).noIndex n hne)
  have hmem : Named tokens n ↔ ∃ k', .library n k' ∈ s.flags := by
    rw [← hT.mem_libraryNames, mem_libraryNames]
  constructor
  · intro hm
    rcases firstNaming_cases (hmem.2 ⟨k, hm⟩) with hf | hf
    · exact .inl ⟨hf, hasKind_of_mem hs hm hf⟩
    · exact .inr ⟨hf, hdefault k hm hf⟩
  · rintro (⟨hf, hk⟩ | ⟨hf, rfl⟩)
    · obtain ⟨k', hm⟩ := hmem.1 (firstNaming_isSome.1 (by simp [hf]))
      rw [hk.unique (hasKind_of_mem hs hm hf)]
      exact hm
    · obtain ⟨k', hm⟩ := hmem.1 (firstNaming_isSome.1 (by simp [hf]))
      rw [← hdefault k' hm hf]
      exact hm

end

/-- **The kind of a library** first named by a `-l` or `-l:` token: by its availability, by the
forced libraries and by the regions its tokens are reached in. -/
theorem parse_kind {P : PkgConfigParser} {fs : FileSystem} {pkgConfigOutput : Text}
    {flags : List LinkerFlag} {n : Text} {k : LinkKind}
    (hp : P.parse fs pkgConfigOutput = some flags) (hm : .library n k ∈ flags)
    (hf : firstNaming (splitWhitespace pkgConfigOutput) n = some (.lib n)) :
    HasKind k (Available P fs (splitWhitespace pkgConfigOutput) n)
      (n ∈ P.forceWholeArchive ∨ ReachedInRegion P fs (splitWhitespace pkgConfigOutput) n) := by
  simp only [PkgConfigParser.parse, Option.map_eq_some_iff] at hp
  obtain ⟨s, hs, rfl⟩ := hp
  exact hasKind_of_mem hs hm hf

/-- `-L` after the library, a second spelling inside a region: `WholeArchive`. -/
theorem parse_kind_upgrade :
    HasKind .wholeArchive
      (Available .new (· == "/opt/liba.a".toList)
        (splitWhitespace "-la -Wl,--whole-archive -l:liba.a -L/opt".toList) "a".toList)
      ("a".toList ∈ PkgConfigParser.new.forceWholeArchive ∨
        ReachedInRegion .new (· == "/opt/liba.a".toList)
          (splitWhitespace "-la -Wl,--whole-archive -l:liba.a -L/opt".toList) "a".toList) :=
  @parse_kind _ _ _ [.library "a".toList .wholeArchive, .searchPath "/opt".toList] _ _
    (by decide) (by decide) (by decide)

end SpdkIo.Pkgconf
