import SpdkIo.Pkgconf.Spec

/-!
# One iteration of `parse`

`step_eq`: the iteration by the reading of its token. `handleLibrary_fresh` and
`handleLibrary_seen` say what `handleLibrary` does to a new and to a known library; the second
needs the index of the library to point at its entry (`Indexed`), and then does not panic.
`Effect` is what an iteration can do to the loop variables, whatever its token (`step_effect`).
-/

namespace SpdkIo.Pkgconf

open Text

/-! ## Tokens -/

theorem token_linker {flag wlArgs : Text} (h : token flag = .linker wlArgs) :
    flag = "-Wl,".toList ++ wlArgs := by
  unfold token at h
  split at h
  · cases h
  split at h
  · rename_i a ha
    cases h
    exact stripPrefix_eq_some.1 ha
  split at h
  · cases h
  split at h
  · cases h
  split at h <;> cases h

@[simp] theorem token_searchPath (path : Text) :
    token ("-L".toList ++ path) = .searchPath path := by
  simp [token, stripPrefix, List.dropPrefix?]

theorem searchPath_of_token {flag path : Text} (h : token flag = .searchPath path) :
    stripPrefix flag "-L".toList = some path := by
  unfold token at h
  split at h
  · cases h
    assumption
  split at h
  · cases h
  split at h
  · cases h
  split at h
  · cases h
  split at h <;> cases h

/-- Only search paths start with `-L`. -/
theorem stripPrefix_of_token {flag : Text} (h : ∀ path, token flag ≠ .searchPath path) :
    stripPrefix flag "-L".toList = none := by
  cases hp : stripPrefix flag "-L".toList with
  | none => rfl
  | some path =>
    rw [stripPrefix_eq_some.1 hp] at h
    exact absurd (token_searchPath path) (h path)

theorem mem_libDirs {tokens : List Text} {dir : Text} :
    dir ∈ libDirs tokens ↔ "-L".toList ++ dir ∈ tokens := by
  simp only [libDirs, List.mem_filterMap, stripPrefix_eq_some]
  refine ⟨fun h => ?_, fun h => ⟨_, h, rfl⟩⟩
  obtain ⟨t, hm, he⟩ := h
  exact he ▸ hm

theorem isStaticAvailable_iff {P : PkgConfigParser} {fs : FileSystem} {tokens : List Text}
    {n : Text} : P.isStaticAvailable fs n (libDirs tokens) = true ↔ Available P fs tokens n := by
  simp only [PkgConfigParser.isStaticAvailable, Available, List.any_eq_true, mem_libDirs,
    Bool.and_eq_true, Bool.not_eq_true', List.any_eq_false, Bool.not_eq_true]

/-- The pass-through test reads the arguments or the whole token alike. -/
theorem passThrough_eq {flag wlArgs : Text} (h : token flag = .linker wlArgs) :
    passThrough wlArgs =
      (contains flag "export-dynamic".toList || contains flag "as-needed".toList) := by
  have hin : ∀ (c : Char) (q : Text), c ∉ "-Wl,".toList →
      contains flag (c :: q) = contains wlArgs (c :: q) := by
    intro c q hc
    rw [Bool.eq_iff_iff, contains_iff, contains_iff, token_linker h]
    exact infix_append_of_head hc
  have he := hin 'e' "xport-dynamic".toList (by decide)
  have ha := hin 'a' "s-needed".toList (by decide)
  exact (congrArg₂ (· || ·) he ha).symm

/-! ## The iteration by its token -/

section
variable (P : PkgConfigParser) (fs : FileSystem) (dirs : List Text)

theorem step_eq (s : ParseState) (flag : Text) :
    P.step fs dirs s flag =
      match token flag with
      | .searchPath path => some { s with flags := s.flags ++ [.searchPath path] }
      | .linker wlArgs => some { s with
          inWholeArchiveRegion := trackRegion s.inWholeArchiveRegion wlArgs
          flags := if passThrough wlArgs then s.flags ++ [.linkerArg flag] else s.flags }
      | .lib libName => P.handleLibrary fs dirs s libName
      | .pthread =>
        if "pthread".toList ∈ s.seenLibs then some s
        else some { s with
          flags := s.flags ++ [.library "pthread".toList .default]
          seenLibs := "pthread".toList :: s.seenLibs }
      | .other => some s := by
  unfold PkgConfigParser.step token
  cases h1 : stripPrefix flag "-L".toList with
  | some path => rfl
  | none =>
  cases h2 : stripPrefix flag "-Wl,".toList with
  | some wlArgs => rfl
  | none =>
  cases h3 : stripPrefix flag "-l:".toList with
  | some rest => rfl
  | none =>
  cases h4 : stripPrefix flag "-l".toList with
  | some libName => rfl
  | none =>
  by_cases hp : flag = "-pthread".toList
  · by_cases hs : "pthread".toList ∈ s.seenLibs
    · simp only [hp, hs, not_true, and_false, if_false, if_true]
    · simp only [hp, hs, not_false_eq_true, and_self, if_true, if_false]
  · simp only [hp, false_and, if_false]

/-- The kind of a library at its first token. -/
def firstKind (s : ParseState) (n : Text) : LinkKind :=
  let hasStatic := P.isStaticAvailable fs n dirs
  if (s.inWholeArchiveRegion || P.forceWholeArchive.contains n) && hasStatic then .wholeArchive
  else if hasStatic then .static
  else .default

theorem handleLibrary_fresh {s : ParseState} {n : Text} (h : n ∉ s.seenLibs) :
    P.handleLibrary fs dirs s n = some { s with
      flags := s.flags ++ [.library n (firstKind P fs dirs s n)]
      seenLibs := n :: s.seenLibs
      libIndices := (n, s.flags.length) :: s.libIndices } := by
  simp [PkgConfigParser.handleLibrary, h, firstKind]

/-- Every recorded index is that of the library's entry. -/
def Indexed (s : ParseState) : Prop :=
  ∀ n i, s.libIndices.lookup n = some i → ∃ k, s.flags[i]? = some (.library n k)

/-- A known library is upgraded to `WholeArchive` or left alone. -/
theorem handleLibrary_seen {s : ParseState} {n : Text} (hi : Indexed s) (h : n ∈ s.seenLibs) :
    (∃ i, s.inWholeArchiveRegion = true ∧ s.libIndices.lookup n = some i ∧
      s.flags[i]? = some (.library n .static) ∧
      P.handleLibrary fs dirs s n =
        some { s with flags := s.flags.set i (.library n .wholeArchive) }) ∨
    ((s.inWholeArchiveRegion = true → ∀ i, s.libIndices.lookup n = some i →
        s.flags[i]? ≠ some (.library n .static)) ∧
      P.handleLibrary fs dirs s n = some s) := by
  unfold PkgConfigParser.handleLibrary
  rw [if_pos h]
  cases hr : s.inWholeArchiveRegion with
  | false => exact .inr ⟨by simp, rfl⟩
  | true =>
    cases hl : s.libIndices.lookup n with
    | none => exact .inr ⟨by simp, rfl⟩
    | some i =>
      obtain ⟨k, hk⟩ := hi n i hl
      cases k with
      | static => exact .inl ⟨i, rfl, rfl, hk, by simp [upgrade, hk]⟩
      | default => exact .inr ⟨by simp [hk], by simp [upgrade, hk, ← hr]⟩
      | wholeArchive => exact .inr ⟨by simp [hk], by simp [upgrade, hk, ← hr]⟩

/-! ## What an iteration can do -/

/-- Entries that are no libraries are appended, a static library is upgraded at its index, or a
new library is appended, with an index or (`-pthread`) without. -/
inductive Effect (s : ParseState) : ParseState → Prop
  | plain (fl : List LinkerFlag) (region : Bool) (hfl : libraryNames fl = []) :
      Effect s { s with flags := s.flags ++ fl, inWholeArchiveRegion := region }
  | upgrade (n : Text) (i : Nat) (hl : s.libIndices.lookup n = some i)
      (hk : s.flags[i]? = some (.library n .static)) :
      Effect s { s with flags := s.flags.set i (.library n .wholeArchive) }
  | fresh (n : Text) (k : LinkKind) (hn : n ∉ s.seenLibs) :
      Effect s { s with
        flags := s.flags ++ [.library n k]
        seenLibs := n :: s.seenLibs
        libIndices := (n, s.flags.length) :: s.libIndices }
  | pthread (hn : "pthread".toList ∉ s.seenLibs) :
      Effect s { s with
        flags := s.flags ++ [.library "pthread".toList .default]
        seenLibs := "pthread".toList :: s.seenLibs }

theorem Effect.refl (s : ParseState) : Effect s s := by
  have h := Effect.plain (s := s) [] s.inWholeArchiveRegion rfl
  rwa [List.append_nil] at h

theorem handleLibrary_effect {s s' : ParseState} {n : Text} (hi : Indexed s)
    (he : P.handleLibrary fs dirs s n = some s') : Effect s s' := by
  by_cases hn : n ∈ s.seenLibs
  · obtain ⟨i, -, hl, hk, he'⟩ | ⟨-, he'⟩ := handleLibrary_seen P fs dirs hi hn
    · rw [he, Option.some.injEq] at he'
      exact he' ▸ .upgrade n i hl hk
    · rw [he, Option.some.injEq] at he'
      exact he' ▸ .refl s
  · rw [handleLibrary_fresh P fs dirs hn, Option.some.injEq] at he
    exact he ▸ .fresh n _ hn

theorem step_effect {s s' : ParseState} {flag : Text} (hi : Indexed s)
    (he : P.step fs dirs s flag = some s') : Effect s s' := by
  rw [step_eq] at he
  cases ht : token flag with
  | searchPath path =>
    simp only [ht, Option.some.injEq] at he
    exact he ▸ .plain [.searchPath path] s.inWholeArchiveRegion rfl
  | linker wlArgs =>
    simp only [ht, Option.some.injEq] at he
    subst he
    split
    · exact .plain [.linkerArg flag] _ rfl
    · have h := Effect.plain (s := s) [] (trackRegion s.inWholeArchiveRegion wlArgs) rfl
      rwa [List.append_nil] at h
  | lib n =>
    simp only [ht] at he
    exact handleLibrary_effect P fs dirs hi he
  | pthread =>
    simp only [ht] at he
    split at he
    · cases he
      exact .refl s
    · rename_i hn
      cases he
      exact .pthread hn
  | other =>
    simp only [ht, Option.some.injEq] at he
    exact he ▸ .refl s

end

end SpdkIo.Pkgconf
