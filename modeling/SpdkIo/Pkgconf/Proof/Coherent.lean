import SpdkIo.Pkgconf.Proof.Kind

/-!
# The loop variables agree

`Coherent tokens s`: after `tokens`, `seenLibs` has the names of the library entries, `libIndices`
the positions of entries of its names, and a seen name has an index unless `-pthread` is its first
token. Then a `handleLibrary` call on a seen name upgrades the entry of that name, or nothing
(`UpgradesOnly`), and does not panic. All of it holds after every prefix of the tokens
(`parse_coherent`).
-/

namespace SpdkIo.Pkgconf

open Text

/-- The agreement of the loop variables (module doc). `lookup`: the pairs are those of a map. -/
structure Coherent (tokens : List Text) (s : ParseState) : Prop where
  seen : ∀ n, n ∈ s.seenLibs ↔ ∃ k, .library n k ∈ s.flags
  lookup : ∀ n i, (n, i) ∈ s.libIndices → s.libIndices.lookup n = some i
  entry : ∀ n i, (n, i) ∈ s.libIndices →
    i < s.flags.length ∧ ∃ k, s.flags[i]? = some (.library n k)
  indexed : ∀ n ∈ s.seenLibs, firstNaming tokens n ≠ some .pthread → ∃ i, (n, i) ∈ s.libIndices

/-- `flags` is `s.flags`, but for the entry at the index of `n`, which may have become
`WholeArchive` from `Static`. -/
def UpgradesOnly (s : ParseState) (n : Text) (flags : List LinkerFlag) : Prop :=
  flags.length = s.flags.length ∧ ∀ j, flags[j]? = s.flags[j]? ∨
    (s.libIndices.lookup n = some j ∧ s.flags[j]? = some (.library n .static) ∧
      flags[j]? = some (.library n .wholeArchive))

/-! ## The indices as a map -/

/-- A name that has an index is seen, and has only the one. -/
structure Keyed (s : ParseState) : Prop where
  seen : ∀ n i, (n, i) ∈ s.libIndices → n ∈ s.seenLibs
  lookup : ∀ n i, (n, i) ∈ s.libIndices → s.libIndices.lookup n = some i

theorem Keyed.init : Keyed {} where
  seen _ _ h := nomatch h
  lookup _ _ h := nomatch h

theorem Keyed.effect {s s' : ParseState} (h : Keyed s) (he : Effect s s') : Keyed s' := by
  cases he with
  | plain fl region hfl => exact ⟨h.seen, h.lookup⟩
  | upgrade n i hl hk => exact ⟨h.seen, h.lookup⟩
  | fresh n k hn =>
    refine ⟨fun m i hm => ?_, fun m i hm => ?_⟩
    · rcases List.mem_cons.1 hm with hm | hm
      · cases hm
        exact List.mem_cons_self
      · exact List.mem_cons_of_mem n (h.seen m i hm)
    · rcases List.mem_cons.1 hm with hm | hm
      · cases hm
        exact List.lookup_cons_self
      · -- a name with an index is seen, so it is not the new one
        have hne : m ≠ n := fun hmn => hn (hmn ▸ h.seen m i hm)
        rw [List.lookup_cons, beq_false_of_ne hne]
        exact h.lookup m i hm
  | pthread hn => exact ⟨fun m i hm => List.mem_cons_of_mem _ (h.seen m i hm), h.lookup⟩

theorem mem_of_lookup {l : List (Text × Nat)} {n : Text} {i : Nat} (h : l.lookup n = some i) :
    (n, i) ∈ l := by
  obtain ⟨l₁, l₂, rfl, -⟩ := List.lookup_eq_some_iff.1 h
  simp

section
variable (P : PkgConfigParser) (fs : FileSystem) (dirs : List Text) {tokens : List Text}
  {s : ParseState}

theorem coherent_of_loop (hs : P.loop fs dirs tokens = some s) : Coherent tokens s := by
  have hT := tracks_of_loop P fs dirs hs
  have hK : Keyed s := loop_induction P fs dirs .init (fun h _ he => h.effect he) hs
  refine ⟨fun n => ?_, hK.lookup, fun n i hm => ?_, fun n hn hne => ?_⟩
  · rw [hT.seen, ← hT.mem_libraryNames, mem_libraryNames]
  · obtain ⟨k, hk⟩ := hT.indexed n i (hK.lookup n i hm)
    exact ⟨(List.getElem?_eq_some_iff.1 hk).1, k, hk⟩
  · rcases firstNaming_cases ((hT.seen n).1 hn) with hf | hf
    · obtain ⟨i, -, hl, -⟩ := (kinded_of_loop P fs dirs hs).entry n hf
      exact ⟨i, mem_of_lookup hl⟩
    · exact absurd hf hne

/-- A known library: no panic, and no entry changes but its own, from `Static`. -/
theorem handleLibrary_upgradesOnly {n : Text} (hi : Indexed s) (hn : n ∈ s.seenLibs) :
    ∃ flags, P.handleLibrary fs dirs s n = some { s with flags } ∧ UpgradesOnly s n flags := by
  obtain ⟨i, -, hl, hk, he⟩ | ⟨-, he⟩ := handleLibrary_seen P fs dirs hi hn
  · refine ⟨_, he, List.length_set, fun j => ?_⟩
    by_cases hij : i = j
    · subst hij
      have hlt := (List.getElem?_eq_some_iff.1 hk).1
      exact .inr ⟨hl, hk, List.getElem?_set_self hlt⟩
    · exact .inl (List.getElem?_set_ne hij)
  · exact ⟨s.flags, he, rfl, fun _ => .inl rfl⟩

end

/-- **After every prefix of the tokens** the loop variables agree, and a `handleLibrary` call on a
seen name upgrades at most the entry of that name. -/
theorem parse_coherent (P : PkgConfigParser) (fs : FileSystem) (pkgConfigOutput : Text) (k : Nat) :
    ∃ s, P.loop fs (libDirs (splitWhitespace pkgConfigOutput))
        ((splitWhitespace pkgConfigOutput).take k) = some s ∧
      Coherent ((splitWhitespace pkgConfigOutput).take k) s ∧
      ∀ n ∈ s.seenLibs, ∃ flags,
        P.handleLibrary fs (libDirs (splitWhitespace pkgConfigOutput)) s n =
          some { s with flags } ∧
        UpgradesOnly s n flags := by
  obtain ⟨s, hs, hT⟩ := loop_tracks P fs (libDirs (splitWhitespace pkgConfigOutput))
    ((splitWhitespace pkgConfigOutput).take k)
  refine ⟨s, hs, coherent_of_loop P fs _ hs, fun n hn => ?_⟩
  exact handleLibrary_upgradesOnly P fs _ hT.indexed hn

end SpdkIo.Pkgconf
