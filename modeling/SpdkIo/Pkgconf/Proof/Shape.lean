import SpdkIo.Pkgconf.Proof.Step

/-!
# The shape of the result

`Tracks tokens s`: after the tokens `tokens` the loop variables `s` hold the image of the tokens
(kinds erased), the names they name, and indices that point at their entries. Every iteration
keeps it and does not panic (`Tracks.step`), so `parse` returns the image of its tokens, in which
every named library has one entry.
-/

namespace SpdkIo.Pkgconf

open Text

/-! ## Images -/

theorem imageFrom_append (us : List Text) : ∀ (ts earlier : List Text),
    imageFrom earlier (ts ++ us) = imageFrom earlier ts ++ imageFrom (earlier ++ ts) us
  | [], earlier => by simp [imageFrom]
  | t :: ts, earlier => by
    simp only [List.cons_append, imageFrom, imageFrom_append us ts, List.append_assoc,
      List.nil_append]

theorem image_snoc (ts : List Text) (t : Text) :
    image (ts ++ [t]) = image ts ++ (entry ts t).toList := by
  simp [image, imageFrom_append, imageFrom]

@[simp] theorem named_nil {n : Text} : ¬ Named [] n := by simp [Named]

theorem named_snoc {ts : List Text} {t n : Text} :
    Named (ts ++ [t]) n ↔ Named ts n ∨ (token t).name = some n := by
  simp [Named, or_and_right, exists_or]

/-- The entry of a token is a library exactly when it names one for the first time. -/
theorem entry_libName {ts : List Text} {t n : Text} :
    (entry ts t).bind Shape.libName = some n ↔ (token t).name = some n ∧ ¬ Named ts n := by
  unfold entry
  cases token t with
  | searchPath p => simp [Token.name, Shape.libName]
  | other => simp [Token.name]
  | linker a => simp only [Token.name]; split <;> simp [Shape.libName]
  | lib m =>
    simp only [Token.name, Option.some.injEq]
    split
    · rename_i hm
      simp only [Option.bind_none, reduceCtorEq, false_iff, not_and, not_not]
      rintro rfl
      exact hm
    · rename_i hm
      simp only [Option.bind_some, Shape.libName, Option.some.injEq]
      exact ⟨fun h => ⟨h, h ▸ hm⟩, fun h => h.1⟩
  | pthread =>
    simp only [Token.name, Option.some.injEq]
    split
    · rename_i hm
      simp only [Option.bind_none, reduceCtorEq, false_iff, not_and, not_not]
      rintro rfl
      exact hm
    · rename_i hm
      simp only [Option.bind_some, Shape.libName, Option.some.injEq]
      exact ⟨fun h => ⟨h, h ▸ hm⟩, fun h => h.1⟩

/-- The names in the image, in order. -/
theorem imageNames_snoc (ts : List Text) (t : Text) :
    (image (ts ++ [t])).filterMap Shape.libName =
      (image ts).filterMap Shape.libName ++ ((entry ts t).bind Shape.libName).toList := by
  rw [image_snoc, List.filterMap_append]
  cases entry ts t with
  | none => rfl
  | some e => cases h : e.libName <;> simp [h]

/-- **Every named library is in the image**, and no other. -/
theorem mem_imageNames {n : Text} : ∀ {ts : List Text},
    n ∈ (image ts).filterMap Shape.libName ↔ Named ts n := by
  intro ts
  induction ts using List.reverseRecOn with
  | nil => simp [image, imageFrom]
  | append_singleton ts t ih =>
    rw [imageNames_snoc, List.mem_append, ih, named_snoc, Option.mem_toList, entry_libName]
    by_cases hn : Named ts n <;> simp [hn]

/-- **The names in the image are distinct.** -/
theorem imageNames_nodup : ∀ ts : List Text, ((image ts).filterMap Shape.libName).Nodup := by
  intro ts
  induction ts using List.reverseRecOn with
  | nil => simp [image, imageFrom]
  | append_singleton ts t ih =>
    rw [imageNames_snoc, List.nodup_append]
    refine ⟨ih, by cases (entry ts t).bind Shape.libName <;> simp, fun a ha b hb hab => ?_⟩
    subst hab
    rw [Option.mem_toList, entry_libName] at hb
    exact hb.2 (mem_imageNames.1 ha)

/-- The entry of a token is a search path exactly when the token is one. -/
theorem entry_dir (ts : List Text) (t : Text) :
    (entry ts t).bind Shape.dir = stripPrefix t "-L".toList := by
  unfold entry
  cases ht : token t with
  | searchPath path =>
    rw [searchPath_of_token ht]
    rfl
  | other => rw [stripPrefix_of_token (by simp [ht])]; rfl
  | linker a =>
    rw [stripPrefix_of_token (by simp [ht])]
    dsimp only
    split <;> rfl
  | lib n =>
    rw [stripPrefix_of_token (by simp [ht])]
    dsimp only
    split <;> rfl
  | pthread =>
    rw [stripPrefix_of_token (by simp [ht])]
    dsimp only
    split <;> rfl

/-- The directories in the image are those of the first pass, in order. -/
theorem imageDirs_eq (ts : List Text) : (image ts).filterMap Shape.dir = libDirs ts := by
  induction ts using List.reverseRecOn with
  | nil => rfl
  | append_singleton ts t ih =>
    rw [image_snoc, List.filterMap_append, ih, libDirs, libDirs, List.filterMap_append]
    congr 1
    rw [List.filterMap_cons, ← entry_dir ts t]
    cases entry ts t with
    | none => rfl
    | some e => cases h : e.dir <;> simp [h]

/-! ## The loop -/

/-- The loop variables after `tokens` (module doc). -/
structure Tracks (tokens : List Text) (s : ParseState) : Prop where
  shape : s.flags.map (·.shape) = image tokens
  seen : ∀ n, n ∈ s.seenLibs ↔ Named tokens n
  indexed : Indexed s

theorem Tracks.init : Tracks [] {} where
  shape := rfl
  seen n := by simp
  indexed n i h := by simp at h

/-- An index stays right when entries are appended. -/
theorem indexed_append {s : ParseState} (h : Indexed s) (fs : List LinkerFlag) {n : Text} {i : Nat}
    (hl : s.libIndices.lookup n = some i) : ∃ k, (s.flags ++ fs)[i]? = some (.library n k) := by
  obtain ⟨k, hk⟩ := h n i hl
  exact ⟨k, by rw [List.getElem?_append_left (List.getElem?_eq_some_iff.1 hk).1, hk]⟩

/-- An index stays right when an entry is upgraded. -/
theorem indexed_set {s : ParseState} (h : Indexed s) {m n : Text} {i j : Nat} {k : LinkKind}
    (k' : LinkKind) (hk : s.flags[i]? = some (.library m k))
    (hl : s.libIndices.lookup n = some j) :
    ∃ k'', (s.flags.set i (.library m k'))[j]? = some (.library n k'') := by
  obtain ⟨kj, hj⟩ := h n j hl
  by_cases hij : i = j
  · subst hij
    rw [hk, Option.some.injEq, LinkerFlag.library.injEq] at hj
    have hlt := (List.getElem?_eq_some_iff.1 hk).1
    exact ⟨k', by rw [List.getElem?_set_self hlt, hj.1]⟩
  · exact ⟨kj, by rw [List.getElem?_set_ne hij, hj]⟩

theorem lookup_cons_index {l : List (Text × Nat)} {m n : Text} {i j : Nat}
    (h : ((m, j) :: l).lookup n = some i) : (n = m ∧ i = j) ∨ (n ≠ m ∧ l.lookup n = some i) := by
  rw [List.lookup_cons] at h
  split at h
  · rename_i he
    exact .inl ⟨by simpa using he, (Option.some.inj h).symm⟩
  · rename_i he
    exact .inr ⟨by simpa using he, h⟩

theorem Indexed.effect {s s' : ParseState} (h : Indexed s) (he : Effect s s') : Indexed s' := by
  intro m j hl
  cases he with
  | plain fl region hfl => exact indexed_append h fl hl
  | upgrade n i hi hk => exact indexed_set h .wholeArchive hk hl
  | fresh n k hn =>
    obtain ⟨rfl, rfl⟩ | ⟨-, hl⟩ := lookup_cons_index hl
    · exact ⟨k, by simp⟩
    · exact indexed_append h _ hl
  | pthread hn => exact indexed_append h _ hl

/-- An upgrade changes a kind only. -/
theorem shapes_set {flags : List LinkerFlag} {i : Nat} {n : Text} {k : LinkKind} (k' : LinkKind)
    (hk : flags[i]? = some (.library n k)) :
    (flags.set i (.library n k')).map (·.shape) = flags.map (·.shape) := by
  obtain ⟨hlt, he⟩ := List.getElem?_eq_some_iff.1 hk
  have hlt' : i < (flags.map (·.shape)).length := by rwa [List.length_map]
  have hshape : (flags.map (·.shape))[i] = .library n := by rw [List.getElem_map, he]; rfl
  rw [List.map_set, LinkerFlag.shape_library, ← hshape, List.set_getElem_self]

section
variable (P : PkgConfigParser) (fs : FileSystem) (dirs : List Text)

/-- `handleLibrary` keeps `Tracks`, for the token that names the library. -/
theorem Tracks.handleLibrary {tokens : List Text} {s : ParseState} {flag n : Text}
    (h : Tracks tokens s) (ht : token flag = .lib n) :
    ∃ s', P.handleLibrary fs dirs s n = some s' ∧ Tracks (tokens ++ [flag]) s' := by
  have hname : (token flag).name = some n := by rw [ht]; rfl
  have hindexed : ∀ {s'}, P.handleLibrary fs dirs s n = some s' → Indexed s' := fun he =>
    h.indexed.effect (handleLibrary_effect P fs dirs h.indexed he)
  by_cases hn : n ∈ s.seenLibs
  · have hnamed := (h.seen n).1 hn
    have himg : image (tokens ++ [flag]) = image tokens := by
      simp [image_snoc, entry, ht, hnamed]
    have hseen : ∀ m, m ∈ s.seenLibs ↔ Named (tokens ++ [flag]) m := by
      intro m
      rw [h.seen, named_snoc, hname]
      refine ⟨.inl, fun hm => ?_⟩
      rcases hm with hm | hm
      · exact hm
      · rw [← Option.some.inj hm]; exact hnamed
    obtain ⟨i, -, -, hk, he⟩ | ⟨-, he⟩ := handleLibrary_seen P fs dirs h.indexed hn
    · exact ⟨_, he, by rw [himg, ← h.shape, shapes_set _ hk], hseen, hindexed he⟩
    · exact ⟨s, he, himg ▸ h.shape, hseen, h.indexed⟩
  · have hnamed : ¬ Named tokens n := fun hc => hn ((h.seen n).2 hc)
    have he := handleLibrary_fresh P fs dirs hn
    refine ⟨_, he, ?_, fun m => ?_, hindexed he⟩
    · simp [image_snoc, entry, ht, hnamed, h.shape]
    · rw [List.mem_cons, h.seen, named_snoc, hname, Option.some.injEq, or_comm, eq_comm]

/-- An iteration keeps `Tracks`. -/
theorem Tracks.step {tokens : List Text} {s : ParseState} (h : Tracks tokens s) (flag : Text) :
    ∃ s', P.step fs dirs s flag = some s' ∧ Tracks (tokens ++ [flag]) s' := by
  have hindexed : ∀ {s'}, P.step fs dirs s flag = some s' → Indexed s' := fun he =>
    h.indexed.effect (step_effect P fs dirs h.indexed he)
  rw [step_eq] at hindexed ⊢
  -- a token that names no new library leaves the names alone
  have hseen : ∀ (seen : List Text), seen = s.seenLibs →
      (∀ n, (token flag).name = some n → Named tokens n) →
      ∀ n, n ∈ seen ↔ Named (tokens ++ [flag]) n := by
    rintro _ rfl hname n
    rw [h.seen, named_snoc]
    exact ⟨.inl, fun hn => hn.elim id (hname n)⟩
  cases ht : token flag with
  | searchPath path =>
    refine ⟨_, rfl, ?_, hseen _ rfl (by simp [ht, Token.name]), hindexed (by rw [ht])⟩
    simp [image_snoc, entry, ht, h.shape]
  | linker wlArgs =>
    refine ⟨_, rfl, ?_, hseen _ rfl (by simp [ht, Token.name]), hindexed (by rw [ht])⟩
    rw [image_snoc, entry, ht]
    simp only [← passThrough_eq ht]
    split <;> simp [h.shape]
  | lib n => exact h.handleLibrary P fs dirs ht
  | pthread =>
    have hname : (token flag).name = some "pthread".toList := by rw [ht]; rfl
    dsimp only
    split
    · rename_i hm
      have hnamed := (h.seen _).1 hm
      refine ⟨s, rfl, ?_, hseen _ rfl (fun n hn => ?_), h.indexed⟩
      · rw [image_snoc, entry, ht]
        simp only [hnamed, if_true]
        simp [h.shape]
      · rw [hname, Option.some.injEq] at hn
        exact hn ▸ hnamed
    · rename_i hm
      have hnamed : ¬ Named tokens "pthread".toList := fun hc => hm ((h.seen _).2 hc)
      refine ⟨_, rfl, ?_, fun m => ?_, hindexed (by rw [ht]; exact if_neg hm)⟩
      · rw [image_snoc, entry, ht]
        simp only [hnamed, if_false]
        simp [h.shape]
      · rw [List.mem_cons, h.seen, named_snoc, hname, Option.some.injEq, or_comm, eq_comm]
  | other =>
    refine ⟨s, rfl, ?_, hseen _ rfl (by simp [ht, Token.name]), h.indexed⟩
    simp [image_snoc, entry, ht, h.shape]

/-- **The loop does not panic**, and its variables track the tokens. -/
theorem loop_tracks (tokens : List Text) :
    ∃ s, P.loop fs dirs tokens = some s ∧ Tracks tokens s := by
  induction tokens using List.reverseRecOn with
  | nil => exact ⟨{}, rfl, .init⟩
  | append_singleton tokens flag ih =>
    obtain ⟨s, hs, h⟩ := ih
    obtain ⟨s', hs', h'⟩ := h.step P fs dirs flag
    exact ⟨s', by rw [P.loop_snoc, hs]; exact hs', h'⟩

theorem tracks_of_loop {tokens : List Text} {s : ParseState} (h : P.loop fs dirs tokens = some s) :
    Tracks tokens s := by
  obtain ⟨s', hs', h'⟩ := loop_tracks P fs dirs tokens
  rw [h, Option.some.injEq] at hs'
  exact hs' ▸ h'

/-- What the effect of an iteration keeps holds after any tokens. -/
theorem loop_induction {Inv : ParseState → Prop} (h0 : Inv {})
    (heffect : ∀ {s s'}, Inv s → Indexed s → Effect s s' → Inv s') {tokens : List Text} :
    ∀ {s : ParseState}, P.loop fs dirs tokens = some s → Inv s := by
  induction tokens using List.reverseRecOn with
  | nil =>
    intro s hs
    rw [P.loop_nil, Option.some.injEq] at hs
    exact hs ▸ h0
  | append_singleton tokens flag ih =>
    intro s' hs'
    obtain ⟨s, hs, hT⟩ := loop_tracks P fs dirs tokens
    rw [P.loop_snoc, hs] at hs'
    exact heffect (ih hs) hT.indexed (step_effect P fs dirs hT.indexed hs')

theorem Tracks.searchPaths_eq {tokens : List Text} {s : ParseState} (h : Tracks tokens s) :
    searchPaths s.flags = libDirs tokens := by
  rw [← imageDirs_eq, ← h.shape, List.filterMap_map]
  rfl

end

theorem libraryNames_eq (flags : List LinkerFlag) :
    libraryNames flags = (flags.map (·.shape)).filterMap Shape.libName := by
  simp [libraryNames, List.filterMap_map]

theorem Tracks.mem_libraryNames {tokens : List Text} {s : ParseState} (h : Tracks tokens s)
    {n : Text} : n ∈ libraryNames s.flags ↔ Named tokens n := by
  rw [libraryNames_eq, h.shape, mem_imageNames]

theorem Tracks.libraryNames_nodup {tokens : List Text} {s : ParseState} (h : Tracks tokens s) :
    (libraryNames s.flags).Nodup := by
  rw [libraryNames_eq, h.shape]
  exact imageNames_nodup _

/-! ## The result -/

/-- **The result of `parse`, kinds erased, is the image of its tokens**: it has the names of all
library tokens, each once. -/
theorem parse_image (P : PkgConfigParser) (fs : FileSystem) (pkgConfigOutput : Text) :
    ∃ flags, P.parse fs pkgConfigOutput = some flags ∧
      flags.map (·.shape) = image (splitWhitespace pkgConfigOutput) ∧
      (∀ n, n ∈ libraryNames flags ↔ Named (splitWhitespace pkgConfigOutput) n) ∧
      (libraryNames flags).Nodup := by
  obtain ⟨s, hs, h⟩ := loop_tracks P fs (libDirs (splitWhitespace pkgConfigOutput))
    (splitWhitespace pkgConfigOutput)
  exact ⟨s.flags, by simp [PkgConfigParser.parse, hs], h.shape, fun _ => h.mem_libraryNames,
    h.libraryNames_nodup⟩

end SpdkIo.Pkgconf
