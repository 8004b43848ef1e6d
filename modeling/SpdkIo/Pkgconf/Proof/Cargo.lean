import SpdkIo.Pkgconf.Cargo
import SpdkIo.Pkgconf.Proof.Link

/-!
# What cargo reads

The directives printed for a result of `parse` are read back as what its flags ask for, whatever
modifiers are asked for, exactly when every name is `Readable` (`cargo_reads_iff`). One directive is
read by its key and its value (`readDirective_iff`); the lines come apart again because every text
in a result is a piece of a token (`infix_of_mem_image`), which has no newline.
-/

namespace SpdkIo.Pkgconf

open Text

/-! ## One directive -/

theorem splitOnce_append {a b : Text} {c : Char} (h : c ∉ a) :
    splitOnce (a ++ c :: b) c = some (a, b) :=
  splitOnce_eq_some.2 ⟨rfl, h⟩

theorem readDirective_append (key value : Text) (h : '=' ∉ key) :
    readDirective ("cargo:".toList ++ (key ++ '=' :: value)) =
      some (readInstruction key value) := by
  rw [readDirective, stripPrefix_eq_some.2 rfl, Option.bind_some, splitOnce_append h]
  rfl

/-- A name is read as it is if it has no renaming. -/
theorem readName_iff {kind : Option Text} {modifiers : List Text} {name : Text} :
    readName kind modifiers name = ⟨kind, modifiers, name, none⟩ ↔ ':' ∉ name := by
  rw [← splitOnce_eq_none, readName]
  cases splitOnce name ':' with
  | none => simp
  | some p => simp

/-- A name without a kind is read as it is if it has neither a kind nor a renaming. -/
theorem readLib_iff {name : Text} :
    readLib name = ⟨none, [], name, none⟩ ↔ ':' ∉ name ∧ '=' ∉ name := by
  rw [readLib]
  cases hs : splitOnce name '=' with
  | none => rw [readName_iff, ← splitOnce_eq_none (c := '='), hs]; simp
  | some p =>
    have hm : '=' ∈ name := by
      have := (splitOnce_eq_some.1 hs).1
      simp [this]
    simp only [hm, not_true_eq_false, and_false, iff_false]
    -- what is read has a kind
    have hkind : ∀ k m (n : Text), (readName (some k) m n).kind = some k := by
      intro k m n
      rw [readName]
      cases splitOnce n ':' <;> rfl
    intro he
    have hk := congrArg NativeLib.kind he
    cases hp : splitOnce p.1 ':' <;> simp [hp, hkind] at hk

/-- `native` is the first of the kinds of a search path that fits. -/
theorem readSearch_native (path : Text) :
    readSearch ("native=".toList ++ path) = .linkSearch "native".toList path := by
  have hnone : ∀ kind : Text, kind.head? ≠ some 'n' → kind ≠ [] →
      stripPrefix ("native=".toList ++ path) (kind ++ ['=']) = none := by
    intro kind hk hne
    rw [← Option.not_isSome_iff_eq_none, Option.isSome_iff_exists]
    rintro ⟨r, hr⟩
    rw [stripPrefix_eq_some] at hr
    cases kind with
    | nil => exact hne rfl
    | cons c kind => exact hk (congrArg some (List.cons.inj hr).1.symm)
  have hnative : stripPrefix ("native=".toList ++ path) ("native".toList ++ ['=']) = some path :=
    stripPrefix_eq_some.2 rfl
  simp only [readSearch, searchKinds, List.findSome?_cons, hnone "dependency".toList (by decide)
    (by decide), hnone "crate".toList (by decide) (by decide), hnative, Option.map_none,
    Option.map_some]

/-- A library with the kind `static`. -/
theorem readDirective_static (spec : Text) {modifiers name : Text} (h : '=' ∉ spec)
    (hspec : splitOnce spec ':' = some ("static".toList, modifiers)) :
    readDirective ("cargo:".toList ++ ("rustc-link-lib".toList ++ '=' :: (spec ++ '=' :: name))) =
      some (.linkLib (readName (some "static".toList) (splitComma modifiers) name)) := by
  rw [readDirective_append _ _ (by decide)]
  show some (Instruction.linkLib (readLib (spec ++ '=' :: name))) = _
  simp only [readLib, splitOnce_append h, hspec]

/-- What is read of a flag. -/
def LinkerFlag.read (noBundle : Bool) : LinkerFlag → Instruction
  | .searchPath path => .linkSearch "native".toList path
  | .library name kind =>
    .linkLib (match kind with
      | .default => readLib name
      | .static => readName (some "static".toList) (bundleModifiers noBundle) name
      | .wholeArchive => readName (some "static".toList)
          ("+whole-archive".toList :: bundleModifiers noBundle) name)
  | .linkerArg arg => .linkArg arg

theorem readDirective_toCargoDirective (f : LinkerFlag) (noBundle : Bool) :
    readDirective (f.toCargoDirective noBundle) = some (f.read noBundle) := by
  cases f with
  | searchPath path =>
    refine (readDirective_append "rustc-link-search".toList
      ("native=".toList ++ path) (by decide)).trans ?_
    exact congrArg some (readSearch_native path)
  | linkerArg arg =>
    exact readDirective_append "rustc-link-arg".toList arg (by decide)
  | library name kind =>
    cases kind with
    | default =>
      exact readDirective_append "rustc-link-lib".toList name (by decide)
    | static =>
      cases noBundle with
      | true => exact readDirective_static "static:-bundle".toList (by decide) rfl
      | false =>
        refine (readDirective_append "rustc-link-lib".toList
          ("static".toList ++ '=' :: name) (by decide)).trans ?_
        show some (Instruction.linkLib (readLib _)) = _
        rw [readLib, splitOnce_append (by decide)]
        rfl
    | wholeArchive =>
      cases noBundle with
      | true =>
        exact readDirective_static "static:+whole-archive,-bundle".toList (by decide) rfl
      | false =>
        exact readDirective_static "static:+whole-archive".toList (by decide) rfl

/-- **A directive is read as what its flag asks for** exactly when the flag is readable. -/
theorem read_iff (f : LinkerFlag) (noBundle : Bool) :
    f.read noBundle = f.instruction noBundle ↔ f.Readable := by
  cases f with
  | searchPath path => simp [LinkerFlag.read, LinkerFlag.instruction, LinkerFlag.Readable]
  | linkerArg arg => simp [LinkerFlag.read, LinkerFlag.instruction, LinkerFlag.Readable]
  | library name kind =>
    simp only [LinkerFlag.read, LinkerFlag.instruction, LinkerFlag.Readable,
      Instruction.linkLib.injEq]
    cases kind with
    | default => simp [LinkKind.nativeLib, readLib_iff]
    | static => simp [LinkKind.nativeLib, readName_iff]
    | wholeArchive => simp [LinkKind.nativeLib, readName_iff]

theorem map_read_iff {flags : List LinkerFlag} {noBundle : Bool} :
    flags.map (·.read noBundle) = flags.map (·.instruction noBundle) ↔
      ∀ f ∈ flags, f.Readable := by
  rw [List.map_inj_left]
  exact forall₂_congr fun f _ => read_iff f noBundle

/-! ## Pieces of tokens -/

/-- The text in an entry. -/
def Shape.text : Shape → Text
  | .searchPath path => path
  | .library name => name
  | .linkerArg arg => arg

theorem infix_of_stripPrefix {s p r : Text} (h : stripPrefix s p = some r) : r <:+: s := by
  rw [stripPrefix_eq_some] at h
  exact ⟨p, [], by simp [h]⟩

theorem infix_explicitLibName (rest : Text) : explicitLibName rest <:+: rest := by
  have hlib : (stripPrefix rest "lib".toList).getD rest <:+: rest := by
    cases h : stripPrefix rest "lib".toList with
    | none => exact List.infix_rfl
    | some r => exact infix_of_stripPrefix h
  unfold explicitLibName
  cases h : stripSuffix ((stripPrefix rest "lib".toList).getD rest) ".a".toList with
  | none => exact List.infix_rfl
  | some r =>
    rw [stripSuffix_eq_some] at h
    rw [h] at hlib
    exact (List.infix_append [] r _).trans hlib

/-- The name in a token is a piece of it. -/
theorem infix_of_token_name {flag n : Text} (h : (token flag).name = some n) : n <:+: flag := by
  unfold token at h
  split at h
  · cases h
  split at h
  · cases h
  split at h
  · rename_i rest hrest
    cases h
    exact (infix_explicitLibName rest).trans (infix_of_stripPrefix hrest)
  split at h
  · rename_i hname
    cases h
    exact infix_of_stripPrefix hname
  split at h
  · rename_i hflag
    cases h
    rw [hflag]
    exact ⟨['-'], [], rfl⟩
  · cases h

theorem infix_of_entry {earlier : List Text} {flag : Text} {e : Shape}
    (h : entry earlier flag = some e) : e.text <:+: flag := by
  unfold entry at h
  cases ht : token flag with
  | searchPath path =>
    rw [ht] at h
    cases h
    exact infix_of_stripPrefix (searchPath_of_token ht)
  | linker wlArgs =>
    simp only [ht] at h
    split at h
    · cases h
      exact List.infix_rfl
    · cases h
  | lib n =>
    have hn : (token flag).name = some n := by rw [ht]; rfl
    simp only [ht] at h
    split at h
    · cases h
    · cases h
      exact infix_of_token_name hn
  | pthread =>
    have hn : (token flag).name = some "pthread".toList := by rw [ht]; rfl
    simp only [ht] at h
    split at h
    · cases h
    · cases h
      exact infix_of_token_name hn
  | other =>
    rw [ht] at h
    cases h

/-- **Every text in the image is a piece of a token.** -/
theorem infix_of_mem_image {tokens : List Text} {e : Shape} (h : e ∈ image tokens) :
    ∃ flag ∈ tokens, e.text <:+: flag := by
  induction tokens using List.reverseRecOn with
  | nil => cases h
  | append_singleton tokens flag ih =>
    rw [image_snoc, List.mem_append] at h
    rcases h with h | h
    · obtain ⟨t, ht, hp⟩ := ih h
      exact ⟨t, by simp [ht], hp⟩
    · exact ⟨flag, by simp, infix_of_entry (Option.mem_toList.1 h)⟩

/-- The text of a flag, printed. -/
theorem newline_notMem_directive {f : LinkerFlag} (noBundle : Bool) (h : '\n' ∉ f.shape.text) :
    '\n' ∉ f.toCargoDirective noBundle := by
  have hlit : ∀ {p s : Text}, '\n' ∉ p → '\n' ∉ s → '\n' ∉ p ++ s := by
    intro p s hp hs
    simp [hp, hs]
  cases f with
  | searchPath path => exact hlit (by decide) h
  | linkerArg arg => exact hlit (by decide) h
  | library name kind => cases kind <;> cases noBundle <;> exact hlit (by decide) h

/-! ## The output -/

/-- Printed lines are read line by line. -/
theorem readCargo_printLines {lines : List Text} (h : ∀ t ∈ lines, '\n' ∉ t) :
    readCargo (printLines lines) = lines.filterMap readDirective := by
  rw [readCargo, splitLines_printLines h, List.filterMap_append]
  -- the empty rest after the last newline is no instruction
  exact List.append_nil _

/-- The directives of flags are read one by one. -/
theorem filterMap_readDirective (flags : List LinkerFlag) (noBundle : Bool) :
    (toCargoDirectives flags noBundle).filterMap readDirective =
      flags.map (·.read noBundle) := by
  rw [toCargoDirectives, List.filterMap_map, ← List.filterMap_eq_map]
  exact List.filterMap_congr fun f _ => readDirective_toCargoDirective f noBundle

theorem newline_notMem_directives {flags : List LinkerFlag} (noBundle : Bool)
    (h : ∀ f ∈ flags, '\n' ∉ f.shape.text) : ∀ t ∈ toCargoDirectives flags noBundle, '\n' ∉ t := by
  intro t ht
  obtain ⟨f, hf, rfl⟩ := List.mem_map.1 ht
  exact newline_notMem_directive noBundle (h f hf)

section
variable {P : PkgConfigParser} {fs : FileSystem} {tokens : List Text} {s : ParseState}

/-- The texts of the flags have no newline when the tokens are words. -/
theorem newline_notMem_flags (hs : P.loop fs (libDirs tokens) tokens = some s)
    (hw : ∀ t ∈ tokens, Word t) : ∀ f ∈ s.flags, '\n' ∉ f.shape.text := by
  intro f hf
  have hm : f.shape ∈ image tokens := by
    rw [← (tracks_of_loop P fs _ hs).shape]
    exact List.mem_map_of_mem hf
  obtain ⟨t, ht, hp⟩ := infix_of_mem_image hm
  exact fun hn => newline_notMem_of_word (hw t ht) (hp.subset hn)

/-- The flags are readable when the names are. -/
theorem readable_iff (hs : P.loop fs (libDirs tokens) tokens = some s) :
    (∀ f ∈ s.flags, f.Readable) ↔ NamesReadable P fs tokens := by
  have hnamed : ∀ n, Named tokens n ↔ ∃ k, .library n k ∈ s.flags := by
    intro n
    rw [← (tracks_of_loop P fs _ hs).mem_libraryNames, mem_libraryNames]
  refine ⟨fun h n hn => ?_, fun h f hf => ?_⟩
  · obtain ⟨k, hk⟩ := (hnamed n).1 hn
    obtain ⟨hcolon, heq⟩ := h _ hk
    refine ⟨hcolon, fun hm => ?_⟩
    have hne : k ≠ .default := fun hd => heq hd hm
    exact ((ne_default_iff hs hk).1 hne).2
  · cases f with
    | searchPath path => exact trivial
    | linkerArg arg => exact trivial
    | library n k =>
      obtain ⟨hcolon, heq⟩ := h n ((hnamed n).2 ⟨k, hf⟩)
      refine ⟨hcolon, fun hd hm => ?_⟩
      rcases (library_mem_iff hs).1 hf with ⟨-, hk⟩ | ⟨hfirst, -⟩
      · exact hk.2.2.1 hd (heq hm)
      · rw [eq_pthread_of_first hfirst] at hm
        exact absurd hm (by decide)

end

/-- **What cargo reads** of the directives for an output is what its flags ask for, exactly when
every library name is readable. -/
theorem cargo_reads_iff (P : PkgConfigParser) (fs : FileSystem) (pkgConfigOutput : Text)
    (noBundle : Bool) :
    ∃ flags, P.parse fs pkgConfigOutput = some flags ∧
      (readCargo (emitCargoMetadata flags noBundle) = flags.map (·.instruction noBundle) ↔
        NamesReadable P fs (splitWhitespace pkgConfigOutput)) := by
  obtain ⟨s, hs, -⟩ := loop_tracks P fs (libDirs (splitWhitespace pkgConfigOutput))
    (splitWhitespace pkgConfigOutput)
  refine ⟨s.flags, parse_eq_some.2 ⟨s, hs, rfl⟩, ?_⟩
  have hlines := newline_notMem_flags hs fun _ ht => word_of_mem_splitWhitespace ht
  rw [emitCargoMetadata, readCargo_printLines (newline_notMem_directives noBundle hlines),
    filterMap_readDirective, ← readable_iff hs, map_read_iff]

end SpdkIo.Pkgconf
