import SpdkIo.Pkgconf.Printed
import SpdkIo.Pkgconf.Proof.Cflags
import SpdkIo.Pkgconf.Proof.Kind

/-!
# Which flags are read back

A flag without whitespace is one token of the printed text. The parsers return texts of tokens,
so a flag that is read back has no whitespace, and its text is the escaped text of some flag of the
list; a shortest flag with a special character is not, since escaping such a text makes it longer
(`special_of_escape`).
-/

namespace SpdkIo.Pkgconf

open Text Dedup

/-! ## Escaping -/

theorem Shell.escape_eq_self {sh : Shell} {s : Text} (h : ∀ c ∈ s, sh.special c = false) :
    sh.escape s = s := by
  unfold Shell.escape
  induction s with
  | nil => rfl
  | cons c s ih =>
    rw [List.flatMap_cons, h c (by simp), ih fun d hd => h d (by simp [hd])]
    rfl

theorem Shell.length_le_escape (sh : Shell) (s : Text) : s.length ≤ (sh.escape s).length := by
  unfold Shell.escape
  induction s with
  | nil => simp
  | cons c s ih =>
    have hone : 1 ≤ (if sh.special c then ['\\', c] else [c]).length := by
      split <;> simp
    rw [List.flatMap_cons, List.length_append, List.length_cons]
    omega

theorem Shell.length_lt_escape {sh : Shell} {s : Text} (h : ∃ c ∈ s, sh.special c = true) :
    s.length < (sh.escape s).length := by
  obtain ⟨c, hc, hs⟩ := h
  obtain ⟨a, b, rfl⟩ := List.append_of_mem hc
  have ha := sh.length_le_escape a
  have hb := sh.length_le_escape b
  unfold Shell.escape at *
  simp only [List.flatMap_append, List.flatMap_cons, List.length_append, List.length_cons, hs,
    if_true, List.length_nil]
  omega

/-- Escaping a word gives a word. -/
theorem Shell.word_escape {sh : Shell} {s : Text} (h : Word s) : Word (sh.escape s) := by
  obtain ⟨hne, hws⟩ := h
  refine ⟨fun he => hne ?_, fun c hc => ?_⟩
  · have hlen := sh.length_le_escape s
    rw [he] at hlen
    exact List.length_eq_zero_iff.1 (by simpa using hlen)
  · obtain ⟨d, hd, hc⟩ := List.mem_flatMap.1 hc
    split at hc
    · simp only [List.mem_cons, List.not_mem_nil, or_false] at hc
      rcases hc with rfl | rfl
      · decide
      · exact hws c hd
    · rw [List.mem_singleton] at hc
      exact hc ▸ hws d hd

/-- **Texts that all are escaped texts of some of them have no special character.** -/
theorem not_special_of_escaped {sh : Shell} {ts : List Text}
    (h : ∀ t ∈ ts, ∃ u ∈ ts, sh.escape u = t) : ∀ t ∈ ts, ∀ c ∈ t, sh.special c = false := by
  -- induction on the length: a text with a special character is that of a shorter one
  have key : ∀ n, ∀ t ∈ ts, t.length = n → ∀ c ∈ t, sh.special c = false := by
    intro n
    induction n using Nat.strong_induction_on with
    | _ n ih =>
      intro t ht hn c hc
      obtain ⟨u, hu, rfl⟩ := h t ht
      by_cases hs : ∃ d ∈ u, sh.special d = true
      · have hlt := Shell.length_lt_escape hs
        obtain ⟨d, hd, hs⟩ := hs
        have hclean := ih u.length (by omega) u hu rfl d hd
        rw [hs] at hclean
        cases hclean
      · have hclean : ∀ d ∈ u, sh.special d = false := by
          intro d hd
          rw [Bool.eq_false_iff]
          exact fun hc => hs ⟨d, hd, hc⟩
        rw [Shell.escape_eq_self hclean] at hc
        exact hclean c hc
  exact fun t ht => key t.length t ht rfl

/-! ## Tokens -/

theorem token_of_compilerFlag {t : Text} (h : (compilerFlag t).isSome = true) :
    token t = .other := by
  obtain ⟨f, hf⟩ := Option.isSome_iff_exists.1 h
  rw [← toClangArg_of_compilerFlag hf]
  cases f with
  | includePath path => simp [CompilerFlag.toClangArg, token, stripPrefix, List.dropPrefix?]
  | define key value =>
    cases value <;> simp [CompilerFlag.toClangArg, token, stripPrefix, List.dropPrefix?]

/-- Of search paths and unknown tokens, `parse` keeps the search paths. -/
theorem loop_searchPaths (P : PkgConfigParser) (fs : FileSystem) (dirs : List Text)
    {tokens : List Text}
    (h : ∀ t ∈ tokens, (∃ path, token t = .searchPath path) ∨ token t = .other) :
    ∃ s, P.loop fs dirs tokens = some s ∧ s.flags = (libDirs tokens).map .searchPath := by
  induction tokens using List.reverseRecOn with
  | nil => exact ⟨{}, rfl, rfl⟩
  | append_singleton tokens t ih =>
    obtain ⟨s, hs, hf⟩ := ih fun u hu => h u (by simp [hu])
    rw [P.loop_snoc, hs, Option.bind_some, step_eq, libDirs, List.filterMap_append, List.map_append,
      ← libDirs, ← hf]
    rcases h t (by simp) with ⟨path, ht⟩ | ht
    · have hp := searchPath_of_token ht
      rw [ht]
      exact ⟨_, rfl, by simp only [List.filterMap_cons, hp, List.filterMap_nil, List.map_cons,
        List.map_nil]⟩
    · have hp := stripPrefix_of_token (by simp [ht] : ∀ path, token t ≠ .searchPath path)
      rw [ht]
      exact ⟨s, rfl, by simp only [List.filterMap_cons, hp, List.filterMap_nil, List.map_nil,
        List.append_nil]⟩

/-- A search path that `parse` returns is that of a token. -/
theorem mem_tokens_of_searchPath {P : PkgConfigParser} {fs : FileSystem} {output path : Text}
    {flags : List LinkerFlag} (hp : P.parse fs output = some flags)
    (hm : .searchPath path ∈ flags) : "-L".toList ++ path ∈ splitWhitespace output := by
  simp only [PkgConfigParser.parse, Option.map_eq_some_iff] at hp
  obtain ⟨s, hs, rfl⟩ := hp
  rw [← mem_libDirs, ← (tracks_of_loop P fs _ hs).searchPaths_eq]
  exact List.mem_filterMap.2 ⟨_, hm, rfl⟩

/-! ## Package flags -/

namespace PackageFlag

theorem text_eq_toClangArg {f : PackageFlag} {c : CompilerFlag} (h : f.compilerFlag = some c) :
    f.text = c.toClangArg := by
  cases f <;> cases h <;> rfl

/-- A flag whose macro name has no `=` is read as it was meant. -/
theorem compilerFlag_text {f : PackageFlag} (h : '=' ∉ f.key) :
    Pkgconf.compilerFlag f.text = f.compilerFlag := by
  cases f with
  | libDir path => simp [text, compilerFlag, Pkgconf.compilerFlag, stripPrefix, List.dropPrefix?]
  | includeDir path => rw [text, compilerFlag_include, compilerFlag]
  | define key =>
    have hs : splitOnce key '=' = none := splitOnce_eq_none.2 h
    rw [text, compilerFlag_define, hs]
    rfl
  | defineAs key value =>
    have hs : splitOnce (key ++ '=' :: value) '=' = some (key, value) :=
      splitOnce_eq_some.2 ⟨rfl, h⟩
    have he : (defineAs key value).text = "-D".toList ++ (key ++ '=' :: value) := by
      simp [text]
    rw [he, compilerFlag_define, hs]
    rfl

theorem stripPrefix_text (f : PackageFlag) :
    (stripPrefix f.text "-L".toList).map .searchPath = f.linkerFlag := by
  cases f <;> simp [text, linkerFlag, stripPrefix, List.dropPrefix?]

theorem text_ne_nil (f : PackageFlag) : f.text ≠ [] := by
  cases f <;> simp [text]

/-- What the characters of `-L`, `-I`, `-D` and `=` have, those of the text have when those of the
strings do. -/
theorem forall_text_iff {Q : Char → Prop} (h : ∀ c ∈ "-LID=".toList, Q c) (f : PackageFlag) :
    (∀ c ∈ f.text, Q c) ↔ ∀ s ∈ f.strings, ∀ c ∈ s, Q c := by
  have hd := h '-' (by decide)
  have hL := h 'L' (by decide)
  have hI := h 'I' (by decide)
  have hD := h 'D' (by decide)
  have he := h '=' (by decide)
  cases f with
  | libDir path => simp [text, strings, hd, hL]
  | includeDir path => simp [text, strings, hd, hI]
  | define key => simp [text, strings, hd, hD]
  | defineAs key value =>
    simp only [text, strings, List.forall_mem_append, List.forall_mem_cons]
    simp [hd, hD, he]

theorem plain_iff {sh : Shell} {f : PackageFlag} :
    f.Plain sh ↔
      (∀ c ∈ f.text, isWhitespace c = false ∧ sh.special c = false) ∧ '=' ∉ f.key := by
  have hplain : ∀ c ∈ "-LID=".toList, isWhitespace c = false ∧ sh.special c = false := by
    intro c hc
    refine ⟨?_, sh.plain c hc⟩
    simp only [String.reduceToList, List.mem_cons, List.not_mem_nil, or_false] at hc
    rcases hc with rfl | rfl | rfl | rfl | rfl <;> rfl
  rw [Plain, forall_text_iff hplain]

end PackageFlag

/-- A key that is read from a token has no `=`. -/
theorem key_of_compilerFlag {t key : Text} {value : Option Text}
    (h : compilerFlag t = some (.define key value)) : '=' ∉ key := by
  unfold compilerFlag at h
  split at h
  · cases h
  split at h
  · split at h
    · rename_i hs
      cases h
      exact (splitOnce_eq_some.1 hs).2
    · rename_i hs
      cases h
      exact splitOnce_eq_none.1 hs
  · cases h

/-- `parse_cflags` keeps the first of equal flags. -/
theorem parseCflags_eraseDups (P : PkgConfigParser) (output : Text) :
    P.parseCflags output = ((splitWhitespace output).filterMap compilerFlag).eraseDups := by
  have hinj : ∀ t t' c, c ∈ compilerFlag t → c ∈ compilerFlag t' → t = t' := by
    intro t t' c h h'
    rw [← toClangArg_of_compilerFlag h, ← toClangArg_of_compilerFlag h']
  rw [parseCflags_eq, ← eraseDups_filterMap,
    eraseDups_of_nodup ((nodup_eraseDups _).filterMap hinj)]

section
variable {P : PkgConfigParser} {fs : FileSystem} {sh : Shell} {flags : List PackageFlag}

/-- A flag that is read back is a token of the printed text, and its macro name has no `=`. -/
theorem ReadBack.token (h : ReadBack P fs sh flags) {f : PackageFlag} (hf : f ∈ flags) :
    f.text ∈ splitWhitespace (sh.print flags) ∧ '=' ∉ f.key := by
  obtain ⟨hp, hc⟩ := h
  cases hcf : f.compilerFlag with
  | none =>
    cases f with
    | libDir path =>
      refine ⟨mem_tokens_of_searchPath hp ?_, by simp [PackageFlag.key]⟩
      exact List.mem_filterMap.2 ⟨_, hf, rfl⟩
    | includeDir path => cases hcf
    | define key => cases hcf
    | defineAs key value => cases hcf
  | some c =>
    have hm : c ∈ P.parseCflags (sh.print flags) := by
      rw [hc, List.mem_eraseDups]
      exact List.mem_filterMap.2 ⟨f, hf, hcf⟩
    rw [parseCflags_eraseDups, List.mem_eraseDups, List.mem_filterMap] at hm
    obtain ⟨t, ht, hct⟩ := hm
    constructor
    · rw [PackageFlag.text_eq_toClangArg hcf, toClangArg_of_compilerFlag hct]
      exact ht
    · cases f with
      | libDir path => cases hcf
      | includeDir path => simp [PackageFlag.key]
      | define key => cases hcf; exact key_of_compilerFlag hct
      | defineAs key value => cases hcf; exact key_of_compilerFlag hct

/-- Flags without whitespace are printed as one token each. -/
theorem tokens_print (h : ∀ f ∈ flags, Word f.text) :
    splitWhitespace (sh.print flags) = flags.map fun f => sh.escape f.text := by
  apply splitWhitespace_joinSpaces
  intro t ht
  obtain ⟨f, hf, rfl⟩ := List.mem_map.1 ht
  exact Shell.word_escape (h f hf)

theorem plain_of_readBack (h : ReadBack P fs sh flags) : ∀ f ∈ flags, f.Plain sh := by
  have hword : ∀ f ∈ flags, Word f.text := fun f hf =>
    word_of_mem_splitWhitespace (h.token hf).1
  have hesc : ∀ t ∈ flags.map (·.text), ∃ u ∈ flags.map (·.text), sh.escape u = t := by
    intro t ht
    obtain ⟨f, hf, rfl⟩ := List.mem_map.1 ht
    have hm := (h.token hf).1
    rw [tokens_print hword] at hm
    obtain ⟨g, hg, he⟩ := List.mem_map.1 hm
    exact ⟨g.text, List.mem_map.2 ⟨g, hg, rfl⟩, he⟩
  intro f hf
  refine PackageFlag.plain_iff.2 ⟨fun c hc => ⟨(hword f hf).2 c hc, ?_⟩, (h.token hf).2⟩
  exact not_special_of_escaped hesc f.text (List.mem_map.2 ⟨f, hf, rfl⟩) c hc

theorem readBack_of_plain (hplain : ∀ f ∈ flags, f.Plain sh) : ReadBack P fs sh flags := by
  have h := fun f hf => PackageFlag.plain_iff.1 (hplain f hf)
  have hword : ∀ f ∈ flags, Word f.text := fun f hf =>
    ⟨f.text_ne_nil, fun c hc => ((h f hf).1 c hc).1⟩
  have htokens : splitWhitespace (sh.print flags) = flags.map (·.text) := by
    rw [tokens_print hword]
    refine List.map_congr_left fun f hf => ?_
    exact Shell.escape_eq_self fun c hc => ((h f hf).1 c hc).2
  constructor
  · have hkinds : ∀ t ∈ flags.map (·.text),
        (∃ path, Pkgconf.token t = .searchPath path) ∨ Pkgconf.token t = .other := by
      intro t ht
      obtain ⟨f, hf, rfl⟩ := List.mem_map.1 ht
      cases hcf : f.compilerFlag with
      | some c =>
        right
        apply token_of_compilerFlag
        rw [PackageFlag.compilerFlag_text (h f hf).2, hcf]
        rfl
      | none =>
        left
        cases f with
        | libDir path => exact ⟨path, token_searchPath path⟩
        | includeDir path => cases hcf
        | define key => cases hcf
        | defineAs key value => cases hcf
    obtain ⟨s, hs, hfl⟩ := loop_searchPaths P fs (libDirs (flags.map (·.text))) hkinds
    rw [PkgConfigParser.parse, htokens]
    simp only [hs, Option.map_some, Option.some.injEq]
    rw [hfl, libDirs, List.filterMap_map, List.map_filterMap]
    exact List.filterMap_congr fun f _ => f.stripPrefix_text
  · rw [parseCflags_eraseDups, htokens, List.filterMap_map]
    congr 1
    exact List.filterMap_congr fun f hf => PackageFlag.compilerFlag_text (h f hf).2

/-- **The printed flags are read back exactly when they are plain.** -/
theorem readBack_iff (P : PkgConfigParser) (fs : FileSystem) (sh : Shell)
    (flags : List PackageFlag) : ReadBack P fs sh flags ↔ ∀ f ∈ flags, f.Plain sh :=
  ⟨plain_of_readBack, readBack_of_plain⟩

end

/-- `-DV="1"` is printed as `-DV=\"1\"`, and the backslashes stay in the value. -/
theorem quoted_value_not_read_back :
    ¬ ReadBack .new (fun _ => false) .posix [.defineAs "V".toList "\"1\"".toList] := by
  intro h
  have hc := h.2
  revert hc
  decide

end SpdkIo.Pkgconf
