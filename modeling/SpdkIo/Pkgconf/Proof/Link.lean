import SpdkIo.Pkgconf.Link
import SpdkIo.Pkgconf.Proof.Kind

/-!
# What `parse` guarantees to the linker

All three results read the entry of a library off `library_mem_iff`: an archive under a system root
is picked exactly when its directory comes first, the order of the tokens matters for `pthread`
alone, and tokens that are merged name one file unless a file is not spelled `lib<n>.a`.
-/

namespace SpdkIo.Pkgconf

open Text

/-- `parse` returns the flags of the loop. -/
theorem parse_eq_some {P : PkgConfigParser} {fs : FileSystem} {output : Text}
    {flags : List LinkerFlag} :
    P.parse fs output = some flags ↔
      ∃ s, P.loop fs (libDirs (splitWhitespace output)) (splitWhitespace output) = some s ∧
        s.flags = flags := by
  simp [PkgConfigParser.parse, Option.map_eq_some_iff]

/-! ## The archive that is picked -/

/-- An available library is resolved to some archive. -/
theorem pickedArchive_of_available {P : PkgConfigParser} {fs : FileSystem} {tokens : List Text}
    {n : Text} (h : Available P fs tokens n) :
    ∃ archive, pickedArchive fs (libDirs tokens) n = some archive := by
  obtain ⟨dir, hdir, hfs, -⟩ := h
  rw [← Option.isSome_iff_exists, pickedArchive, List.find?_isSome]
  exact ⟨_, List.mem_map.2 ⟨dir, mem_libDirs.2 hdir, rfl⟩, hfs⟩

/-- Only an available library first named by `-l` or `-l:` is not `Default`. -/
theorem ne_default_iff {P : PkgConfigParser} {fs : FileSystem} {tokens : List Text}
    {s : ParseState} {n : Text} {k : LinkKind}
    (hs : P.loop fs (libDirs tokens) tokens = some s) (hm : .library n k ∈ s.flags) :
    k ≠ .default ↔ firstNaming tokens n = some (.lib n) ∧ Available P fs tokens n := by
  rcases (library_mem_iff hs).1 hm with ⟨hf, hk⟩ | ⟨hf, rfl⟩
  · rw [ne_eq, hk.2.2, Classical.not_not]
    exact ⟨fun ha => ⟨hf, ha⟩, fun h => h.2⟩
  · simp [hf]

/-- **Statically linked archives lie outside the system roots** exactly when for every available
library the first directory with its archive does. -/
theorem rootsExcluded_iff (P : PkgConfigParser) (fs : FileSystem) (pkgConfigOutput : Text) :
    RootsExcluded P fs pkgConfigOutput ↔
      FirstArchiveOutside P fs (splitWhitespace pkgConfigOutput) := by
  obtain ⟨s, hs, hT⟩ := loop_tracks P fs (libDirs (splitWhitespace pkgConfigOutput))
    (splitWhitespace pkgConfigOutput)
  constructor
  · rintro ⟨flags, hp, h⟩ n hf ha archive hpick
    obtain ⟨s', hs', rfl⟩ := parse_eq_some.1 hp
    rw [hs, Option.some.injEq] at hs'
    subst hs'
    obtain ⟨k, hm⟩ : ∃ k, .library n k ∈ s.flags := by
      by_cases hw : n ∈ P.forceWholeArchive ∨
          ReachedInRegion P fs (splitWhitespace pkgConfigOutput) n
      · exact ⟨.wholeArchive, (library_mem_iff hs).2 (.inl ⟨hf, by simp [HasKind, ha, hw]⟩)⟩
      · exact ⟨.static, (library_mem_iff hs).2 (.inl ⟨hf, by simp [HasKind, ha, hw]⟩)⟩
    obtain ⟨archive', hpick', hroot⟩ := h n k hm ((ne_default_iff hs hm).2 ⟨hf, ha⟩)
    rw [hT.searchPaths_eq, hpick, Option.some.injEq] at hpick'
    rw [hpick']
    exact hroot
  · intro h
    refine ⟨s.flags, parse_eq_some.2 ⟨s, hs, rfl⟩, fun n k hm hk => ?_⟩
    obtain ⟨hf, ha⟩ := (ne_default_iff hs hm).1 hk
    obtain ⟨archive, hpick⟩ := pickedArchive_of_available ha
    rw [hT.searchPaths_eq]
    exact ⟨archive, hpick, h n hf ha archive hpick⟩

/-- `/usr/lib` comes before `/opt`, and both hold `liba.a`. -/
theorem root_archive_picked :
    ¬ RootsExcluded .new
      (fun path => path == "/usr/lib/liba.a".toList || path == "/opt/liba.a".toList)
      "-L/usr/lib -L/opt -la".toList := by
  rintro ⟨flags, hp, h⟩
  have hflags : [.searchPath "/usr/lib".toList, .searchPath "/opt".toList,
      .library "a".toList .static] = flags := by
    rw [← Option.some.injEq, ← hp]
    decide
  subst hflags
  obtain ⟨archive, hpick, hroot⟩ := h "a".toList .static (by decide) (by decide)
  have harchive : "/usr/lib/liba.a".toList = archive := by
    rw [← Option.some.injEq, ← hpick]
    decide
  subst harchive
  revert hroot
  decide

/-! ## The order of the tokens -/

section
variable {P : PkgConfigParser} {fs : FileSystem} {tokens tokens' : List Text}

theorem mem_libraryTokens {flag : Text} {r : Option Bool} :
    (flag, r) ∈ libraryTokens P fs tokens ↔
      ∃ i, tokens[i]? = some flag ∧ (token flag).name.isSome = true ∧
        P.regionAt fs tokens i = r := by
  simp only [libraryTokens, List.mem_map, List.mem_filter, Prod.exists, Prod.mk.injEq,
    List.mem_zipIdx_iff_getElem?]
  constructor
  · rintro ⟨f, i, ⟨hi, hn⟩, rfl, rfl⟩
    exact ⟨i, hi, hn, rfl⟩
  · rintro ⟨i, hi, hn, rfl⟩
    exact ⟨flag, i, ⟨hi, hn⟩, rfl, rfl⟩

/-- The libraries are named by the library tokens. -/
theorem named_iff_libraryTokens (P : PkgConfigParser) (fs : FileSystem) {n : Text} :
    Named tokens n ↔ ∃ p ∈ libraryTokens P fs tokens, (token p.1).name = some n := by
  constructor
  · rintro ⟨flag, hm, hn⟩
    obtain ⟨i, hi⟩ := List.getElem?_of_mem hm
    exact ⟨_, mem_libraryTokens.2 ⟨i, hi, by simp [hn], rfl⟩, hn⟩
  · rintro ⟨⟨flag, r⟩, hm, hn⟩
    obtain ⟨i, hi, -, -⟩ := mem_libraryTokens.1 hm
    exact ⟨flag, List.mem_of_getElem? hi, hn⟩

/-- A library is reached in a region by its library tokens. -/
theorem reachedInRegion_iff_libraryTokens {n : Text} :
    ReachedInRegion P fs tokens n ↔
      ∃ p ∈ libraryTokens P fs tokens, token p.1 = .lib n ∧ p.2 = some true := by
  constructor
  · rintro ⟨i, flag, hi, ht, hr⟩
    exact ⟨_, mem_libraryTokens.2 ⟨i, hi, by simp [ht, Token.name], hr⟩, ht, rfl⟩
  · rintro ⟨⟨flag, r⟩, hm, ht, rfl⟩
    obtain ⟨i, hi, -, hr⟩ := mem_libraryTokens.1 hm
    exact ⟨i, flag, hi, ht, hr⟩

theorem available_congr (P : PkgConfigParser) (fs : FileSystem)
    (hd : ∀ dir, dir ∈ libDirs tokens ↔ dir ∈ libDirs tokens') (n : Text) :
    Available P fs tokens n ↔ Available P fs tokens' n := by
  simp only [Available, ← mem_libDirs, hd]

/-- A name that `-pthread` is the first to give is `pthread`. -/
theorem eq_pthread_of_first {n : Text} (h : firstNaming tokens n = some .pthread) :
    n = "pthread".toList := by
  have hname := name_of_firstNaming h
  rw [Token.name, Option.some.injEq] at hname
  exact hname.symm

/-- With the same library tokens, directories and first spelling of `pthread`, an entry of the
one loop is an entry of the other. -/
theorem library_mem_of_perm {s s' : ParseState}
    (hs : P.loop fs (libDirs tokens) tokens = some s)
    (hs' : P.loop fs (libDirs tokens') tokens' = some s')
    (hl : (libraryTokens P fs tokens).Perm (libraryTokens P fs tokens'))
    (hd : ∀ dir, dir ∈ libDirs tokens ↔ dir ∈ libDirs tokens')
    (hf : Available P fs tokens "pthread".toList → (PthreadFirst tokens ↔ PthreadFirst tokens'))
    {n : Text} {k : LinkKind} (hm : .library n k ∈ s.flags) : .library n k ∈ s'.flags := by
  have hnamed : Named tokens n ↔ Named tokens' n := by
    rw [named_iff_libraryTokens P fs, named_iff_libraryTokens P fs]
    simp only [hl.mem_iff]
  have hreach : ReachedInRegion P fs tokens n ↔ ReachedInRegion P fs tokens' n := by
    rw [reachedInRegion_iff_libraryTokens, reachedInRegion_iff_libraryTokens]
    simp only [hl.mem_iff]
  have havail := available_congr P fs hd n
  have hT := tracks_of_loop P fs _ hs
  have hn' : Named tokens' n := hnamed.1 (hT.mem_libraryNames.1 (mem_libraryNames.2 ⟨k, hm⟩))
  rw [library_mem_iff hs']
  rcases (library_mem_iff hs).1 hm with ⟨hfirst, hk⟩ | ⟨hfirst, rfl⟩
  · rw [havail, hreach] at hk
    rcases firstNaming_cases hn' with hf' | hf'
    · exact .inl ⟨hf', hk⟩
    · -- `-pthread` comes first in the other output only: no archive is available
      have hn := eq_pthread_of_first hf'
      subst hn
      refine .inr ⟨hf', hk.2.2.2 fun ha => ?_⟩
      have hc := (hf (havail.2 ha)).2 hf'
      rw [PthreadFirst, hfirst] at hc
      cases hc
  · have hn := eq_pthread_of_first hfirst
    subst hn
    rcases firstNaming_cases hn' with hf' | hf'
    · refine .inl ⟨hf', ?_⟩
      have ha : ¬ Available P fs tokens' "pthread".toList := by
        intro ha
        have hc := (hf (havail.2 ha)).1 hfirst
        rw [PthreadFirst, hf'] at hc
        cases hc
      simp only [HasKind, ha]
      simp
    · exact .inr ⟨hf', rfl⟩

/-- A `Default` entry of an available `pthread` comes from `-pthread` in front. -/
theorem pthreadFirst_of_entry {s s' : ParseState}
    (hs : P.loop fs (libDirs tokens) tokens = some s)
    (hs' : P.loop fs (libDirs tokens') tokens' = some s')
    (ha : Available P fs tokens' "pthread".toList)
    (h : ∀ n k, .library n k ∈ s.flags → .library n k ∈ s'.flags)
    (hf : PthreadFirst tokens) : PthreadFirst tokens' := by
  have hm := h _ _ ((library_mem_iff hs).2 (.inr ⟨hf, rfl⟩))
  rcases (library_mem_iff hs').1 hm with ⟨-, hk⟩ | ⟨hf', -⟩
  · exact absurd ha (hk.2.2.1 rfl)
  · exact hf'

end

/-- **The order of the library tokens matters for `pthread` alone**: the kinds are the same exactly
when no archive of `pthread` is available or `-pthread` is its first token in both outputs or in
neither. -/
theorem sameKinds_iff {P : PkgConfigParser} {fs : FileSystem} {output output' : Text}
    (hl : (libraryTokens P fs (splitWhitespace output)).Perm
      (libraryTokens P fs (splitWhitespace output')))
    (hd : ∀ dir, dir ∈ libDirs (splitWhitespace output) ↔ dir ∈ libDirs (splitWhitespace output')) :
    SameKinds P fs output output' ↔
      (Available P fs (splitWhitespace output) "pthread".toList →
        (PthreadFirst (splitWhitespace output) ↔ PthreadFirst (splitWhitespace output'))) := by
  obtain ⟨s, hs, -⟩ := loop_tracks P fs (libDirs (splitWhitespace output)) (splitWhitespace output)
  obtain ⟨s', hs', -⟩ :=
    loop_tracks P fs (libDirs (splitWhitespace output')) (splitWhitespace output')
  have havail := available_congr P fs hd "pthread".toList
  constructor
  · rintro ⟨flags, flags', hp, hp', h⟩ ha
    obtain ⟨t, ht, rfl⟩ := parse_eq_some.1 hp
    obtain ⟨t', ht', rfl⟩ := parse_eq_some.1 hp'
    exact ⟨pthreadFirst_of_entry ht ht' (havail.1 ha) fun n k => (h n k).1,
      pthreadFirst_of_entry ht' ht ha fun n k => (h n k).2⟩
  · intro hf
    refine ⟨s.flags, s'.flags, parse_eq_some.2 ⟨s, hs, rfl⟩, parse_eq_some.2 ⟨s', hs', rfl⟩,
      fun n k => ⟨fun hm => ?_, fun hm => ?_⟩⟩
    · exact library_mem_of_perm hs hs' hl hd hf hm
    · refine library_mem_of_perm hs' hs hl.symm (fun dir => (hd dir).symm) (fun ha => ?_) hm
      exact (hf (havail.2 ha)).symm

theorem sameKinds_pthread :
    SameKinds .new (· == "/opt/libpthread.a".toList) "-L/opt -pthread -lpthread".toList
        "-L/opt -lpthread -pthread".toList ↔
      (Available .new (· == "/opt/libpthread.a".toList)
          (splitWhitespace "-L/opt -pthread -lpthread".toList) "pthread".toList →
        (PthreadFirst (splitWhitespace "-L/opt -pthread -lpthread".toList) ↔
          PthreadFirst (splitWhitespace "-L/opt -lpthread -pthread".toList))) := by
  have hdirs : libDirs (splitWhitespace "-L/opt -pthread -lpthread".toList) =
      libDirs (splitWhitespace "-L/opt -lpthread -pthread".toList) := by decide
  exact sameKinds_iff (by decide) fun dir => by rw [hdirs]

/-- `-pthread` in front makes `pthread` a `Default` library, behind `-lpthread` a `Static` one. -/
theorem pthread_order_changes_kind :
    (libraryTokens .new (· == "/opt/libpthread.a".toList)
        (splitWhitespace "-L/opt -pthread -lpthread".toList)).Perm
      (libraryTokens .new (· == "/opt/libpthread.a".toList)
        (splitWhitespace "-L/opt -lpthread -pthread".toList)) ∧
      libDirs (splitWhitespace "-L/opt -pthread -lpthread".toList) =
        libDirs (splitWhitespace "-L/opt -lpthread -pthread".toList) ∧
      ¬ SameKinds .new (· == "/opt/libpthread.a".toList) "-L/opt -pthread -lpthread".toList
        "-L/opt -lpthread -pthread".toList := by
  refine ⟨by decide, by decide, ?_⟩
  rintro ⟨flags, flags', hp, hp', h⟩
  have hflags : [.searchPath "/opt".toList, .library "pthread".toList .default] = flags := by
    rw [← Option.some.injEq, ← hp]
    decide
  have hflags' : [.searchPath "/opt".toList, .library "pthread".toList .static] = flags' := by
    rw [← Option.some.injEq, ← hp']
    decide
  subst hflags hflags'
  have hm := (h "pthread".toList .static).2 (by decide)
  revert hm
  decide

/-! ## The file that a token asks for -/

/-- The library that a request names: a file by its normalised name. -/
def Request.libName : Request → Text
  | .name n => n
  | .file f => explicitLibName f

/-- The reading of a library token agrees with its request. -/
theorem name_of_request {flag : Text} {r : Request} (h : request flag = some r) :
    (token flag).name = some r.libName := by
  unfold request at h
  cases h1 : stripPrefix flag "-l:".toList with
  | some f =>
    rw [h1] at h
    cases h
    rw [stripPrefix_eq_some.1 h1]
    simp [token, stripPrefix, List.dropPrefix?, Token.name, Request.libName]
  | none =>
  cases h2 : stripPrefix flag "-l".toList with
  | some n =>
    rw [h1, h2] at h
    cases h
    have h3 : stripPrefix flag "-L".toList = none := by
      rw [stripPrefix_eq_some.1 h2]
      simp [stripPrefix, List.dropPrefix?]
    have h4 : stripPrefix flag "-Wl,".toList = none := by
      rw [stripPrefix_eq_some.1 h2]
      simp [stripPrefix, List.dropPrefix?]
    simp only [token, h1, h2, h3, h4]
    rfl
  | none =>
    rw [h1, h2] at h
    dsimp only at h
    split at h
    · rename_i hp
      cases h
      rw [hp]
      decide
    · cases h

theorem request_file {f : Text} : request ("-l:".toList ++ f) = some (.file f) := by
  simp [request, stripPrefix, List.dropPrefix?]

/-- A file request comes from a `-l:` token. -/
theorem flag_of_request_file {flag f : Text} (h : request flag = some (.file f)) :
    flag = "-l:".toList ++ f := by
  unfold request at h
  split at h
  · rename_i f' hf
    cases h
    exact stripPrefix_eq_some.1 hf
  split at h
  · cases h
  split at h <;> cases h

/-- Tokens with one name have its entry. -/
theorem merged_of_name {P : PkgConfigParser} {fs : FileSystem} {output : Text}
    {flags : List LinkerFlag} (hp : P.parse fs output = some flags) {flag flag' n : Text}
    (hflag : flag ∈ splitWhitespace output) (hn : (token flag).name = some n)
    (hn' : (token flag').name = some n) : Merged flags flag flag' := by
  obtain ⟨s, hs, rfl⟩ := parse_eq_some.1 hp
  have hT := tracks_of_loop P fs _ hs
  have hentry : n ∈ libraryNames s.flags := hT.mem_libraryNames.2 ⟨flag, hflag, hn⟩
  obtain ⟨k, hk⟩ := mem_libraryNames.1 hentry
  exact ⟨n, k, hk, hn, hn'⟩

/-- Requests of one name are for the same file, if a file that is not `lib<n>.a` is requested by
both or by neither. -/
theorem sameFile_of_libName {r r' : Request} {n : Text} (hn : r.libName = n) (hn' : r'.libName = n)
    (hodd : ∀ f, f ≠ archiveName n → (r = .file f ↔ r' = .file f)) : SameFile r r' := by
  cases r with
  | name m =>
    cases r' with
    | name m' => exact hn.trans hn'.symm
    | file f =>
      apply Classical.byContradiction
      intro hne
      cases (hodd f fun hf => hne (hf.trans (congrArg archiveName hn.symm))).2 rfl
  | file f =>
    cases r' with
    | name m =>
      apply Classical.byContradiction
      intro hne
      cases (hodd f fun hf => hne (hf.trans (congrArg archiveName hn'.symm))).1 rfl
    | file g =>
      by_cases hf : f = archiveName n
      · by_cases hg : g = archiveName n
        · exact hf.trans hg.symm
        · exact Request.file.inj ((hodd g hg).2 rfl)
      · exact (Request.file.inj ((hodd f hf).1 rfl)).symm

/-- **Merged tokens name the same file** exactly when every file that is not spelled `lib<n>.a` is
alone with its normalised name. -/
theorem mergesSameFile_iff (P : PkgConfigParser) (fs : FileSystem) (pkgConfigOutput : Text) :
    MergesSameFile P fs pkgConfigOutput ↔ OddFilesAlone (splitWhitespace pkgConfigOutput) := by
  constructor
  · rintro ⟨flags, hp, h⟩ f hf hodd flag hflag r hr hname
    have hmerged : Merged flags ("-l:".toList ++ f) flag :=
      merged_of_name hp hf (name_of_request request_file) hname
    have hsame := h _ hf flag hflag _ r request_file hr hmerged
    cases r with
    | file g => exact congrArg Request.file (Eq.symm hsame)
    | name n =>
      rw [name_of_request hr, Option.some.injEq] at hname
      exact absurd (hname ▸ hsame) hodd
  · intro h
    obtain ⟨s, hs, -⟩ := loop_tracks P fs (libDirs (splitWhitespace pkgConfigOutput))
      (splitWhitespace pkgConfigOutput)
    refine ⟨s.flags, parse_eq_some.2 ⟨s, hs, rfl⟩, ?_⟩
    rintro flag hflag flag' hflag' r r' hr hr' ⟨n, k, -, hn, hn'⟩
    have hrn := name_of_request hr
    have hrn' := name_of_request hr'
    rw [hn, Option.some.injEq] at hrn
    rw [hn', Option.some.injEq] at hrn'
    refine sameFile_of_libName hrn.symm hrn'.symm fun f hodd => ?_
    constructor
    · rintro rfl
      obtain rfl : n = explicitLibName f := hrn
      exact h f (flag_of_request_file hr ▸ hflag) hodd flag' hflag' r' hr' hn'
    · rintro rfl
      obtain rfl : n = explicitLibName f := hrn'
      exact h f (flag_of_request_file hr' ▸ hflag') hodd flag hflag r hr hn

/-- `-l:foo.a` and `-lfoo` share the entry `foo`, and name `foo.a` and `libfoo.a`. -/
theorem merges_distinct_files :
    ¬ MergesSameFile .new (fun _ => false) "-lfoo -l:foo.a".toList := by
  rintro ⟨flags, hp, h⟩
  have hflags : [.library "foo".toList .default] = flags := by
    rw [← Option.some.injEq, ← hp]
    decide
  subst hflags
  have hsame := h "-lfoo".toList (by decide) "-l:foo.a".toList (by decide) (.name "foo".toList)
    (.file "foo.a".toList) (by decide) (by decide)
    ⟨"foo".toList, .default, by decide, by decide, by decide⟩
  revert hsame
  rw [SameFile.eq_def]
  decide

end SpdkIo.Pkgconf
