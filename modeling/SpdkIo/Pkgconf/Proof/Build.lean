import SpdkIo.Pkgconf.Build
import SpdkIo.Pkgconf.Proof.Cargo

/-!
# What the build script asks of cargo

`main_links`: the script panics only where a run of pkg-config failed, and then has asked for no
linking; else cargo reads the flags of the first run, and every forced library that is available
and named by `-l` or `-l:` is linked whole by one instruction. The entries of a result have
distinct names, so that the instruction of an entry is the only one for its library
(`linking_map`).
-/

namespace SpdkIo.Pkgconf.Build

open Text

/-! ## One instruction for a library -/

theorem nativeLib_name (kind : LinkKind) (noBundle : Bool) (name : Text) :
    (kind.nativeLib noBundle name).name = name := by
  cases kind <;> rfl

theorem linking_cons_library (n m : Text) (kind : LinkKind) (noBundle : Bool)
    (is : List Instruction) :
    linking n ((LinkerFlag.library m kind).instruction noBundle :: is) =
      if m = n then .linkLib (kind.nativeLib noBundle m) :: linking n is else linking n is := by
  simp only [linking, LinkerFlag.instruction, List.filter_cons, nativeLib_name, beq_iff_eq]

theorem linking_map_of_notMem {flags : List LinkerFlag} {n : Text} (noBundle : Bool)
    (h : n ∉ libraryNames flags) : linking n (flags.map (·.instruction noBundle)) = [] := by
  induction flags with
  | nil => rfl
  | cons f flags ih =>
    cases f with
    | searchPath path => exact ih h
    | linkerArg arg => exact ih h
    | library m kind =>
      have hnames : libraryNames (.library m kind :: flags) = m :: libraryNames flags := rfl
      rw [hnames, List.mem_cons, not_or] at h
      rw [List.map_cons, linking_cons_library, if_neg (Ne.symm h.1), ih h.2]

/-- **The entry of a library gives the only instruction for it.** -/
theorem linking_map {flags : List LinkerFlag} {n : Text} {k : LinkKind} (noBundle : Bool)
    (hnd : (libraryNames flags).Nodup) (hm : .library n k ∈ flags) :
    linking n (flags.map (·.instruction noBundle)) = [.linkLib (k.nativeLib noBundle n)] := by
  induction flags with
  | nil => cases hm
  | cons f flags ih =>
    cases f with
    | searchPath path =>
      exact ih hnd ((List.mem_cons.1 hm).resolve_left (by simp))
    | linkerArg arg =>
      exact ih hnd ((List.mem_cons.1 hm).resolve_left (by simp))
    | library m kind =>
      have hnames : libraryNames (.library m kind :: flags) = m :: libraryNames flags := rfl
      rw [hnames, List.nodup_cons] at hnd
      rw [List.map_cons, linking_cons_library]
      rcases List.mem_cons.1 hm with he | hm
      · cases he
        rw [if_pos rfl, linking_map_of_notMem noBundle hnd.1]
      · have hne : m ≠ n := by
          rintro rfl
          exact hnd.1 (mem_libraryNames.2 ⟨k, hm⟩)
        rw [if_neg hne, ih hnd.2 hm]

/-! ## The script -/

theorem rerun_lines : ∀ t ∈ rerun, '\n' ∉ t := by decide

theorem readCargo_rerun : readCargo (printLines rerun) = rerunInstructions := by
  rw [readCargo_printLines rerun_lines]
  rfl

theorem linking_rerun (n : Text) (is : List Instruction) :
    linking n (rerunInstructions ++ is) = linking n is := rfl

section
variable {fs : FileSystem} {tokens : List Text} {s : ParseState}

/-- A forced library that is available is linked whole. -/
theorem linking_forced (hs : parser.loop fs (libDirs tokens) tokens = some s) {n : Text}
    (hn : n ∈ forced) (hf : firstNaming tokens n = some (.lib n))
    (ha : Available parser fs tokens n) :
    linking n (s.flags.map (·.instruction true)) = [linkWhole n] := by
  have hkind : HasKind .wholeArchive (Available parser fs tokens n)
      (n ∈ parser.forceWholeArchive ∨ ReachedInRegion parser fs tokens n) := by
    have hwhole : n ∈ parser.forceWholeArchive ∨ ReachedInRegion parser fs tokens n := .inl hn
    simp [HasKind, ha, hwhole]
  have hm : .library n .wholeArchive ∈ s.flags := (library_mem_iff hs).2 (.inl ⟨hf, hkind⟩)
  exact linking_map true (tracks_of_loop parser fs _ hs).libraryNames_nodup hm

end

/-- **What the build asks for**, for every result of the two runs of pkg-config. -/
theorem main_links (fs : FileSystem) (cmd : Command) (var : Option Text) :
    let libs := runPkgConfig cmd spdkLibs (some (pkgConfigPath var))
    let cflags := runPkgConfigCflags cmd spdkLibs (some (pkgConfigPath var))
    (∃ e, (libs = .error e ∨ (∃ libsOutput, libs = .ok libsOutput) ∧ cflags = .error e) ∧
      (main fs cmd var).2 = some (.error e) ∧
      readCargo (main fs cmd var).1 = rerunInstructions) ∨
    ∃ libsOutput cflagsOutput flags, libs = .ok libsOutput ∧ cflags = .ok cflagsOutput ∧
      parser.parse fs libsOutput = some flags ∧
      (main fs cmd var).2 = some (.ok (toClangArgs (parser.parseCflags cflagsOutput))) ∧
      (NamesReadable parser fs (splitWhitespace libsOutput) →
        readCargo (main fs cmd var).1 = rerunInstructions ++ flags.map (·.instruction true) ∧
        ∀ n ∈ forced, firstNaming (splitWhitespace libsOutput) n = some (.lib n) →
          Available parser fs (splitWhitespace libsOutput) n →
          linking n (readCargo (main fs cmd var).1) = [linkWhole n]) := by
  intro libs cflags
  cases hl : runPkgConfig cmd spdkLibs (some (pkgConfigPath var)) with
  | error e =>
    have hmain : main fs cmd var = (printLines rerun, some (.error e)) := by
      simp only [main, PkgConfigParser.probe, hl]
    exact .inl ⟨e, .inl hl, by rw [hmain], by rw [hmain]; exact readCargo_rerun⟩
  | ok libsOutput =>
    cases hc : runPkgConfigCflags cmd spdkLibs (some (pkgConfigPath var)) with
    | error e =>
      have hmain : main fs cmd var = (printLines rerun, some (.error e)) := by
        simp only [main, PkgConfigParser.probe, hl, hc]
      exact .inl ⟨e, .inr ⟨⟨libsOutput, hl⟩, hc⟩, by rw [hmain],
        by rw [hmain]; exact readCargo_rerun⟩
    | ok cflagsOutput =>
      obtain ⟨s, hs, -⟩ := loop_tracks parser fs (libDirs (splitWhitespace libsOutput))
        (splitWhitespace libsOutput)
      have hp : parser.parse fs libsOutput = some s.flags := parse_eq_some.2 ⟨s, hs, rfl⟩
      have hmain : main fs cmd var = (printLines rerun ++ emitCargoMetadata s.flags true,
          some (.ok (toClangArgs (parser.parseCflags cflagsOutput)))) := by
        simp only [main, PkgConfigParser.probe, hl, hc, hp, Option.map_some]
      refine .inr ⟨libsOutput, cflagsOutput, s.flags, hl, hc, hp, by rw [hmain], fun hnames => ?_⟩
      have hlines := newline_notMem_flags hs fun _ ht => word_of_mem_splitWhitespace ht
      have hall : ∀ t ∈ rerun ++ toCargoDirectives s.flags true, '\n' ∉ t := by
        intro t ht
        rcases List.mem_append.1 ht with ht | ht
        · exact rerun_lines t ht
        · exact newline_notMem_directives true hlines t ht
      have hread : readCargo (main fs cmd var).1 =
          rerunInstructions ++ s.flags.map (·.instruction true) := by
        rw [hmain, emitCargoMetadata, ← printLines_append, readCargo_printLines hall,
          List.filterMap_append, filterMap_readDirective,
          map_read_iff.2 ((readable_iff hs).2 hnames)]
        rfl
      refine ⟨hread, fun n hn hf ha => ?_⟩
      rw [hread, linking_rerun, linking_forced hs hn hf ha]

end SpdkIo.Pkgconf.Build
