import SpdkIo.Lib.UnixPath

/-!
# `PkgConfigParser::parse`

The parser of `pkg-config --libs` output (`pkgconf/src/lib.rs`): its output types, its settings,
and the two passes of `parse`. The second pass is a fold of `PkgConfigParser.step`, one
iteration of the loop, over the tokens; its loop variables are a `ParseState`.

A `Vec`, a `HashSet` and a `HashMap` are a list (an inserted key in front), a `PathBuf` is its
text, and the file system is the predicate `Path::exists`. `flags[idx]` panics when `idx` is out
of bounds: the loop is in `Option`, and `none` is that panic.
-/

namespace SpdkIo.Pkgconf

open Text

/-! ## Output -/

/-- How a library is linked. -/
inductive LinkKind
  | default
  | static
  | wholeArchive
  deriving DecidableEq, Repr

/-- A parsed linker flag. -/
inductive LinkerFlag
  | searchPath (path : Text)
  | library (name : Text) (kind : LinkKind)
  | linkerArg (arg : Text)
  deriving DecidableEq, Repr

/-! ## Settings -/

/-- `Path::exists`. -/
abbrev FileSystem := Text → Bool

/-- The parser's settings. -/
structure PkgConfigParser where
  systemRoots : List Text
  forceWholeArchive : List Text

/-- `PkgConfigParser::new`. -/
def PkgConfigParser.new : PkgConfigParser where
  systemRoots := ["/usr".toList]
  forceWholeArchive := []

/-- The file name of the static library `name`. -/
def archiveName (name : Text) : Text := "lib".toList ++ name ++ ".a".toList

def PkgConfigParser.isStaticAvailable (self : PkgConfigParser) (fs : FileSystem) (name : Text)
    (dirs : List Text) : Bool :=
  let libname := archiveName name
  dirs.any fun dir =>
    let libraryExists := fs (UnixPath.join dir libname)
    let isSystemDir := self.systemRoots.any fun sys => UnixPath.startsWith dir sys
    libraryExists && !isSystemDir

/-! ## The loop -/

/-- The loop variables of the second pass. -/
structure ParseState where
  flags : List LinkerFlag := []
  seenLibs : List Text := []
  libIndices : List (Text × Nat) := []
  inWholeArchiveRegion : Bool := false

/-- The upgrade of the entry at `idx`: `if let Library { kind, .. } = &mut flags[idx] && *kind ==
Static { *kind = WholeArchive }`. -/
def upgrade (flags : List LinkerFlag) (idx : Nat) : Option (List LinkerFlag) :=
  match flags[idx]? with
  | none => none
  | some (.library name .static) => some (flags.set idx (.library name .wholeArchive))
  | some _ => some flags

def PkgConfigParser.handleLibrary (self : PkgConfigParser) (fs : FileSystem)
    (libDirs : List Text) (s : ParseState) (libName : Text) : Option ParseState :=
  if libName ∈ s.seenLibs then
    if s.inWholeArchiveRegion then
      match s.libIndices.lookup libName with
      | some idx => (upgrade s.flags idx).map fun flags => { s with flags }
      | none => some s
    else some s
  else
    let hasStatic := self.isStaticAvailable fs libName libDirs
    let forcedWholeArchive := self.forceWholeArchive.contains libName
    let kind : LinkKind :=
      if (s.inWholeArchiveRegion || forcedWholeArchive) && hasStatic then .wholeArchive
      else if hasStatic then .static
      else .default
    let idx := s.flags.length
    some { s with
      flags := s.flags ++ [.library libName kind]
      seenLibs := libName :: s.seenLibs
      libIndices := (libName, idx) :: s.libIndices }

/-- The name in `-l:<rest>`: the `lib` prefix and the `.a` suffix are stripped. -/
def explicitLibName (rest : Text) : Text :=
  (stripSuffix ((stripPrefix rest "lib".toList).getD rest) ".a".toList).getD rest

/-- The region flag after a `-Wl,` token with arguments `wlArgs`. -/
def trackRegion (inWholeArchiveRegion : Bool) (wlArgs : Text) : Bool :=
  if contains wlArgs "--whole-archive".toList && !contains wlArgs "--no-whole-archive".toList then
    true
  else if contains wlArgs "--no-whole-archive".toList then false
  else inWholeArchiveRegion

/-- The linker arguments that are passed through. -/
def passThrough (wlArgs : Text) : Bool :=
  contains wlArgs "export-dynamic".toList || contains wlArgs "as-needed".toList

/-- One iteration of the second pass. -/
def PkgConfigParser.step (self : PkgConfigParser) (fs : FileSystem) (libDirs : List Text)
    (s : ParseState) (flag : Text) : Option ParseState :=
  if let some path := stripPrefix flag "-L".toList then
    some { s with flags := s.flags ++ [.searchPath path] }
  else if let some wlArgs := stripPrefix flag "-Wl,".toList then
    some { s with
      inWholeArchiveRegion := trackRegion s.inWholeArchiveRegion wlArgs
      flags := if passThrough wlArgs then s.flags ++ [.linkerArg flag] else s.flags }
  else if let some rest := stripPrefix flag "-l:".toList then
    self.handleLibrary fs libDirs s (explicitLibName rest)
  else if let some libName := stripPrefix flag "-l".toList then
    self.handleLibrary fs libDirs s libName
  else if flag = "-pthread".toList ∧ "pthread".toList ∉ s.seenLibs then
    some { s with
      flags := s.flags ++ [.library "pthread".toList .default]
      seenLibs := "pthread".toList :: s.seenLibs }
  else some s

/-- The first pass: the directories of all `-L` tokens. -/
def libDirs (tokens : List Text) : List Text :=
  tokens.filterMap fun flag => stripPrefix flag "-L".toList

/-- The second pass over the tokens `tokens`, with the directories `dirs` of the first. -/
def PkgConfigParser.loop (self : PkgConfigParser) (fs : FileSystem) (dirs : List Text)
    (tokens : List Text) : Option ParseState :=
  tokens.foldlM (self.step fs dirs) {}

def PkgConfigParser.parse (self : PkgConfigParser) (fs : FileSystem) (pkgConfigOutput : Text) :
    Option (List LinkerFlag) :=
  let tokens := splitWhitespace pkgConfigOutput
  (self.loop fs (libDirs tokens) tokens).map (·.flags)

theorem PkgConfigParser.loop_nil (self : PkgConfigParser) (fs : FileSystem) (dirs : List Text) :
    self.loop fs dirs [] = some {} := rfl

theorem PkgConfigParser.loop_snoc (self : PkgConfigParser) (fs : FileSystem)
    (dirs tokens : List Text) (flag : Text) :
    self.loop fs dirs (tokens ++ [flag]) =
      (self.loop fs dirs tokens).bind fun s => self.step fs dirs s flag := by
  simp [loop, List.foldlM_append]

/-- A library seen outside and then, spelled as a file, inside a whole-archive region: one entry,
upgraded. -/
example : PkgConfigParser.new.parse (· == "/opt/librte.a".toList)
      "-L/opt -lrte -Wl,--whole-archive -l:librte.a -Wl,--no-whole-archive".toList =
    some [.searchPath "/opt".toList, .library "rte".toList .wholeArchive] := by rfl

end SpdkIo.Pkgconf
