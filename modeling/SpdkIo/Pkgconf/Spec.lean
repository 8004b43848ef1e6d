import SpdkIo.Pkgconf.Parse

/-!
# Reading pkg-config output

The vocabulary of the statements about `parse`: what a token is (`token`), which library it names
(`Token.name`), which entry it gives (`image`), where a library is available, whether one of its
tokens is reached inside a whole-archive region, and how a linker reads the `-Wl,` tokens
(`linkerRegion`). Nothing here is used by the parser.
-/

namespace SpdkIo.Pkgconf

open Text

/-! ## Tokens -/

/-- A token of the output. -/
inductive Token
  | searchPath (path : Text)
  | linker (wlArgs : Text)
  | lib (name : Text)
  | pthread
  | other
  deriving DecidableEq, Repr

/-- The reading of a token: `-L`, `-Wl,`, `-l:`, `-l` and `-pthread`, in this order. A library's
name is normalised. -/
def token (flag : Text) : Token :=
  if let some path := stripPrefix flag "-L".toList then .searchPath path
  else if let some wlArgs := stripPrefix flag "-Wl,".toList then .linker wlArgs
  else if let some rest := stripPrefix flag "-l:".toList then .lib (explicitLibName rest)
  else if let some libName := stripPrefix flag "-l".toList then .lib libName
  else if flag = "-pthread".toList then .pthread
  else .other

/-- The library a token names. -/
def Token.name : Token → Option Text
  | .lib name => some name
  | .pthread => some "pthread".toList
  | _ => none

/-- Some token of `tokens` names the library `n`. -/
def Named (tokens : List Text) (n : Text) : Prop := ∃ flag ∈ tokens, (token flag).name = some n

instance (tokens : List Text) (n : Text) : Decidable (Named tokens n) :=
  inferInstanceAs (Decidable (∃ flag ∈ tokens, (token flag).name = some n))

/-- The first token that names `n`. -/
def firstNaming (tokens : List Text) (n : Text) : Option Token :=
  (tokens.map token).find? fun t => t.name == some n

/-! ## Entries -/

/-- A linker flag without its link kind. -/
inductive Shape
  | searchPath (path : Text)
  | library (name : Text)
  | linkerArg (arg : Text)
  deriving DecidableEq, Repr

def LinkerFlag.shape : LinkerFlag → Shape
  | .searchPath path => .searchPath path
  | .library name _ => .library name
  | .linkerArg arg => .linkerArg arg

@[simp] theorem LinkerFlag.shape_searchPath (path : Text) :
    (LinkerFlag.searchPath path).shape = .searchPath path := rfl
@[simp] theorem LinkerFlag.shape_library (name : Text) (kind : LinkKind) :
    (LinkerFlag.library name kind).shape = .library name := rfl
@[simp] theorem LinkerFlag.shape_linkerArg (arg : Text) :
    (LinkerFlag.linkerArg arg).shape = .linkerArg arg := rfl

/-- The name of a library entry. -/
def Shape.libName : Shape → Option Text
  | .library name => some name
  | _ => none

/-- The directory of a search path entry. -/
def Shape.dir : Shape → Option Text
  | .searchPath path => some path
  | _ => none

/-- The entry of a token after the tokens `earlier`: a library has one only at its first token. -/
def entry (earlier : List Text) (flag : Text) : Option Shape :=
  match token flag with
  | .searchPath path => some (.searchPath path)
  | .linker _ =>
    if contains flag "export-dynamic".toList || contains flag "as-needed".toList then
      some (.linkerArg flag)
    else none
  | .lib name => if Named earlier name then none else some (.library name)
  | .pthread => if Named earlier "pthread".toList then none else some (.library "pthread".toList)
  | .other => none

/-- The entries of `tokens` after `earlier`. -/
def imageFrom (earlier : List Text) : List Text → List Shape
  | [] => []
  | flag :: rest => (entry earlier flag).toList ++ imageFrom (earlier ++ [flag]) rest

/-- The entries of `tokens`, in order. -/
def image (tokens : List Text) : List Shape := imageFrom [] tokens

/-- The libraries of a result. -/
def libraryNames (flags : List LinkerFlag) : List Text := flags.filterMap (·.shape.libName)

theorem mem_libraryNames {flags : List LinkerFlag} {n : Text} :
    n ∈ libraryNames flags ↔ ∃ kind, .library n kind ∈ flags := by
  rw [libraryNames, List.mem_filterMap]
  refine ⟨fun h => ?_, fun h => ?_⟩
  · obtain ⟨f, hf, he⟩ := h
    cases f with
    | searchPath path => cases he
    | library name kind => cases he; exact ⟨kind, hf⟩
    | linkerArg arg => cases he
  · obtain ⟨kind, hk⟩ := h
    exact ⟨_, hk, rfl⟩

/-- The search paths of a result, in the order in which they are emitted. -/
def searchPaths (flags : List LinkerFlag) : List Text := flags.filterMap (·.shape.dir)

/-! ## Kinds -/

/-- `lib<n>.a` exists in a directory of some `-L` token, outside every system root. -/
def Available (P : PkgConfigParser) (fs : FileSystem) (tokens : List Text) (n : Text) : Prop :=
  ∃ dir, "-L".toList ++ dir ∈ tokens ∧ fs (UnixPath.join dir (archiveName n)) = true ∧
    ∀ sys ∈ P.systemRoots, UnixPath.startsWith dir sys = false

/-- The region flag `parse` has at token `i` of `tokens`. -/
def PkgConfigParser.regionAt (P : PkgConfigParser) (fs : FileSystem) (tokens : List Text)
    (i : Nat) : Option Bool :=
  (P.loop fs (libDirs tokens) (tokens.take i)).map (·.inWholeArchiveRegion)

/-- Some `-l` or `-l:` token that names `n` is reached inside a whole-archive region. -/
def ReachedInRegion (P : PkgConfigParser) (fs : FileSystem) (tokens : List Text) (n : Text) :
    Prop :=
  ∃ i flag, tokens[i]? = some flag ∧ token flag = .lib n ∧ P.regionAt fs tokens i = some true

/-- The kind of a library by availability and by having to be whole. -/
def HasKind (k : LinkKind) (available whole : Prop) : Prop :=
  (k = .wholeArchive ↔ available ∧ whole) ∧ (k = .static ↔ available ∧ ¬ whole) ∧
    (k = .default ↔ ¬ available)

/-! ## Regions -/

/-- The marker options. -/
def isMarker (o : Text) : Bool :=
  o == "--whole-archive".toList || o == "--no-whole-archive".toList

/-- The linker's region flag after the option `o`. -/
def linkerOption (on : Bool) (o : Text) : Bool :=
  if o = "--whole-archive".toList then true
  else if o = "--no-whole-archive".toList then false
  else on

/-- The linker's region flag after the comma-separated options `wlArgs`. -/
def linkerReads (on : Bool) (wlArgs : Text) : Bool := (splitComma wlArgs).foldl linkerOption on

/-- The linker's region flag after one token. -/
def linkerToken (on : Bool) (flag : Text) : Bool :=
  match token flag with
  | .linker wlArgs => linkerReads on wlArgs
  | _ => on

/-- The linker's region flag after `tokens`. -/
def linkerRegion (tokens : List Text) : Bool := tokens.foldl linkerToken false

/-- The last marker among the options `wlArgs`. -/
def lastMarker (wlArgs : Text) : Option Text := ((splitComma wlArgs).filter isMarker).getLast?

/-- The text of a marker occurs in `wlArgs`, as an option or inside a longer one. -/
def Mentions (wlArgs : Text) : Prop :=
  "--whole-archive".toList <:+: wlArgs ∨ "--no-whole-archive".toList <:+: wlArgs

/-- The linker argument `arg` has a marker among its comma-separated parts. -/
def CarriesMarker (arg : Text) : Prop := ∃ o ∈ splitComma arg, isMarker o = true

/-- At every library token the parser's region flag is the linker's. -/
def RegionsAgree (P : PkgConfigParser) (fs : FileSystem) (tokens : List Text) : Prop :=
  ∀ i flag n, tokens[i]? = some flag → token flag = .lib n →
    P.regionAt fs tokens i = some (linkerRegion (tokens.take i))

/-- `parse` reads the markers as the linker does, and leaves none in its result. -/
def MarkersConsumed (P : PkgConfigParser) (fs : FileSystem) (pkgConfigOutput : Text) : Prop :=
  ∃ flags, P.parse fs pkgConfigOutput = some flags ∧
    RegionsAgree P fs (splitWhitespace pkgConfigOutput) ∧
    ∀ arg, .linkerArg arg ∈ flags → ¬ CarriesMarker arg

/-- The token `-Wl,<wlArgs>`, after the tokens `before`, is read the same way by its text and by
its options. Where it has a marker option, the last one is not `--whole-archive` next to the text
`--no-whole-archive`; where the text of a marker occurs in a longer option only, it is the marker
the linker obeyed last. -/
def Fits (before : List Text) (wlArgs : Text) : Prop :=
  match lastMarker wlArgs with
  | some o => o = "--whole-archive".toList → ¬ "--no-whole-archive".toList <:+: wlArgs
  | none => "--no-whole-archive".toList <:+: wlArgs ↔ linkerRegion before = false

/-- The last `-Wl,` token of `tokens` that mentions a marker, if any, fits. -/
def LastMentionFits (tokens : List Text) : Prop :=
  ∀ before flag wlArgs after, tokens = before ++ flag :: after → token flag = .linker wlArgs →
    Mentions wlArgs → (∀ f ∈ after, ∀ a, token f = .linker a → ¬ Mentions a) → Fits before wlArgs

end SpdkIo.Pkgconf
