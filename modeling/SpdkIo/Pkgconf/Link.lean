import SpdkIo.Pkgconf.Spec

/-!
# What the linker does with the result

The archive that a static library is resolved to, the order of the library tokens, and the file
that a library token asks for, with the exact conditions under which `parse` respects them.
Nothing here is used by the parser.
-/

namespace SpdkIo.Pkgconf

open Text

/-! ## The archive that is picked -/

/-- The archive of the library `n` in the first of `dirs` that holds one. -/
def pickedArchive (fs : FileSystem) (dirs : List Text) (n : Text) : Option Text :=
  (dirs.map fun dir => UnixPath.join dir (archiveName n)).find? fs

/-- The path lies under a system root. -/
def PkgConfigParser.underRoot (P : PkgConfigParser) (path : Text) : Bool :=
  P.systemRoots.any fun sys => UnixPath.startsWith path sys

/-- Every library that is linked statically is resolved, over the emitted search paths, to an
archive outside the system roots. -/
def RootsExcluded (P : PkgConfigParser) (fs : FileSystem) (pkgConfigOutput : Text) : Prop :=
  ∃ flags, P.parse fs pkgConfigOutput = some flags ∧
    ∀ n k, .library n k ∈ flags → k ≠ .default →
      ∃ archive, pickedArchive fs (searchPaths flags) n = some archive ∧
        P.underRoot archive = false

/-- For every library that is first named by a `-l` or `-l:` token and has an archive in a `-L`
directory outside the system roots, the first `-L` directory that holds its archive holds one
outside them. -/
def FirstArchiveOutside (P : PkgConfigParser) (fs : FileSystem) (tokens : List Text) : Prop :=
  ∀ n, firstNaming tokens n = some (.lib n) → Available P fs tokens n →
    ∀ archive, pickedArchive fs (libDirs tokens) n = some archive → P.underRoot archive = false

/-! ## The order of the tokens -/

/-- The tokens that name a library, each with the region flag at its position. -/
def libraryTokens (P : PkgConfigParser) (fs : FileSystem) (tokens : List Text) :
    List (Text × Option Bool) :=
  (tokens.zipIdx.filter fun (flag, _) => (token flag).name.isSome).map fun (flag, i) =>
    (flag, P.regionAt fs tokens i)

/-- `parse` gives every library the same kind in both outputs. -/
def SameKinds (P : PkgConfigParser) (fs : FileSystem) (output output' : Text) : Prop :=
  ∃ flags flags', P.parse fs output = some flags ∧ P.parse fs output' = some flags' ∧
    ∀ n k, .library n k ∈ flags ↔ .library n k ∈ flags'

/-- The first token that names `pthread` is `-pthread`. -/
def PthreadFirst (tokens : List Text) : Prop :=
  firstNaming tokens "pthread".toList = some .pthread

/-! ## The file that a token asks for -/

/-- What a library token asks the linker for: a library by name, or a file. -/
inductive Request
  | name (n : Text)
  | file (f : Text)
  deriving DecidableEq, Repr

/-- The request of a library token. -/
def request (flag : Text) : Option Request :=
  if let some f := stripPrefix flag "-l:".toList then some (.file f)
  else if let some n := stripPrefix flag "-l".toList then some (.name n)
  else if flag = "-pthread".toList then some (.name "pthread".toList)
  else none

/-- Both requests name the same file: `-ln` is for `lib<n>.a`. -/
def SameFile : Request → Request → Prop
  | .name n, .name m => n = m
  | .name n, .file f => f = archiveName n
  | .file f, .name n => f = archiveName n
  | .file f, .file g => f = g

/-- Both tokens have the same entry. -/
def Merged (flags : List LinkerFlag) (flag flag' : Text) : Prop :=
  ∃ n k, .library n k ∈ flags ∧ (token flag).name = some n ∧ (token flag').name = some n

/-- Library tokens with one entry name the same file. -/
def MergesSameFile (P : PkgConfigParser) (fs : FileSystem) (pkgConfigOutput : Text) : Prop :=
  ∃ flags, P.parse fs pkgConfigOutput = some flags ∧
    ∀ flag ∈ splitWhitespace pkgConfigOutput, ∀ flag' ∈ splitWhitespace pkgConfigOutput,
      ∀ r r', request flag = some r → request flag' = some r' → Merged flags flag flag' →
        SameFile r r'

/-- A file that is not `lib<n>.a` for its normalised name `n` is the only request of the output
with this name. -/
def OddFilesAlone (tokens : List Text) : Prop :=
  ∀ f, "-l:".toList ++ f ∈ tokens → f ≠ archiveName (explicitLibName f) →
    ∀ flag ∈ tokens, ∀ r, request flag = some r → (token flag).name = some (explicitLibName f) →
      r = .file f

end SpdkIo.Pkgconf
