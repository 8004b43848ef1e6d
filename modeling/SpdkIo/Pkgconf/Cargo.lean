import SpdkIo.Pkgconf.Spec

/-!
# The directives for cargo

`LinkerFlag::to_cargo_directive`, `to_cargo_directives` and `emit_cargo_metadata` of
`pkgconf/src/lib.rs`, and how cargo and rustc read what they print: a line is `cargo:KEY=VALUE`,
the value of `rustc-link-lib` is `[KIND[:MODIFIERS]=]NAME[:RENAME]`, that of `rustc-link-search` is
`[KIND=]PATH`. Neither the reading nor the meaning of the flags is used by the printing.
-/

namespace SpdkIo.Pkgconf

open Text

/-! ## Printing -/

def LinkerFlag.toCargoDirective (self : LinkerFlag) (noBundle : Bool) : Text :=
  match self with
  | .searchPath path => "cargo:rustc-link-search=native=".toList ++ path
  | .library name kind =>
    match kind with
    | .default => "cargo:rustc-link-lib=".toList ++ name
    | .static =>
      if noBundle then "cargo:rustc-link-lib=static:-bundle=".toList ++ name
      else "cargo:rustc-link-lib=static=".toList ++ name
    | .wholeArchive =>
      if noBundle then "cargo:rustc-link-lib=static:+whole-archive,-bundle=".toList ++ name
      else "cargo:rustc-link-lib=static:+whole-archive=".toList ++ name
  | .linkerArg arg => "cargo:rustc-link-arg=".toList ++ arg

def toCargoDirectives (flags : List LinkerFlag) (noBundle : Bool) : List Text :=
  flags.map (·.toCargoDirective noBundle)

/-- What `emit_cargo_metadata` prints. -/
def emitCargoMetadata (flags : List LinkerFlag) (noBundle : Bool) : Text :=
  printLines (toCargoDirectives flags noBundle)

/-! ## Reading -/

/-- A library as rustc is asked to link it. -/
structure NativeLib where
  kind : Option Text
  modifiers : List Text
  name : Text
  rename : Option Text
  deriving DecidableEq, Repr

/-- An instruction of a build script to cargo. -/
inductive Instruction
  | linkSearch (kind path : Text)
  | linkLib (lib : NativeLib)
  | linkArg (arg : Text)
  | other (key value : Text)
  deriving DecidableEq, Repr

/-- `NAME[:RENAME]` -/
def readName (kind : Option Text) (modifiers : List Text) (name : Text) : NativeLib :=
  match splitOnce name ':' with
  | some (name, rename) => ⟨kind, modifiers, name, some rename⟩
  | none => ⟨kind, modifiers, name, none⟩

/-- `[KIND[:MODIFIERS]=]NAME[:RENAME]` -/
def readLib (value : Text) : NativeLib :=
  match splitOnce value '=' with
  | none => readName none [] value
  | some (spec, name) =>
    match splitOnce spec ':' with
    | some (kind, modifiers) => readName (some kind) (splitComma modifiers) name
    | none => readName (some spec) [] name

/-- The kinds of a search path. -/
def searchKinds : List Text :=
  ["dependency".toList, "crate".toList, "native".toList, "framework".toList, "all".toList]

/-- `[KIND=]PATH`, of the kind `all` if none is given. -/
def readSearch (value : Text) : Instruction :=
  match searchKinds.findSome? fun kind => (stripPrefix value (kind ++ ['='])).map (kind, ·) with
  | some (kind, path) => .linkSearch kind path
  | none => .linkSearch "all".toList value

/-- `KEY=VALUE` -/
def readInstruction (key value : Text) : Instruction :=
  if key = "rustc-link-search".toList then readSearch value
  else if key = "rustc-link-lib".toList then .linkLib (readLib value)
  else if key = "rustc-link-arg".toList then .linkArg value
  else .other key value

/-- A line that is not `cargo:KEY=VALUE` is no instruction. -/
def readDirective (line : Text) : Option Instruction :=
  (stripPrefix line "cargo:".toList).bind fun s =>
    (splitOnce s '=').map fun (key, value) => readInstruction key value

/-- The instructions in the output of a build script. -/
def readCargo (stdout : Text) : List Instruction := (splitLines stdout).filterMap readDirective

/-! ## Meaning -/

/-- The modifiers that keep a static library out of an rlib. -/
def bundleModifiers (noBundle : Bool) : List Text := if noBundle then ["-bundle".toList] else []

/-- How a library of the kind `kind` is to be linked. -/
def LinkKind.nativeLib (noBundle : Bool) (name : Text) : LinkKind → NativeLib
  | .default => ⟨none, [], name, none⟩
  | .static => ⟨some "static".toList, bundleModifiers noBundle, name, none⟩
  | .wholeArchive =>
    ⟨some "static".toList, "+whole-archive".toList :: bundleModifiers noBundle, name, none⟩

/-- What the flag asks for. -/
def LinkerFlag.instruction (noBundle : Bool) : LinkerFlag → Instruction
  | .searchPath path => .linkSearch "native".toList path
  | .library name kind => .linkLib (kind.nativeLib noBundle name)
  | .linkerArg arg => .linkArg arg

/-- The name of the library is read as it is: it has no `:` of a renaming, and a name without a
link kind has no `=` that ends one. -/
def LinkerFlag.Readable : LinkerFlag → Prop
  | .library name kind => ':' ∉ name ∧ (kind = .default → '=' ∉ name)
  | _ => True

/-- Every library name is read as it is: it has no `:`, and an `=` only where the library is
available and so gets a link kind. -/
def NamesReadable (P : PkgConfigParser) (fs : FileSystem) (tokens : List Text) : Prop :=
  ∀ n, Named tokens n → ':' ∉ n ∧ ('=' ∈ n → Available P fs tokens n)

/-- `-lstatic=m` asks for a library `static=m`, and is read as a static library `m`. -/
example : readCargo (emitCargoMetadata
    [.searchPath "/o".toList, .library "a=b".toList .wholeArchive, .library "static=m".toList
      .default] true) =
    [.linkSearch "native".toList "/o".toList,
      .linkLib ⟨some "static".toList, ["+whole-archive".toList, "-bundle".toList], "a=b".toList,
        none⟩,
      .linkLib ⟨some "static".toList, [], "m".toList, none⟩] := by rfl

end SpdkIo.Pkgconf
