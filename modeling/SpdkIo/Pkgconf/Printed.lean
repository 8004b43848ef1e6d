import SpdkIo.Pkgconf.Clang

/-!
# The output of pkg-config

How pkg-config prints the flags of a package: every character that is special to the shell gets a
backslash, and the flags are joined with single spaces. `ReadBack` says that the parsers give the
flags back. Nothing here is used by the parsers.
-/

namespace SpdkIo.Pkgconf

open Text

/-- The characters that are special to a shell; the characters of `-L`, `-I`, `-D` and `=` are
not. -/
structure Shell where
  special : Char → Bool
  plain : ∀ c ∈ "-LID=".toList, special c = false

/-- The characters that POSIX has quoted. -/
def Shell.posix : Shell where
  special c := decide (c ∈ "|&;<>()$`\\\"' \t\n*?[#~%".toList)
  plain c hc := by
    simp only [String.reduceToList, List.mem_cons, List.not_mem_nil, or_false] at hc
    rcases hc with rfl | rfl | rfl | rfl | rfl <;> rfl

def Shell.escape (sh : Shell) (s : Text) : Text :=
  s.flatMap fun c => if sh.special c then ['\\', c] else [c]

/-- A flag of a package: `-Lp`, `-Ip`, `-Dk` or `-Dk=v`. -/
inductive PackageFlag
  | libDir (path : Text)
  | includeDir (path : Text)
  | define (key : Text)
  | defineAs (key value : Text)
  deriving DecidableEq, Repr

namespace PackageFlag

def text : PackageFlag → Text
  | libDir path => "-L".toList ++ path
  | includeDir path => "-I".toList ++ path
  | define key => "-D".toList ++ key
  | defineAs key value => "-D".toList ++ key ++ "=".toList ++ value

/-- The linker flag with the original strings. -/
def linkerFlag : PackageFlag → Option LinkerFlag
  | libDir path => some (.searchPath path)
  | _ => none

/-- The compiler flag with the original strings. -/
def compilerFlag : PackageFlag → Option CompilerFlag
  | libDir _ => none
  | includeDir path => some (.includePath path)
  | define key => some (.define key none)
  | defineAs key value => some (.define key (some value))

/-- The macro name of a definition. -/
def key : PackageFlag → Text
  | define key => key
  | defineAs key _ => key
  | _ => []

/-- The strings in the flag. -/
def strings : PackageFlag → List Text
  | libDir path => [path]
  | includeDir path => [path]
  | define key => [key]
  | defineAs key value => [key, value]

/-- No character of the strings is whitespace or special, and a macro name has no `=`. -/
def Plain (sh : Shell) (f : PackageFlag) : Prop :=
  (∀ s ∈ f.strings, ∀ c ∈ s, isWhitespace c = false ∧ sh.special c = false) ∧ '=' ∉ f.key

end PackageFlag

/-- The output of pkg-config for `flags`. -/
def Shell.print (sh : Shell) (flags : List PackageFlag) : Text :=
  joinSpaces (flags.map fun f => sh.escape f.text)

/-- The parsers return the original strings, in order; repeated compiler flags are kept once. -/
def ReadBack (P : PkgConfigParser) (fs : FileSystem) (sh : Shell) (flags : List PackageFlag) :
    Prop :=
  P.parse fs (sh.print flags) = some (flags.filterMap (·.linkerFlag)) ∧
    P.parseCflags (sh.print flags) = (flags.filterMap (·.compilerFlag)).eraseDups

example : Shell.posix.print [.libDir "/o p".toList, .defineAs "V".toList "\"1\"".toList] =
    "-L/o\\ p -DV=\\\"1\\\"".toList := by rfl

end SpdkIo.Pkgconf
