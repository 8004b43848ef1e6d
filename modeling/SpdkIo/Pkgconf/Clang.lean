import Mathlib.Data.List.DropRight
import SpdkIo.Pkgconf.Cflags

/-!
# What clang reads

The meaning of `-I` and `-D` arguments to clang: the directories in the order it searches them, and
for every macro the definition in effect after all arguments. Nothing here is used by the parser.
-/

namespace SpdkIo.Pkgconf

open Text

/-- The token is a compiler flag that the parser knows. -/
def isCompilerFlag (token : Text) : Bool :=
  "-I".toList.isPrefixOf token || "-D".toList.isPrefixOf token

/-- The token is a compiler flag that has its argument in it. -/
def isJoined (token : Text) : Bool :=
  (stripPrefix token "-I".toList).any (· ≠ []) || (stripPrefix token "-D".toList).any (· ≠ [])

/-- The include directories, each where it is first given. -/
def includeOrder (args : List Text) : List Text :=
  (args.filterMap fun arg => stripPrefix arg "-I".toList).eraseDups

/-! ## Macros -/

/-- A character that a macro name may start with. -/
def isNameStart (c : Char) : Bool := c.isAlpha || c == '_' || c == '$' || 128 ≤ c.toNat

/-- A character of a macro name. -/
def isNameChar (c : Char) : Bool := isNameStart c || c.isDigit

/-- What a macro is defined as: its parameters, if it has a list of them, and its body. -/
structure Definition where
  parameters : Option Text
  body : Text
  deriving DecidableEq

/-- A body without the blanks around it. -/
def trim (s : Text) : Text := (s.dropWhile isWhitespace).rdropWhile isWhitespace

/-- What follows the name of a macro: parameters stand right after it. -/
def readDefinition : Text → Definition
  | '(' :: rest =>
    let (parameters, body) := (splitOnce rest ')').getD (rest, [])
    ⟨some parameters, trim body⟩
  | rest => ⟨none, trim rest⟩

/-- The macro that an argument defines: `-D<head>=<body>` is read as `#define <head> <body>`, and
`-D<head>` as `#define <head> 1`. -/
def macroDef (arg : Text) : Option (Text × Definition) :=
  (stripPrefix arg "-D".toList).bind fun define =>
    let (head, body) := (splitOnce define '=').getD (define, "1".toList)
    let line := head ++ ' ' :: body
    if line.head?.any isNameStart then
      some (line.takeWhile isNameChar, readDefinition (line.dropWhile isNameChar))
    else none

example : macroDef "-DF(x)=x=1".toList = some ("F".toList, ⟨some "x".toList, "x=1".toList⟩) := by
  decide

/-- The definition of `name` after one more argument: a later one replaces an earlier one. -/
def readMacro (name : Text) (definition : Option Definition) (arg : Text) : Option Definition :=
  match macroDef arg with
  | some (key, val) => if key = name then some val else definition
  | none => definition

/-- The definition of `name` in effect after `args`. -/
def macroDefinition (args : List Text) (name : Text) : Option Definition :=
  args.foldl (readMacro name) none

/-- Among the definitions of `name` in `tokens`, `token` is the last to occur for the first time;
it gives `definition`. -/
def Newest (tokens : List Text) (name token : Text) (definition : Definition) : Prop :=
  ∃ before after, tokens = before ++ token :: after ∧ macroDef token = some (name, definition) ∧
    token ∉ before ∧
    ∀ t ∈ after, ∀ d, macroDef t = some (name, d) → t ∈ before ∨ t = token

/-- The newest definition of `name` is the last one. -/
def NewestIsLast (tokens : List Text) (name : Text) : Prop :=
  ∀ token definition, Newest tokens name token definition →
    macroDefinition tokens name = some definition

end SpdkIo.Pkgconf
