import SpdkIo.Pkgconf.Parse

/-!
# `PkgConfigParser::parse_cflags`

The parser of `pkg-config --cflags` output and the printer of its result (`to_clang_args`), from
`pkgconf/src/lib.rs`. The loop is a fold of `cflagsStep`, one iteration, over the tokens; its
variables are a `CflagsState`. `path.display()` of a path made from a `str` is that `str`.
-/

namespace SpdkIo.Pkgconf

open Text

/-- A parsed compiler flag. -/
inductive CompilerFlag
  | includePath (path : Text)
  | define (key : Text) (value : Option Text)
  deriving DecidableEq, Repr

def CompilerFlag.toClangArg : CompilerFlag → Text
  | .includePath path => "-I".toList ++ path
  | .define key none => "-D".toList ++ key
  | .define key (some v) => "-D".toList ++ key ++ "=".toList ++ v

def toClangArgs (flags : List CompilerFlag) : List Text := flags.map (·.toClangArg)

/-- The loop variables. -/
structure CflagsState where
  flags : List CompilerFlag := []
  seen : List Text := []

/-- One iteration: `seen.insert(token)` is `true` for a new token. -/
def cflagsStep (s : CflagsState) (token : Text) : CflagsState :=
  if let some path := stripPrefix token "-I".toList then
    if token ∈ s.seen then s
    else { flags := s.flags ++ [.includePath path], seen := token :: s.seen }
  else if let some define := stripPrefix token "-D".toList then
    if token ∈ s.seen then s
    else
      match splitOnce define '=' with
      | some (key, val) =>
        { flags := s.flags ++ [.define key (some val)], seen := token :: s.seen }
      | none => { flags := s.flags ++ [.define define none], seen := token :: s.seen }
  else s

/-- The settings are not used. -/
def PkgConfigParser.parseCflags (_self : PkgConfigParser) (output : Text) : List CompilerFlag :=
  ((splitWhitespace output).foldl cflagsStep {}).flags

example :
    PkgConfigParser.new.parseCflags "-I/a -DB -DC=1=2 -std=c11 -I/a".toList =
      [.includePath "/a".toList, .define "B".toList none,
        .define "C".toList (some "1=2".toList)] := by rfl

end SpdkIo.Pkgconf
