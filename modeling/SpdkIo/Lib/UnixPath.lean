import SpdkIo.Lib.Text

/-!
# Unix paths

Rust's `std::path::Path` on Unix, as the text it is made of: `Path::components`, `Path::join`
and the component-wise `Path::starts_with`. A path is absolute when it starts with `/`.
-/

namespace UnixPath

/-- `std::path::Component` (a Unix path has no prefix component). -/
inductive Component
  | rootDir
  | curDir
  | parentDir
  | normal (name : Text)
  deriving DecidableEq, Repr

/-- The component of one `/`-separated part; empty parts and `.` have none. -/
def parseSingleComponent (part : Text) : Option Component :=
  if part = [] ∨ part = ['.'] then none
  else if part = ['.', '.'] then some .parentDir
  else some (.normal part)

/-- `Path::has_root`. -/
def hasRoot (p : Text) : Bool := p.head? == some '/'

/-- `Path::components`: a leading `.` of a relative path is kept. -/
def components (p : Text) : List Component :=
  let parts := p.splitOn '/'
  let front :=
    if hasRoot p then [.rootDir] else if parts.head? = some ['.'] then [.curDir] else []
  front ++ parts.filterMap parseSingleComponent

/-- `Path::starts_with`: whole components are compared. -/
def startsWith (p base : Text) : Bool := (components base).isPrefixOf (components p)

/-- `/usr` is a root of `/usr//lib/.`, not of `/usrlocal`. -/
example : startsWith "/usr//lib/.".toList "/usr".toList = true ∧
    startsWith "/usrlocal".toList "/usr/".toList = false := by decide

/-- `Path::join`: an absolute `q` replaces `p`. -/
def join (p q : Text) : Text :=
  if hasRoot q then q
  else if p.getLast?.any (· ≠ '/') then p ++ '/' :: q
  else p ++ q

end UnixPath
