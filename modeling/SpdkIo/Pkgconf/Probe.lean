import SpdkIo.Lib.Utf8
import SpdkIo.Pkgconf.Cflags

/-!
# `PkgConfigParser::probe`

The runs of the program `pkg-config` (`pkgconf/src/lib.rs`): `run_pkg_config_raw`, its two uses
`run_pkg_config` and `run_pkg_config_cflags`, and `probe`, which parses what they return. The
program is a parameter. The setters of the parser are here, too.
-/

namespace SpdkIo.Pkgconf

/-! ## Settings -/

/-- `PkgConfigParser::system_roots` -/
def PkgConfigParser.setSystemRoots (self : PkgConfigParser) (roots : List Text) :
    PkgConfigParser :=
  { self with systemRoots := roots }

/-- `PkgConfigParser::force_whole_archive` -/
def PkgConfigParser.setForceWholeArchive (self : PkgConfigParser) (libs : List Text) :
    PkgConfigParser :=
  { self with forceWholeArchive := libs }

/-! ## The program -/

/-- `std::process::Output` -/
structure Output where
  success : Bool
  stdout : List UInt8
  stderr : List UInt8

/-- A run of `pkg-config`, given a value for `PKG_CONFIG_PATH` and the arguments: its output, or the
text of the error of a program that could not be run. -/
abbrev Command := Option Text → List Text → Except Text Output

def runPkgConfigRaw (cmd : Command) (args packages : List Text) (pkgConfigPath : Option Text) :
    Except Text Text :=
  match cmd pkgConfigPath (args ++ packages) with
  | .error e => .error ("Failed to run pkg-config: ".toList ++ e)
  | .ok output =>
    if !output.success then
      .error ("pkg-config failed: ".toList ++ Utf8.decodeLossy output.stderr)
    else .ok (Utf8.decodeLossy output.stdout)

def runPkgConfig (cmd : Command) (packages : List Text) (pkgConfigPath : Option Text) :
    Except Text Text :=
  runPkgConfigRaw cmd ["--static".toList, "--libs".toList] packages pkgConfigPath

def runPkgConfigCflags (cmd : Command) (packages : List Text) (pkgConfigPath : Option Text) :
    Except Text Text :=
  runPkgConfigRaw cmd ["--cflags".toList] packages pkgConfigPath

/-! ## Both runs -/

structure PkgConfig where
  libs : List LinkerFlag
  cflags : List CompilerFlag

/-- `none` is the panic of `parse`. -/
def PkgConfigParser.probe (self : PkgConfigParser) (fs : FileSystem) (cmd : Command)
    (packages : List Text) (pkgConfigPath : Option Text) : Option (Except Text PkgConfig) :=
  match runPkgConfig cmd packages pkgConfigPath with
  | .error e => some (.error e)
  | .ok libsOutput =>
    match runPkgConfigCflags cmd packages pkgConfigPath with
    | .error e => some (.error e)
    | .ok cflagsOutput =>
      (self.parse fs libsOutput).map fun libs => .ok ⟨libs, self.parseCflags cflagsOutput⟩

end SpdkIo.Pkgconf
