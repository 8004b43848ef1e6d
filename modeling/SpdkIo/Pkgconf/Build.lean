import SpdkIo.Pkgconf.Cargo
import SpdkIo.Pkgconf.Probe

/-!
# The build script of `spdk-io-sys`

`main` of `spdk-io-sys/build.rs` up to the run of bindgen: the packages it asks pkg-config for, the
libraries it forces to be linked whole, what it prints to cargo and the arguments it has for clang.
-/

namespace SpdkIo.Pkgconf.Build

/-- The packages. -/
def spdkLibs : List Text :=
  ["spdk_env_dpdk".toList, "spdk_thread".toList, "spdk_bdev".toList, "spdk_blob".toList,
    "spdk_blob_bdev".toList, "spdk_nvme".toList, "spdk_nvmf".toList, "spdk_log".toList,
    "spdk_util".toList, "spdk_json".toList, "spdk_rpc".toList, "spdk_jsonrpc".toList,
    "spdk_event".toList, "spdk_event_bdev".toList, "spdk_event_nvmf".toList,
    "spdk_bdev_malloc".toList, "spdk_bdev_null".toList, "spdk_accel".toList, "spdk_sock".toList,
    "spdk_sock_posix".toList, "libdpdk".toList, "spdk_syslibs".toList]

/-- The libraries with constructor functions. -/
def forced : List Text :=
  ["spdk_event_bdev".toList, "spdk_event_nvmf".toList, "spdk_event_accel".toList,
    "spdk_event_vmd".toList, "spdk_event_sock".toList, "spdk_event_iobuf".toList,
    "spdk_event_keyring".toList, "spdk_bdev_null".toList, "spdk_bdev_malloc".toList,
    "spdk_accel".toList, "spdk_sock_posix".toList, "spdk_nvmf".toList, "spdk_nvme".toList]

def parser : PkgConfigParser := PkgConfigParser.new.setForceWholeArchive forced

/-- `env::var("PKG_CONFIG_PATH")`, or where SPDK is installed. -/
def pkgConfigPath (var : Option Text) : Text := var.getD "/opt/spdk/lib/pkgconfig".toList

/-- What makes cargo run the script again. -/
def rerun : List Text :=
  ["cargo:rerun-if-changed=wrapper.h".toList, "cargo:rerun-if-env-changed=PKG_CONFIG_PATH".toList]

/-- What the script has printed, and the arguments for clang; `.error e` is the panic of `expect` on
`e`, and `none` that of `parse`. -/
def main (fs : FileSystem) (cmd : Command) (var : Option Text) :
    Text × Option (Except Text (List Text)) :=
  match parser.probe fs cmd spdkLibs (some (pkgConfigPath var)) with
  | none => (Text.printLines rerun, none)
  | some (.error e) => (Text.printLines rerun, some (.error e))
  | some (.ok pkg) =>
    (Text.printLines rerun ++ emitCargoMetadata pkg.libs true,
      some (.ok (toClangArgs pkg.cflags)))

/-! ## What is asked for -/

/-- The instructions of `rerun`. -/
def rerunInstructions : List Instruction :=
  [.other "rerun-if-changed".toList "wrapper.h".toList,
    .other "rerun-if-env-changed".toList "PKG_CONFIG_PATH".toList]

/-- A static library that is linked whole and is not put into an rlib. -/
def linkWhole (name : Text) : Instruction :=
  .linkLib ⟨some "static".toList, ["+whole-archive".toList, "-bundle".toList], name, none⟩

/-- The instructions that link a library of this name. -/
def linking (name : Text) (is : List Instruction) : List Instruction :=
  is.filter fun
    | .linkLib lib => lib.name == name
    | _ => false

end SpdkIo.Pkgconf.Build
