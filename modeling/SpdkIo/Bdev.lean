import SpdkIo.CString
import SpdkIo.Lib.Utf8

/-!
# Block devices

`Bdev::name` and `Bdev::open` (`bdev.rs`). SPDK's part is a parameter. A string is the list of its
characters, a C string the list of its bytes.
-/

namespace SpdkIo

open Thread.State (cstringNew)

/-- SPDK's block devices. -/
structure SpdkBdevs where
  Bdev : Type
  Desc : Type
  /-- `spdk_bdev_get_name` -/
  getName : Bdev → List UInt8
  zero_notMem_getName (bdev : Bdev) : 0 ∉ getName bdev
  /-- `spdk_bdev_open_ext`: the return code, and what is written to `desc`; `none` is NULL -/
  openExt : List UInt8 → Bool → Int32 × Option Desc

structure Bdev (spdk : SpdkBdevs) where
  ptr : spdk.Bdev

namespace Bdev

variable {spdk : SpdkBdevs} (self : Bdev spdk)

def name : List Char := (Utf8.decode (spdk.getName self.ptr)).getD "<invalid utf8>".toList

def «open» (write : Bool) : Result spdk.Desc := do
  let nameCstr ← cstringNew (Utf8.encode self.name)
  let (rc, desc) := spdk.openExt nameCstr write
  if rc ≠ 0 then throw (.os rc)
  match desc with
  | some ptr => return ptr
  | none => throw (.invalidArgument "null descriptor")

end Bdev

end SpdkIo
