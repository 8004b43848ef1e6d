import Mathlib.Order.Interval.Set.Basic
import SpdkIo.Io.Model

/-!
# What the I/O functions hand to SPDK

`DmaBuf` (`dma.rs`), and the SPDK calls of `BdevDesc::read/write` (`bdev.rs`) and
`NvmeNamespace::read/write` (`namespace.rs`) with their arguments, as far as these say what is
transferred. `usize` has 64 bits.

The answers of SPDK are a parameter. An I/O channel, a queue pair and the context of the callback
say nothing of the transfer and are left out.
-/

namespace SpdkIo.Transfer

/-- A namespace, with the sector size that SPDK gives for it. -/
structure NvmeNamespace where
  sectorSize : UInt32
  deriving DecidableEq

/-- A transfer that SPDK is asked for. -/
inductive Request
  /-- `spdk_bdev_read` and `spdk_bdev_write` -/
  | bdev (write : Bool) (buf offset nbytes : UInt64)
  /-- `spdk_nvme_ns_cmd_read` and `spdk_nvme_ns_cmd_write` -/
  | nvmeNs (write : Bool) (ns : NvmeNamespace) (payload lba : UInt64) (lbaCount ioFlags : UInt32)
  deriving DecidableEq

/-- The answers of SPDK. A null pointer is 0. -/
structure Spdk where
  dmaMalloc : UInt64 → UInt64 → UInt64
  dmaZmalloc : UInt64 → UInt64 → UInt64
  submit : Request → Int32

/-! ## Buffers -/

/-- A `DmaBuf`: the only ways to make one refuse the size 0 and a null pointer. -/
structure DmaBuf where
  ptr : UInt64
  len : UInt64
  ptr_ne_zero : ptr ≠ 0
  len_ne_zero : len ≠ 0

namespace DmaBuf

/-- `alloc` and `alloc_zeroed`, by SPDK's function. -/
def allocWith (malloc : UInt64 → UInt64 → UInt64) (size align : UInt64) : Result DmaBuf :=
  if hsize : size = 0 then .error (.invalidArgument "size must be > 0")
  else if hptr : malloc size align = 0 then .error (.dmaAlloc size)
  else .ok ⟨malloc size align, size, hptr, hsize⟩

def alloc (spdk : Spdk) (size align : UInt64) : Result DmaBuf :=
  allocWith spdk.dmaMalloc size align

def allocZeroed (spdk : Spdk) (size align : UInt64) : Result DmaBuf :=
  allocWith spdk.dmaZmalloc size align

end DmaBuf

/-! ## The first poll -/

/-- What the first poll of a future hands to SPDK, and its result, if it is ready. -/
structure FirstPoll where
  submitted : List Request
  ready : Option (Result Unit)

/-- The SPDK call, and the return if it is refused. -/
def firstPoll (spdk : Spdk) (op : AsyncOp) (request : Request) : FirstPoll where
  submitted := [request]
  ready :=
    let rc := spdk.submit request
    if rc ≠ 0 then some (.error (op.refused rc)) else none

def BdevDesc.read (spdk : Spdk) (buf : DmaBuf) (offset : UInt64) : FirstPoll :=
  firstPoll spdk SpdkIo.BdevDesc.read (.bdev false buf.ptr offset buf.len)

def BdevDesc.write (spdk : Spdk) (buf : DmaBuf) (offset : UInt64) : FirstPoll :=
  firstPoll spdk SpdkIo.BdevDesc.write (.bdev true buf.ptr offset buf.len)

def NvmeNamespace.read (spdk : Spdk) (ns : NvmeNamespace) (buf : DmaBuf) (lba : UInt64)
    (numBlocks : UInt32) : FirstPoll :=
  firstPoll spdk SpdkIo.NvmeNamespace.read (.nvmeNs false ns buf.ptr lba numBlocks 0)

def NvmeNamespace.write (spdk : Spdk) (ns : NvmeNamespace) (buf : DmaBuf) (lba : UInt64)
    (numBlocks : UInt32) : FirstPoll :=
  firstPoll spdk SpdkIo.NvmeNamespace.write (.nvmeNs true ns buf.ptr lba numBlocks 0)

/-! ## What a transfer covers -/

/-- The address where a transfer begins. -/
def Request.start : Request → UInt64
  | .bdev _ buf _ _ => buf
  | .nvmeNs _ _ payload _ _ _ => payload

/-- The number of bytes of a transfer. -/
def Request.bytes : Request → Nat
  | .bdev _ _ _ nbytes => nbytes.toNat
  | .nvmeNs _ ns _ _ lbaCount _ => lbaCount.toNat * ns.sectorSize.toNat

/-- The addresses of a transfer. -/
def Request.region (r : Request) : Set Nat :=
  Set.Ico r.start.toNat (r.start.toNat + r.bytes)

/-- The addresses of a buffer. -/
def DmaBuf.region (buf : DmaBuf) : Set Nat := Set.Ico buf.ptr.toNat (buf.ptr.toNat + buf.len.toNat)

end SpdkIo.Transfer
