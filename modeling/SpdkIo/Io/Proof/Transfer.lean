import Mathlib.Order.Interval.Set.LinearOrder
import SpdkIo.Io.Transfer

/-!
# Transfers and their buffers

`region_subset_iff`: a transfer that begins with its buffer stays in it exactly if it has no more
bytes than the buffer. `inBuffer_iff`: the requests of the bdev functions always have the buffer's
length, and those of the NVMe functions are bounded by it exactly where the blocks fit.
-/

namespace SpdkIo.Transfer

variable {spdk : Spdk} {buf : DmaBuf}

/-! ## Buffers -/

/-- A buffer that was allocated has the size that was asked for. -/
theorem allocWith_len {malloc : UInt64 → UInt64 → UInt64} {size align : UInt64}
    (h : DmaBuf.allocWith malloc size align = .ok buf) : buf.len = size := by
  unfold DmaBuf.allocWith at h
  split at h
  · cases h
  · split at h
    · cases h
    · cases h
      rfl

/-- A transfer stays in its buffer exactly if it is not longer. -/
theorem region_subset_iff {r : Request} (h : r.start = buf.ptr) :
    r.region ⊆ buf.region ↔ r.bytes ≤ buf.len.toNat := by
  unfold Request.region DmaBuf.region
  rw [h]
  constructor
  · intro hsub
    by_contra hlt
    -- the first address after the buffer
    have hmem : buf.ptr.toNat + buf.len.toNat ∈
        Set.Ico buf.ptr.toNat (buf.ptr.toNat + r.bytes) := ⟨by omega, by omega⟩
    have := (hsub hmem).2
    omega
  · rintro hle a ⟨hlo, hhi⟩
    exact ⟨hlo, by omega⟩

/-! ## The first poll -/

/-- A future that was refused is ready with the error, and any other is pending. -/
theorem firstPoll_ret {O : Oneshot (Result Unit)} (s : Io.State O) {i : OpId} {op : Op O}
    (hop : s.ops[i]? = some op) (r : Request) (hf : op.fut = .submitting (spdk.submit r)) :
    s.ret i = match (firstPoll spdk op.kind.op r).ready with
      | some result => some (s.resolve i op result)
      | none => some (s.pollRx i op) := by
  unfold Io.State.ret firstPoll
  rw [hop, Option.bind_some, hf]
  dsimp only
  split <;> rfl

/-- What the functions are to do: one request for `bytes` bytes of the buffer, if these fit, and
otherwise an error without a request. -/
def InBuffer (buf : DmaBuf) (bytes : Nat) (p : FirstPoll) : Prop :=
  (bytes ≤ buf.len.toNat → ∃ r, p.submitted = [r] ∧ r.start = buf.ptr ∧ r.bytes = bytes) ∧
  (buf.len.toNat < bytes → p.submitted = [] ∧ ∃ e, p.ready = some (.error e))

/-- A function that asks for `bytes` bytes whatever the buffer does what it is to do exactly where
these fit. -/
theorem inBuffer_firstPoll {op : AsyncOp} {r : Request} {bytes : Nat} (hstart : r.start = buf.ptr)
    (hbytes : r.bytes = bytes) :
    InBuffer buf bytes (firstPoll spdk op r) ↔ bytes ≤ buf.len.toNat := by
  constructor
  · intro h
    by_contra hlt
    obtain ⟨hnil, -⟩ := h.2 (by omega)
    cases hnil
  · intro hle
    exact ⟨fun _ => ⟨r, rfl, hstart, hbytes⟩, fun hlt => by omega⟩

/-- Where the bytes fit, the requests stay in the buffer. -/
theorem InBuffer.region {bytes : Nat} {p : FirstPoll} (h : InBuffer buf bytes p) {r : Request}
    (hr : r ∈ p.submitted) : r.region ⊆ buf.region := by
  rcases Nat.lt_or_ge buf.len.toNat bytes with hlt | hle
  · rw [(h.2 hlt).1] at hr
    cases hr
  · obtain ⟨r', hsub, hstart, hbytes⟩ := h.1 hle
    rw [hsub] at hr
    obtain rfl := List.mem_singleton.1 hr
    rw [region_subset_iff hstart, hbytes]
    exact hle

/-- **The transfers of the I/O functions**: the bdev functions ask for the buffer's length, and the
NVMe functions do what they are to do exactly where the blocks fit in the buffer. -/
theorem inBuffer_iff (spdk : Spdk) (buf : DmaBuf) :
    (∀ offset, InBuffer buf buf.len.toNat (BdevDesc.read spdk buf offset) ∧
      InBuffer buf buf.len.toNat (BdevDesc.write spdk buf offset)) ∧
    ∀ (ns : NvmeNamespace) lba (numBlocks : UInt32),
      (InBuffer buf (numBlocks.toNat * ns.sectorSize.toNat)
          (NvmeNamespace.read spdk ns buf lba numBlocks) ↔
        numBlocks.toNat * ns.sectorSize.toNat ≤ buf.len.toNat) ∧
      (InBuffer buf (numBlocks.toNat * ns.sectorSize.toNat)
          (NvmeNamespace.write spdk ns buf lba numBlocks) ↔
        numBlocks.toNat * ns.sectorSize.toNat ≤ buf.len.toNat) := by
  refine ⟨fun offset => ⟨?_, ?_⟩, fun ns lba numBlocks => ⟨?_, ?_⟩⟩
  · have hiff : InBuffer buf buf.len.toNat (BdevDesc.read spdk buf offset) ↔ _ :=
      inBuffer_firstPoll rfl rfl
    exact hiff.2 (Nat.le_refl _)
  · have hiff : InBuffer buf buf.len.toNat (BdevDesc.write spdk buf offset) ↔ _ :=
      inBuffer_firstPoll rfl rfl
    exact hiff.2 (Nat.le_refl _)
  · exact inBuffer_firstPoll rfl rfl
  · exact inBuffer_firstPoll rfl rfl

/-- Nine blocks of 512 bytes, read into a buffer of 4096 bytes: the transfer is submitted, and
leaves the buffer. -/
theorem not_inBuffer : ¬ ∀ spdk (ns : NvmeNamespace) buf lba (numBlocks : UInt32),
    ∀ r ∈ (NvmeNamespace.read spdk ns buf lba numBlocks).submitted,
      r.bytes ≤ buf.len.toNat := by
  intro hall
  have hbytes := hall ⟨fun _ _ => 4096, fun _ _ => 4096, fun _ => 0⟩ ⟨512⟩
    ⟨4096, 4096, by decide, by decide⟩ 0 9 _ List.mem_cons_self
  exact absurd hbytes (by decide)

end SpdkIo.Transfer
