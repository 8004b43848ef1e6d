import SpdkIo.Io.Model

/-!
# The outcome of an operation

What the result of an operation is to be, in terms of its status: `Op.Outcome`.
-/

namespace SpdkIo

/-- The operation of the completion succeeded. An NVMe status is success when its status code
type (bits 9 to 11) and its status code (bits 1 to 8) are both zero. -/
def Status.Succeeded : Status → Prop
  | .bdev success => success = true
  | .nvme statusRaw => statusRaw.toNat / 512 % 8 = 0 ∧ statusRaw.toNat / 2 % 256 = 0
  | .subsystem status => status = 0

/-- The error of a completion that did not succeed. -/
def Status.error : Status → Error
  | .bdev _ => .ioError
  | .nvme statusRaw =>
    .nvmeError (.ofNat (statusRaw.toNat / 512 % 8)) (.ofNat (statusRaw.toNat / 2 % 256))
  | .subsystem status => .os (-status)

/-- The error of a submission that returned `rc`. -/
def OpKind.rejection : OpKind → Int32 → Error
  | .bdevRead, rc | .bdevWrite, rc => .os rc
  | _, rc => .os (-rc)

/-- `result` is `Ok(())` exactly when the completion succeeded, and else its error. -/
def Status.Outcome (status : Status) (result : Result Unit) : Prop :=
  (result = .ok () ↔ status.Succeeded) ∧ (¬ status.Succeeded → result = .error status.error)

/-- `result` is the result of the operation's own submission and completion. -/
def Op.Outcome {O : Oneshot (Result Unit)} (op : Op O) (result : Result Unit) : Prop :=
  match op.io with
  | .refused rc => result = .error (op.kind.rejection rc)
  | .completed status => status.Outcome result
  | _ => False

/-! ## The callbacks -/

section
variable {status : Status} {result : Result Unit}

theorem bdevIoCompletionCb_spec (h : status.bdev?.map bdevIoCompletionCb = some result) :
    status.Outcome result := by
  obtain ⟨success, hs, rfl⟩ := Option.map_eq_some_iff.1 h
  cases status <;> cases hs
  cases success <;> simp [bdevIoCompletionCb, Status.Outcome, Status.Succeeded, Status.error]

theorem nvmeIoComplete_spec (h : status.nvme?.map nvmeIoComplete = some result) :
    status.Outcome result := by
  obtain ⟨raw, hs, rfl⟩ := Option.map_eq_some_iff.1 h
  cases status <;> cases hs
  have hsct : ((raw >>> 9) &&& 0x7).toNat = raw.toNat / 512 % 8 := by
    rw [UInt16.toNat_and, UInt16.toNat_shiftRight]
    exact (Nat.and_two_pow_sub_one_eq_mod _ 3).trans (by rw [Nat.shiftRight_eq_div_pow]; rfl)
  have hsc : ((raw >>> 1) &&& 0xff).toNat = raw.toNat / 2 % 256 := by
    rw [UInt16.toNat_and, UInt16.toNat_shiftRight]
    exact (Nat.and_two_pow_sub_one_eq_mod _ 8).trans (by rw [Nat.shiftRight_eq_div_pow]; rfl)
  have hzero : ∀ x : UInt16, x = 0 ↔ x.toNat = 0 := fun x => UInt16.toNat_inj.symm
  unfold nvmeIoComplete Status.Outcome Status.Succeeded Status.error
  simp only [Bool.and_eq_true, beq_iff_eq, hzero, hsct, hsc]
  split
  · rename_i hz
    exact ⟨⟨fun _ => hz, fun _ => rfl⟩, fun hn => absurd hz hn⟩
  · rename_i hz
    refine ⟨⟨fun h' => (nomatch h'), fun h' => absurd h' hz⟩, fun _ => ?_⟩
    rw [← hsct, ← hsc]
    rfl

theorem subsystemStateChangeDone_spec
    (h : status.subsystem?.map subsystemStateChangeDone = some result) :
    status.Outcome result := by
  obtain ⟨code, hs, rfl⟩ := Option.map_eq_some_iff.1 h
  cases status <;> cases hs
  unfold subsystemStateChangeDone Status.Outcome Status.Succeeded Status.error
  by_cases hz : code = 0
  · simp [hz]
  · simp [hz, Error.fromErrno]

/-- Each callback sends the outcome of its status. -/
theorem OpKind.callback_spec {kind : OpKind} (h : kind.op.callback status = some result) :
    status.Outcome result := by
  cases kind with
  | bdevRead | bdevWrite => exact bdevIoCompletionCb_spec h
  | nvmeRead | nvmeWrite => exact nvmeIoComplete_spec h
  | subsystemStart | subsystemStop => exact subsystemStateChangeDone_spec h

end

/-- Each function returns the error of its own submission. -/
theorem OpKind.refused_eq (kind : OpKind) (rc : Int32) :
    kind.op.refused rc = kind.rejection rc := by
  cases kind <;> rfl

end SpdkIo
