import SpdkIo.Bdev
import SpdkIo.Io.Proof.Inv
import SpdkIo.Nvme.Proof.Inv
import SpdkIo.Nvmf.Proof.Listen

/-!
# The error of an SPDK failure

SPDK reports a failure as a negated errno. `Wrapper.Reports` says of a wrapper that its caller gets
a given error for a given code, whatever the run. Those of `bdev.rs` pass the code on as it is, and
all others negate it (`reports_iff`).
-/

namespace SpdkIo

open Thread.State (cstringNew)

/-! ## `Bdev::open` -/

theorem Bdev.zero_notMem_name {spdk : SpdkBdevs} (bdev : Bdev spdk) :
    0 ∉ Utf8.encode bdev.name := by
  unfold Bdev.name
  cases hd : Utf8.decode (spdk.getName bdev.ptr) with
  | none => decide
  | some name =>
    have hbytes := Utf8.decode_eq_some.1 hd
    rw [Option.getD_some, ← hbytes]
    exact spdk.zero_notMem_getName bdev.ptr

/-- A code of `spdk_bdev_open_ext` is the error's as it is. -/
theorem Bdev.open_error {spdk : SpdkBdevs} {bdev : Bdev spdk} {write : Bool} {rc : Int32}
    (hrc : (spdk.openExt (Utf8.encode bdev.name) write).1 = rc) (h0 : rc ≠ 0) :
    bdev.open write = .error (.os rc) := by
  subst hrc
  unfold Bdev.open
  rw [cstringNew_of_notMem bdev.zero_notMem_name]
  exact (if_pos h0).trans rfl

/-! ## The asynchronous operations -/

variable {O : Oneshot (Result Unit)}

/-- SPDK gave the code to the operation: its submission returned it, or its completion has it. -/
def Op.Given (op : Op O) (rc : Int32) : Prop :=
  op.io = .refused rc ∨ op.io = .completed (.subsystem rc)

/-- The future of the operation returns the result: it returned no other, and if it has not returned
its next poll does. -/
def Op.Delivers (op : Op O) (s : Io.State O) (i : OpId) (result : Result Unit) : Prop :=
  (∀ r, op.fut = .returned r → r = result) ∧
    (op.alive = true → ∃ s', (s.step (.ret i) = some s' ∨ s.step (.poll i) = some s') ∧
      s'.resolved = s.resolved ++ [(i, result)])

/-- Only the callback of `start` and `stop` takes an errno. -/
theorem OpKind.callback_subsystem {kind : OpKind} {rc : Int32} {result : Result Unit}
    (h : kind.op.callback (.subsystem rc) = some result) (h0 : rc ≠ 0) :
    result = .error (kind.rejection rc) := by
  have hout := (OpKind.callback_spec h).2 h0
  cases kind with
  | bdevRead | bdevWrite | nvmeRead | nvmeWrite => cases h
  | subsystemStart | subsystemStop => exact hout

namespace Io
variable {s : State O} {i : OpId} {op : Op O} {rc : Int32}

theorem delivers_of_returned {result : Result Unit} (hf : op.fut = .returned result) :
    op.Delivers s i result := by
  refine ⟨fun r hr => ?_, fun ha => ?_⟩
  · rw [hf] at hr
    cases hr
    rfl
  · rw [Op.alive, hf] at ha
    cases ha

theorem delivers_of_dropped {result : Result Unit} (hf : op.fut = .dropped) :
    op.Delivers s i result := by
  refine ⟨fun r hr => ?_, fun ha => ?_⟩
  · rw [hf] at hr
    cases hr
  · rw [Op.alive, hf] at ha
    cases ha

theorem delivers_of_poll {result : Result Unit}
    (hf : (∃ rc, op.fut = .submitting rc) ∨ op.fut = .awaiting)
    (h : ∃ s', (s.step (.ret i) = some s' ∨ s.step (.poll i) = some s') ∧
      s'.resolved = s.resolved ++ [(i, result)]) :
    op.Delivers s i result := by
  refine ⟨fun r hr => ?_, fun _ => h⟩
  rcases hf with ⟨rc, hf⟩ | hf <;> rw [hf] at hr <;> cases hr

theorem ret_refused (hop : s.ops[i]? = some op) (hf : op.fut = .submitting rc) (h0 : rc ≠ 0) :
    s.step (.ret i) = some (s.resolve i op (.error (op.kind.op.refused rc))) := by
  change s.ret i = _
  simp [State.ret, hop, hf, h0]

/-- The next poll of a future whose callback ran. -/
theorem poll_holding {result : Result Unit} (hop : s.ops[i]? = some op)
    (hf : op.fut = .submitting 0 ∨ op.fut = .awaiting) (hh : O.Holding op.chan result) :
    ∃ s', (s.step (.ret i) = some s' ∨ s.step (.poll i) = some s') ∧
      s'.resolved = s.resolved ++ [(i, result)] := by
  obtain ⟨chan, heq⟩ := pollRx_holding (s := s) (i := i) hh
  refine ⟨s.pollRx i op, ?_, by rw [heq]; rfl⟩
  rcases hf with hf | hf
  · refine .inl ?_
    change s.ret i = _
    simp [State.ret, hop, hf]
  · refine .inr ?_
    change s.poll i = _
    simp [State.poll, hop, hf]

theorem Inv.delivers (h : Inv s) (hop : s.ops[i]? = some op) (hg : op.Given rc) (h0 : rc ≠ 0) :
    op.Delivers s i (.error (op.kind.rejection rc)) := by
  have hok := h.ops hop
  unfold Op.Ok at hok
  rcases hg with hio | hio <;> rw [hio] at hok
  · rw [← OpKind.refused_eq]
    obtain ⟨-, hf | hf⟩ := hok
    · exact delivers_of_poll (.inl ⟨rc, hf⟩) ⟨_, .inl (ret_refused hop hf h0), rfl⟩
    · exact delivers_of_returned hf
  · obtain ⟨result, hcb, hfut⟩ := hok
    rw [← OpKind.callback_subsystem hcb h0]
    rcases hfut with ⟨hh, hf⟩ | hf | hf
    · exact delivers_of_poll (hf.imp_left fun hf => ⟨0, hf⟩) (poll_holding hop hf hh)
    · exact delivers_of_returned hf
    · exact delivers_of_dropped hf

/-- A run in which the submission of an operation with a buffer is refused. -/
theorem exists_refused {kind : OpKind} (hbuf : kind.op.buf.isSome = true) (h0 : rc ≠ 0) :
    ∃ (s : State O) (op : Op O), (lts O).Reach s ∧ s.ops[0]? = some op ∧ op.kind = kind ∧
      op.io = .refused rc ∧ op.fut = .submitting rc := by
  let s1 : State O := ⟨[], [.allocated], .empty, [], []⟩
  let s2 : State O := { s1 with
    ops := [⟨kind, some 0, .unresumed, .unsubmitted, completion O⟩] }
  have h1 : (lts O).Reach s1 := Lts.ReachBy.init.next (a := .alloc) trivial rfl
  have h2 : (lts O).Reach s2 := by
    refine h1.next (a := .call kind (some 0)) trivial ?_
    cases kind <;> first | rfl | cases hbuf
  have h3 : (lts O).step s2 (.submit 0 0 rc) = some { s2 with
      ops := [⟨kind, some 0, .submitting rc, .refused rc, completion O⟩]
      heap := ⟨AList.insert 0 0 ∅⟩ } := by
    change s2.submit 0 0 rc = _
    simp [State.submit, s2, s1, h0, Boxes.intoRaw, Boxes.empty]
  exact ⟨_, _, h2.next trivial h3, rfl, rfl, rfl, rfl⟩

/-- The error that a refused operation delivers is the one it makes of the code. -/
theorem eq_of_delivers {error : Error} (hop : s.ops[i]? = some op) (hf : op.fut = .submitting rc)
    (h0 : rc ≠ 0) (h : op.Delivers s i (.error error)) : error = op.kind.op.refused rc := by
  have halive : op.alive = true := by rw [Op.alive, hf]
  obtain ⟨s', hs | hs, hres⟩ := h.2 halive
  · rw [ret_refused hop hf h0, Option.some.injEq] at hs
    subst hs
    have hlog : s.resolved ++ [(i, .error (op.kind.op.refused rc))] =
        s.resolved ++ [(i, .error error)] := hres
    simpa using hlog.symm
  · change s.poll i = some s' at hs
    simp [State.poll, hop, hf] at hs

end Io

/-! ## All wrappers -/

/-- The wrappers that SPDK gives an errno to. -/
inductive Wrapper
  | bdevOpen
  | op (kind : OpKind)
  | connectAsync
  | listen
  | addTransport
  | addListener
  deriving DecidableEq

/-- Where SPDK gives the code `rc` to a call of the wrapper, its caller gets the error. -/
def Wrapper.Reports (rc : Int32) (error : Error) : Wrapper → Prop
  | .bdevOpen => ∀ (spdk : SpdkBdevs) (bdev : Bdev spdk) (write : Bool),
    (spdk.openExt (Utf8.encode bdev.name) write).1 = rc → bdev.open write = .error error
  | .op kind => ∀ (O : Oneshot (Result Unit)) (s : Io.State O) (i : OpId) (op : Op O),
    (Io.lts O).Reach s → s.ops[i]? = some op → op.kind = kind → op.Given rc →
      op.Delivers s i (.error error)
  | .connectAsync => rc ≠ -Nvme.eagain →
    ∀ (R : Type) [Inhabited R] (s s' : Nvme.State R),
      (Nvme.lts R).Reach s → s.step (.pollRet rc) = some s' →
        ∃ f rest, s.stack = f :: rest ∧ s'.stack = rest ∧
          s'.returned = s.returned ++ [⟨f.call, true, some rc, f.attached, .error error⟩]
  | .listen => ∀ listenExt trid, listenExt trid = rc →
    Nvmf.NvmfTarget.listen listenExt trid = .error error
  | .addTransport => ∀ (O : Oneshot (Result Unit)) (s : Nvmf.CallState O),
    (Nvmf.NvmfTarget.addTransport O).Reach s → s.io = .completed rc →
      Nvmf.CallDelivers (Nvmf.NvmfTarget.addTransport O) s (.error error)
  | .addListener => ∀ (O : Oneshot (Result Unit)) (s : Nvmf.CallState O),
    (Nvmf.NvmfSubsystem.addListener O).Reach s → s.io = .completed rc →
      Nvmf.CallDelivers (Nvmf.NvmfSubsystem.addListener O) s (.error error)

/-- The wrappers of `bdev.rs`. -/
def Wrapper.ofBdev : Wrapper → Bool
  | .bdevOpen | .op .bdevRead | .op .bdevWrite => true
  | _ => false

section
variable {rc : Int32} (h0 : rc ≠ 0)
include h0

theorem reports_op {kind : OpKind} : (Wrapper.op kind).Reports rc (kind.rejection rc) := by
  intro O s i op hs hop hkind hg
  rw [← hkind]
  exact (Io.inv_of_reach hs).delivers hop hg h0

theorem reports_connectAsync : Wrapper.connectAsync.Reports rc (.os (-rc)) := by
  intro hne R _ s s' _ hs
  cases Nvme.stepped hs with
  | done _ => exact absurd rfl h0
  | phase _ ha => rcases ha with ha | ha | ha <;> cases ha; exact absurd rfl hne
  | failed hst _ _ => exact ⟨_, _, hst, rfl, rfl⟩

theorem reports_listen : Wrapper.listen.Reports rc (.os (-rc)) := by
  intro listenExt trid hrc
  subst hrc
  exact (if_pos h0).trans rfl

theorem reports_addTransport : Wrapper.addTransport.Reports rc (.os (-rc)) := by
  intro O s hs hio
  have hdone : Nvmf.addTransportDone rc = .error (.os (-rc)) := by
    simp [Nvmf.addTransportDone, h0, Error.fromErrno]
  exact hdone ▸ (Nvmf.CallInv.reach hs).completed hio

theorem reports_addListener : Wrapper.addListener.Reports rc (.os (-rc)) := by
  intro O s hs hio
  have hdone : Nvmf.listenerDone rc = .error (.os (-rc)) := by
    simp [Nvmf.listenerDone, h0, Error.fromErrno]
  exact hdone ▸ (Nvmf.CallInv.reach hs).completed hio

/-- Every wrapper but those of `bdev.rs` negates the code. -/
theorem reports_neg {w : Wrapper} (hw : w.ofBdev = false) : w.Reports rc (.os (-rc)) := by
  cases w with
  | bdevOpen => cases hw
  | op kind =>
    cases kind with
    | bdevRead | bdevWrite => cases hw
    | nvmeRead | nvmeWrite | subsystemStart | subsystemStop => exact reports_op h0
  | connectAsync => exact reports_connectAsync h0
  | listen => exact reports_listen h0
  | addTransport => exact reports_addTransport h0
  | addListener => exact reports_addListener h0

/-- Those of `bdev.rs` report no error but the one with the code itself. -/
theorem eq_of_reports {w : Wrapper} (hw : w.ofBdev = true) {error : Error}
    (h : w.Reports rc error) : error = .os rc := by
  have hrefused : ∀ {kind : OpKind}, kind.op.buf.isSome = true →
      (Wrapper.op kind).Reports rc error → error = kind.op.refused rc := by
    intro kind hbuf h
    obtain ⟨s, op, hs, hop, rfl, hio, hf⟩ := @Io.exists_refused (.cell _) rc kind hbuf h0
    exact Io.eq_of_delivers hop hf h0 (h _ s 0 op hs hop rfl (.inl hio))
  cases w with
  | bdevOpen =>
    let spdk : SpdkBdevs :=
      ⟨Unit, Unit, fun _ => [], fun _ => List.not_mem_nil, fun _ _ => (rc, none)⟩
    have hopen := h spdk ⟨()⟩ false rfl
    rw [Bdev.open_error rfl h0] at hopen
    cases hopen
    rfl
  | op kind =>
    cases kind with
    | bdevRead | bdevWrite => exact hrefused rfl h
    | nvmeRead | nvmeWrite | subsystemStart | subsystemStop => cases hw
  | connectAsync | listen | addTransport | addListener => cases hw

end

/-! ## Errnos -/

section
variable {e : Int32} (he : 0 < e)
include he

theorem neg_lt_zero_of_pos : -e < 0 := by
  have hpos : 0 < e.toInt := Int32.lt_iff_toInt_lt.1 he
  have hlt := e.toInt_lt
  have hneg : (-e).toInt = -e.toInt := by
    rw [Int32.toInt_neg, Int.bmod_eq_of_le] <;> omega
  rw [Int32.lt_iff_toInt_lt, hneg]
  exact Int.neg_neg_of_pos hpos

/-- `from_rc` gives the errno of a code of either sign. -/
theorem fromRc_errno : Error.fromRc e = .os e ∧ Error.fromRc (-e) = .os e := by
  constructor
  · exact if_neg (Int32.not_lt.2 (Int32.le_of_lt he))
  · rw [Error.fromRc, if_pos (neg_lt_zero_of_pos he), Int32.neg_neg]

end

/-- **The caller gets the errno** of a failure from all wrappers but those of `bdev.rs`. -/
theorem reports_iff (w : Wrapper) {e : Int32} (he : 0 < e) :
    w.Reports (-e) (.os e) ↔ w.ofBdev = false := by
  have hneg := neg_lt_zero_of_pos he
  have h0 : -e ≠ 0 := Int32.ne_of_lt hneg
  constructor
  · intro h
    rw [← Bool.not_eq_true]
    intro hw
    have heq := eq_of_reports h0 hw h
    rw [Error.os.injEq] at heq
    exact Int32.ne_of_lt (Int32.lt_trans hneg he) heq.symm
  · intro hw
    have h := reports_neg h0 hw
    rwa [Int32.neg_neg] at h

/-- `-ENOMEM` of a refused read, and of `listen`. -/
theorem reports_enomem : ¬ (Wrapper.op .bdevRead).Reports (-12) (.os 12) ∧
    Wrapper.listen.Reports (-12) (.os 12) := by
  refine ⟨fun h => ?_, (reports_iff .listen (by decide)).2 rfl⟩
  cases (reports_iff _ (by decide)).1 h

/-- `Bdev::open` of a device that is claimed: `-EBUSY` is passed on as it is. -/
theorem open_not_reports : ¬ ∀ (w : Wrapper) (e : Int32), 0 < e → w.Reports (-e) (.os e) := by
  intro hall
  have heq := eq_of_reports (by decide) (w := .bdevOpen) rfl (hall _ 16 (by decide))
  revert heq
  decide

end SpdkIo
