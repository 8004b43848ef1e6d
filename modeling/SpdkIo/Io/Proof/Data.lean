import SpdkIo.Io.Data
import SpdkIo.Io.Proof.Buffers
import SpdkIo.Io.Proof.Effect
import SpdkIo.Lib.Fifo

/-!
# The data of reads and writes

`data_kept`: as long as no future is dropped while its operation is in flight, every byte that SPDK
loads for a write is the one that its caller passed, and when a read returns, its buffer holds what
SPDK stored for it and nothing else. The borrows of the futures exclude each other
(`DataInv.exclusive`), so while a future is alive the contents of its buffer are those that it was
given with the stores of its own operation (`DataInv.contents`).
-/

namespace SpdkIo.Io

variable {O : Oneshot (Result Unit)} {s s' : State O} {d d' : Data O} {a : Action} {i j : OpId}
  {op op' : Op O} {b : BufId}

theorem other_spec (hs : d.other a = some d') :
    a.ofOp = true ∧ ∃ io, d.io.step a = some io ∧ d' = { d with io } := by
  cases a with
  | alloc | call kind buf | mutate b | free b => cases hs
  | submit i ctx rc | ret i | poll i | drop i | callback i status =>
    obtain ⟨io, hio, rfl⟩ := Option.map_eq_some_iff.1 hs
    exact ⟨rfl, io, hio, rfl⟩

/-! ## The contents of a buffer -/

/-- The stores of one operation, into `bytes`. -/
def applyStores (i : OpId) (stores : List (OpId × Nat × UInt8)) (bytes : List UInt8) :
    List UInt8 :=
  (forKey i stores).foldl (fun bytes (p, v) => bytes.set p v) bytes

theorem applyStores_append_self (stores : List (OpId × Nat × UInt8)) (p : Nat) (v : UInt8)
    (bytes : List UInt8) :
    applyStores i (stores ++ [(i, p, v)]) bytes = (applyStores i stores bytes).set p v := by
  simp [applyStores]

theorem applyStores_append_of_ne (hne : j ≠ i) (stores : List (OpId × Nat × UInt8)) (p : Nat)
    (v : UInt8) (bytes : List UInt8) :
    applyStores i (stores ++ [(j, p, v)]) bytes = applyStores i stores bytes := by
  simp [applyStores, forKey_singleton_ne hne]

/-- An operation for which nothing was stored. -/
theorem applyStores_of_notMem {stores : List (OpId × Nat × UInt8)}
    (hn : ∀ e ∈ stores, e.1 ≠ i) (bytes : List UInt8) : applyStores i stores bytes = bytes := by
  have hnil : forKey i stores = [] := by
    simpa [forKey] using hn
  rw [applyStores, hnil, List.foldl_nil]

/-- The buffer `b` of the operation `i` has what it was given and, for a read, what SPDK stored. -/
def Data.HasOwn (d : Data O) (i : OpId) (kind : OpKind) (b : BufId) : Prop :=
  ∃ bytes, d.given[i]? = some bytes ∧ d.mem[b]? =
    some (if kind.op.buf = some .mut then applyStores i d.stores bytes else bytes)

/-- The step keeps the futures of the operations in flight. -/
def Data.KeepsInFlight (d : Data O) : DataAction → Prop
  | .op a => Io.KeepsInFlight d.io a
  | _ => True

instance decidableKeepsInFlight (d : Data O) : (a : DataAction) → Decidable (d.KeepsInFlight a)
  | .op a => inferInstanceAs (Decidable (d.io.dropsInFlight a = false))
  | .alloc _ | .call _ _ | .mutate _ _ | .free _ | .load _ _ | .store _ _ _ => .isTrue trivial

/-! ## The invariant -/

/-- Of two futures that are alive and borrow one buffer, neither borrows it mutably. -/
def Exclusive (s : State O) : Prop :=
  ∀ (i j : OpId) (op op' : Op O) (b : BufId), i ≠ j → s.ops[i]? = some op → s.ops[j]? = some op' →
    op.alive = true → op'.alive = true → op.buf = some b → op'.buf = some b →
    op.kind.op.buf ≠ some .mut

theorem Exclusive.replaces (h : Exclusive s) (hr : Replaces i op op' s s') : Exclusive s' := by
  intro j k o o' b hne ho ho' hal hal' hb hb'
  obtain ⟨o₁, ho₁, hk₁, hb₁, hal₁⟩ := hr.back ho
  obtain ⟨o₂, ho₂, -, hb₂, hal₂⟩ := hr.back ho'
  rw [hk₁]
  exact h j k o₁ o₂ b hne ho₁ ho₂ (hal₁ hal) (hal₂ hal') (hb₁.symm.trans hb) (hb₂.symm.trans hb')

theorem Exclusive.call (h : Exclusive s) {kind : OpKind} {buf : Option BufId}
    (hs : s.call kind buf = some s') : Exclusive s' := by
  obtain ⟨-, ⟨op, hops, rfl, rfl⟩, hfree⟩ := call_spec hs
  intro i j o o' b hne ho ho' hal hal' hb hb'
  rw [hops] at ho ho'
  rcases Table.append_cases ho with ⟨hi, rfl⟩ | hold
  · rcases Table.append_cases ho' with ⟨hj, -⟩ | hold'
    · exact absurd (hi.trans hj.symm) hne
    · exact ((hfree b hb).2 o' (List.mem_of_getElem? hold') hal' hb').2
  · rcases Table.append_cases ho' with ⟨-, rfl⟩ | hold'
    · exact ((hfree b hb').2 o (List.mem_of_getElem? hold) hal hb).1
    · exact h i j o o' b hne hold hold' hal hal' hb hb'

structure DataInv (d : Data O) : Prop where
  io : Inv d.io
  kept : FuturesKept d.io
  exclusive : Exclusive d.io
  mem : d.mem.length = d.io.bufs.length
  given : d.given.length = d.io.ops.length
  /-- a buffer that is borrowed has the bytes that its borrower was given, with the stores of its
  own operation -/
  contents : ∀ (i : OpId) (op : Op O) (b : BufId), d.io.ops[i]? = some op → op.alive = true →
    op.buf = some b → ∃ bytes, d.given[i]? = some bytes ∧
      d.mem[b]? = some (applyStores i d.stores bytes)
  stores : ∀ e ∈ d.stores, ∃ op, d.io.ops[e.1]? = some op ∧ op.kind.op.buf = some .mut
  loads : ∀ e ∈ d.loads, ∃ bytes, d.given[e.1]? = some bytes ∧ bytes[e.2.1]? = some e.2.2

namespace DataInv

theorem init : DataInv (dataLts O).init where
  io := .init
  kept _ h := by cases h
  exclusive _ _ _ _ _ _ h := by cases h
  mem := rfl
  given := rfl
  contents _ _ _ h := by cases h
  stores _ h := by cases h
  loads _ h := by cases h

/-- The buffer of an operation in flight is still borrowed. -/
theorem alive (h : DataInv d) (hop : d.io.ops[i]? = some op) (hin : op.inFlight = true) :
    op.alive = true := by
  rcases (h.io.ops hop).inFlight hin with hal | hd
  · exact hal
  · exact absurd hd (h.kept op (List.mem_of_getElem? hop) hin)

theorem alloc (h : DataInv d) {bytes : List UInt8} (hs : d.alloc bytes = some d') :
    DataInv d' := by
  obtain ⟨-, hs⟩ := Option.ite_none_left_eq_some.1 hs
  obtain rfl := Option.some.inj hs
  have hstep : d.io.step .alloc = some d.io.alloc := rfl
  refine ⟨h.io.step hstep, h.kept.step h.io rfl hstep, h.exclusive, ?_, h.given, ?_, h.stores,
    h.loads⟩
  · simp [State.alloc, h.mem]
  · intro i op b hop hal hb
    obtain ⟨g, hg, hm⟩ := h.contents i op b hop hal hb
    exact ⟨g, hg, Table.append_of hm⟩

theorem call (h : DataInv d) {kind : OpKind} {buf : Option BufId}
    (hs : d.call kind buf = some d') : DataInv d' := by
  obtain ⟨io, hio, rfl⟩ := Option.map_eq_some_iff.1 hs
  have hstep : d.io.step (.call kind buf) = some io := hio
  obtain ⟨hbufs, ⟨op, hops, -, hbuf⟩, hfree⟩ := call_spec hio
  refine ⟨h.io.step hstep, h.kept.step h.io rfl hstep, h.exclusive.call hio, ?_, ?_, ?_, ?_, ?_⟩
  · rw [hbufs]
    exact h.mem
  · simp [hops, h.given]
  · intro j o b ho hal hb
    rw [hops] at ho
    rcases Table.append_cases ho with ⟨rfl, rfl⟩ | hold
    · -- the new operation: its buffer is there, and nothing was stored for it
      have hlt : b < d.mem.length := by
        rw [h.mem]
        exact (List.getElem?_eq_some_iff.1 (hfree b (hbuf.symm.trans hb)).1).1
      refine ⟨d.mem[b], ?_, ?_⟩
      · rw [← hbuf, hb, ← h.given]
        simp [hlt]
      · rw [applyStores_of_notMem, List.getElem?_eq_getElem hlt]
        intro e he heq
        obtain ⟨o, ho, -⟩ := h.stores e he
        rw [heq] at ho
        exact absurd (List.getElem?_eq_some_iff.1 ho).1 (Nat.lt_irrefl _)
    · obtain ⟨g, hg, hm⟩ := h.contents j o b hold hal hb
      exact ⟨g, Table.append_of hg, hm⟩
  · intro e he
    rw [hops]
    exact Table.exists_append (h.stores e he)
  · intro e he
    exact Table.exists_append (h.loads e he)

/-- A step that leaves the contents of the buffers alone, and the futures or some of them alive. -/
theorem replaces (h : DataInv d) (hio : Inv s') (hkept : FuturesKept s')
    (hr : Replaces i op op' d.io s') : DataInv { d with io := s' } := by
  refine ⟨hio, hkept, h.exclusive.replaces hr, ?_, ?_, ?_, ?_, h.loads⟩
  · rw [hr.bufs]
    exact h.mem
  · simp [hr.ops, h.given]
  · intro j o b ho hal hb
    rw [hr.ops] at ho
    rcases Table.set_cases ho with ⟨rfl, rfl⟩ | ⟨-, ho⟩
    · exact h.contents i op b hr.before (hr.alive hal) (hr.buf.symm.trans hb)
    · exact h.contents j o b ho hal hb
  · intro e he
    rw [hr.ops]
    exact Table.exists_set hr.before (fun hm => by rwa [hr.kind]) (h.stores e he)

theorem mutate (h : DataInv d) {bytes : List UInt8} (hs : d.mutate b bytes = some d') :
    DataInv d' := by
  obtain ⟨io, hio, hs⟩ := Option.bind_eq_some_iff.1 hs
  obtain ⟨old, hold, hs⟩ := Option.bind_eq_some_iff.1 hs
  obtain ⟨-, hs⟩ := Option.ite_none_right_eq_some.1 hs
  obtain rfl := Option.some.inj hs
  have hstep : d.io.step (.mutate b) = some io := hio
  have hfree := alive_of_touches (a := .mutate b) rfl hstep
  obtain ⟨-, hio⟩ := Option.ite_none_right_eq_some.1 hio
  obtain rfl := Option.some.inj hio
  refine ⟨h.io, h.kept, h.exclusive, ?_, h.given, ?_, h.stores, h.loads⟩
  · simp [h.mem]
  · intro i op b' hop hal hb
    obtain ⟨g, hg, hm⟩ := h.contents i op b' hop hal hb
    refine ⟨g, hg, Table.set_of_ne ?_ hm⟩
    rintro rfl
    rw [hfree op (List.mem_of_getElem? hop) hb] at hal
    cases hal

theorem free (h : DataInv d) (hs : d.free b = some d') : DataInv d' := by
  obtain ⟨io, hio, rfl⟩ := Option.map_eq_some_iff.1 hs
  have hstep : d.io.step (.free b) = some io := hio
  have hinv := h.io.step hstep
  have hkept := h.kept.step h.io rfl hstep
  obtain ⟨-, hio⟩ := Option.ite_none_right_eq_some.1 hio
  obtain rfl := Option.some.inj hio
  refine ⟨hinv, hkept, h.exclusive, ?_, h.given, h.contents, h.stores, h.loads⟩
  rw [List.length_set]
  exact h.mem

/-- A write is never stored for, so that its buffer has the bytes that it was given. -/
theorem load (h : DataInv d) {p : Nat} (hs : d.load i p = some d') : DataInv d' := by
  obtain ⟨op, hop, hs⟩ := Option.bind_eq_some_iff.1 hs
  obtain ⟨b, hb, hs⟩ := Option.bind_eq_some_iff.1 hs
  obtain ⟨bytes, hbytes, hs⟩ := Option.bind_eq_some_iff.1 hs
  obtain ⟨v, hv, hs⟩ := Option.bind_eq_some_iff.1 hs
  obtain ⟨⟨hin, hshared⟩, hs⟩ := Option.ite_none_right_eq_some.1 hs
  obtain rfl := Option.some.inj hs
  refine ⟨h.io, h.kept, h.exclusive, h.mem, h.given, h.contents, h.stores, fun e he => ?_⟩
  rcases List.mem_append.1 he with he | he
  · exact h.loads e he
  · obtain rfl := List.mem_singleton.1 he
    obtain ⟨g, hg, hm⟩ := h.contents i op b hop (h.alive hop hin) hb
    refine ⟨g, hg, ?_⟩
    rw [applyStores_of_notMem] at hm
    · rwa [← Option.some.inj (hbytes.symm.trans hm)]
    · rintro e hmem rfl
      obtain ⟨o, ho, hmut⟩ := h.stores e hmem
      obtain rfl := Option.some.inj (ho.symm.trans hop)
      rw [hshared] at hmut
      cases hmut

/-- A read is the only borrower of its buffer. -/
theorem store (h : DataInv d) {p : Nat} {v : UInt8} (hs : d.store i p v = some d') :
    DataInv d' := by
  obtain ⟨op, hop, hs⟩ := Option.bind_eq_some_iff.1 hs
  obtain ⟨b, hb, hs⟩ := Option.bind_eq_some_iff.1 hs
  obtain ⟨bytes, hbytes, hs⟩ := Option.bind_eq_some_iff.1 hs
  obtain ⟨⟨hin, hmut, -⟩, hs⟩ := Option.ite_none_right_eq_some.1 hs
  obtain rfl := Option.some.inj hs
  refine ⟨h.io, h.kept, h.exclusive, ?_, h.given, fun j o b' ho hal hb' => ?_, fun e he => ?_,
    h.loads⟩
  · rw [List.length_set]
    exact h.mem
  · obtain ⟨g, hg, hm⟩ := h.contents j o b' ho hal hb'
    refine ⟨g, hg, ?_⟩
    by_cases hij : i = j
    · subst hij
      obtain rfl := Option.some.inj (hop.symm.trans ho)
      obtain rfl := Option.some.inj (hb.symm.trans hb')
      rw [Option.some.inj (hbytes.symm.trans hm), applyStores_append_self]
      exact Table.set_self hm
    · rw [applyStores_append_of_ne hij]
      refine Table.set_of_ne ?_ hm
      rintro rfl
      exact h.exclusive i j op o b hij hop ho (h.alive hop hin) hal hb hb' hmut
  · rcases List.mem_append.1 he with he | he
    · exact h.stores e he
    · obtain rfl := List.mem_singleton.1 he
      exact ⟨op, hop, hmut⟩

/-- The buffer of an operation whose future is alive. -/
theorem hasOwn (h : DataInv d) (hop : d.io.ops[i]? = some op) (hal : op.alive = true)
    (hb : op.buf = some b) : d.HasOwn i op.kind b := by
  obtain ⟨g, hg, hm⟩ := h.contents i op b hop hal hb
  refine ⟨g, hg, ?_⟩
  by_cases hmut : op.kind.op.buf = some .mut
  · rw [if_pos hmut]
    exact hm
  · rw [if_neg hmut, hm, applyStores_of_notMem]
    rintro e he rfl
    obtain ⟨o, ho, hmut'⟩ := h.stores e he
    obtain rfl := Option.some.inj (ho.symm.trans hop)
    exact hmut hmut'

theorem step (h : DataInv d) {a : DataAction} (hkeep : d.KeepsInFlight a)
    (hs : d.step a = some d') : DataInv d' := by
  cases a with
  | alloc bytes => exact h.alloc hs
  | call kind buf => exact h.call hs
  | mutate b bytes => exact h.mutate hs
  | free b => exact h.free hs
  | load i p => exact h.load hs
  | store i p v => exact h.store hs
  | op a =>
    obtain ⟨ha, io, hio, rfl⟩ := other_spec hs
    obtain ⟨i, op, op', hr⟩ := op_step h.io ha hio
    exact h.replaces (h.io.step hio) (h.kept.step h.io hkeep hio) hr

end DataInv

/-! ## Runs -/

/-- The poll that resolves the future of an operation finds it alive. -/
theorem polls_alive (ha : a = .ret i ∨ a = .poll i) (hs : s.step a = some s') :
    ∃ op op', Polls i s s' op op' ∧ op.alive = true := by
  rcases ha with rfl | rfl
  · obtain ⟨op, op', rc, hpolls, hf⟩ := ret_polls hs
    exact ⟨op, op', hpolls, by rw [Op.alive, hf]⟩
  · obtain ⟨op, op', hpolls, hf⟩ := poll_polls hs
    exact ⟨op, op', hpolls, by rw [Op.alive, hf]⟩

end SpdkIo.Io
