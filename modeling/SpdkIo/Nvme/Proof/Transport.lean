import SpdkIo.Nvme.Transport

/-!
# What a transport identifier holds

The constructors check lengths, not content: a text that fits is copied whole (`copyToField_fits`),
and read back up to its first NUL byte. So an accepted identifier has exactly its arguments when no
argument has a NUL byte (`exact_iff`).
-/

namespace SpdkIo.Nvme.TransportId

open Checked (bind_ok bind_error)

/-! ## Calls -/

/-- A call of a constructor. -/
inductive Call
  | pcie (addr : List UInt8)
  | tcp (addr port subnqn : List UInt8)
  | rdma (addr port subnqn : List UInt8)
  deriving DecidableEq, Repr

def Call.run (sizes : FieldSizes) : Call → Checked TransportId
  | .pcie addr => TransportId.pcie sizes addr
  | .tcp addr port subnqn => TransportId.tcp sizes addr port subnqn
  | .rdma addr port subnqn => TransportId.rdma sizes addr port subnqn

/-- An argument, the capacity of its array, and the getter that reads it back. -/
structure Argument where
  text : List UInt8
  capacity : Nat
  getter : TransportId → List UInt8

def Call.arguments (sizes : FieldSizes) : Call → List Argument
  | .pcie addr => [⟨addr, sizes.traddr, address⟩]
  | .tcp addr port subnqn | .rdma addr port subnqn =>
    [⟨addr, sizes.traddr, address⟩, ⟨port, sizes.trsvcid, serviceId⟩,
      ⟨subnqn, sizes.subnqn, TransportId.subnqn⟩]

/-- The name that the call writes to `trstring`. -/
def Call.name : Call → String
  | .pcie _ => "PCIe"
  | .tcp _ _ _ => "TCP"
  | .rdma _ _ _ => "RDMA"

def Call.transportType : Call → TransportType
  | .pcie _ => .pcie
  | .tcp _ _ _ => .tcp
  | .rdma _ _ _ => .rdma

/-- Every argument is shorter than its array. -/
def Call.Fits (c : Call) (sizes : FieldSizes) : Prop :=
  ∀ arg ∈ c.arguments sizes, arg.text.length < arg.capacity

/-- No argument has a NUL byte. -/
def Call.NulFree (c : Call) (sizes : FieldSizes) : Prop := ∀ arg ∈ c.arguments sizes, 0 ∉ arg.text

/-- The name of the transport is shorter than its array. -/
def Call.NameFits (c : Call) (sizes : FieldSizes) : Prop :=
  (nameBytes c.name).length < sizes.trstring

/-- An identifier that is returned has exactly the arguments; NUL-free arguments that fit are
accepted, and an argument that is too long is an error. -/
def Call.Exact (c : Call) (sizes : FieldSizes) : Prop :=
  (∀ trid, c.run sizes = some (.ok trid) → ∀ arg ∈ c.arguments sizes, arg.getter trid = arg.text) ∧
    (c.NulFree sizes → c.Fits sizes → ∃ trid, c.run sizes = some (.ok trid)) ∧
    ((∃ arg ∈ c.arguments sizes, arg.capacity ≤ arg.text.length) →
      ∃ e, c.run sizes = some (.error e))

/-! ## Fields -/

/-- The getters read the C string of a field. -/
theorem fieldToStr_eq (field : CField) : fieldToStr field = field.cstr := by
  have htake : ∀ f : CField, f.take ((f.findIdx? (· == 0)).getD f.length) =
      f.takeWhile (· != 0) := by
    intro f
    induction f with
    | nil => rfl
    | cons c f ih =>
      rw [List.findIdx?_cons, List.takeWhile_cons, ← ih]
      by_cases hc : c = 0
      · simp [hc]
      · have hne : (c == 0) = false := by simpa using hc
        cases f.findIdx? (· == 0) <;> simp [hne, bne]
  exact congrArg (List.map Int8.toUInt8) (htake field)

/-- What is left of a text that was copied to a field: its bytes before the first NUL. -/
def upToNul (text : List UInt8) : List UInt8 := text.takeWhile (· != 0)

section
variable {n : Nat} {text : List UInt8}

theorem copyToField_fits (name : String) (h : text.length < n) :
    ∃ field, copyToField (.zeroed n) text name = some (.ok field) ∧
      fieldToStr field = upToNul text := by
  obtain ⟨field, hs, hc⟩ := CField.cstr_store h
  refine ⟨field, ?_, by rw [fieldToStr_eq, hc, upToNul]⟩
  rw [copyToField, if_neg (by rw [CField.length_zeroed]; omega), hs]
  rfl

theorem copyToField_tooLong (name : String) (text : List UInt8) (hn : 0 < n)
    (h : n ≤ text.length) :
    copyToField (.zeroed n) text name = some (.error (tooLong name text.length (n - 1))) := by
  rw [copyToField, if_pos (by rw [CField.length_zeroed]; omega), CField.length_zeroed]
  rfl

end

/-! ## Constructors -/

variable {sizes : FieldSizes}

theorem fabric_ok {trtype : TransportType} {name : String} {addr port subnqn : List UInt8}
    (hname : (nameBytes name).length < sizes.trstring) (haddr : addr.length < sizes.traddr)
    (hport : port.length < sizes.trsvcid) (hsubnqn : subnqn.length < sizes.subnqn) :
    ∃ trid, fabric trtype name sizes addr port subnqn = some (.ok trid) ∧
      trid.transportType = some trtype ∧ trid.address = upToNul addr ∧
      trid.serviceId = upToNul port ∧ trid.subnqn = upToNul subnqn := by
  obtain ⟨f0, h0, -⟩ := copyToField_fits "trstring" hname
  obtain ⟨f1, h1, hf1⟩ := copyToField_fits "address" haddr
  obtain ⟨f2, h2, hf2⟩ := copyToField_fits "port" hport
  obtain ⟨f3, h3, hf3⟩ := copyToField_fits "subnqn" hsubnqn
  refine ⟨⟨⟨some trtype, some .ipv4, f0, f1, f2, f3⟩⟩, ?_, rfl, hf1, hf2, hf3⟩
  unfold fabric
  exact (bind_ok h0 _).trans ((bind_ok h1 _).trans ((bind_ok h2 _).trans (bind_ok h3 _)))

theorem fabric_error {trtype : TransportType} {name : String} {addr port subnqn : List UInt8}
    (h : ¬ ((nameBytes name).length < sizes.trstring ∧ addr.length < sizes.traddr ∧
      port.length < sizes.trsvcid ∧ subnqn.length < sizes.subnqn)) :
    ∃ e, fabric trtype name sizes addr port subnqn = some (.error e) := by
  unfold fabric
  by_cases hname : (nameBytes name).length < sizes.trstring
  · obtain ⟨f0, h0, -⟩ := copyToField_fits "trstring" hname
    by_cases haddr : addr.length < sizes.traddr
    · obtain ⟨f1, h1, -⟩ := copyToField_fits "address" haddr
      by_cases hport : port.length < sizes.trsvcid
      · obtain ⟨f2, h2, -⟩ := copyToField_fits "port" hport
        have h3 := copyToField_tooLong "subnqn" subnqn sizes.subnqn_pos (by omega)
        exact ⟨_, (bind_ok h0 _).trans ((bind_ok h1 _).trans ((bind_ok h2 _).trans
          (bind_error h3 _)))⟩
      · have h2 := copyToField_tooLong "port" port sizes.trsvcid_pos (by omega)
        exact ⟨_, (bind_ok h0 _).trans ((bind_ok h1 _).trans (bind_error h2 _))⟩
    · have h1 := copyToField_tooLong "address" addr sizes.traddr_pos (by omega)
      exact ⟨_, (bind_ok h0 _).trans (bind_error h1 _)⟩
  · have h0 := copyToField_tooLong "trstring" (nameBytes name) sizes.trstring_pos (by omega)
    exact ⟨_, bind_error h0 _⟩

/-- The address is copied as every other text. -/
theorem copyPciAddress_eq (field : CField) (addr : List UInt8) :
    copyPciAddress field addr = copyToField field addr "PCI address" := rfl

theorem pcie_ok {addr : List UInt8} (hname : (nameBytes "PCIe").length < sizes.trstring)
    (haddr : addr.length < sizes.traddr) :
    ∃ trid, pcie sizes addr = some (.ok trid) ∧ trid.transportType = some .pcie ∧
      trid.address = upToNul addr := by
  obtain ⟨f0, h0, -⟩ := copyToField_fits "trstring" hname
  obtain ⟨f1, h1, hf1⟩ := copyToField_fits "PCI address" haddr
  refine ⟨⟨⟨some .pcie, none, f0, f1, .zeroed sizes.trsvcid, .zeroed sizes.subnqn⟩⟩, ?_,
    rfl, hf1⟩
  unfold pcie
  simp only [copyPciAddress_eq]
  exact (bind_ok h0 _).trans (bind_ok h1 _)

theorem pcie_error {addr : List UInt8}
    (h : ¬ ((nameBytes "PCIe").length < sizes.trstring ∧ addr.length < sizes.traddr)) :
    ∃ e, pcie sizes addr = some (.error e) := by
  unfold pcie
  simp only [copyPciAddress_eq]
  by_cases hname : (nameBytes "PCIe").length < sizes.trstring
  · obtain ⟨f0, h0, -⟩ := copyToField_fits "trstring" hname
    have h1 := copyToField_tooLong "PCI address" addr sizes.traddr_pos (by omega)
    exact ⟨_, (bind_ok h0 _).trans (bind_error h1 _)⟩
  · have h0 := copyToField_tooLong "trstring" (nameBytes "PCIe") sizes.trstring_pos (by omega)
    exact ⟨_, bind_error h0 _⟩

/-! ## The exact condition -/

/-- A call whose name and arguments fit is accepted; its type and of every argument the bytes before
its first NUL are read back. -/
theorem Call.run_ok {c : Call} (hname : c.NameFits sizes) (hfits : c.Fits sizes) :
    ∃ trid, c.run sizes = some (.ok trid) ∧ trid.transportType = some c.transportType ∧
      ∀ arg ∈ c.arguments sizes, arg.getter trid = upToNul arg.text := by
  cases c with
  | pcie addr =>
    obtain ⟨trid, hrun, ht, ha⟩ := pcie_ok hname (hfits _ List.mem_cons_self)
    refine ⟨trid, hrun, ht, fun arg harg => ?_⟩
    rw [Call.arguments, List.mem_singleton] at harg
    subst harg
    exact ha
  | tcp addr port subnqn | rdma addr port subnqn =>
    simp only [Call.Fits, Call.arguments, List.forall_mem_cons] at hfits
    obtain ⟨haddr, hport, hsubnqn, -⟩ := hfits
    obtain ⟨trid, hrun, ht, ha, hp, hs⟩ := fabric_ok hname haddr hport hsubnqn
    refine ⟨trid, hrun, ht, fun arg harg => ?_⟩
    simp only [Call.arguments, List.mem_cons, List.not_mem_nil, or_false] at harg
    rcases harg with rfl | rfl | rfl
    · exact ha
    · exact hp
    · exact hs

/-- A call whose name or an argument does not fit is refused. -/
theorem Call.run_error {c : Call} (h : ¬ (c.NameFits sizes ∧ c.Fits sizes)) :
    ∃ e, c.run sizes = some (.error e) := by
  cases c with
  | pcie addr =>
    refine pcie_error fun hc => h ⟨hc.1, ?_⟩
    simp only [Call.Fits, Call.arguments, List.forall_mem_cons]
    exact ⟨hc.2, by simp⟩
  | tcp addr port subnqn | rdma addr port subnqn =>
    refine fabric_error fun hc => h ⟨hc.1, ?_⟩
    simp only [Call.Fits, Call.arguments, List.forall_mem_cons]
    exact ⟨hc.2.1, hc.2.2.1, hc.2.2.2, by simp⟩

/-- A call that is refused is exact unless its arguments should have been accepted. -/
theorem Call.exact_of_error {c : Call} {e : Error} (hrun : c.run sizes = some (.error e)) :
    c.Exact sizes ↔ ¬ (c.NulFree sizes ∧ c.Fits sizes) := by
  have hno : ∀ trid, c.run sizes ≠ some (.ok trid) := by
    intro trid hok
    rw [hrun] at hok
    cases hok
  constructor
  · rintro h ⟨hfree, hfits⟩
    obtain ⟨trid, hok⟩ := h.2.1 hfree hfits
    exact hno trid hok
  · intro h
    exact ⟨fun trid hok => absurd hok (hno trid), fun hfree hfits => absurd ⟨hfree, hfits⟩ h,
      fun _ => ⟨e, hrun⟩⟩

/-- A call that is accepted is exact when no argument has a NUL byte. -/
theorem Call.exact_of_fits {c : Call} (hname : c.NameFits sizes) (hfits : c.Fits sizes) :
    c.Exact sizes ↔ c.NulFree sizes := by
  obtain ⟨trid, hrun, -, hget⟩ := Call.run_ok hname hfits
  have hnul : (∀ arg ∈ c.arguments sizes, arg.getter trid = arg.text) ↔ c.NulFree sizes := by
    refine forall_congr' fun arg => forall_congr' fun harg => ?_
    rw [hget arg harg, upToNul, CField.takeWhile_eq_self]
  constructor
  · intro h
    exact hnul.1 (h.1 trid hrun)
  · intro hfree
    refine ⟨fun trid' hrun' => ?_, fun _ _ => ⟨trid, hrun⟩, ?_⟩
    · rw [hrun, Option.some.injEq, Except.ok.injEq] at hrun'
      exact hrun' ▸ hnul.2 hfree
    · rintro ⟨arg, harg, hlong⟩
      have hshort := hfits arg harg
      omega

/-- **A transport identifier holds exactly its arguments**, for arguments that fit, when they have
no NUL byte; a name that does not fit makes every call an error. -/
theorem exact_iff (sizes : FieldSizes) (c : Call) :
    c.Exact sizes ↔ (c.Fits sizes → (c.NulFree sizes ↔ c.NameFits sizes)) := by
  by_cases h : c.NameFits sizes ∧ c.Fits sizes
  · rw [Call.exact_of_fits h.1 h.2]
    tauto
  · obtain ⟨e, hrun⟩ := Call.run_error h
    rw [Call.exact_of_error hrun]
    tauto

/-- Capacities that hold the transports' names. -/
def spdkSizes : FieldSizes where
  trstring := 33
  traddr := 257
  trsvcid := 33
  subnqn := 224
  trstring_pos := by decide
  traddr_pos := by decide
  trsvcid_pos := by decide
  subnqn_pos := by decide

/-- The address `a\0b` is accepted and read back as `a`. -/
theorem tcp_cuts_at_nul :
    ∃ addr port subnqn, ¬ (Call.tcp addr port subnqn).Exact spdkSizes := by
  refine ⟨[97, 0, 98], [52], [110], fun h => ?_⟩
  obtain ⟨trid, hrun, -, haddr, -⟩ :=
    @fabric_ok spdkSizes .tcp "TCP" [97, 0, 98] [52] [110] (by decide) (by decide) (by decide)
      (by decide)
  have hget : trid.address = [97, 0, 98] := h.1 trid hrun ⟨_, _, _⟩ List.mem_cons_self
  rw [haddr] at hget
  revert hget
  decide

end SpdkIo.Nvme.TransportId
