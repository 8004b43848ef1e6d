import SpdkIo.Nvmf.Target

/-!
# The name of a target

A target's name is the C string of the bytes that were copied. Where these end at the end of a
character, or have a NUL, it is a prefix of the given name; where the copy cut a character,
`name` has no text to return but its placeholder (`reportsName_iff`).
-/

namespace SpdkIo.Nvmf

open Nvme (Checked)

variable {spdk : SpdkTargets} {layout : TargetOptsLayout}

/-- A target that was made with the name, by `create` or `create_with_opts`. -/
def MadeWith (layout : TargetOptsLayout) (name : List Char) (target : NvmfTarget spdk) : Prop :=
  NvmfTarget.create layout name = some (.ok target) ∨
    ∃ maxSubsystems, NvmfTarget.createWithOpts layout ⟨some name, maxSubsystems⟩ =
      some (.ok target)

/-- The target reports a prefix of the name, and all of it if it has no NUL and its bytes are fewer
than the array's. -/
def ReportsName (layout : TargetOptsLayout) (name : List Char) (target : NvmfTarget spdk) : Prop :=
  target.name <+: name ∧
    ('\x00' ∉ name → (Utf8.encode name).length < layout.name → target.name = name)

/-- The first `k` bytes of the text are whole characters. -/
def CharBoundary (text : List Char) (k : Nat) : Prop :=
  ∃ pre, pre <+: text ∧ Utf8.encode pre = (Utf8.encode text).take k

/-- What `name` returns of bytes that are not UTF-8. -/
def invalidUtf8 : List Char := "<invalid utf8>".toList

/-! ## The copy -/

/-- The bytes that are copied to an array of `n`. -/
def copied (n : Nat) (name : List Char) : List UInt8 := (Utf8.encode name).take (n - 1)

theorem copyName_ok {n : Nat} (hn : 0 < n) (name : List Char) :
    ∃ field, NvmfTarget.copyName (.zeroed n) name = some (.ok field) ∧
      field.cstr = (copied n name).takeWhile (· != 0) := by
  have hlen : (copied n name).length < n := by
    rw [copied, List.length_take]
    omega
  obtain ⟨field, hs, hc⟩ := CField.cstr_store hlen
  refine ⟨field, ?_, hc⟩
  have hmin : (Utf8.encode name).take (min (Utf8.encode name).length (n - 1)) = copied n name := by
    rw [copied, Nat.min_comm, ← List.take_take, List.take_length]
  unfold NvmfTarget.copyName
  simp only [CField.length_zeroed, hmin, hs]
  rfl

theorem createWithOpts_eq (name : List Char) (maxSubsystems : Option UInt32) :
    (NvmfTarget.createWithOpts layout ⟨some name, maxSubsystems⟩ : Checked (NvmfTarget spdk)) =
      NvmfTarget.copyName (.zeroed layout.name) name >>= fun field =>
        NvmfTarget.spdkTgtCreate ⟨layout.size, field, maxSubsystems.getD 0⟩ := rfl

theorem spdkTgtCreate_ok {nativeOpts : SpdkNvmfTargetOpts} {target : NvmfTarget spdk}
    (h : NvmfTarget.spdkTgtCreate nativeOpts = some (.ok target)) :
    spdk.create nativeOpts = some target.ptr := by
  unfold NvmfTarget.spdkTgtCreate at h
  cases hc : spdk.create nativeOpts with
  | none =>
    rw [hc] at h
    cases h
  | some ptr =>
    rw [hc] at h
    cases h
    rfl

/-- SPDK has the C string of the copy. -/
theorem getName_of_madeWith {name : List Char} {target : NvmfTarget spdk}
    (h : MadeWith layout name target) :
    spdk.getName target.ptr = some ((copied layout.name name).takeWhile (· != 0)) := by
  obtain ⟨maxSubsystems, h⟩ : ∃ maxSubsystems,
      NvmfTarget.createWithOpts layout ⟨some name, maxSubsystems⟩ = some (.ok target) :=
    h.elim (fun h => ⟨none, h⟩) id
  obtain ⟨field, hcopy, hcstr⟩ := copyName_ok layout.name_pos name
  rw [createWithOpts_eq, Checked.bind_ok hcopy] at h
  rw [spdk.getName_create (spdkTgtCreate_ok h), hcstr]

/-! ## Reading it back -/

section
variable {name : List Char} {target : NvmfTarget spdk}

theorem name_of_encode {text : List Char} (h : spdk.getName target.ptr = some (Utf8.encode text)) :
    target.name = text := by
  unfold NvmfTarget.name
  rw [h]
  simp only [Utf8.decode_eq_some.2 rfl, Option.getD_some]

/-- A copy of whole characters is read back up to its first NUL. -/
theorem name_of_boundary (h : MadeWith layout name target) {pre : List Char}
    (hpre : Utf8.encode pre = copied layout.name name) :
    target.name = pre.takeWhile (· != '\x00') := by
  apply name_of_encode
  rw [getName_of_madeWith h, ← hpre, Utf8.takeWhile_encode]

/-- So is a copy with a NUL, wherever it was cut. -/
theorem name_of_nul (h : MadeWith layout name target) (hnul : 0 ∈ copied layout.name name) :
    target.name = name.takeWhile (· != '\x00') := by
  have hsplit : (Utf8.encode name).takeWhile (· != 0) =
      (copied layout.name name).takeWhile (· != 0) := by
    conv_lhs => rw [← List.take_append_drop (layout.name - 1) (Utf8.encode name)]
    rw [List.takeWhile_append, if_neg ?_, copied]
    intro hall
    have heq := (List.takeWhile_prefix _).eq_of_length hall
    exact CField.takeWhile_eq_self.1 heq hnul
  apply name_of_encode
  rw [getName_of_madeWith h, ← hsplit, Utf8.takeWhile_encode]

/-- A copy without NUL that ends within a character is not UTF-8. -/
theorem name_of_cut (h : MadeWith layout name target) (hnul : 0 ∉ copied layout.name name)
    (hcut : ¬ CharBoundary name (layout.name - 1)) : target.name = invalidUtf8 := by
  have hdecode : Utf8.decode (copied layout.name name) = none := by
    rw [Option.eq_none_iff_forall_ne_some]
    intro pre hpre
    have henc := Utf8.decode_eq_some.1 hpre
    have hprefix : Utf8.encode pre <+: Utf8.encode name := henc ▸ List.take_prefix _ _
    exact hcut ⟨pre, Utf8.prefix_of_encode hprefix, henc.symm⟩
  unfold NvmfTarget.name
  rw [getName_of_madeWith h, CField.takeWhile_eq_self.2 hnul]
  simp only [hdecode, Option.getD_none]
  rfl

/-- A text that fits is cut after its last character. -/
theorem charBoundary_of_fits (hfits : (Utf8.encode name).length < layout.name) :
    CharBoundary name (layout.name - 1) :=
  ⟨name, List.prefix_rfl, by rw [List.take_of_length_le (by omega)]⟩

/-- **A target reports a prefix of its name** exactly when the copy ends at the end of a character,
or has a NUL, or the name starts as the placeholder does. -/
theorem reportsName_iff (h : MadeWith layout name target) :
    ReportsName layout name target ↔ CharBoundary name (layout.name - 1) ∨
      0 ∈ (Utf8.encode name).take (layout.name - 1) ∨ invalidUtf8 <+: name := by
  by_cases hnul : 0 ∈ copied layout.name name
  · refine ⟨fun _ => .inr (.inl hnul), fun _ => ?_⟩
    rw [ReportsName, name_of_nul h hnul]
    refine ⟨List.takeWhile_prefix _, fun hfree _ => ?_⟩
    exact absurd (Utf8.zero_mem_encode.1 (List.mem_of_mem_take hnul)) hfree
  by_cases hcut : CharBoundary name (layout.name - 1)
  · refine ⟨fun _ => .inl hcut, fun _ => ?_⟩
    obtain ⟨pre, hpre, henc⟩ := hcut
    rw [ReportsName, name_of_boundary h henc]
    refine ⟨(List.takeWhile_prefix _).trans hpre, fun hfree hfits => ?_⟩
    rw [List.take_of_length_le (by omega)] at henc
    rw [Utf8.encode_injective henc, List.takeWhile_eq_self_iff]
    intro c hc
    rw [bne_iff_ne]
    rintro rfl
    exact hfree hc
  · rw [ReportsName, name_of_cut h hnul hcut]
    constructor
    · exact fun hr => .inr (.inr hr.1)
    · intro hor
      refine ⟨?_, fun _ hfits => absurd (charBoundary_of_fits hfits) hcut⟩
      rcases hor with hb | h0 | hp
      · exact absurd hb hcut
      · exact absurd h0 hnul
      · exact hp

end

/-! ## A name of 256 bytes -/

/-- SPDK's part as the name alone. -/
def spdkNames : SpdkTargets where
  Tgt := List UInt8
  create opts := some opts.name.cstr
  getName := some
  getName_create h := h.symm

theorem exists_madeWith (layout : TargetOptsLayout) (name : List Char) :
    ∃ target : NvmfTarget spdkNames, MadeWith layout name target := by
  obtain ⟨field, hcopy, -⟩ := copyName_ok layout.name_pos name
  refine ⟨⟨field.cstr⟩, .inl ?_⟩
  refine (createWithOpts_eq name none).trans ?_
  rw [Checked.bind_ok hcopy]
  rfl

/-- An array of 256 bytes. -/
def layout256 : TargetOptsLayout := ⟨264, 256, by decide⟩

/-- A short name is reported. -/
theorem reportsName_tgt : ∃ target : NvmfTarget spdkNames,
    MadeWith layout256 ['t', 'g', 't'] target ∧ ReportsName layout256 ['t', 'g', 't'] target := by
  obtain ⟨target, hmade⟩ := exists_madeWith layout256 ['t', 'g', 't']
  exact ⟨target, hmade, (reportsName_iff hmade).2 (.inl (charBoundary_of_fits (by decide)))⟩

/-- The name ends in a character of two bytes, of which the array takes the first. -/
theorem cut_name_not_reported : ∃ (name : List Char) (target : NvmfTarget spdkNames),
    MadeWith layout256 name target ∧ ¬ ReportsName layout256 name target := by
  obtain ⟨target, hmade⟩ := exists_madeWith layout256 (List.replicate 254 'a' ++ ['é'])
  refine ⟨_, target, hmade, fun hr => ?_⟩
  have hnul : 0 ∉ copied 256 (List.replicate 254 'a' ++ ['é']) := by
    intro h0
    have hmem := Utf8.zero_mem_encode.1 (List.mem_of_mem_take h0)
    rw [List.mem_append, List.mem_replicate, List.mem_singleton] at hmem
    rcases hmem with ⟨-, hc⟩ | hc <;> exact absurd hc (by decide)
  have henc : (Utf8.encode (List.replicate 254 'a')).length = 254 := by
    rw [Utf8.encode, List.length_flatMap, List.map_replicate, List.sum_replicate_nat]
    rfl
  have hcut : ¬ CharBoundary (List.replicate 254 'a' ++ ['é']) 255 := by
    rintro ⟨pre, hpre, hbytes⟩
    have hlen := congrArg List.length hbytes
    rw [List.length_take, Utf8.encode_append, List.length_append, henc] at hlen
    rcases List.prefix_concat_iff.1 hpre with rfl | hpre
    · rw [Utf8.encode_append, List.length_append, henc] at hlen
      revert hlen
      decide
    · obtain ⟨rest, hrest⟩ := hpre
      rw [← hrest, Utf8.encode_append, List.length_append] at henc
      have htwo : (Utf8.encode ['é']).length = 2 := by decide
      omega
  have hprefix := hr.1
  rw [name_of_cut hmade hnul hcut] at hprefix
  revert hprefix
  decide

end SpdkIo.Nvmf
