import Mathlib.Data.List.Basic
import Mathlib.Data.List.Infix

/-!
# Text

Rust's `str` as its list of Unicode scalar values, with the methods the parsers use:
`char::is_whitespace`, `str::split_whitespace`, `str::strip_prefix`, `str::strip_suffix`,
`str::contains` (of a `str` pattern), `str::split(',')`, `str::split_once` (at a `char`) and
`[str]::join(" ")`. A method that returns an `Option` has an `_eq_some` lemma, one that returns a
`bool` an `_iff` lemma; users do not unfold them. The pieces of `splitWhitespace` are the words of
the text (`Word`), and splitting a join of words gives the words back, as splitting printed lines
gives the lines.
-/

/-- A Rust string. -/
abbrev Text := List Char

namespace Text

/-- For the membership tests in lists of texts. -/
instance : LawfulBEq Text := inferInstance

/-- `char::is_whitespace`: the Unicode property `White_Space`. -/
def isWhitespace (c : Char) : Bool :=
  let n := c.toNat
  (9 ≤ n && n ≤ 13) || n == 0x20 || n == 0x85 || n == 0xA0 || n == 0x1680 ||
    (0x2000 ≤ n && n ≤ 0x200A) || n == 0x2028 || n == 0x2029 || n == 0x202F || n == 0x205F ||
    n == 0x3000

/-- `str::split_whitespace`. -/
def splitWhitespace (s : Text) : List Text :=
  (s.splitOnP isWhitespace).filter fun t => !t.isEmpty

/-- `str::strip_prefix`. -/
def stripPrefix (s p : Text) : Option Text := s.dropPrefix? p

/-- `str::strip_suffix`. -/
def stripSuffix (s p : Text) : Option Text := s.dropSuffix? p

/-- `str::contains`. -/
def contains (s p : Text) : Bool := decide (p <:+: s)

/-- `str::split(',')`. -/
def splitComma (s : Text) : List Text := s.splitOn ','

/-- `str::split_once`, at a `char`. -/
def splitOnce (s : Text) (c : Char) : Option (Text × Text) :=
  match s with
  | [] => none
  | d :: s => if d = c then some ([], s) else (splitOnce s c).map fun (a, b) => (d :: a, b)

/-- `[str]::join(" ")`. -/
def joinSpaces (ts : List Text) : Text := [' '].intercalate ts

/-- A nonempty text without whitespace. -/
def Word (t : Text) : Prop := t ≠ [] ∧ ∀ c ∈ t, isWhitespace c = false

@[simp] theorem stripPrefix_eq_some {s p r : Text} : stripPrefix s p = some r ↔ s = p ++ r := by
  simp [stripPrefix, List.dropPrefix?_eq_some_iff]

@[simp] theorem stripSuffix_eq_some {s p r : Text} : stripSuffix s p = some r ↔ s = r ++ p := by
  simp [stripSuffix, List.dropSuffix?_eq_some_iff]

@[simp] theorem contains_iff {s p : Text} : contains s p = true ↔ p <:+: s := by
  simp [contains]

/-- A pattern whose first character is not in `p` occurs in `p ++ s` only inside `s`. -/
theorem infix_append_of_head {p s q : Text} {c : Char} (hc : c ∉ p) :
    c :: q <:+: p ++ s ↔ c :: q <:+: s := by
  induction p with
  | nil => rfl
  | cons d p ih =>
    simp only [List.mem_cons, not_or] at hc
    rw [List.cons_append, List.infix_cons_iff, ih hc.2]
    simp [List.cons_prefix_cons, hc.1]

/-- A part of a comma split occurs in the text. -/
theorem infix_of_mem_splitComma {s o : Text} (h : o ∈ splitComma s) : o <:+: s := by
  have key : ∀ ls : List Text, o ∈ ls → o <:+: [','].intercalate ls := by
    intro ls hm
    induction ls with
    | nil => cases hm
    | cons l ls ih =>
      cases ls with
      | nil =>
        rw [List.mem_singleton] at hm
        subst hm
        simp [List.intercalate]
      | cons l' ls =>
        have he : [','].intercalate (l :: l' :: ls) = l ++ ',' :: [','].intercalate (l' :: ls) := by
          simp [List.intercalate, List.intersperse]
        rw [he]
        rcases List.mem_cons.1 hm with rfl | hm
        · exact List.infix_append' [] o _
        · exact (ih hm).trans (List.infix_append' (l ++ [',']) _ [] |>.trans (by simp))
  have hs : [','].intercalate (splitComma s) = s := List.intercalate_splitOn ','
  exact hs ▸ key _ h

theorem splitOnce_eq_some {s a b : Text} {c : Char} :
    splitOnce s c = some (a, b) ↔ s = a ++ c :: b ∧ c ∉ a := by
  induction s generalizing a with
  | nil => simp [splitOnce]
  | cons d s ih =>
    unfold splitOnce
    by_cases hd : d = c
    · subst hd
      rw [if_pos rfl, Option.some.injEq, Prod.mk.injEq]
      constructor
      · rintro ⟨rfl, rfl⟩
        exact ⟨rfl, by simp⟩
      · rintro ⟨he, ha⟩
        cases a with
        | nil => exact ⟨rfl, (List.cons.inj he).2⟩
        | cons e a => exact absurd (List.cons.inj he).1 fun hc => ha (by simp [hc])
    · rw [if_neg hd, Option.map_eq_some_iff]
      constructor
      · rintro ⟨⟨a', b'⟩, hab, he⟩
        obtain ⟨rfl, rfl⟩ := Prod.mk.inj he
        obtain ⟨rfl, ha⟩ := ih.1 hab
        exact ⟨rfl, by simp [ha, Ne.symm hd]⟩
      · rintro ⟨he, ha⟩
        cases a with
        | nil => exact absurd (List.cons.inj he).1 hd
        | cons e a =>
          obtain ⟨rfl, rfl⟩ := List.cons.inj he
          exact ⟨(a, b), ih.2 ⟨rfl, fun hc => ha (by simp [hc])⟩, rfl⟩

theorem splitOnce_eq_none {s : Text} {c : Char} : splitOnce s c = none ↔ c ∉ s := by
  induction s with
  | nil => simp [splitOnce]
  | cons d s ih =>
    unfold splitOnce
    by_cases hd : d = c
    · simp [hd]
    · simp [hd, ih, Ne.symm hd]

/-! ## Words -/

theorem mem_splitOnP {p : Char → Bool} {s t : Text} (h : t ∈ s.splitOnP p) :
    ∀ c ∈ t, c ∈ s ∧ p c = false := by
  induction s generalizing t with
  | nil =>
    rw [List.splitOnP_nil, List.mem_singleton] at h
    simp [h]
  | cons d s ih =>
    rw [List.splitOnP_cons_eq_if_modifyHead] at h
    split at h
    · rcases List.mem_cons.1 h with rfl | h
      · simp
      · exact fun c hc => ⟨List.mem_cons_of_mem d (ih h c hc).1, (ih h c hc).2⟩
    · rename_i hd
      -- the first piece of the rest grows by `d`
      obtain ⟨u, us, hus⟩ := List.exists_cons_of_ne_nil (List.splitOnP_ne_nil p s)
      rw [hus, List.modifyHead_cons] at h
      rcases List.mem_cons.1 h with rfl | h
      · intro c hc
        rcases List.mem_cons.1 hc with rfl | hc
        · exact ⟨by simp, by simpa using hd⟩
        · have hu := ih (hus ▸ List.mem_cons_self) c hc
          exact ⟨List.mem_cons_of_mem d hu.1, hu.2⟩
      · have ht := ih (hus ▸ List.mem_cons_of_mem u h)
        exact fun c hc => ⟨List.mem_cons_of_mem d (ht c hc).1, (ht c hc).2⟩

/-- **The pieces of a whitespace split are words.** -/
theorem word_of_mem_splitWhitespace {s t : Text} (h : t ∈ splitWhitespace s) : Word t := by
  obtain ⟨hm, hne⟩ := List.mem_filter.1 h
  exact ⟨by simpa using hne, fun c hc => (mem_splitOnP hm c hc).2⟩

/-- **Splitting a join of words gives the words.** -/
theorem splitWhitespace_joinSpaces {ts : List Text} (h : ∀ t ∈ ts, Word t) :
    splitWhitespace (joinSpaces ts) = ts := by
  unfold splitWhitespace joinSpaces
  induction ts with
  | nil => rfl
  | cons t ts ih =>
    obtain ⟨hne, hws⟩ := h t List.mem_cons_self
    have hkeep : (!t.isEmpty) = true := by simpa using hne
    cases ts with
    | nil =>
      rw [List.intercalate_singleton, List.splitOnP_eq_singleton hws]
      simp [hne]
    | cons u us =>
      rw [List.intercalate_cons_cons, List.append_assoc, List.singleton_append,
        List.splitOnP_append_cons_of_forall_mem hws ' ' (by decide), List.filter_cons, if_pos hkeep,
        ih fun v hv => h v (List.mem_cons_of_mem t hv)]

/-! ## Lines -/

/-- What `println!` prints for each of `ts`. -/
def printLines (ts : List Text) : Text := ts.flatMap fun t => t ++ ['\n']

/-- `str::split('\n')`. -/
def splitLines (s : Text) : List Text := s.splitOn '\n'

theorem newline_notMem_of_word {t : Text} (h : Word t) : '\n' ∉ t :=
  fun hn => absurd (h.2 _ hn) (by decide)

@[simp] theorem printLines_append (ts us : List Text) :
    printLines (ts ++ us) = printLines ts ++ printLines us := by
  simp [printLines]

/-- **Splitting printed lines gives the lines**, and the empty rest. -/
theorem splitLines_printLines {ts : List Text} (h : ∀ t ∈ ts, '\n' ∉ t) :
    splitLines (printLines ts) = ts ++ [[]] := by
  induction ts with
  | nil => rfl
  | cons t ts ih =>
    have ht : ∀ c ∈ t, (c == '\n') = false := by
      intro c hc
      rw [beq_eq_false_iff_ne]
      rintro rfl
      exact h t List.mem_cons_self hc
    have hrest := ih fun u hu => h u (List.mem_cons_of_mem t hu)
    unfold splitLines List.splitOn at *
    rw [printLines, List.flatMap_cons, List.append_assoc, List.singleton_append,
      List.splitOnP_append_cons_of_forall_mem ht '\n' (by decide)]
    rw [printLines] at hrest
    rw [hrest, List.cons_append]

end Text
