import SpdkIo.Thread.Local.Model

/-!
# What each function of `thread.rs` does

One lemma for each function of the model: the exits of `thread_lib_init` (`LibInit`), of `attach`
(`Attached`) and of the two `current` functions (`Current`), and the effect of a drop (`Dropped`).
The proofs about runs use these and do not unfold the functions.
-/

namespace SpdkIo.Thread.Local

variable {s s' : State} {fn : InitFn} {name : List UInt8} {rc : Int32} {null : Bool}
  {id : SpdkId} {polls : Nat}

/-! ## Creation -/

/-- The exits of `thread_lib_init`. -/
inductive LibInit (s : State) (rc : Int32) : Result Unit × State → Prop
  | already : s.flag = true →
      LibInit s rc (.ok (), { s with inits := s.inits ++ [⟨false, s.ready⟩] })
  | failed {e : Error} : s.flag = false → rc ≠ 0 →
      LibInit s rc (.error e, { s with inits := s.inits ++ [⟨true, s.ready⟩] })
  | ok : s.flag = false → rc = 0 →
      LibInit s rc
        (.ok (), { s with flag := true, ready := true, inits := s.inits ++ [⟨true, s.ready⟩] })

theorem libInit (s : State) (fn : InitFn) (rc : Int32) : LibInit s rc (s.threadLibInit fn rc) := by
  unfold State.threadLibInit
  by_cases hf : s.flag = true
  · rw [if_pos hf]
    exact .already hf
  · rw [if_neg hf]
    rw [Bool.not_eq_true] at hf
    by_cases hrc : rc = 0
    · simp only [if_neg (not_not.2 hrc)]
      exact .ok hf hrc
    · simp only [if_pos hrc, ← hf]
      exact .failed hf hrc

/-- The exits of `attach`. -/
inductive Attached (s : State) (name : List UInt8) (null : Bool) : Result SpdkId × State → Prop
  | failed {e : Error} : 0 ∈ name ∨ null = true → Attached s name null (.error e, s)
  | ok : 0 ∉ name → null = false → Attached s name null (.ok s.next,
      { s with threads := s.threads ++ [s.next], next := s.next + 1, owned := s.owned ++ [s.next],
               thread := some s.next })

theorem attached (s : State) (name : List UInt8) (null : Bool) :
    Attached s name null (s.attach name null) := by
  unfold State.attach
  by_cases hm : 0 ∈ name
  · obtain ⟨e, he⟩ := cstringNew_of_mem hm
    rw [he]
    exact .failed (.inl hm)
  · rw [cstringNew_of_notMem hm]
    rcases null with _ | _
    · exact .ok hm rfl
    · exact .failed (.inr rfl)

/-- The exits of `current` and `current_with_mempool_size`: an init that failed, or what `attach`
did to the state `t` of an initialised library. -/
inductive Current (s : State) (name : List UInt8) (rc : Int32) (null : Bool) :
    Result SpdkId × State → Prop
  | failed {e : Error} : s.flag = false → rc ≠ 0 →
      Current s name rc null (.error e, { s with inits := s.inits ++ [⟨true, s.ready⟩] })
  | attach {t : State} {r : Result SpdkId × State} : LibInit s rc (.ok (), t) →
      Attached t name null r → Current s name rc null r

theorem currentBy_exits (s : State) (fn : InitFn) (name : List UInt8) (rc : Int32) (null : Bool) :
    Current s name rc null (s.currentBy fn name rc null) := by
  unfold State.currentBy
  have h := libInit s fn rc
  generalize s.threadLibInit fn rc = r at h
  cases h with
  | already hf => exact .attach (.already hf) (attached ..)
  | failed hf hrc => exact .failed hf hrc
  | ok hf hrc => exact .attach (.ok hf hrc) (attached ..)

/-! ## Drop -/

@[simp] theorem pollThread_eq (s : State) (id : SpdkId) : s.pollThread id = s := rfl

theorem pollThread_iterate (s : State) (id : SpdkId) (polls : Nat) :
    (State.pollThread · id)^[polls] s = s := by
  induction polls with
  | zero => rfl
  | succ polls ih => rw [Function.iterate_succ_apply, pollThread_eq, ih]

theorem poll_eq_some (h : s.poll id = some s') : s' = s := by
  unfold State.poll at h
  split at h
  · exact (Option.some.inj h).symm
  · cases h

/-- The effect of the drop of `id`. -/
structure Dropped (s : State) (id : SpdkId) (s' : State) : Prop where
  mem : id ∈ s.owned
  thread : s'.thread = none
  owned : s'.owned = s.owned.erase id
  inits : s'.inits = s.inits
  drops : s'.drops = s.drops ++ [⟨s.getCurrent, id, s'.getCurrent⟩]
  library : (s'.flag = s.flag ∧ s'.ready = s.ready) ∨
    (s.flag = true ∧ s'.flag = false ∧ s'.ready = false)

theorem dropped (h : s.drop id polls = some s') : Dropped s id s' := by
  unfold State.drop at h
  split at h
  · rename_i hm
    simp only [pollThread_iterate] at h
    obtain rfl := Option.some.inj h
    -- whether it was the last thread, and whether the flag was raised
    split
    · unfold State.threadLibFini
      split
      · exact ⟨hm, rfl, rfl, rfl, rfl, .inr ⟨‹_›, rfl, rfl⟩⟩
      · exact ⟨hm, rfl, rfl, rfl, rfl, .inl ⟨rfl, rfl⟩⟩
    · exact ⟨hm, rfl, rfl, rfl, rfl, .inl ⟨rfl, rfl⟩⟩
  · cases h

end SpdkIo.Thread.Local
