import SpdkIo.Io.Proof.Buffers
import SpdkIo.Io.Proof.Effect
import SpdkIo.Resources.Model

/-!
# Resources are released in time

`released_safe`: as long as no future is dropped while its operation is in flight, and the SPDK
threads of the OS thread come and go only while it has no descriptor and no channel, everything
that an operation in flight uses is there, and each release is made once and by the SPDK thread
that it belongs to.
-/

namespace SpdkIo.Resources

variable {O : Oneshot (Result Unit)} {s s' : State O} {i : OpId} {op op' : Op O} {r : ResourceId}
  {args : List ResourceId} {resource : Resource}

/-! ## The condition -/

/-- A descriptor or a channel is there. -/
def State.bound (s : State O) : Bool :=
  s.resources.any fun resource => resource.alive && resource.kind.threadBound

/-- The step may change the current SPDK thread. -/
def movesThread : Thread.Local.AppAction → Bool
  | .thread (.poll _) => false
  | _ => true

/-- The step keeps the futures of the operations in flight, and the SPDK thread of the descriptors
and channels that are there. -/
def Disciplined (s : State O) : Action → Prop
  | .other a => Io.KeepsInFlight s.io a
  | .thread a => movesThread a = true → s.bound = false
  | _ => True

instance decidableDisciplined (s : State O) : (a : Action) → Decidable (Disciplined s a)
  | .other a => inferInstanceAs (Decidable (s.io.dropsInFlight a = false))
  | .thread a => inferInstanceAs (Decidable (movesThread a = true → s.bound = false))
  | .openBdev _ _ | .getIoChannel _ _ | .make _ | .call _ _ _ | .drop _ => .isTrue trivial

/-! ## The invariant -/

/-- The operation has what it borrows, as long as its future is alive. -/
structure Borrows (s : State O) (op : Op O) (args : List ResourceId) : Prop where
  length : args.length = (borrows op.kind).length
  has : op.alive = true → ∀ p ∈ args.zip (borrows op.kind), s.has p.1 p.2 = true

structure Inv (s : State O) : Prop where
  io : Io.Inv s.io
  kept : Io.FuturesKept s.io
  args : s.args.length = s.io.ops.length
  has : ∀ (i : OpId) (op : Op O) (args : List ResourceId), s.io.ops[i]? = some op →
    s.args[i]? = some args → Borrows s op args
  /-- a descriptor or channel that is there belongs to the current SPDK thread -/
  bound : ∀ resource ∈ s.resources, resource.alive = true → resource.kind.threadBound = true →
    resource.thread = s.threads.os.thread
  /-- a channel belongs to an SPDK thread -/
  channel : ∀ resource ∈ s.resources, resource.kind = .ioChannel → resource.thread ≠ none
  released : ∀ e ∈ s.released, ∃ resource, s.resources[e.2.1]? = some resource ∧
    resource.kind.release = some e.1 ∧ resource.alive = false ∧
    (resource.kind.threadBound = true → e.2.2 = resource.thread)
  released_nodup : (s.released.map (·.2.1)).Nodup
  dropped : ∀ (r : ResourceId) (resource : Resource) (release : Release),
    s.resources[r]? = some resource → resource.alive = false →
    resource.kind.release = some release → ∃ thread, (release, r, thread) ∈ s.released

theorem Inv.init : Inv (lts O).init where
  io := .init
  kept _ h := by cases h
  args := rfl
  has _ _ _ h := by cases h
  bound _ h := by cases h
  channel _ h := by cases h
  released _ h := by cases h
  released_nodup := .nil
  dropped _ _ _ h := by cases h

theorem Borrows.of_has (h : Borrows s op args) {s' : State O}
    (hhas : ∀ r kind, s.has r kind = true → s'.has r kind = true) : Borrows s' op args where
  length := h.length
  has hal p hp := hhas p.1 p.2 (h.has hal p hp)

/-! ## Making a resource -/

theorem has_add {kind kind' : Kind} (h : s.has r kind = true) :
    (s.add kind').has r kind = true := by
  obtain ⟨resource, hr, hp⟩ := (Option.any_eq_true _ _).1 h
  exact (Option.any_eq_true _ _).2 ⟨resource, Table.append_of hr, hp⟩

theorem Inv.add (h : Inv s) (kind : Kind)
    (hchannel : kind = .ioChannel → s.threads.os.getCurrent ≠ none) : Inv (s.add kind) := by
  have hnew : ∀ resource ∈ (s.add kind).resources, resource ∈ s.resources ∨
      resource = ⟨kind, s.threads.os.getCurrent, true⟩ := fun resource hr => by
    simpa [State.add] using hr
  refine ⟨h.io, h.kept, h.args, fun i op args hop ha => ?_, fun resource hr hal hb => ?_,
    fun resource hr hk => ?_, fun e he => Table.exists_append (h.released e he), h.released_nodup,
    fun r resource release hr hd hk => ?_⟩
  · exact (h.has i op args hop ha).of_has fun r k => has_add
  · rcases hnew resource hr with hr | rfl
    · exact h.bound resource hr hal hb
    · rfl
  · rcases hnew resource hr with hr | rfl
    · exact h.channel resource hr hk
    · exact hchannel hk
  · rcases Table.append_cases hr with ⟨-, rfl⟩ | hr
    · cases hd
    · exact h.dropped r resource release hr hd hk

/-! ## The other steps -/

theorem Inv.call (h : Inv s) {kind : OpKind} {buf : Option BufId}
    (hs : s.call kind buf args = some s') : Inv s' := by
  obtain ⟨⟨hlength, hhas⟩, hs⟩ := Option.ite_none_right_eq_some.1 hs
  obtain ⟨io, hio, rfl⟩ := Option.map_eq_some_iff.1 hs
  have hstep : s.io.step (.call kind buf) = some io := hio
  obtain ⟨-, ⟨op, hops, hkind, -⟩, -⟩ := Io.call_spec hio
  refine ⟨h.io.step hstep, h.kept.step h.io rfl hstep, ?_, fun j o args' ho ha => ?_, h.bound,
    h.channel, h.released, h.released_nodup, h.dropped⟩
  · simp [hops, h.args]
  · have hold : ∀ {o : Op O}, s.io.ops[j]? = some o → j < s.args.length := fun ho => by
      rw [h.args]
      exact (List.getElem?_eq_some_iff.1 ho).1
    rw [hops] at ho
    rcases Table.append_cases ho with ⟨hj, rfl⟩ | hin
    · rw [hj, ← h.args, List.getElem?_concat_length] at ha
      obtain rfl := Option.some.inj ha
      subst hkind
      exact ⟨hlength, fun _ p hp => hhas p hp⟩
    · rw [List.getElem?_append_left (hold hin)] at ha
      obtain ⟨hl, hb⟩ := h.has j o args' hin ha
      exact ⟨hl, hb⟩

/-- The other steps of the operations leave each of them its kind, and bring none to life. -/
theorem other_spec {a : Io.Action} (h : Inv s) (hs : s.other a = some s') :
    ∃ io, s.io.step a = some io ∧ s' = { s with io } ∧ io.ops.length = s.io.ops.length ∧
      ∀ (j : OpId) (o : Op O), io.ops[j]? = some o → ∃ o', s.io.ops[j]? = some o' ∧
        o.kind = o'.kind ∧ (o.alive = true → o'.alive = true) := by
  cases a with
  | call kind buf => cases hs
  | alloc =>
    obtain rfl := Option.some.inj hs
    exact ⟨_, rfl, rfl, rfl, fun j o ho => ⟨o, ho, rfl, id⟩⟩
  | mutate b | free b =>
    obtain ⟨io, hio, rfl⟩ := Option.map_eq_some_iff.1 hs
    have hcopy := hio
    obtain ⟨-, hio⟩ := Option.ite_none_right_eq_some.1 hio
    obtain rfl := Option.some.inj hio
    exact ⟨_, hcopy, rfl, rfl, fun j o ho => ⟨o, ho, rfl, id⟩⟩
  | submit i ctx rc | ret i | poll i | drop i | callback i status =>
    obtain ⟨io, hio, rfl⟩ := Option.map_eq_some_iff.1 hs
    obtain ⟨i, op, op', hr⟩ := Io.op_step h.io rfl hio
    refine ⟨io, hio, rfl, by rw [hr.ops, List.length_set], fun j o ho => ?_⟩
    obtain ⟨o', ho', hk, -, hal⟩ := hr.back ho
    exact ⟨o', ho', hk, hal⟩

theorem Inv.other (h : Inv s) {a : Io.Action} (hkeep : Io.KeepsInFlight s.io a)
    (hs : s.other a = some s') : Inv s' := by
  obtain ⟨io, hio, rfl, hlength, hback⟩ := other_spec h hs
  refine ⟨h.io.step hio, h.kept.step h.io hkeep hio, h.args.trans hlength.symm,
    fun j o args ho ha => ?_, h.bound, h.channel, h.released, h.released_nodup, h.dropped⟩
  obtain ⟨o', ho', hk, hal⟩ := hback j o ho
  obtain ⟨hl, hb⟩ := h.has j o' args ho' ha
  rw [← hk] at hl hb
  exact ⟨hl, fun halive => hb (hal halive)⟩

/-- What is dropped is borrowed by no future that is alive, and was not released before. -/
theorem Inv.drop (h : Inv s) (hs : s.drop r = some s') : Inv s' := by
  obtain ⟨resource, hr, hs⟩ := Option.bind_eq_some_iff.1 hs
  obtain ⟨⟨hal, hborrowed⟩, hs⟩ := Option.ite_none_right_eq_some.1 hs
  obtain rfl := Option.some.inj hs
  have hset : ∀ resource' ∈ s.resources.set r { resource with alive := false },
      resource' ∈ s.resources ∨ resource' = { resource with alive := false } :=
    fun resource' hr' => List.mem_or_eq_of_mem_set hr'
  have hnew : r ∉ s.released.map (·.2.1) :=
    Table.notMem_of_log (p := fun e resource => resource.kind.release = some e.1 ∧
      resource.alive = false ∧ (resource.kind.threadBound = true → e.2.2 = resource.thread))
      h.released hr fun e he => by simp [hal] at he
  have hold : ∀ e ∈ s.released, ∃ resource', (s.resources.set r { resource with alive := false })[
      e.2.1]? = some resource' ∧ resource'.kind.release = some e.1 ∧ resource'.alive = false ∧
      (resource'.kind.threadBound = true → e.2.2 = resource'.thread) := fun e he =>
    Table.exists_set hr (fun hp => ⟨hp.1, rfl, hp.2.2⟩) (h.released e he)
  have hthread : resource.kind.threadBound = true → s.threads.os.getCurrent = resource.thread :=
    fun hb => (h.bound resource (List.mem_of_getElem? hr) hal hb).symm
  refine ⟨h.io, h.kept, h.args, fun i op args hop ha => ?_, fun resource' hr' hal' hb => ?_,
    fun resource' hr' hk => ?_, ?_, ?_, fun j resource' release hr' hd hk => ?_⟩
  · obtain ⟨hl, hb⟩ := h.has i op args hop ha
    refine ⟨hl, fun halive p hp => ?_⟩
    have hne : r ≠ p.1 := by
      rintro rfl
      have hfalse := List.any_eq_false.1 hborrowed (op, args)
        (List.mem_of_getElem? (List.getElem?_zip_eq_some.2 ⟨hop, ha⟩))
      simp [halive, (List.of_mem_zip hp).1] at hfalse
    obtain ⟨resource', hr', hp'⟩ := (Option.any_eq_true _ _).1 (hb halive p hp)
    exact (Option.any_eq_true _ _).2 ⟨resource', Table.set_of_ne hne hr', hp'⟩
  · rcases hset resource' hr' with hr' | rfl
    · exact h.bound resource' hr' hal' hb
    · cases hal'
  · rcases hset resource' hr' with hr' | rfl
    · exact h.channel resource' hr' hk
    · exact h.channel resource (List.mem_of_getElem? hr) hk
  · intro e he
    rcases List.mem_append.1 he with he | he
    · exact hold e he
    · obtain ⟨release, hrel, rfl⟩ := List.mem_map.1 he
      exact ⟨_, Table.set_self hr, Option.mem_toList.1 hrel, rfl, hthread⟩
  · cases hrel : resource.kind.release with
    | none => simpa [hrel] using h.released_nodup
    | some release =>
      simp only [Option.toList_some, List.map_cons, List.map_nil]
      exact Table.nodup_map_append h.released_nodup hnew
  · rcases Table.set_cases hr' with ⟨rfl, rfl⟩ | ⟨-, hr'⟩
    · have hrel : resource.kind.release = some release := hk
      exact ⟨s.threads.os.getCurrent, by simp [hrel]⟩
    · obtain ⟨thread, hmem⟩ := h.dropped j resource' release hr' hd hk
      exact ⟨thread, List.mem_append_left _ hmem⟩

/-- A poll of an SPDK thread leaves the current one. -/
theorem thread_of_step {a : Thread.Local.AppAction} {threads : Thread.Local.AppState}
    (ha : movesThread a = false) (hs : s.threads.step a = some threads) :
    threads.os.thread = s.threads.os.thread := by
  cases a with
  | thread a =>
    obtain ⟨os, hos, rfl⟩ := Option.map_eq_some_iff.1 hs
    cases a with
    | poll id =>
      obtain ⟨-, hos⟩ := Option.ite_none_right_eq_some.1 hos
      obtain rfl := Option.some.inj hos
      rfl
    | current _ _ _ | currentWithMempoolSize _ _ _ _ | attach _ _ | drop _ _ => cases ha
  | run _ _ _ _ | runFailed _ _ _ _ | runRet _ _ => cases ha

theorem Inv.thread (h : Inv s) {a : Thread.Local.AppAction}
    (hfree : movesThread a = true → s.bound = false) (hs : s.thread a = some s') : Inv s' := by
  obtain ⟨threads, hthreads, rfl⟩ := Option.map_eq_some_iff.1 hs
  refine ⟨h.io, h.kept, h.args, fun i op args hop ha => ?_, fun resource hr hal hb => ?_, h.channel,
    h.released, h.released_nodup, h.dropped⟩
  · exact (h.has i op args hop ha).of_has fun _ _ => id
  · cases ha : movesThread a with
    | false => exact (h.bound resource hr hal hb).trans (thread_of_step ha hthreads).symm
    | true =>
      have hnone := List.any_eq_false.1 (hfree ha) resource hr
      simp [hal, hb] at hnone

theorem Inv.step (h : Inv s) {a : Action} (hd : Disciplined s a) (hs : s.step a = some s') :
    Inv s' := by
  cases a with
  | openBdev rc null =>
    obtain rfl := Option.some.inj hs
    unfold State.openBdev
    split
    · exact h
    · split
      · exact h
      · exact h.add .bdevDesc nofun
  | getIoChannel desc null =>
    obtain ⟨p, hp, rfl⟩ := Option.map_eq_some_iff.1 hs
    obtain ⟨-, hp⟩ := Option.ite_none_right_eq_some.1 hp
    split at hp
    · obtain rfl := Option.some.inj hp
      exact h
    · rename_i hthread
      obtain rfl := Option.some.inj hp
      exact h.add .ioChannel fun _ hnone => hthread (.inr hnone)
  | make kind =>
    obtain ⟨hkind, hs⟩ := Option.ite_none_left_eq_some.1 hs
    obtain rfl := Option.some.inj hs
    refine h.add kind ?_
    rintro rfl
    exact absurd rfl hkind
  | call kind buf args => exact h.call hs
  | other a => exact h.other hd hs
  | drop r => exact h.drop hs
  | thread a => exact h.thread hd hs

/-! ## Runs -/

/-- The future of an operation in flight is alive, so that all that it borrows is there. -/
theorem Inv.inUse (h : Inv s) (hop : s.io.ops[i]? = some op) (hin : op.inFlight = true) :
    ∃ args, s.args[i]? = some args ∧ args.length = (borrows op.kind).length ∧
      ∀ p ∈ args.zip (borrows op.kind), s.has p.1 p.2 = true := by
  have hal : op.alive = true := by
    rcases (h.io.ops hop).inFlight hin with hal | hd
    · exact hal
    · exact absurd hd (h.kept op (List.mem_of_getElem? hop) hin)
  have hlt : i < s.args.length := by
    rw [h.args]
    exact (List.getElem?_eq_some_iff.1 hop).1
  have hargs : s.args[i]? = some s.args[i] := List.getElem?_eq_getElem hlt
  obtain ⟨hlength, hhas⟩ := h.has i op _ hop hargs
  exact ⟨_, hargs, hlength, hhas hal⟩

/-- **Resources are released in time**, in every run that keeps the futures of the operations in
flight and the SPDK thread of the descriptors and channels: what an operation in flight uses is
there; each release is made once, when its wrapper is dropped, by the SPDK thread that it belongs
to; and an SPDK thread that may go has no block device operation in flight. -/
theorem released_safe (h : (lts O).ReachBy Disciplined s) :
    (∀ (i : OpId) (op : Op O), s.io.ops[i]? = some op → op.inFlight = true →
      ∃ args, s.args[i]? = some args ∧ args.length = (borrows op.kind).length ∧
        ∀ p ∈ args.zip (borrows op.kind), s.has p.1 p.2 = true) ∧
    (s.released.map (·.2.1)).Nodup ∧
    (∀ (r : ResourceId) (resource : Resource) (release : Release),
      s.resources[r]? = some resource → resource.kind.release = some release →
      (resource.alive = false ↔ ∃ thread, (release, r, thread) ∈ s.released) ∧
      ∀ thread, (release, r, thread) ∈ s.released →
        (resource.kind.threadBound = true → thread = resource.thread) ∧
        (resource.kind = .ioChannel → thread ≠ none)) ∧
    (s.bound = false → ∀ op ∈ s.io.ops, (borrows op.kind).any Kind.threadBound = true →
      op.inFlight = false) := by
  have hinv : Inv s :=
    Lts.ReachBy.invariant (I := Inv) .init (fun hi hg hs => hi.step hg hs) h
  refine ⟨fun i op hop hin => hinv.inUse hop hin, hinv.released_nodup,
    fun r resource release hr hrel => ⟨⟨fun hd => hinv.dropped r resource release hr hd hrel,
      fun ⟨thread, he⟩ => ?_⟩, fun thread he => ?_⟩, fun hbound op hop hany => ?_⟩
  · obtain ⟨resource', hr', -, hd, -⟩ := hinv.released _ he
    obtain rfl := Option.some.inj (hr.symm.trans hr')
    exact hd
  · obtain ⟨resource', hr', -, -, hthread⟩ := hinv.released _ he
    obtain rfl := Option.some.inj (hr.symm.trans hr')
    refine ⟨hthread, fun hkind => ?_⟩
    rw [show thread = resource.thread from hthread (by rw [hkind]; rfl)]
    exact hinv.channel resource (List.mem_of_getElem? hr) hkind
  · rw [← Bool.not_eq_true]
    intro hin
    obtain ⟨i, hi⟩ := List.getElem?_of_mem hop
    obtain ⟨args, -, hlength, hhas⟩ := hinv.inUse hi hin
    obtain ⟨kind, hkind, hb⟩ := List.any_eq_true.1 hany
    obtain ⟨k, hk, rfl⟩ := List.getElem_of_mem hkind
    have hka : k < args.length := by rwa [hlength]
    have hzip : (args[k], (borrows op.kind)[k]) ∈ args.zip (borrows op.kind) :=
      List.mem_of_getElem? (List.getElem?_zip_eq_some.2
        ⟨List.getElem?_eq_getElem hka, List.getElem?_eq_getElem hk⟩)
    obtain ⟨resource, hr, hp⟩ := (Option.any_eq_true _ _).1 (hhas _ hzip)
    obtain ⟨hal, hkind⟩ := Bool.and_eq_true_iff.1 hp
    have hnone := List.any_eq_false.1 hbound resource (List.mem_of_getElem? hr)
    rw [eq_of_beq hkind] at hnone
    simp [hal, hb] at hnone

/-- A write of a block device, in a run of the application framework: the channel and the
descriptor are released by its thread. -/
theorem released_safe_write : ∃ s : State (.cell (Result Unit)),
    s.released = [(.spdkPutIoChannel, 1, some 0), (.spdkBdevClose, 0, some 0)] ∧
    (s.released.map (·.2.1)).Nodup := by
  let opts : AppOpts := ⟨none, none, none, false, none, none, 0, 0, -1, false, false, .notice⟩
  obtain ⟨s, hs, hp⟩ := Lts.exists_of_runBy (M := lts (.cell (Result Unit))) (G := Disciplined)
    [.thread (.run .new opts 1 (some 0)), .openBdev 0 false,
     .getIoChannel 0 false, .other .alloc, .call .bdevWrite (some 0) [0, 1],
     .other (.submit 0 7 0), .other (.callback 0 (.bdev true)), .other (.ret 0), .drop 1, .drop 0,
     .thread (.runRet [] none)]
    (fun s => s.released == [(.spdkPutIoChannel, 1, some 0), (.spdkBdevClose, 0, some 0)])
    (by decide)
  exact ⟨s, eq_of_beq hp, (released_safe hs).2.1⟩

end SpdkIo.Resources
