import SpdkIo.Io.Model

/-!
# The data of the operations

The bytes of the buffers (`dma.rs`) under the operations of `SpdkIo.Io`. The pointer and the length
that a read or a write passes to SPDK are those of its buffer; SPDK loads the bytes of a write and
stores those of a read one by one, in any order and as often as it likes, at any moment between its
acceptance and its callback.
-/

namespace SpdkIo.Io

variable {O : Oneshot (Result Unit)}

/-- The operations with the contents of the buffers. -/
structure Data (O : Oneshot (Result Unit)) where
  io : State O
  /-- the bytes of each buffer -/
  mem : List (List UInt8)
  /-- for each operation, the bytes of its buffer when it was called -/
  given : List (List UInt8)
  /-- the bytes that SPDK loaded from the buffers of writes: operation, position, byte -/
  loads : List (OpId × Nat × UInt8)
  /-- the bytes that SPDK stored into the buffers of reads -/
  stores : List (OpId × Nat × UInt8)

namespace Data

/-- `DmaBuf::alloc` and `DmaBuf::alloc_zeroed`, of memory that holds `bytes`. -/
def alloc (s : Data O) (bytes : List UInt8) : Option (Data O) :=
  if bytes = [] then none else some { s with io := s.io.alloc, mem := s.mem ++ [bytes] }

def call (s : Data O) (kind : OpKind) (buf : Option BufId) : Option (Data O) :=
  (s.io.call kind buf).map fun io =>
    { s with io, given := s.given ++ [(buf.bind (s.mem[·]?)).getD []] }

/-- The caller writes through `as_mut_slice`. -/
def mutate (s : Data O) (b : BufId) (bytes : List UInt8) : Option (Data O) :=
  (s.io.mutate b).bind fun io => s.mem[b]?.bind fun old =>
    if bytes.length = old.length then some { s with io, mem := s.mem.set b bytes } else none

def free (s : Data O) (b : BufId) : Option (Data O) :=
  (s.io.free b).map fun io => { s with io }

/-- SPDK loads a byte of the buffer of a write. -/
def load (s : Data O) (i : OpId) (p : Nat) : Option (Data O) :=
  s.io.ops[i]?.bind fun op => op.buf.bind fun b => s.mem[b]?.bind fun bytes =>
    bytes[p]?.bind fun v =>
      if op.inFlight ∧ op.kind.op.buf = some .shared then
        some { s with loads := s.loads ++ [(i, p, v)] }
      else none

/-- SPDK stores a byte into the buffer of a read. -/
def store (s : Data O) (i : OpId) (p : Nat) (v : UInt8) : Option (Data O) :=
  s.io.ops[i]?.bind fun op => op.buf.bind fun b => s.mem[b]?.bind fun bytes =>
    if op.inFlight ∧ op.kind.op.buf = some .mut ∧ p < bytes.length then
      some { s with mem := s.mem.set b (bytes.set p v), stores := s.stores ++ [(i, p, v)] }
    else none

/-- Any other step of the operations. -/
def other (s : Data O) : Action → Option (Data O)
  | .alloc | .call _ _ | .mutate _ | .free _ => none
  | a => (s.io.step a).map fun io => { s with io }

end Data

inductive DataAction
  | alloc (bytes : List UInt8)
  | call (kind : OpKind) (buf : Option BufId)
  | mutate (b : BufId) (bytes : List UInt8)
  | free (b : BufId)
  | load (i : OpId) (p : Nat)
  | store (i : OpId) (p : Nat) (v : UInt8)
  /-- any other step -/
  | op (a : Action)

def Data.step (s : Data O) : DataAction → Option (Data O)
  | .alloc bytes => s.alloc bytes
  | .call kind buf => s.call kind buf
  | .mutate b bytes => s.mutate b bytes
  | .free b => s.free b
  | .load i p => s.load i p
  | .store i p v => s.store i p v
  | .op a => s.other a

/-- The runs of the operations with their data. -/
def dataLts (O : Oneshot (Result Unit)) : Lts (Data O) DataAction where
  init := ⟨(lts O).init, [], [], [], []⟩
  step := Data.step

end SpdkIo.Io
