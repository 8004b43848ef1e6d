import SpdkIo.CString
import SpdkIo.Lib.Boxes
import SpdkIo.Lib.Utf8
import SpdkIo.Nvmf.Listen

/-!
# Setting up a target

`NvmfTransport` (`nvmf/transport.rs`), and all the calls of `NvmfTarget::add_transport` and
`NvmfSubsystem::add_listener` that a program makes. Each call has its future and channel
(`CallState`); the box of its sender, at an address that is free, is the context of its callback.

`add_transport` takes the transport by value: it is in the future until the first poll gives it to
SPDK. An `NvmfTransport` that is dropped does nothing, as it has no `Drop`.
-/

namespace SpdkIo.Nvmf

open Thread.State (cstringNew)

structure NvmfTransportOpts where
  maxIoSize : Option UInt32
  ioUnitSize : Option UInt32
  maxQpairsPerCtrlr : Option UInt16
  inCapsuleDataSize : Option UInt32
  maxAqDepth : Option UInt32

/-- A pointer to a transport: its index among those SPDK created. -/
structure NvmfTransport where
  ptr : Nat
  deriving DecidableEq

namespace Setup

abbrev CallId := Nat

/-- The functions that are called. -/
inductive CallKind
  | addTransport (transport : NvmfTransport)
  | addListener
  deriving DecidableEq

/-- What the callback sends. -/
def CallKind.done : CallKind → Int32 → Result Unit
  | .addTransport _ => addTransportDone
  | .addListener => listenerDone

/-- A call, with the box of its sender while SPDK has it. -/
structure Call (O : Oneshot (Result Unit)) where
  kind : CallKind
  ctx : Option Addr
  state : CallState O

/-- The state of the process. A box holds the sender of a call, given by its number. -/
structure State (O : Oneshot (Result Unit)) where
  /-- how many transports SPDK created -/
  created : Nat
  /-- the transports of the program -/
  held : List NvmfTransport
  calls : List (Call O)
  heap : Boxes CallId
  /-- for each call of `spdk_nvmf_tgt_add_transport`: its call, and the transport -/
  added : List (CallId × NvmfTransport)
  /-- the transports that were dropped -/
  dropped : List NvmfTransport
  /-- for each callback: its call, and the one whose sender `from_raw` gave -/
  rebuilt : List (CallId × Option CallId)

variable {O : Oneshot (Result Unit)}

namespace State

/-- `NvmfTransport::create`, by whether SPDK has the transport type, and creates the transport. -/
def create (s : State O) (transportName : List Char) (_opts : Option NvmfTransportOpts)
    (ok nonNull : Bool) : Result NvmfTransport × State O :=
  match cstringNew (Utf8.encode transportName) with
  | .error e => (.error e, s)
  | .ok _ =>
    if !ok then
      (.error (.invalidArgument
        ("Transport type not found: " ++ String.ofList transportName)), s)
    else if nonNull then
      (.ok ⟨s.created⟩, { s with created := s.created + 1, held := s.held ++ [⟨s.created⟩] })
    else
      (.error (.invalidArgument
        ("Failed to create " ++ String.ofList transportName ++ " transport")), s)

/-- `NvmfTransport::tcp` -/
def tcp (s : State O) : Option NvmfTransportOpts → Bool → Bool → Result NvmfTransport × State O :=
  s.create "TCP".toList

/-- `NvmfTransport::rdma` -/
def rdma (s : State O) : Option NvmfTransportOpts → Bool → Bool → Result NvmfTransport × State O :=
  s.create "RDMA".toList

/-- A transport is dropped. -/
def dropTransport (s : State O) (transport : NvmfTransport) : Option (State O) :=
  if transport ∈ s.held then
    some { s with
      held := s.held.erase transport
      dropped := s.dropped ++ [transport] }
  else none

/-- The call of an `async fn`: its future. -/
def newCall (s : State O) (kind : CallKind) : State O :=
  { s with calls := s.calls ++ [⟨kind, none, (callLts kind.done O).init⟩] }

/-- The call of `NvmfTarget::add_transport`, which the transport is moved into. -/
def addTransport (s : State O) (transport : NvmfTransport) : Option (State O) :=
  if transport ∈ s.held then
    some ({ s with held := s.held.erase transport }.newCall (.addTransport transport))
  else none

/-- The call of `NvmfSubsystem::add_listener`. -/
def addListener (s : State O) : State O := s.newCall .addListener

/-- The first poll, up to the SPDK call: `into_ptr` of the transport, `into_raw` of the sender. -/
def call (s : State O) (i : CallId) (ctx : Addr) : Option (State O) :=
  s.calls[i]?.bind fun c =>
    (c.state.step c.kind.done .call).bind fun state =>
      (s.heap.intoRaw i ctx).map fun heap =>
        { s with
          calls := s.calls.set i { c with ctx := some ctx, state }
          heap
          added := match c.kind with
            | .addTransport transport => s.added ++ [(i, transport)]
            | .addListener => s.added }

/-- A later part of the future. -/
def poll (s : State O) (i : CallId) : Option (State O) :=
  s.calls[i]?.bind fun c =>
    (c.state.step c.kind.done .poll).map fun state =>
      { s with calls := s.calls.set i { c with state } }

/-- A future is dropped, with the transport that is still in it. -/
def dropCall (s : State O) (i : CallId) : Option (State O) :=
  s.calls[i]?.bind fun c =>
    (c.state.step c.kind.done .drop).map fun state =>
      { s with
        calls := s.calls.set i { c with state }
        dropped := match c.state.fut, c.kind with
          | .unresumed, .addTransport transport => s.dropped ++ [transport]
          | _, _ => s.dropped }

/-- `tx.success(())` or `tx.error(..)`, for the sender of `j`. -/
def send (s : State O) (j : CallId) (result : Result Unit) : State O :=
  match s.calls[j]? with
  | some c =>
    let chan := CompletionSender.complete O c.state.chan result
    { s with calls := s.calls.set j { c with state := { c.state with chan } } }
  | none => s

/-- The callback of `i`: `from_raw` at its context, then a send. -/
def callback (s : State O) (i : CallId) (status : Int32) : Option (State O) :=
  s.calls[i]?.bind fun c =>
    c.ctx.map fun ctx =>
      let (tx, heap) := s.heap.fromRaw ctx
      let state := { c.state with io := .completed status }
      let s' := { s with
        calls := s.calls.set i { c with ctx := none, state }
        heap
        rebuilt := s.rebuilt ++ [(i, tx)] }
      match tx with
      | some j => s'.send j (c.kind.done status)
      | none => s'

end State

inductive Action
  | tcp (opts : Option NvmfTransportOpts) (ok nonNull : Bool)
  | rdma (opts : Option NvmfTransportOpts) (ok nonNull : Bool)
  | dropTransport (transport : NvmfTransport)
  | addTransport (transport : NvmfTransport)
  | addListener
  | call (i : CallId) (ctx : Addr)
  | poll (i : CallId)
  | drop (i : CallId)
  | callback (i : CallId) (status : Int32)

def State.step (s : State O) : Action → Option (State O)
  | .tcp opts ok nonNull => some (s.tcp opts ok nonNull).2
  | .rdma opts ok nonNull => some (s.rdma opts ok nonNull).2
  | .dropTransport transport => s.dropTransport transport
  | .addTransport transport => s.addTransport transport
  | .addListener => some s.addListener
  | .call i ctx => s.call i ctx
  | .poll i => s.poll i
  | .drop i => s.dropCall i
  | .callback i status => s.callback i status

/-- The runs of a program, before it made any of the calls. -/
def lts (O : Oneshot (Result Unit)) : Lts (State O) Action where
  init := ⟨0, [], [], .empty, [], [], []⟩
  step := State.step

end Setup

end SpdkIo.Nvmf
