import SpdkIo.Complete
import SpdkIo.Lib.Bag
import SpdkIo.Lib.Boxes
import SpdkIo.Lib.Lts

/-!
# Events

`SpdkEvent` of `event.rs`: closures that are dispatched to the reactor of an lcore. A closure is
boxed, and the pointer to the box passes from `new` to the `SpdkEvent`, from there to SPDK (`call`),
and from SPDK to `event_trampoline`, or it is freed by `new` or by the drop of the `SpdkEvent`.

A closure runs from `process`, when its reactor calls the trampoline, until it returns (`finish`),
and whatever happens in between may be steps of other closures, also ones it makes itself. The
closure of `call_on_async` owns the sender of its channel and sends its value when it returns; where
it is dropped, the sender is.

SPDK: `spdk_event_allocate` returns an event or NULL, and `spdk_event_call` puts the event into the
queue of its lcore's reactor. The reactors process the events that are queued, one by one and in any
order, and call the trampoline of each with its argument.
-/

namespace SpdkIo.Event

abbrev Lcore := UInt32
abbrev ClosureId := Nat

/-- An event of SPDK: its lcore and the argument of its trampoline. `closure` is the closure it was
allocated for, which SPDK does not know. -/
structure RawEvent where
  lcore : Lcore
  arg1 : Addr
  closure : ClosureId
  deriving DecidableEq

/-- `SpdkEvent`; the closure pointer is null once the event was dispatched. -/
structure SpdkEvent where
  ptr : RawEvent
  closurePtr : Option Addr

/-- Where a closure was dropped without being run. -/
inductive DropSite
  /-- `new`, whose allocation failed -/
  | new
  /-- the drop of the `SpdkEvent` -/
  | handle
  deriving DecidableEq

/-- Where a closure is. -/
inductive Stage (T : Type)
  /-- boxed, the pointer in the `SpdkEvent` -/
  | held (event : SpdkEvent)
  /-- boxed, the pointer in a dispatched event -/
  | dispatched (ctx : Addr)
  | running
  | finished (value : T)
  | dropped (site : DropSite)

/-- The receiver of `call_on_async`. -/
inductive Receiver (T : Type)
  /-- the closure has no channel -/
  | absent
  /-- a variable of `call_on_async` -/
  | inCall
  | held
  | resolved (result : Result T)
  | dropped

/-- A closure that was given to `new`, `call_on` or `call_on_async`; the values of all closures are
in `T`. -/
structure Closure {T : Type} (O : Oneshot (Result T)) where
  lcore : Lcore
  stage : Stage T
  rx : Receiver T
  chan : O.Chan

/-- The state of the process. A box holds a closure, given by its number. -/
structure State {T : Type} (O : Oneshot (Result T)) where
  closures : List (Closure O)
  heap : Boxes ClosureId
  events : Bag RawEvent
  /-- for each call of the trampoline: the lcore, and the closure that `from_raw` gave -/
  ran : List (Lcore × Option ClosureId)
  /-- for each drop of a box: where, and the closure that `from_raw` gave -/
  dropped : List (DropSite × Option ClosureId)
  /-- for each receiver that resolved: its closure, and the result -/
  resolved : List (ClosureId × Result T)

variable {T : Type} {O : Oneshot (Result T)}

namespace State

def setClosure (s : State O) (i : ClosureId) (c : Closure O) : State O :=
  { s with closures := s.closures.set i c }

/-- `drop(Box::from_raw(ctx))`: the closure is dropped, and with it the sender it owns. A closure
that is still in `new` is not in the table. -/
def dropBox (s : State O) (site : DropSite) (ctx : Addr) : State O :=
  let (f, heap) := s.heap.fromRaw ctx
  let s' := { s with heap, dropped := s.dropped ++ [(site, f)] }
  match f with
  | some i =>
    match s.closures[i]? with
    | some c =>
      match c.rx with
      | .absent => s'.setClosure i { c with stage := .dropped site }
      | _ => s'.setClosure i { c with stage := .dropped site, chan := O.dropSender c.chan }
    | none => s'
  | none => s'

/-- `SpdkEvent::new` with the closure boxed at `ctx`, and `spdk_event_allocate` returning NULL or an
event. -/
def newEvent (s : State O) (lcore : Lcore) (rx : Receiver T) (ctx : Addr) (null : Bool) :
    Option (Result SpdkEvent × State O) :=
  (s.heap.intoRaw s.closures.length ctx).map fun heap =>
    let boxed := { s with heap }
    if null then
      let freed := boxed.dropBox .new ctx
      let closure : Closure O := ⟨lcore, .dropped .new, rx, O.dropSender (completion O)⟩
      let message := "Failed to allocate event for lcore " ++ toString lcore ++
        ". Is it in reactor_mask?"
      (.error (.invalidArgument message), { freed with closures := freed.closures ++ [closure] })
    else
      let event : SpdkEvent := ⟨⟨lcore, ctx, s.closures.length⟩, some ctx⟩
      let closure : Closure O := ⟨lcore, .held event, rx, completion O⟩
      (.ok event, { boxed with closures := s.closures ++ [closure] })

/-- `SpdkEvent::new` -/
def new (s : State O) (lcore : Lcore) (ctx : Addr) (null : Bool) : Option (State O) :=
  (s.newEvent lcore .absent ctx null).map (·.2)

/-- `SpdkEvent::call` -/
def call (s : State O) (i : ClosureId) : Option (State O) :=
  s.closures[i]?.bind fun c =>
    match c.stage with
    | .held event =>
      -- `closure_ptr` is cleared and the value forgotten, so that nothing is left to drop
      some { s.setClosure i { c with stage := .dispatched event.ptr.arg1 } with
        events := s.events.push event.ptr }
    | _ => none

/-- `SpdkEvent::call_on` for a closure whose receiver is `rx`. -/
def callOnWith (s : State O) (lcore : Lcore) (rx : Receiver T) (ctx : Addr) (null : Bool) :
    Option (Result Unit × State O) :=
  (s.newEvent lcore rx ctx null).bind fun
    | (.error e, s') => some (.error e, s')
    | (.ok _, s') => (s'.call s.closures.length).map fun s'' => (.ok (), s'')

/-- `SpdkEvent::call_on` -/
def callOn (s : State O) (lcore : Lcore) (ctx : Addr) (null : Bool) : Option (State O) :=
  (s.callOnWith lcore .absent ctx null).map (·.2)

def setRx (s : State O) (i : ClosureId) (rx : Receiver T) : State O :=
  match s.closures[i]? with
  | some c => s.setClosure i { c with rx }
  | none => s

/-- `SpdkEvent::call_on_async`: the receiver is returned, or dropped with the error. -/
def callOnAsync (s : State O) (lcore : Lcore) (ctx : Addr) (null : Bool) : Option (State O) :=
  (s.callOnWith lcore .inCall ctx null).map fun
    | (.error _, s') => s'.setRx s.closures.length .dropped
    | (.ok (), s') => s'.setRx s.closures.length .held

/-- The drop of an `SpdkEvent`. -/
def dropEvent (s : State O) (i : ClosureId) : Option (State O) :=
  s.closures[i]?.bind fun c =>
    match c.stage with
    | .held event =>
      match event.closurePtr with
      | some ctx => some (s.dropBox .handle ctx)
      | none => some s
    | _ => none

/-- The reactor of its lcore processes the `k`-th of the queued events: `event_trampoline`, until
the closure is called. -/
def process (s : State O) (k : Nat) : Option (State O) :=
  (s.events.pop k).map fun (e, events) =>
    let (f, heap) := s.heap.fromRaw e.arg1
    let s' := { s with heap, events, ran := s.ran ++ [(e.lcore, f)] }
    match f with
    | some i =>
      match s.closures[i]? with
      | some c => s'.setClosure i { c with stage := .running }
      | none => s'
    | none => s'

/-- The closure returns; that of `call_on_async` sends its value. -/
def finish (s : State O) (i : ClosureId) (value : T) : Option (State O) :=
  s.closures[i]?.bind fun c =>
    match c.stage with
    | .running =>
      match c.rx with
      | .absent => some (s.setClosure i { c with stage := .finished value })
      | _ => some (s.setClosure i
          { c with stage := .finished value, chan := CompletionSender.success O c.chan value })
    | _ => none

/-- A poll of the receiver. -/
def poll (s : State O) (i : ClosureId) : Option (State O) :=
  s.closures[i]?.bind fun c =>
    match c.rx with
    | .held =>
      match CompletionReceiver.poll O c.chan with
      | (.ready result, chan) =>
        some { s.setClosure i { c with rx := .resolved result, chan } with
          resolved := s.resolved ++ [(i, result)] }
      | (.pending, chan) => some (s.setClosure i { c with chan })
    | _ => none

/-- The receiver is dropped. -/
def dropRx (s : State O) (i : ClosureId) : Option (State O) :=
  s.closures[i]?.bind fun c =>
    match c.rx with
    | .held => some (s.setClosure i { c with rx := .dropped })
    | _ => none

end State

/-! ## Runs -/

/-- The steps of the program and of the reactors. -/
inductive Action (T : Type)
  | new (lcore : Lcore) (ctx : Addr) (null : Bool)
  | call (i : ClosureId)
  | callOn (lcore : Lcore) (ctx : Addr) (null : Bool)
  | callOnAsync (lcore : Lcore) (ctx : Addr) (null : Bool)
  | dropEvent (i : ClosureId)
  | process (k : Nat)
  | finish (i : ClosureId) (value : T)
  | poll (i : ClosureId)
  | dropRx (i : ClosureId)

def State.step (s : State O) : Action T → Option (State O)
  | .new lcore ctx null => s.new lcore ctx null
  | .call i => s.call i
  | .callOn lcore ctx null => s.callOn lcore ctx null
  | .callOnAsync lcore ctx null => s.callOnAsync lcore ctx null
  | .dropEvent i => s.dropEvent i
  | .process k => s.process k
  | .finish i value => s.finish i value
  | .poll i => s.poll i
  | .dropRx i => s.dropRx i

/-- The runs of the events, from a state without any. -/
def lts (O : Oneshot (Result T)) : Lts (State O) (Action T) where
  init := ⟨[], .empty, .empty, [], [], []⟩
  step := State.step

end SpdkIo.Event
