import SpdkIo.Complete
import SpdkIo.Lib.Lts
import SpdkIo.Nvme.Transport

/-!
# Transports and listeners

`NvmfTarget::listen` and `add_transport` (`nvmf/target.rs`), and `NvmfSubsystem::add_listener`
(`nvmf/subsystem.rs`) with their callbacks. The last two have one shape: `completion()`, an SPDK
call that returns nothing, and `rx.await`; what they differ in is the callback.

A call of these goes through its steps with the callback at any moment after SPDK was called, also
before that call returns. Its future may be dropped, except while it is polled.
-/

namespace SpdkIo.Nvmf

/-- `NvmfTarget::listen`, by what `spdk_nvmf_tgt_listen_ext` returns for the address. -/
def NvmfTarget.listen (listenExt : Nvme.TransportId → Int32) (trid : Nvme.TransportId) :
    Result Unit := do
  let rc := listenExt trid
  if rc ≠ 0 then throw (.fromErrno (-rc))
  return ()

/-! ## Callbacks -/

/-- What `add_transport_done` sends. -/
def addTransportDone (status : Int32) : Result Unit :=
  if status == 0 then .ok () else .error (.fromErrno (-status))

/-- What `listener_done` sends. -/
def listenerDone (status : Int32) : Result Unit :=
  if status == 0 then .ok () else .error (.fromErrno (-status))

/-! ## Calls -/

/-- Where the future of a call is. -/
inductive CallFut
  | unresumed
  /-- in the SPDK call -/
  | calling
  /-- at `rx.await` -/
  | awaiting
  | returned (result : Result Unit)
  | dropped
  deriving DecidableEq

/-- Where the call is in SPDK. -/
inductive CallIo
  | uncalled
  | pending
  | completed (status : Int32)
  deriving DecidableEq

structure CallState (O : Oneshot (Result Unit)) where
  fut : CallFut
  io : CallIo
  chan : O.Chan

inductive CallAction
  /-- the first poll, up to the SPDK call -/
  | call
  | callback (status : Int32)
  /-- the rest of the first poll, or a later one -/
  | poll
  | drop
  deriving DecidableEq

variable {O : Oneshot (Result Unit)}

/-- `rx.await` -/
def CallState.pollRx (s : CallState O) : CallState O :=
  match CompletionReceiver.poll O s.chan with
  | (.ready result, chan) => { s with fut := .returned result, chan }
  | (.pending, chan) => { s with fut := .awaiting, chan }

/-- A step of a call whose callback is `done`. -/
def CallState.step (done : Int32 → Result Unit) (s : CallState O) :
    CallAction → Option (CallState O)
  | .call =>
    match s.fut with
    | .unresumed => some ⟨.calling, .pending, completion O⟩
    | _ => none
  | .callback status =>
    match s.io with
    | .pending => some { s with
        io := .completed status
        chan := CompletionSender.complete O s.chan (done status) }
    | _ => none
  | .poll =>
    match s.fut with
    | .calling | .awaiting => some s.pollRx
    | _ => none
  | .drop =>
    match s.fut with
    | .unresumed | .awaiting => some { s with fut := .dropped }
    | _ => none

/-- The runs of a call. -/
def callLts (done : Int32 → Result Unit) (O : Oneshot (Result Unit)) :
    Lts (CallState O) CallAction where
  init := ⟨.unresumed, .uncalled, completion O⟩
  step := CallState.step done

/-- `NvmfTarget::add_transport` -/
def NvmfTarget.addTransport : (O : Oneshot (Result Unit)) → Lts (CallState O) CallAction :=
  callLts addTransportDone

/-- `NvmfSubsystem::add_listener` -/
def NvmfSubsystem.addListener : (O : Oneshot (Result Unit)) → Lts (CallState O) CallAction :=
  callLts listenerDone

end SpdkIo.Nvmf
