import SpdkIo.Error
import SpdkIo.Lib.CField
import SpdkIo.Lib.Utf8

/-!
# Transport identifiers

`TransportId` (`nvme/transport.rs`): its constructors, which copy their arguments into the
character arrays of an `spdk_nvme_transport_id`, and its getters, which read the arrays back. A
string is the list of its bytes. The capacities of the arrays are SPDK's, so they are parameters;
an array is indexed with a check, and `none` is the panic of an index out of bounds.
-/

namespace SpdkIo.Nvme

/-- What may panic, and else returns a `Result`. -/
abbrev Checked := ExceptT Error Option

namespace Checked
variable {α β : Type}

theorem bind_ok {x : Checked α} {a : α} (h : x = some (.ok a)) (f : α → Checked β) :
    (x >>= f) = f a := by
  subst h
  rfl

theorem bind_error {x : Checked α} {e : Error} (h : x = some (.error e)) (f : α → Checked β) :
    (x >>= f) = some (.error e) := by
  subst h
  rfl

end Checked

/-- The capacities of the character arrays of `spdk_nvme_transport_id`. -/
structure FieldSizes where
  trstring : Nat
  traddr : Nat
  trsvcid : Nat
  subnqn : Nat
  trstring_pos : 0 < trstring
  traddr_pos : 0 < traddr
  trsvcid_pos : 0 < trsvcid
  subnqn_pos : 0 < subnqn

inductive TransportType
  | pcie
  | tcp
  | rdma
  deriving DecidableEq, Repr

inductive AddressFamily
  | ipv4
  deriving DecidableEq, Repr

/-- `spdk_nvme_transport_id`; a zeroed type or family is `none`. -/
structure SpdkNvmeTransportId where
  trtype : Option TransportType
  adrfam : Option AddressFamily
  trstring : CField
  traddr : CField
  trsvcid : CField
  subnqn : CField
  deriving DecidableEq

/-- `MaybeUninit::zeroed` -/
def SpdkNvmeTransportId.zeroed (sizes : FieldSizes) : SpdkNvmeTransportId where
  trtype := none
  adrfam := none
  trstring := .zeroed sizes.trstring
  traddr := .zeroed sizes.traddr
  trsvcid := .zeroed sizes.trsvcid
  subnqn := .zeroed sizes.subnqn

structure TransportId where
  inner : SpdkNvmeTransportId
  deriving DecidableEq

namespace TransportId

/-! ## Constructors -/

/-- The message for a text of `len` bytes where `max` fit. -/
def tooLong (name : String) (len max : Nat) : Error :=
  .invalidArgument (name ++ " too long: " ++ toString len ++ " (max " ++ toString max ++ ")")

def copyToField (field : CField) (value : List UInt8) (name : String) : Checked CField :=
  let maxLen := field.length - 1
  if value.length > maxLen then throw (tooLong name value.length maxLen)
  else (field.store 0 value).map .ok

/-- The copy of the address in `pcie`, which has a check and a loop of its own. -/
def copyPciAddress (field : CField) (addr : List UInt8) : Checked CField :=
  let maxLen := field.length - 1
  if addr.length > maxLen then throw (tooLong "PCI address" addr.length maxLen)
  else (field.store 0 addr).map .ok

/-- The bytes of a transport's name. -/
def nameBytes (name : String) : List UInt8 := Utf8.encode name.toList

def pcie (sizes : FieldSizes) (addr : List UInt8) : Checked TransportId := do
  let trid := { SpdkNvmeTransportId.zeroed sizes with trtype := some .pcie }
  let trstring ← copyToField trid.trstring (nameBytes "PCIe") "trstring"
  let traddr ← copyPciAddress trid.traddr addr
  return ⟨{ trid with trstring, traddr }⟩

/-- `tcp` and `rdma`, by the transport's type and name. -/
def fabric (trtype : TransportType) (name : String) (sizes : FieldSizes)
    (addr port subnqn : List UInt8) : Checked TransportId := do
  let trid := { SpdkNvmeTransportId.zeroed sizes with
    trtype := some trtype
    adrfam := some .ipv4 }
  let trstring ← copyToField trid.trstring (nameBytes name) "trstring"
  let traddr ← copyToField trid.traddr addr "address"
  let trsvcid ← copyToField trid.trsvcid port "port"
  let subnqn ← copyToField trid.subnqn subnqn "subnqn"
  return ⟨{ trid with trstring, traddr, trsvcid, subnqn }⟩

def tcp : FieldSizes → List UInt8 → List UInt8 → List UInt8 → Checked TransportId :=
  fabric .tcp "TCP"

def rdma : FieldSizes → List UInt8 → List UInt8 → List UInt8 → Checked TransportId :=
  fabric .rdma "RDMA"

/-! ## Getters -/

def fieldToStr (field : CField) : List UInt8 :=
  let len := (field.findIdx? (· == 0)).getD field.length
  (field.take len).map Int8.toUInt8

def transportType (self : TransportId) : Option TransportType := self.inner.trtype

def address (self : TransportId) : List UInt8 := fieldToStr self.inner.traddr

def serviceId (self : TransportId) : List UInt8 := fieldToStr self.inner.trsvcid

def subnqn (self : TransportId) : List UInt8 := fieldToStr self.inner.subnqn

end TransportId

end SpdkIo.Nvme
