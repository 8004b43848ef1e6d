import Mathlib.Tactic.Common

/-!
# Errors

`Error` and `Result` of `error.rs`. The payload of `NulError` is the position of the byte and the
bytes; the display texts are left out.
-/

namespace SpdkIo

/-- The error of an `spdk-io` operation. -/
inductive Error
  | envInit (message : String)
  | alreadyInitialized
  | notInitialized
  | invalidArgument (message : String)
  | nulError (position : Nat) (bytes : List UInt8)
  | ioError
  | deviceNotFound (name : String)
  | channelAlloc
  | memoryAlloc
  | dmaAlloc (size : UInt64)
  | cancelled
  | threadPanic
  | os (errno : Int32)
  | nvmeError (sct sc : UInt8)
  | controllerNotFound
  | namespaceNotFound (nsid : UInt32)
  | qpairAlloc
  deriving DecidableEq

abbrev Result (T : Type) := Except Error T

/-- `Error::from_errno` -/
def Error.fromErrno (errno : Int32) : Error := .os errno

/-- `Error::from_rc` -/
def Error.fromRc (rc : Int32) : Error := if rc < 0 then .os (-rc) else .os rc

end SpdkIo
