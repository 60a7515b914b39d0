import Ioscpp.Support.Cursor

/-!
# Errors

`Result<T>` is a value or an `Error`: a code a caller branches on and a message
a human reads.  A message can carry text the device sent, so it is a byte
string.  The model's outcome type is `Checked Error`, which also says when a
function would read outside a buffer or not return.
-/

namespace Ioscpp

open Ioscpp.Support

/-- What went wrong, so that a caller can branch without matching on a
message. -/
inductive ErrorCode where
  | invalidArgument
  | transport
  | protocol
  | device
  | crypto
  | io
  deriving DecidableEq, Repr

/-- A failure, with the reason a human can read. -/
structure Error where
  code : ErrorCode
  message : Bytes
  deriving DecidableEq, Repr

/-- The outcome of an operation: a value, or the reason there is none. -/
abbrev Result (α : Type) := Checked Error α

/-- The error every codec reports. -/
def protocolError (message : String) : Error :=
  ⟨.protocol, ascii message⟩

/-- A result that is a protocol error. -/
def Result.IsProtocolError {α : Type} (result : Result α) : Prop :=
  ∃ message, result = .error (.error ⟨.protocol, message⟩)

end Ioscpp
