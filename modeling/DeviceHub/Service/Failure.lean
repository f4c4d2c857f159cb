import DeviceHub.Command.Send

/-!
# Failures as responses

* `Failure`            a code, a message and an HTTP status;
* `Failure.ofCommand`  the failure that reports why a send failed;
* `Failure.body`       the JSON text of the response's body.
-/

namespace DeviceHub.Service

/-- what went wrong with a request -/
structure Failure where
  code : String
  message : String
  status : Nat
deriving DecidableEq

namespace Failure

def badRequest (message : String) : Failure := ⟨"BAD_REQUEST", message, 400⟩

def notFound (message : String) : Failure := ⟨"NOT_FOUND", message, 404⟩

def internal (message : String) : Failure := ⟨"INTERNAL_ERROR", message, 500⟩

/-- a fault on the way to a device or back -/
def badGateway (code message : String) : Failure := ⟨code, message, 502⟩

def unavailable (message : String) : Failure := ⟨"SERVICE_UNAVAILABLE", message, 503⟩

def gatewayTimeout (message : String) : Failure := ⟨"TIMEOUT", message, 504⟩

def ofCommand (e : Command.Error) : Failure :=
  match e with
  | .invalidRequest _ => badRequest e.message
  | .notConnected => unavailable e.message
  | .publishFailed _ => badGateway "PUBLISH_FAILED" e.message
  | .invalidAck => badGateway "INVALID_ACK" e.message
  | .timeout .. => gatewayTimeout e.message
  | .cancelled => internal e.message

/-- the failure in one line -/
def display (f : Failure) : String := "[" ++ f.code ++ "] " ++ f.message

open Json in
def write (f : Failure) : Doc := .record [("code", .text f.code), ("message", .text f.message)]

open Json in
def body (f : Failure) : Doc := .record [("error", f.write), ("success", .bool false)]

end Failure

end DeviceHub.Service
