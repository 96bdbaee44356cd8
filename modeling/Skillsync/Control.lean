import Skillsync.Canonical
import Skillsync.Fallible
import Skillsync.Framing
import Skillsync.Scalars

set_option autoImplicit false

namespace Skillsync

/-- `serde_json::Value`; the fields of an object are in the order of the source. -/
inductive Value
  | null
  | bool (value : Bool)
  | number (value : Int)
  | string (value : String)
  | array (items : List Value)
  | object (fields : List (String × Value))

inductive ControlRequest
  | status
  | collections
  | addCollection (name path : String)
  | removeCollection (name : String)
  | logs (afterId : Int) (limit : Nat)
  | scan
  | sync (wait : Bool)
  | endpointAddr
  | peers
  | removePeer (peer : String)
  | activateInvitation (nonce : Bytes32) (lifetimeSeconds : Nat)
  | pendingJoin
  | decideJoin (requestId : String) (approve : Bool)
  | shutdown
deriving DecidableEq

structure ControlError where
  code : String
  message : String
deriving DecidableEq

structure ControlResponse where
  ok : Bool
  result : Option Value
  error : Option ControlError

namespace ControlResponse

def success (result : Value) : ControlResponse := ⟨true, some result, none⟩

def failure (code message : String) : ControlResponse := ⟨false, none, some ⟨code, message⟩⟩

end ControlResponse

/-- The variants of `DaemonError` of the control protocol; the reasons are texts of other crates. -/
inductive ControlFailure
  /-- `Io` of the kind `WouldBlock`, `TimedOut` or `Interrupted`. -/
  | timedOut (reason : String)
  | io (reason : String)
  | json (reason : String)
  | frameTooLarge
  | missingNewline
deriving DecidableEq

namespace ControlFailure

/-- The `Display` of `DaemonError`. -/
def text : ControlFailure → String
  | timedOut reason | io reason => "daemon I/O failed: " ++ reason
  | json reason => "daemon control JSON failed: " ++ reason
  | frameTooLarge => "daemon control frame exceeds its limit"
  | missingNewline => "daemon control frame is missing its newline terminator"

end ControlFailure

/-- `serde_json` of the messages. -/
class ControlMessages where
  requestToVec : ControlRequest → Except String (List UInt8)
  requestFromSlice : List UInt8 → Except String ControlRequest
  responseToVec : ControlResponse → Except String (List UInt8)
  responseFromSlice : List UInt8 → Except String ControlResponse

/-- How the bytes that a socket has received end. -/
inductive SocketEnd
  | closed
  | timedOut (reason : String)
  | failed (reason : String)
deriving DecidableEq

structure Socket where
  bytes : List UInt8
  ending : SocketEnd
deriving DecidableEq

namespace Control

open Fallible Framing

def responseLimit : Nat := 512 * 1024

def newline : UInt8 := 10

/-- `read_frame`; the reader stops at `limit + 2` bytes, and then the end of the socket is not
met. -/
def readFrame (limit : Nat) (socket : Socket) : Except ControlFailure (List UInt8) :=
  let frame := upTo newline (socket.bytes.take (limit + 2))
  if frame.getLast? = some newline then
    if limit < frame.dropLast.length then .error .frameTooLarge else .ok frame.dropLast
  else
    let ended : Except ControlFailure (List UInt8) :=
      if limit ≤ frame.length then .error .frameTooLarge else .error .missingNewline
    if limit + 2 ≤ socket.bytes.length then ended
    else
      match socket.ending with
      | .closed => ended
      | .timedOut reason => .error (.timedOut reason)
      | .failed reason => .error (.io reason)

/-- What `write_response` sends in place of a response that is too long. -/
def tooLarge : ControlResponse :=
  .failure "response_too_large" "daemon response exceeds the control limit"

section
variable [ControlMessages]

end

section
variable {limit : Nat} {socket : Socket} {frame : List UInt8}

end

section
variable [ControlMessages] {request : ControlRequest} {response : ControlResponse}
  {text : List UInt8}

open ControlMessages

/-- The response that the client reads for one of the daemon. -/
def delivered (response : ControlResponse) (text : List UInt8) : ControlResponse :=
  if responseLimit < text.length then tooLarge else response

end

def shutdownText : List UInt8 := utf8 "\x7b\"command\":\"shutdown\"\x7d"

def stoppedText : List UInt8 := utf8 "\x7b\"ok\":true,\"result\":\x7b\"stopped\":true\x7d\x7d"

def tooLargeText : List UInt8 :=
  utf8 ("\x7b\"ok\":false,\"error\":\x7b\"code\":\"response_too_large\",\"message\":" ++
    "\"daemon response exceeds the control limit\"\x7d\x7d")

/-- The response of a daemon that stops. -/
def stopped : ControlResponse := .success (.object [("stopped", .bool true)])

/-- The texts of a request to stop, of its response and of the replacement. -/
@[reducible] def shutdownMessages : ControlMessages where
  requestToVec
    | .shutdown => .ok shutdownText
    | _ => .error "not written"
  requestFromSlice text := if text = shutdownText then .ok .shutdown else .error "not read"
  responseToVec response :=
    if response.ok then .ok stoppedText
    else .ok tooLargeText
  responseFromSlice text :=
    if text = stoppedText then .ok stopped
    else if text = tooLargeText then .ok tooLarge
    else .error "not read"

attribute [local instance] shutdownMessages

end Control

end Skillsync
