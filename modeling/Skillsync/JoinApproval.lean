import Skillsync.JoinedInstall
import Skillsync.MessagesSpec
import Skillsync.RosterReplaySpec

set_option autoImplicit false

namespace Skillsync

open Fallible

structure JoinResponse where
  approved : Bool
  roster : String
  peerHints : OrderedMap String String
deriving DecidableEq

/-- The encodings of an approval in other crates: `URL_SAFE_NO_PAD` of `base64`, and
`serde_json` of a `JoinResponse`. -/
class JoinEncodings where
  base64Encode : List UInt8 → String
  base64Decode : String → Option (List UInt8)
  toVec : JoinResponse → Option (List UInt8)
  fromSlice : List UInt8 → Option JoinResponse

/-- What was encoded is decoded again, and only nothing has an empty text. -/
structure RoundTrips [JoinEncodings] : Prop where
  base64 : ∀ bytes, JoinEncodings.base64Decode (JoinEncodings.base64Encode bytes) = some bytes
  empty : JoinEncodings.base64Encode [] = ""
  response : ∀ response bytes, JoinEncodings.toVec response = some bytes →
    JoinEncodings.fromSlice bytes = some response

def joinResponseLimit : Nat := maxRosterBytes * 4 / 3 + 1 + 512 * 1024

def maxJoinHintTextBytes : Nat := 200 * 1024

section
variable [JoinEncodings]

def encodeRoster (revisions : List RosterRevision) : Except JoinError String := do
  let canonical ← (RosterBundle.encode ⟨revisions⟩).mapError fun _ => .invalidRoster
  return JoinEncodings.base64Encode canonical

/-- `decode_roster` -/
def decodeRoster [Blake3] [Ed25519] (encoded : String) :
    Except JoinError (List RosterRevision) :=
  if encoded = "" then .error .invalidRoster
  else
    match JoinEncodings.base64Decode encoded with
    | none => .error .invalidRoster
    | some canonical =>
        if maxRosterBytes < canonical.length then .error .invalidRoster
        else
          match RosterBundle.decode canonical with
          | .error _ => .error .invalidRoster
          | .ok bundle => .ok bundle.revisions

/-- `write_json` of a response: its length and its bytes. -/
def writeJson (response : JoinResponse) (limit : Nat) : Except JoinError (List UInt8) :=
  match JoinEncodings.toVec response with
  | none => .error .invalidFrame
  | some bytes =>
      if limit < bytes.length then .error .frameTooLarge
      else if 2 ^ 32 ≤ bytes.length then .error .frameTooLarge
      else .ok (bigEndian 4 bytes.length ++ bytes)

/-- `read_json` of the response in a stream; a stream that ends is `Transport`. -/
def readJson (stream : List UInt8) (limit : Nat) : Except JoinError JoinResponse :=
  if stream.length < 4 then .error .transport
  else
    let length := fromBigEndian (stream.take 4)
    if limit < length then .error .frameTooLarge
    else if (stream.drop 4).length < length then .error .transport
    else
      match JoinEncodings.fromSlice ((stream.drop 4).take length) with
      | none => .error .invalidFrame
      | some response => .ok response

variable [AddrJson]

/-- `decode_peer_hint` -/
def decodePeerHint (encoded : String) (peer : EndpointId) : Option EndpointAddr :=
  (readAddr encoded peer).toOption

/-- One hint in the loop of `validate_approval_payload`; the sum is a `usize`. -/
def addHint (tip : RosterRevision) (hintTextBytes : Nat) (hint : String × String) :
    Except JoinError Nat :=
  match endpointFromStr hint.1 with
  | none => .error .invalidAddress
  | some endpoint =>
      if (tip.members[endpoint]?).isNone then .error .invalidAddress
      else if 2 ^ 64 ≤ hintTextBytes + (utf8 hint.1).length then .error .frameTooLarge
      else
        match validateEndpointAddr hint.2 endpoint with
        | .error reason => .error reason
        | .ok () =>
            if 2 ^ 64 ≤ hintTextBytes + (utf8 hint.1).length + (utf8 hint.2).length then
              .error .frameTooLarge
            else .ok (hintTextBytes + (utf8 hint.1).length + (utf8 hint.2).length)

/-- `validate_approval_payload` -/
def validateApprovalPayload (roster : List RosterRevision) (encodedRoster : String)
    (peerHints : OrderedMap String String) : Except JoinError Unit :=
  match roster.getLast? with
  | none => .error .invalidRoster
  | some tip => do
      let hintTextBytes ← peerHints.toList.foldlM (addHint tip) 0
      if maxJoinHintTextBytes < hintTextBytes then throw .frameTooLarge
      else
        match JoinEncodings.toVec ⟨true, encodedRoster, peerHints⟩ with
        | none => throw .invalidFrame
        | some bytes => if joinResponseLimit < bytes.length then throw .frameTooLarge else return ()

/-- `JoinDecision::approved` -/
def JoinDecision.approve (roster : List RosterRevision) (peerHints : OrderedMap String String) :
    Except JoinError JoinDecision := do
  let encodedRoster ← encodeRoster roster
  validateApprovalPayload roster encodedRoster peerHints
  return .approved encodedRoster peerHints

/-- The response of `run_inviter` to a decision. -/
def JoinDecision.response : JoinDecision → JoinResponse
  | .approved roster peerHints => ⟨true, roster, peerHints⟩
  | .rejected => ⟨false, "", ∅⟩

namespace RosterStore

variable [Blake3] [Ed25519]

/-- The hint of a member in `approval_peer_hints`. -/
def approvalHint (store : RosterStore) (identity : DeviceIdentity) (localAddrJson : String)
    (endpoint : EndpointId) : Option String :=
  if endpoint = identity.endpointId then some localAddrJson
  else (store.peerHints[endpoint]?).filter fun hint => (decodePeerHint hint endpoint).isSome

/-- One member in the loop of `approval_peer_hints`. -/
def shareHint (store : RosterStore) (pending : PendingJoinInfo) (identity : DeviceIdentity)
    (localAddrJson : String) (peerHints : OrderedMap String String) (endpoint : EndpointId) :
    OrderedMap String String :=
  if endpoint = pending.endpointId then peerHints
  else
    match store.approvalHint identity localAddrJson endpoint with
    | none => peerHints
    | some hint => peerHints.insert (endpointText endpoint) hint

/-- `approval_peer_hints` -/
def approvalPeerHints (store : RosterStore) (pending : PendingJoinInfo)
    (identity : DeviceIdentity) (localAddrJson : String) :
    Except MembershipError (OrderedMap String String) :=
  match store.selectedRosterChain with
  | .error reason => .error (.state reason)
  | .ok roster =>
      match roster.getLast? with
      | none => .error .missingRoster
      | some tip =>
          .ok ((tip.members.toList.map Prod.fst).foldl
            (store.shareHint pending identity localAddrJson) ∅)

/-- The last lines of `build_join_approval_in`. -/
def concludeApproval (store : RosterStore) (identity : DeviceIdentity) (localAddrJson : String)
    (pending : PendingJoinInfo) : Except MembershipError JoinDecision := do
  let roster ← store.selectedRosterChain.mapError .state
  if (roster.getLast?.bind fun tip => tip.members[pending.endpointId]?).map DeviceName.text ≠
      some pending.deviceName then throw .memberNameMismatch
  else
    let peerHints ← store.approvalPeerHints pending identity localAddrJson
    (JoinDecision.approve roster peerHints).mapError .join

/-- The admission in `build_join_approval_in`. -/
def admitPending (store : RosterStore) (identity : DeviceIdentity) (pending : PendingJoinInfo)
    (joinerAddr : String) (roster : List RosterRevision) (tip : RosterRevision)
    (peerHints : OrderedMap String String) : RosterStore × Except MembershipError Unit :=
  match RosterMember.new pending.endpointId pending.deviceName with
  | .error reason => (store, .error (.roster reason))
  | .ok member =>
      match tip.child (.admitMember member) identity with
      | .error reason => (store, .error (.roster reason))
      | .ok candidate =>
          match JoinDecision.approve (roster ++ [candidate]) peerHints with
          | .error reason => (store, .error (.join reason))
          | .ok _ =>
              match store.applyRosterChangeWithPeerHint identity (.admitMember member)
                  pending.endpointId joinerAddr with
              | (store, .error reason) => (store, .error (.state reason))
              | (store, .ok _) => (store, .ok ())

/-- `build_join_approval_in` -/
def buildJoinApproval (store : RosterStore) (identity : DeviceIdentity) (localAddrJson : String)
    (pending : PendingJoinInfo) (joinerAddr : String) :
    RosterStore × Except MembershipError JoinDecision :=
  match store.selectedRosterChain with
  | .error reason => (store, .error (.state reason))
  | .ok roster =>
      match roster.getLast? with
      | none => (store, .error .missingRoster)
      | some tip =>
          let activeName := tip.members[pending.endpointId]?
          if activeName.any fun name => decide (name.text ≠ pending.deviceName) then
            (store, .error .memberNameMismatch)
          else if activeName.isNone ∧
              roster.any (fun revision => (revision.members[pending.endpointId]?).isSome) then
            (store, .error .removedMember)
          else
            match store.approvalPeerHints pending identity localAddrJson with
            | .error reason => (store, .error reason)
            | .ok peerHints =>
                if activeName.isNone then
                  match store.admitPending identity pending joinerAddr roster tip peerHints with
                  | (store, .error reason) => (store, .error reason)
                  | (store, .ok ()) =>
                      (store, store.concludeApproval identity localAddrJson pending)
                else
                  match store.replacePeerHintChecked pending.endpointId joinerAddr with
                  | .error reason => (store, .error (.state reason))
                  | .ok store => (store, store.concludeApproval identity localAddrJson pending)

/-- One hint in the loop of `run_joiner_on_endpoint`. -/
def validateHint (tip : RosterRevision) (localEndpoint : EndpointId) (hint : String × String) :
    Except JoinError (EndpointId × String) :=
  match endpointFromStr hint.1 with
  | none => .error .invalidAddress
  | some endpoint =>
      if (tip.members[endpoint]?).isNone ∨ endpoint = localEndpoint then .error .invalidAddress
      else
        match validateEndpointAddr hint.2 endpoint with
        | .error reason => .error reason
        | .ok () => .ok (endpoint, hint.2)

/-- The checks of a response in `run_joiner_on_endpoint`: the roster and the hints to install. -/
def checkResponse (response : JoinResponse) (localEndpoint inviter : EndpointId)
    (deviceName : String) :
    Except JoinError (List RosterRevision × List (EndpointId × String)) := do
  if response.approved = false then throw .rejected
  else
    let roster ← decodeRoster response.roster
    match roster.getLast? with
    | none => throw .invalidRoster
    | some tip =>
        if (tip.members[localEndpoint]?).map DeviceName.text ≠ some deviceName ∨
            (tip.members[inviter]?).isNone then throw .invalidRoster
        else
          let validatedHints ←
            response.peerHints.toList.mapM (validateHint tip localEndpoint)
          if (validatedHints.any fun hint => decide (hint.1 = inviter)) = false then
            throw .invalidAddress
          else return (roster, validatedHints)

/-- `run_joiner`, with the stream that the inviter writes; it returns the state of the joiner. -/
def runJoiner (store : RosterStore) (localEndpoint inviter : EndpointId) (deviceName : String)
    (stream : List UInt8) : RosterStore × Except JoinError Unit :=
  match validateJoinDeviceName deviceName with
  | .error reason => (store, .error reason)
  | .ok () =>
      match readJson stream joinResponseLimit with
      | .error reason => (store, .error reason)
      | .ok response =>
          match checkResponse response localEndpoint inviter deviceName with
          | .error reason => (store, .error reason)
          | .ok (roster, validatedHints) =>
              match store.installOrResumeJoinedState roster localEndpoint deviceName
                  validatedHints with
              | (store, .error reason) => (store, .error (.state reason))
              | (store, .ok ()) => (store, .ok ())

end RosterStore

end

end Skillsync
