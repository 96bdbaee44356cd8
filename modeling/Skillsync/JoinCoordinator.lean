import Skillsync.Addresses
import Skillsync.RosterStore

set_option autoImplicit false

namespace Skillsync

open Fallible

/-- The variants of `JoinError` that the coordinator, an approval and a joiner return. -/
inductive JoinError
  | invalidInvitationLifetime
  | invitationBusy
  | invitationUnavailable
  | unknownJoinRequest
  | joinerGone
  | invalidDeviceName
  | rejected
  | invalidRoster
  | invalidAddress
  | invalidFrame
  | frameTooLarge
  | transport
  | state (source : RosterStoreError)
deriving DecidableEq

def maxDeviceNameBytes : Nat := 255

def minInvitationLifetime : Nat := 60 * 10 ^ 9

def maxInvitationLifetime : Nat := 900 * 10 ^ 9

/-- `char::is_control`, the Unicode category `Cc`. -/
def isControl (c : Char) : Bool :=
  c.toNat < 0x20 || (0x7F ≤ c.toNat && c.toNat ≤ 0x9F)

/-- `terminal_unsafe_character` -/
def terminalUnsafeCharacter (c : Char) : Bool :=
  isControl c || c.toNat == 0x061C || c.toNat == 0x200E || c.toNat == 0x200F ||
    c.toNat == 0x2028 || c.toNat == 0x2029 || (0x202A ≤ c.toNat && c.toNat ≤ 0x202E) ||
    (0x2066 ≤ c.toNat && c.toNat ≤ 0x2069)

/-- `validate_join_device_name`; a text whose trimmed form is empty is all white space. -/
def validateJoinDeviceName (deviceName : String) : Except JoinError Unit :=
  if deviceName.toList.all isWhitespace ∨ maxDeviceNameBytes < (utf8 deviceName).length ∨
      deviceName.toList.any terminalUnsafeCharacter then .error .invalidDeviceName
  else .ok ()

/-- `validate_endpoint_addr` -/
def validateEndpointAddr [AddrJson] (encoded : String) (endpoint : EndpointId) :
    Except JoinError Unit :=
  match readAddr encoded endpoint with
  | .error _ => .error .invalidAddress
  | .ok _ => .ok ()

/-- `SecretNonce::matches`: all bytes are compared, whatever the first ones are. -/
def nonceMatches (nonce other : Bytes32) : Bool :=
  (List.zipWith (fun own byte => own ^^^ byte) nonce.bytes other.bytes).foldl
    (fun difference byte => difference ||| byte) 0 == 0

structure PendingJoinInfo where
  requestId : String
  endpointId : EndpointId
  deviceName : String
deriving DecidableEq

structure ActiveInvitation where
  nonce : Bytes32
  deadline : Nat
deriving DecidableEq

/-- `PendingJoin`; the sender of its decision is the number of the channel. -/
structure PendingJoin where
  info : PendingJoinInfo
  endpointAddrJson : String
  decision : Nat
  deadline : Nat
deriving DecidableEq

inductive JoinState
  | idle
  | active (invitation : ActiveInvitation)
  | pending (join : PendingJoin)
deriving DecidableEq

inductive JoinDecision
  | rejected
  | approved (roster : String) (peerHints : OrderedMap String String)
deriving DecidableEq

/-- A `oneshot` channel: whether its receiver is still there, and what was sent. -/
structure DecisionChannel where
  listening : Bool
  decisions : List JoinDecision
deriving DecidableEq

/-- `JoinCoordinator`, with the channels of its claims in their order; each operation holds
its lock. -/
structure JoinCoordinator where
  state : JoinState
  channels : List DecisionChannel
deriving DecidableEq

/-- `expire_locked` -/
def expireLocked (now : Nat) : JoinState → JoinState
  | .idle => .idle
  | .active invitation => if invitation.deadline ≤ now then .idle else .active invitation
  | .pending join => if join.deadline ≤ now then .idle else .pending join

namespace JoinCoordinator

/-- `JoinCoordinator::default` -/
def start : JoinCoordinator := ⟨.idle, []⟩

/-- `activate`; `now` and `later` are its two readings of the clock. -/
def activate (coordinator : JoinCoordinator) (nonce : Bytes32) (lifetime now later : Nat) :
    JoinCoordinator × Except JoinError Unit :=
  if ¬ (minInvitationLifetime ≤ lifetime ∧ lifetime ≤ maxInvitationLifetime) then
    (coordinator, .error .invalidInvitationLifetime)
  else
    match expireLocked now coordinator.state with
    | .idle => ({ coordinator with state := .active ⟨nonce, later + lifetime⟩ }, .ok ())
    | busy => ({ coordinator with state := busy }, .error .invitationBusy)

/-- `pending` -/
def pending (coordinator : JoinCoordinator) (now : Nat) :
    JoinCoordinator × Option PendingJoinInfo :=
  match expireLocked now coordinator.state with
  | .pending join => ({ coordinator with state := .pending join }, some join.info)
  | other => ({ coordinator with state := other }, none)

/-- `pending_addr` -/
def pendingAddr (coordinator : JoinCoordinator) (requestId : String) (now : Nat) :
    JoinCoordinator × Except JoinError (PendingJoinInfo × String) :=
  match expireLocked now coordinator.state with
  | .pending join =>
      ({ coordinator with state := .pending join },
        if join.info.requestId ≠ requestId then .error .unknownJoinRequest
        else .ok (join.info, join.endpointAddrJson))
  | other => ({ coordinator with state := other }, .error .unknownJoinRequest)

/-- `send` of a channel. -/
def send (coordinator : JoinCoordinator) (channel : Nat) (decision : JoinDecision) :
    JoinCoordinator × Except JoinError Unit :=
  match coordinator.channels[channel]? with
  | some ⟨true, decisions⟩ =>
      ({ coordinator with
        channels := coordinator.channels.set channel ⟨true, decisions ++ [decision]⟩ }, .ok ())
  | _ => (coordinator, .error .joinerGone)

/-- `decide` -/
def decide (coordinator : JoinCoordinator) (requestId : String) (decision : JoinDecision)
    (now : Nat) : JoinCoordinator × Except JoinError Unit :=
  match expireLocked now coordinator.state with
  | .pending join =>
      if join.info.requestId ≠ requestId then
        ({ coordinator with state := .pending join }, .error .unknownJoinRequest)
      else { coordinator with state := .idle }.send join.decision decision
  | other => ({ coordinator with state := other }, .error .unknownJoinRequest)

/-- `cancel` -/
def cancel (coordinator : JoinCoordinator) (requestId : String) : JoinCoordinator :=
  match coordinator.state with
  | .pending join =>
      if join.info.requestId = requestId then { coordinator with state := .idle } else coordinator
  | _ => coordinator

/-- `claim`, with the request id that `Uuid::new_v4` gives; it returns the number of the
channel and the time that is left. -/
def claim [AddrJson] (coordinator : JoinCoordinator) (nonce : Bytes32)
    (remoteEndpoint : EndpointId) (deviceName endpointAddrJson requestId : String)
    (now later : Nat) : JoinCoordinator × Except JoinError (Nat × Nat) :=
  match validateJoinDeviceName deviceName with
  | .error reason => (coordinator, .error reason)
  | .ok () =>
      match validateEndpointAddr endpointAddrJson remoteEndpoint with
      | .error reason => (coordinator, .error reason)
      | .ok () =>
          match expireLocked now coordinator.state with
          | .active invitation =>
              if !nonceMatches invitation.nonce nonce then
                ({ coordinator with state := .active invitation }, .error .invitationUnavailable)
              else if invitation.deadline - later = 0 then
                ({ coordinator with state := .active invitation }, .error .invitationUnavailable)
              else
                (⟨.pending ⟨⟨requestId, remoteEndpoint, deviceName⟩, endpointAddrJson,
                    coordinator.channels.length, invitation.deadline⟩,
                  coordinator.channels ++ [⟨true, []⟩]⟩,
                  .ok (coordinator.channels.length, invitation.deadline - later))
          | other => ({ coordinator with state := other }, .error .invitationUnavailable)

/-- The connection of a claim is done with its receiver. -/
def leave (coordinator : JoinCoordinator) (channel : Nat) : JoinCoordinator :=
  { coordinator with
    channels := coordinator.channels.modify channel fun held => { held with listening := false } }

end JoinCoordinator

end Skillsync
