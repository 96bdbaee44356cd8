import Skillsync.JoinCoordinator
import Skillsync.RosterSelection

set_option autoImplicit false

namespace Skillsync

open Fallible

/-- The variants of `SyncError` of `accept_remote_roster_and_hint`. -/
inductive RosterSessionError
  | wrongGroup
  | protocol (source : ProtocolError)
  | json
  | hintIdentityMismatch
  | hintAddressLimit
  | state (source : RosterStoreError)
  | missingRoster
  | unauthorizedPeer
  | rosterChangedAndUnauthorizedPeer
deriving DecidableEq

/-- The variants of `NetworkError` of `build_join_approval_in` and `remove_peer`. -/
inductive MembershipError
  | state (source : RosterStoreError)
  | roster (source : RosterError)
  | missingRoster
  | memberNameMismatch
  | removedMember
  | cannotRemoveSelf
  | join (source : JoinError)
deriving DecidableEq

/-- The revisions of the device on the chain selected before that the chain selected now does
not have. -/
def displaced [Blake3] (localEndpoint : EndpointId) (previous selected : List RosterRevision) :
    List RosterRevision :=
  (previous.filter fun revision =>
      decide (revision.canonicalHash ∉ selected.map RosterRevision.canonicalHash)).filter
    fun revision => decide (revision.author = localEndpoint)

namespace RosterStore

section
variable [Blake3] [Ed25519]

/-- The replay loop of `merge_and_authorize_remote_roster`. -/
def replayChanges (localEndpoint : EndpointId) (identity : DeviceIdentity) :
    List RosterRevision → RosterStore → RosterStore × Except RosterSessionError Unit
  | [], store => (store, .ok ())
  | revision :: rest, store =>
      match store.selectedRosterChain with
      | .error reason => (store, .error (.state reason))
      | .ok chain =>
          if chain.getLast?.any fun tip => (tip.members[localEndpoint]?).isSome then
            match store.applyRosterChange identity revision.change with
            | (store, .error reason) => (store, .error (.state reason))
            | (store, .ok _) => replayChanges localEndpoint identity rest store
          else (store, .ok ())

/-- The replay of `merge_and_authorize_remote_roster`; `loaded` is what
`load_identity_from_data_dir` finds. -/
def replayDisplaced (store : RosterStore) (previous selected : List RosterRevision)
    (localEndpoint : EndpointId) (loaded : Option DeviceIdentity) :
    RosterStore × Except RosterSessionError Unit :=
  if previous.getLast?.any fun tip =>
      decide (tip.canonicalHash ∉ selected.map RosterRevision.canonicalHash) then
    match loaded with
    | none => (store, .error .missingRoster)
    | some identity =>
        store.replayChanges localEndpoint identity (displaced localEndpoint previous selected)
  else (store, .ok ())

/-- The last checks of `merge_and_authorize_remote_roster`. -/
def authorize (store : RosterStore) (previous : List RosterRevision)
    (localEndpoint remoteEndpoint : EndpointId) : Except RosterSessionError Bool :=
  match store.selectedRosterChain with
  | .error reason => .error (.state reason)
  | .ok selected =>
      match selected.getLast? with
      | none => .error .missingRoster
      | some tip =>
          let changed :=
            decide (previous.getLast?.map RosterRevision.canonicalHash ≠ some tip.canonicalHash)
          if (tip.members[localEndpoint]?).isNone ∨ (tip.members[remoteEndpoint]?).isNone then
            .error (if changed then .rosterChangedAndUnauthorizedPeer else .unauthorizedPeer)
          else .ok changed

/-- `merge_and_authorize_remote_roster` -/
def mergeAndAuthorizeRemoteRoster (store : RosterStore) (revisions : List RosterRevision)
    (localEndpoint remoteEndpoint : EndpointId) (loaded : Option DeviceIdentity) :
    RosterStore × Except RosterSessionError Bool :=
  match store.selectedRosterChain with
  | .error reason => (store, .error (.state reason))
  | .ok previous =>
      match store.mergeSelectedRosterChain revisions with
      | (store, .error reason) => (store, .error (.state reason))
      | (store, .ok ()) =>
          match store.selectedRosterChain with
          | .error reason => (store, .error (.state reason))
          | .ok selected =>
              match store.replayDisplaced previous selected localEndpoint loaded with
              | (store, .error reason) => (store, .error reason)
              | (store, .ok ()) =>
                  (store, store.authorize previous localEndpoint remoteEndpoint)

/-- `replace_peer_hint` -/
def replacePeerHintChecked (store : RosterStore) (endpointId : EndpointId) (hint : String) :
    Except RosterStoreError RosterStore := do
  validatePeerHint hint
  store.replacePeerHint endpointId hint

/-- The error of `accept_remote_roster_and_hint` for a hint. -/
def refuseHint : AddrRefusal → RosterSessionError
  | .size => .protocol .addressHintTooLarge
  | .json => .json
  | .identity => .hintIdentityMismatch
  | .addresses => .hintAddressLimit

/-- `accept_remote_roster_and_hint` -/
def acceptRemoteRosterAndHint [AddrJson] (store : RosterStore) (revisions : List RosterRevision)
    (localGenesisHash : RosterHash) (localEndpoint remoteEndpoint : EndpointId) (encoded : String)
    (loaded : Option DeviceIdentity) : RosterStore × Except RosterSessionError Bool :=
  if revisions.head?.all fun revision => decide (revision.canonicalHash ≠ localGenesisHash) then
    (store, .error .wrongGroup)
  else
    match readAddr encoded remoteEndpoint with
    | .error refusal => (store, .error (refuseHint refusal))
    | .ok _ =>
        match store.mergeAndAuthorizeRemoteRoster revisions localEndpoint remoteEndpoint loaded with
        | (store, .error reason) => (store, .error reason)
        | (store, .ok rosterChanged) =>
            match store.replacePeerHintChecked remoteEndpoint encoded with
            | .error reason => (store, .error (.state reason))
            | .ok store => (store, .ok rosterChanged)

/-- `remove_peer` -/
def removePeer (store : RosterStore) (identity : DeviceIdentity) (peer : EndpointId) :
    RosterStore × Except MembershipError Bool :=
  if peer = identity.endpointId then (store, .error .cannotRemoveSelf)
  else
    match store.selectedRosterChain with
    | .error reason => (store, .error (.state reason))
    | .ok chain =>
        match chain.getLast? with
        | none => (store, .error .missingRoster)
        | some tip =>
            if (tip.members[peer]?).isNone then (store, .ok false)
            else
              match store.applyRosterChange identity (.remove peer) with
              | (store, .error reason) => (store, .error (.state reason))
              | (store, .ok _) => (store, .ok true)

end

end RosterStore

end Skillsync
