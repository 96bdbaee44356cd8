import Skillsync.RosterCodec
import Skillsync.State

set_option autoImplicit false

namespace Skillsync

open Fallible

/-- `StateError` with its `Roster` variant. -/
inductive RosterStoreError
  | state (reason : StateError)
  | roster (reason : RosterError)
deriving DecidableEq

namespace RosterStoreError

def topology (reason : String) : RosterStoreError := .state (.rosterTopology reason)

end RosterStoreError

/-- The tables `roster_revisions` and `peer_hints`. -/
structure RosterStore where
  rosterRevisions : OrderedMap RosterHash (List UInt8)
  peerHints : OrderedMap EndpointId String
deriving DecidableEq

/-- What an operation of several transactions leaves behind, and its result. -/
abbrev RosterOutcome (α : Type) := RosterStore × Except RosterStoreError α

/-- `roster_change_is_satisfied`. -/
def rosterChangeIsSatisfied (revision : RosterRevision) : RosterChange → Bool
  | .initial member => revision.members[member.endpointId]? == some member.deviceName
  | .admitMember member => (revision.members[member.endpointId]?).isSome
  | .remove endpointId => (revision.members[endpointId]?).isNone

def maxPeerHintBytes : Nat := 16 * 1024

def maxRosterRetryDepth : Nat := 1024

/-- `validate_peer_hint`. -/
def validatePeerHint (hint : String) : Except RosterStoreError Unit :=
  if hint = "" ∨ maxPeerHintBytes < (utf8 hint).length then .error (.state .peerHintLimit)
  else .ok ()

namespace RosterStore

def empty : RosterStore := ⟨∅, ∅⟩

/-- `replace_peer_hint_in`, with the check of the table. -/
def replacePeerHint (store : RosterStore) (endpointId : EndpointId) (hint : String) :
    Except RosterStoreError RosterStore :=
  if hint = "" ∨ maxPeerHintBytes < (utf8 hint).length then .error (.state .sqlite)
  else .ok { store with peerHints := store.peerHints.insert endpointId hint }

section
variable [Blake3]

/-- `load_roster_revision`. -/
def rosterRevision (store : RosterStore) (hash : RosterHash) :
    Except RosterStoreError (Option RosterRevision) :=
  match store.rosterRevisions[hash]? with
  | none => .ok none
  | some canonical => do
      let revision ← (RosterRevision.fromCanonical canonical).mapError .roster
      if revision.canonicalHash ≠ hash then
        throw (.state (.invalidStoredState "roster hash does not match canonical bytes"))
      else return some revision

/-- `insert_roster_revision_row`; both columns are unique. -/
def insertRosterRevisionRow (store : RosterStore) (revision : RosterRevision) :
    Except RosterStoreError RosterStore :=
  if (store.rosterRevisions[revision.canonicalHash]?).isSome ∨
      revision.canonicalBytes ∈ store.rosterRevisions.toList.map Prod.snd then
    .error (.state .sqlite)
  else
    .ok { store with
      rosterRevisions :=
        store.rosterRevisions.insert revision.canonicalHash revision.canonicalBytes }

/-- A row of `SELECT hash, canonical FROM roster_revisions`. -/
def decodeRosterRow (revisions : OrderedMap RosterHash RosterRevision)
    (row : RosterHash × List UInt8) :
    Except RosterStoreError (OrderedMap RosterHash RosterRevision) := do
  let revision ← (RosterRevision.fromCanonical row.2).mapError .roster
  if revision.canonicalHash ≠ row.1 then
    throw (.state (.invalidStoredState "roster hash does not match canonical bytes"))
  else if (revisions[row.1]?).isSome then
    throw (.state (.invalidStoredState "duplicate roster hash"))
  else return revisions.insert row.1 revision

variable [Ed25519]

/-- `insert_roster_revision`, one immediate transaction. -/
def insertRosterRevision (store : RosterStore) (revision : RosterRevision) :
    Except RosterStoreError RosterStore :=
  if revision.number = 0 then
    if store.rosterRevisions.size ≠ 0 then
      .error (.topology "the database already contains a roster genesis")
    else do
      revision.validateGenesis.mapError .roster
      store.insertRosterRevisionRow revision
  else match revision.parentHash with
    | none => .error (.topology "roster child does not name a parent")
    | some parentHash => do
        match ← store.rosterRevision parentHash with
        | none => throw (.topology "roster child parent is not stored")
        | some parent =>
            (revision.validateChild parent).mapError .roster
            store.insertRosterRevisionRow revision

end

end RosterStore

section
variable [Blake3]

/-- The key of `select_child`. -/
def selectionKey (candidate : RosterRevision) : Nat ×ₗ RosterHash :=
  toLex (candidate.change.selectionPriority, candidate.canonicalHash)

variable [Ed25519]

/-- `select_child`; of equal keys the last one. -/
def selectChild (parent : RosterRevision) (candidates : List RosterRevision) :
    Option RosterRevision :=
  (candidates.filter fun candidate => candidate.validateChild parent = .ok ()).foldl
    (fun best candidate =>
      match best with
      | none => some candidate
      | some best =>
          if selectionKey candidate < selectionKey best then some best else some candidate)
    none

/-- The loop of `select_chain`; no chain is longer than the list of candidates. -/
def selectFrom (candidates : List RosterRevision) : Nat → RosterRevision → List RosterRevision
  | 0, _ => []
  | fuel + 1, parent =>
      match selectChild parent candidates with
      | none => []
      | some child => child :: selectFrom candidates fuel child

/-- `select_chain`. -/
def selectChain (genesis : RosterRevision) (candidates : List RosterRevision) :
    Except RosterError (List RosterRevision) := do
  genesis.validateGenesis
  return selectFrom candidates candidates.length genesis

/-- The check of one revision in `selected_roster_chain`. -/
def checkTopology (revisions : OrderedMap RosterHash RosterRevision)
    (genesis revision : RosterRevision) : Except RosterStoreError Unit :=
  if revision.canonicalHash = genesis.canonicalHash then .ok ()
  else if revision.groupId ≠ genesis.groupId then
    .error (.topology "database contains more than one group")
  else match revision.parentHash with
    | none => .error (.topology "non-genesis roster revision has no parent")
    | some parentHash =>
        match revisions[parentHash]? with
        | none => .error (.topology "roster revision parent is missing")
        | some parent => (revision.validateChild parent).mapError .roster

/-- `windows(2)` with `validate_child`. -/
def validateLinks : List RosterRevision → Except RosterError Unit
  | parent :: child :: rest => do
      child.validateChild parent
      validateLinks (child :: rest)
  | _ => .ok ()

namespace RosterStore

/-- `selected_roster_chain` of the rows a query returns, in the order it returns them. -/
def selectFromRows (rows : List (RosterHash × List UInt8)) :
    Except RosterStoreError (List RosterRevision) := do
  let revisions ← rows.foldlM decodeRosterRow ∅
  let values := revisions.toList.map Prod.snd
  if values = [] then return []
  else match values.filter fun revision =>
      decide (revision.number = 0 ∧ revision.parentHash = none) with
    | [] => throw (.topology "roster genesis is missing")
    | _ :: _ :: _ => throw (.topology "database contains more than one roster genesis")
    | [genesis] =>
        genesis.validateGenesis.mapError .roster
        values.forM (checkTopology revisions genesis)
        let candidates := values.filter fun revision =>
          decide (revision.canonicalHash ≠ genesis.canonicalHash)
        let chain ← (selectChain genesis candidates).mapError .roster
        return genesis :: chain

/-- `selected_roster_chain`; the query names no order. -/
def selectedRosterChain (store : RosterStore) : Except RosterStoreError (List RosterRevision) :=
  selectFromRows store.rosterRevisions.toList

/-- The last loop of `merge_selected_roster_chain`: a check and a transaction for each
revision. -/
def mergeRevisions (store : RosterStore) : List RosterRevision → RosterOutcome Unit
  | [] => (store, .ok ())
  | revision :: rest =>
      match store.rosterRevision revision.canonicalHash with
      | .error reason => (store, .error reason)
      | .ok (some _) => store.mergeRevisions rest
      | .ok none =>
          match store.insertRosterRevision revision with
          | .error reason => (store, .error reason)
          | .ok inserted => inserted.mergeRevisions rest

/-- The checks of `merge_selected_roster_chain`. -/
def checkMerge (store : RosterStore) (revisions : List RosterRevision) :
    Except RosterStoreError Unit :=
  match revisions with
  | [] => .error (.topology "remote roster is empty")
  | remoteGenesis :: _ => do
      remoteGenesis.validateGenesis.mapError .roster
      (validateLinks revisions).mapError .roster
      match ← store.selectedRosterChain with
      | [] => throw (.topology "local roster genesis is missing")
      | localGenesis :: _ =>
          if remoteGenesis.canonicalHash ≠ localGenesis.canonicalHash then
            throw (.topology "remote roster genesis differs")
          else return ()

/-- `merge_selected_roster_chain`. -/
def mergeSelectedRosterChain (store : RosterStore) (revisions : List RosterRevision) :
    RosterOutcome Unit :=
  match store.checkMerge revisions with
  | .error reason => (store, .error reason)
  | .ok () => store.mergeRevisions revisions.tail

/-- The hint an operation stores with its revision. -/
def replaceHint (store : RosterStore) (peerHint : Option (EndpointId × String)) :
    Except RosterStoreError RosterStore :=
  match peerHint with
  | none => .ok store
  | some (endpointId, hint) => store.replacePeerHint endpointId hint

/-- The transaction of `apply_roster_change_inner` for a new revision. -/
def storeRevision (store : RosterStore) (revision : RosterRevision)
    (peerHint : Option (EndpointId × String)) : Except RosterStoreError RosterStore := do
  let inserted ← (match ← store.rosterRevision revision.canonicalHash with
    | none => store.insertRosterRevisionRow revision
    | some _ => .ok store)
  inserted.replaceHint peerHint

/-- The tip of the selected chain. -/
def selectedTip (store : RosterStore) : Except RosterStoreError RosterRevision := do
  match (← store.selectedRosterChain).getLast? with
  | none => throw (.topology "roster genesis is missing")
  | some tip => return tip

/-- The loop of `apply_roster_change_inner`. -/
def applyRosterChangeLoop (identity : DeviceIdentity) (change : RosterChange)
    (peerHint : Option (EndpointId × String)) :
    Nat → RosterStore → RosterOutcome RosterRevision
  | 0, store => (store, .error (.state .rosterRetryLimit))
  | attempts + 1, store =>
      match store.selectedTip with
      | .error reason => (store, .error reason)
      | .ok parent =>
          if rosterChangeIsSatisfied parent change then
            match store.replaceHint peerHint with
            | .error reason => (store, .error reason)
            | .ok hinted => (hinted, .ok parent)
          else match parent.child change identity with
            | .error reason => (store, .error (.roster reason))
            | .ok revision =>
                match store.storeRevision revision peerHint with
                | .error reason => (store, .error reason)
                | .ok stored =>
                    match stored.selectedTip with
                    | .error reason => (stored, .error reason)
                    | .ok selectedTip =>
                        if rosterChangeIsSatisfied selectedTip change then
                          (stored, .ok selectedTip)
                        else applyRosterChangeLoop identity change peerHint attempts stored

/-- `apply_roster_change_inner`. -/
def applyRosterChangeInner (store : RosterStore) (identity : DeviceIdentity)
    (change : RosterChange) (peerHint : Option (EndpointId × String)) :
    RosterOutcome RosterRevision :=
  applyRosterChangeLoop identity change peerHint (maxRosterRetryDepth + 1) store

/-- `apply_roster_change`. -/
def applyRosterChange (store : RosterStore) (identity : DeviceIdentity)
    (change : RosterChange) : RosterOutcome RosterRevision :=
  store.applyRosterChangeInner identity change none

/-- `apply_roster_change_with_peer_hint`. -/
def applyRosterChangeWithPeerHint (store : RosterStore) (identity : DeviceIdentity)
    (change : RosterChange) (hintEndpoint : EndpointId) (hint : String) :
    RosterOutcome RosterRevision :=
  match validatePeerHint hint with
  | .error reason => (store, .error reason)
  | .ok () => store.applyRosterChangeInner identity change (some (hintEndpoint, hint))

/-- Whether a revision lists the device under its name. -/
def resumes (tip : RosterRevision) (localEndpoint : EndpointId) (localName : Option String) :
    Bool :=
  match localName with
  | none => false
  | some name => (tip.members[localEndpoint]?).map DeviceName.text == some name

/-- The checks of `install_joined_state_inner` before its transaction. -/
def checkJoined (store : RosterStore) (revisions : List RosterRevision)
    (localEndpoint : EndpointId) (localName : Option String)
    (peerHints : List (EndpointId × String)) (allowResume : Bool) :
    Except RosterStoreError Unit :=
  match revisions, revisions.getLast? with
  | genesis :: _, some tip => do
      genesis.validateGenesis.mapError .roster
      (validateLinks revisions).mapError .roster
      if (tip.members[localEndpoint]?).isNone then
        throw (.topology "joined roster does not contain this device")
      else if localName.isSome ∧ resumes tip localEndpoint localName = false then
        throw (.topology "joined roster has a different local device name")
      else
        let existing ← store.selectedRosterChain
        if allowResume = false ∧ existing ≠ [] then
          throw (.topology "local state already belongs to a group")
        else if existing.head?.any fun existingGenesis =>
            decide (existingGenesis.canonicalHash ≠ genesis.canonicalHash) then
          throw (.topology "joined roster belongs to a different group")
        else if allowResume ∧ existing.getLast?.any
            fun tip => resumes tip localEndpoint localName = false then
          throw (.topology "local membership cannot resume this join")
        else peerHints.forM fun hint => validatePeerHint hint.2
  | _, _ => .error (.topology "joined roster is empty")

/-- The transaction of `install_joined_state_inner`. -/
def storeJoined (store : RosterStore) (revisions : List RosterRevision)
    (peerHints : List (EndpointId × String)) : Except RosterStoreError RosterStore := do
  let stored ← revisions.foldlM (fun store revision => store.storeRevision revision none) store
  peerHints.foldlM (fun store hint => store.replacePeerHint hint.1 hint.2) stored

/-- `install_joined_state_inner`. -/
def installJoinedStateInner (store : RosterStore) (revisions : List RosterRevision)
    (localEndpoint : EndpointId) (localName : Option String)
    (peerHints : List (EndpointId × String)) (allowResume : Bool) : RosterOutcome Unit :=
  match store.checkJoined revisions localEndpoint localName peerHints allowResume with
  | .error reason => (store, .error reason)
  | .ok () =>
      match store.storeJoined revisions peerHints with
      | .error reason => (store, .error reason)
      | .ok stored =>
          if allowResume then
            match stored.selectedRosterChain with
            | .error reason => (stored, .error reason)
            | .ok chain =>
                if chain.getLast?.all fun tip => resumes tip localEndpoint localName = false then
                  (stored, .error (.topology "selected roster cannot resume this join"))
                else (stored, .ok ())
          else (stored, .ok ())

/-- `install_joined_state`. -/
def installJoinedState (store : RosterStore) (revisions : List RosterRevision)
    (localEndpoint : EndpointId) (peerHints : List (EndpointId × String)) : RosterOutcome Unit :=
  store.installJoinedStateInner revisions localEndpoint none peerHints false

/-- `install_or_resume_joined_state`. -/
def installOrResumeJoinedState (store : RosterStore) (revisions : List RosterRevision)
    (localEndpoint : EndpointId) (localName : String)
    (peerHints : List (EndpointId × String)) : RosterOutcome Unit :=
  store.installJoinedStateInner revisions localEndpoint (some localName) peerHints true

end RosterStore

end

namespace RosterSample

attribute [local instance] Blake3.checksum Ed25519.checksum

def device (byte : UInt8) : DeviceIdentity := ⟨.fill byte⟩

def member (byte : UInt8) : RosterMember := ⟨(device byte).endpointId, .sample⟩

def blank : RosterRevision :=
  ⟨⟨.fill 0, 0, none, ∅, .remove (.fill 0), .fill 0, by decide⟩,
    ⟨List.replicate 64 0, by decide⟩⟩

def genesis : RosterRevision :=
  (RosterRevision.genesis (.fill 9) "d" (device 1)).toOption.getD blank

def child (parent : RosterRevision) (change : RosterChange) (author : UInt8) : RosterRevision :=
  (parent.child change (device author)).toOption.getD blank

/-- The table of the genesis. -/
def start : RosterStore := (RosterStore.empty.insertRosterRevision genesis).toOption.getD .empty

end RosterSample

end Skillsync
