import Skillsync.Record

set_option autoImplicit false

namespace Skillsync

/-- A canonical path of the local filesystem. -/
abbrev RootPath := String

inductive CollectionScanStatus
  | pending
  | active
  | missing
  | notDirectory
  | error
deriving DecidableEq

inductive CollectionWatchStatus
  | pending
  | active
  | rootUnavailable
  | backendError
deriving DecidableEq

/-- A row of `collections`; its name is the table's key. -/
structure CollectionState where
  localPath : String
  resolvedRoot : Option RootPath
  scanStatus : CollectionScanStatus
  watchStatus : CollectionWatchStatus
deriving DecidableEq

structure FileFingerprint where
  modifiedNs : I64
  size : Nat
  hash : Bytes32
deriving DecidableEq

/-- A row of `path_records` as `record_state` reads it. -/
structure PathRecordState where
  record : Record
  materialized : Bool
  materializedFingerprint : Option FileFingerprint
deriving DecidableEq

inductive CollectionIssue
  | symlinkEscape
  | symlinkCycle
  | pathRejected
  | timestampRejected
deriving DecidableEq

inductive OperationalEvent
  | daemonStarted
  | daemonStopped
  | collectionAttached (collection : String)
  | collectionDetached (collection : String)
  | collectionPaused (collection : String)
  | collectionScanned (collection : String)
  | collectionWarning (collection : String) (path : Option ProtocolPath)
      (issue : CollectionIssue)
  | recordAccepted (collection : String) (path : ProtocolPath) (sourcePeer : Option EndpointId)
  | recordRejected (collection : String) (path : ProtocolPath) (sourcePeer : Option EndpointId)
      (candidateModifiedNs : I64) (candidateAuthor : EndpointId)
      (winnerModifiedNs : I64) (winnerAuthor : EndpointId)
  | fileInstalled (collection : String) (path : ProtocolPath)
  | fileApplyRejected (collection : String) (path : ProtocolPath)
  | repairRequired (collection : String) (path : ProtocolPath)
  | peerUnreachable (peerEndpoint : EndpointId)
  | peerAttempted (peerEndpoint : EndpointId)
  | peerSynchronized (peerEndpoint : EndpointId)
  | peerRejected (peerEndpoint : EndpointId)
  | peerSessionFailed (peerEndpoint : EndpointId)
  | fileSent (collection : String) (path : ProtocolPath) (peerEndpoint : EndpointId)
  | fileReceived (collection : String) (path : ProtocolPath) (peerEndpoint : EndpointId)
  | transferRejected (collection : String) (path : ProtocolPath) (peerEndpoint : EndpointId)
deriving DecidableEq

namespace Json

def hexDigit (n : Nat) : Char := if n < 10 then Char.ofNat (48 + n) else Char.ofNat (87 + n)

/-- One character inside a JSON string. -/
def escape (c : Char) : List Char :=
  if c = '"' then ['\\', '"']
  else if c = '\\' then ['\\', '\\']
  else if c = '\n' then ['\\', 'n']
  else if c = '\r' then ['\\', 'r']
  else if c = '\t' then ['\\', 't']
  else if c = '\x08' then ['\\', 'b']
  else if c = '\x0c' then ['\\', 'f']
  else if c.toNat < 32 then ['\\', 'u', '0', '0', hexDigit (c.toNat / 16), hexDigit (c.toNat % 16)]
  else [c]

def string (value : String) : List Char := '"' :: (value.toList.flatMap escape ++ ['"'])

def endpoint (id : EndpointId) : List Char :=
  '"' :: (id.bytes.flatMap fun byte => [hexDigit (byte.toNat / 16), hexDigit (byte.toNat % 16)])
    ++ ['"']

def integer (n : I64) : List Char := (toString n.val).toList

def option {α : Type} (encode : α → List Char) : Option α → List Char
  | none => "null".toList
  | some value => encode value

def issue : CollectionIssue → String
  | .symlinkEscape => "symlink_escape"
  | .symlinkCycle => "symlink_cycle"
  | .pathRejected => "path_rejected"
  | .timestampRejected => "timestamp_rejected"

def path (value : ProtocolPath) : List Char := string value.text

/-- An internally tagged object: the event's name, then its fields in order. -/
def tagged (name : String) (fields : List (String × List Char)) : List Char :=
  '{' :: (string "event" ++ ':' :: string name) ++
    (fields.flatMap fun field => ',' :: (string field.1 ++ ':' :: field.2)) ++ ['}']

end Json

namespace OperationalEvent

/-- The serialization of an event, stored in `operational_logs.payload`. -/
def payload : OperationalEvent → List Char
  | daemonStarted => Json.tagged "daemon_started" []
  | daemonStopped => Json.tagged "daemon_stopped" []
  | collectionAttached c => Json.tagged "collection_attached" [("collection", Json.string c)]
  | collectionDetached c => Json.tagged "collection_detached" [("collection", Json.string c)]
  | collectionPaused c => Json.tagged "collection_paused" [("collection", Json.string c)]
  | collectionScanned c => Json.tagged "collection_scanned" [("collection", Json.string c)]
  | collectionWarning c p i =>
      Json.tagged "collection_warning" [("collection", Json.string c),
        ("path", Json.option Json.path p), ("issue", Json.string (Json.issue i))]
  | recordAccepted c p peer =>
      Json.tagged "record_accepted" [("collection", Json.string c), ("path", Json.path p),
        ("source_peer", Json.option Json.endpoint peer)]
  | recordRejected c p peer candidateNs candidateAuthor winnerNs winnerAuthor =>
      Json.tagged "record_rejected" [("collection", Json.string c), ("path", Json.path p),
        ("source_peer", Json.option Json.endpoint peer),
        ("candidate_modified_ns", Json.integer candidateNs),
        ("candidate_author", Json.endpoint candidateAuthor),
        ("winner_modified_ns", Json.integer winnerNs),
        ("winner_author", Json.endpoint winnerAuthor)]
  | fileInstalled c p =>
      Json.tagged "file_installed" [("collection", Json.string c), ("path", Json.path p)]
  | fileApplyRejected c p =>
      Json.tagged "file_apply_rejected" [("collection", Json.string c), ("path", Json.path p)]
  | repairRequired c p =>
      Json.tagged "repair_required" [("collection", Json.string c), ("path", Json.path p)]
  | peerUnreachable peer =>
      Json.tagged "peer_unreachable" [("peer_endpoint", Json.endpoint peer)]
  | peerAttempted peer => Json.tagged "peer_attempted" [("peer_endpoint", Json.endpoint peer)]
  | peerSynchronized peer =>
      Json.tagged "peer_synchronized" [("peer_endpoint", Json.endpoint peer)]
  | peerRejected peer => Json.tagged "peer_rejected" [("peer_endpoint", Json.endpoint peer)]
  | peerSessionFailed peer =>
      Json.tagged "peer_session_failed" [("peer_endpoint", Json.endpoint peer)]
  | fileSent c p peer =>
      Json.tagged "file_sent" [("collection", Json.string c), ("path", Json.path p),
        ("peer_endpoint", Json.endpoint peer)]
  | fileReceived c p peer =>
      Json.tagged "file_received" [("collection", Json.string c), ("path", Json.path p),
        ("peer_endpoint", Json.endpoint peer)]
  | transferRejected c p peer =>
      Json.tagged "transfer_rejected" [("collection", Json.string c), ("path", Json.path p),
        ("peer_endpoint", Json.endpoint peer)]

def payloadLength (event : OperationalEvent) : Nat := (event.payload.map Char.utf8Size).sum

/-- The collection an event names. -/
def collection? : OperationalEvent → Option String
  | daemonStarted | daemonStopped | peerUnreachable _ | peerAttempted _ | peerSynchronized _
  | peerRejected _ | peerSessionFailed _ => none
  | collectionAttached c | collectionDetached c | collectionPaused c | collectionScanned c
  | collectionWarning c _ _ | recordAccepted c _ _ | recordRejected c _ _ _ _ _ _
  | fileInstalled c _ | fileApplyRejected c _ | repairRequired c _ | fileSent c _ _
  | fileReceived c _ _ | transferRejected c _ _ => some c

/-- The path an event names. -/
def path? : OperationalEvent → Option ProtocolPath
  | daemonStarted | daemonStopped | peerUnreachable _ | peerAttempted _ | peerSynchronized _
  | peerRejected _ | peerSessionFailed _ | collectionAttached _ | collectionDetached _
  | collectionPaused _ | collectionScanned _ => none
  | collectionWarning _ p _ => p
  | recordAccepted _ p _ | recordRejected _ p _ _ _ _ _ | fileInstalled _ p
  | fileApplyRejected _ p | repairRequired _ p | fileSent _ p _ | fileReceived _ p _
  | transferRejected _ p _ => some p

end OperationalEvent

inductive StateError
  /-- A failed SQLite statement, a violated foreign key among them. -/
  | sqlite
  | invalidStoredState (reason : String)
  | missingCollection
  | missingPathRecord
  | rosterTopology (reason : String)
  | numberOverflow
  | peerHintLimit
  | rosterRetryLimit
deriving DecidableEq

structure OperationalLog where
  id : Nat
  createdNs : I64
  event : OperationalEvent
deriving DecidableEq

def maxOperationalEventBytes : Nat := 16 * 1024

/-- `validate_operational_event`. -/
def validateOperationalEvent (event : OperationalEvent) : Except StateError Unit :=
  if event.collection?.any fun c => c = "" ∨ 255 < (utf8 c).length then
    .error (.invalidStoredState "operational event collection has an invalid size")
  else if event.path?.any fun p => 4096 < (utf8 p.text).length then
    .error (.invalidStoredState "operational event path exceeds its size limit")
  else .ok ()

/-- The tables `collections`, `path_records` and `operational_logs`. `logSequence` is the
largest log id ever used (`AUTOINCREMENT`). -/
structure StateStore where
  collections : OrderedMap String CollectionState
  pathRecords : OrderedMap RecordKey PathRecordState
  operationalLogs : List OperationalLog
  logSequence : Nat
deriving DecidableEq

namespace StateStore

def empty : StateStore := ⟨∅, ∅, [], 0⟩

/-- `record_state`. -/
def recordState (store : StateStore) (key : RecordKey) : Option PathRecordState :=
  store.pathRecords[key]?

/-- `record`. -/
def record (store : StateStore) (key : RecordKey) : Option Record :=
  (store.recordState key).map PathRecordState.record

/-- `record_states`: the rows of one collection in path order. -/
def recordStates (store : StateStore) (collection : String) : List PathRecordState :=
  (store.pathRecords.toList.filter fun row => decide (row.1.collection = collection)).map
    Prod.snd

/-- `records`. -/
def records (store : StateStore) (collection : String) : List Record :=
  (store.recordStates collection).map PathRecordState.record

/-- `insert_log`: the newest `maxLogs` entries are kept. -/
def insertLog (store : StateStore) (createdNs : I64) (event : OperationalEvent)
    (maxLogs : Nat) : Except StateError StateStore := do
  validateOperationalEvent event
  if maxOperationalEventBytes < event.payloadLength then
    .error (.invalidStoredState "operational event exceeds its encoded size limit")
  else if 2 ^ 63 ≤ maxLogs then .error .numberOverflow
  else
    let id := store.logSequence + 1
    let logs := store.operationalLogs ++ [⟨id, createdNs, event⟩]
    .ok { store with operationalLogs := logs.drop (logs.length - maxLogs), logSequence := id }

/-- `append_log`. -/
def appendLog (store : StateStore) (createdNs : I64) (event : OperationalEvent)
    (maxLogs : Nat) : Except StateError StateStore :=
  store.insertLog createdNs event maxLogs

/-- The fingerprint `upsert_record` stores with a record. -/
def recordFingerprint (record : Record) : Option FileFingerprint :=
  match record.kind with
  | .tombstone => none
  | .file size contentHash => some ⟨record.modifiedNs, size, contentHash⟩

/-- `upsert_record`; the collection is a foreign key. -/
def upsertRecord (store : StateStore) (record : Record) (materialized : Bool) :
    Except StateError StateStore :=
  if (store.collections[record.collection]?).isSome then
    .ok { store with
      pathRecords := store.pathRecords.insert record.key
        ⟨record, materialized, if materialized then recordFingerprint record else none⟩ }
  else .error .sqlite

section
variable [Blake3]

/-- Whether `merge_record` replaces the stored record. -/
def accepts (current : Option Record) (record : Record) : Bool :=
  match current with
  | none => true
  | some winner => record.compareWinner winner == .gt

/-- The log entry of `merge_record`. -/
def mergeEvent (current : Option Record) (record : Record) (sourcePeer : Option EndpointId) :
    OperationalEvent :=
  match current, accepts current record with
  | some winner, false => .recordRejected record.collection record.path sourcePeer
      record.modifiedNs record.author winner.modifiedNs winner.author
  | _, _ => .recordAccepted record.collection record.path sourcePeer

/-- `merge_record`, one immediate transaction. -/
def mergeRecord (store : StateStore) (record : Record) (observedNs : I64)
    (sourcePeer : Option EndpointId) (maxLogs : Nat) : Except StateError (StateStore × Bool) := do
  let current := store.record record.key
  let accepted := accepts current record
  let merged ← (if accepted then store.upsertRecord record sourcePeer.isNone else .ok store)
  let logged ← merged.insertLog observedNs (mergeEvent current record sourcePeer) maxLogs
  return (logged, accepted)

end

/-- The row of a file record, for an `UPDATE … AND kind = 1` that must touch one row. -/
def fileRow (store : StateStore) (key : RecordKey) : Except StateError PathRecordState :=
  match store.recordState key with
  | some row => if row.record.kind.isFile then .ok row else .error .missingPathRecord
  | none => .error .missingPathRecord

/-- `mark_repair_required_and_log`. -/
def markRepairRequiredAndLog (store : StateStore) (key : RecordKey) (createdNs : I64)
    (event : OperationalEvent) (maxLogs : Nat) : Except StateError StateStore := do
  let row ← store.fileRow key
  let marked := { store with
    pathRecords := store.pathRecords.insert key ⟨row.record, false, none⟩ }
  marked.insertLog createdNs event maxLogs

/-- `update_materialized_fingerprint`. -/
def updateMaterializedFingerprint (store : StateStore) (key : RecordKey)
    (fingerprint : FileFingerprint) : Except StateError StateStore :=
  if 2 ^ 63 ≤ fingerprint.size then .error .numberOverflow
  else do
    let row ← store.fileRow key
    return { store with
      pathRecords := store.pathRecords.insert key ⟨row.record, true, some fingerprint⟩ }

/-- `set_materialized_fingerprint`. -/
def setMaterializedFingerprint (store : StateStore) (key : RecordKey)
    (fingerprint : FileFingerprint) : Except StateError StateStore :=
  store.updateMaterializedFingerprint key fingerprint

/-- The row change of `SET materialized = 0, … WHERE collection = ? AND kind = 1`, sparing
one path when the statement has `AND path != ?`. -/
def unmaterialized (collection : String) (spared : Option ProtocolPath) (key : RecordKey)
    (row : PathRecordState) : PathRecordState :=
  if key.collection = collection ∧ spared ≠ some key.path ∧ row.record.kind.isFile = true then
    ⟨row.record, false, none⟩
  else row

/-- `mark_materialized_and_log`: an installation under another root rebinds the
collection to it. -/
def markMaterializedAndLog (store : StateStore) (key : RecordKey) (resolvedRoot : RootPath)
    (fingerprint : FileFingerprint) (createdNs : I64) (event : OperationalEvent)
    (maxLogs : Nat) : Except StateError StateStore := do
  let some collection := store.collections[key.collection]? | throw .missingCollection
  let rebound :=
    if collection.resolvedRoot = some resolvedRoot then store
    else { store with
      collections := store.collections.insert key.collection
        { collection with resolvedRoot := some resolvedRoot }
      pathRecords := store.pathRecords.map (unmaterialized key.collection (some key.path)) }
  let marked ← rebound.updateMaterializedFingerprint key fingerprint
  marked.insertLog createdNs event maxLogs

/-- `mark_tombstone_materialized_and_log`. -/
def markTombstoneMaterializedAndLog (store : StateStore) (key : RecordKey) (createdNs : I64)
    (event : OperationalEvent) (maxLogs : Nat) : Except StateError StateStore :=
  match store.recordState key with
  | some row =>
      if row.record.kind = .tombstone then
        let marked := { store with
          pathRecords :=
            store.pathRecords.insert key ⟨row.record, true, row.materializedFingerprint⟩ }
        marked.insertLog createdNs event maxLogs
      else .error .missingPathRecord
  | none => .error .missingPathRecord

/-- `complete_collection_scan`: a changed root unmaterializes every file of the
collection. -/
def completeCollectionScan (store : StateStore) (name localPath : String)
    (resolvedRoot : RootPath) : Except StateError (StateStore × Bool) :=
  match store.collections[name]? with
  | none => .error .missingCollection
  | some collection =>
      let changed := decide (collection.resolvedRoot ≠ some resolvedRoot)
      .ok ({ store with
        collections := store.collections.insert name
          { collection with
            localPath := localPath, resolvedRoot := some resolvedRoot, scanStatus := .active }
        pathRecords :=
          if changed then store.pathRecords.map (unmaterialized name none)
          else store.pathRecords }, changed)

/-- `set_collection_scan_status`. -/
def setCollectionScanStatus (store : StateStore) (name : String)
    (status : CollectionScanStatus) : StateStore :=
  match store.collections[name]? with
  | none => store
  | some collection =>
      { store with
        collections := store.collections.insert name { collection with scanStatus := status } }

/-- `add_collection`. -/
def addCollection (store : StateStore) (name localPath : String)
    (resolvedRoot : Option RootPath) : Except StateError StateStore :=
  if name = "" ∨ localPath = "" ∨ (store.collections[name]?).isSome then .error .sqlite
  else .ok { store with
    collections := store.collections.insert name ⟨localPath, resolvedRoot, .pending, .pending⟩ }

/-- `replace_collection_path`; the second statement runs also when no collection has the name. -/
def replaceCollectionPath (store : StateStore) (name localPath : String) :
    Except StateError StateStore :=
  let pathRecords := store.pathRecords.map (unmaterialized name none)
  match store.collections[name]? with
  | none => .ok { store with pathRecords := pathRecords }
  | some _ =>
      if localPath = "" then .error .sqlite
      else .ok { store with
        collections := store.collections.insert name ⟨localPath, none, .pending, .pending⟩
        pathRecords := pathRecords }

/-- `remove_collection`; the rows of the collection go with it (`ON DELETE CASCADE`). -/
def removeCollection (store : StateStore) (name : String) : StateStore × Bool :=
  if (store.collections[name]?).isSome then
    ({ store with
      collections := store.collections.erase name
      pathRecords := store.pathRecords.filter fun key _ => decide (key.collection ≠ name) }, true)
  else (store, false)

end StateStore

end Skillsync
