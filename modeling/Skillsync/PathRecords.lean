import Skillsync.State
import Skillsync.Tables

set_option autoImplicit false

namespace Skillsync

open Fallible Tables

/-- A row of `path_records` with its nine columns, which may hold what no read accepts. -/
structure PathRow where
  collection : String
  path : String
  recordHash : List UInt8
  kind : Int
  canonical : List UInt8
  materialized : Int
  materializedModifiedNs : Option I64
  materializedSize : Option I64
  materializedHash : Option (List UInt8)
deriving DecidableEq

namespace PathRow

/-- The `CHECK` of the table. -/
def fingerprintCheck (row : PathRow) : Condition :=
  .any [
    .all [some (decide (row.kind = 0)), .isNull row.materializedModifiedNs,
      .isNull row.materializedSize, .isNull row.materializedHash],
    .all [some (decide (row.kind = 1)), some (decide (row.materialized = 0)),
      .isNull row.materializedModifiedNs, .isNull row.materializedSize,
      .isNull row.materializedHash],
    .all [some (decide (row.kind = 1)), some (decide (row.materialized = 1)),
      .notNull row.materializedModifiedNs, .test (fun size => decide (0 ≤ size.val))
        row.materializedSize,
      .test (fun hash => decide (hash.length = 32)) row.materializedHash]]

/-- The `CHECK` of each column and the one of the table. -/
def checks (row : PathRow) : List Condition :=
  [some (decide (row.path ≠ "")), some (decide (row.recordHash.length = 32)),
    some (decide (row.kind = 0 ∨ row.kind = 1)), some (decide (0 < row.canonical.length)),
    some (decide (row.materialized = 0 ∨ row.materialized = 1)), row.fingerprintCheck]

def key (row : PathRow) : String × String := (row.collection, row.path)

end PathRow

def pathRecords : Schema PathRow (String × String) := ⟨PathRow.key, PathRow.checks⟩

/-- `StateError`; `check` is the SQLite error of a violated `CHECK` of `path_records`. -/
inductive DatabaseError
  | check
  | record (reason : RecordError)
  | state (reason : StateError)
deriving DecidableEq

/-- The tables of `StateStore`, with the columns of `path_records`. -/
structure Database where
  collections : OrderedMap String CollectionState
  pathRecords : List PathRow
  operationalLogs : List OperationalLog
  logSequence : Nat

namespace Database

/-- The tables that the first `initialize` creates. -/
def created : Database := ⟨∅, [], [], 0⟩

/-- The store with no other table than the log. -/
def logs (database : Database) : StateStore :=
  ⟨∅, ∅, database.operationalLogs, database.logSequence⟩

/-- `insert_log`. -/
def insertLog (database : Database) (createdNs : I64) (event : OperationalEvent) (maxLogs : Nat) :
    Except DatabaseError Database := do
  let logged ← (database.logs.insertLog createdNs event maxLogs).mapError .state
  return { database with
    operationalLogs := logged.operationalLogs, logSequence := logged.logSequence }

/-- `i64::try_from`. -/
def signedSize (size : Nat) : Except DatabaseError I64 :=
  if 2 ^ 63 ≤ size then .error (.state .numberOverflow) else .ok (.clamp size)

/-- `decode_materialized_fingerprint`. -/
def decodeMaterializedFingerprint (modifiedNs size : Option I64) (hash : Option (List UInt8)) :
    Except DatabaseError (Option FileFingerprint) :=
  match modifiedNs, size, hash with
  | none, none, none => .ok none
  | some modifiedNs, some size, some hash =>
      if size.val < 0 then
        .error (.state (.invalidStoredState "materialized file size is negative"))
      else if length : hash.length = 32 then
        .ok (some ⟨modifiedNs, size.val.toNat, ⟨hash, length⟩⟩)
      else .error (.state (.invalidStoredState "materialized file hash has the wrong length"))
  | _, _, _ => .error (.state (.invalidStoredState "materialized fingerprint is incomplete"))

/-- An `UPDATE path_records`. -/
def updateRows (database : Database) (selects : PathRow → Bool) (set : PathRow → PathRow) :
    Except DatabaseError (Database × Nat) :=
  match Skillsync.pathRecords.update selects set database.pathRecords with
  | some (rows, updated) => .ok ({ database with pathRecords := rows }, updated)
  | none => .error .check

/-- The `INSERT … ON CONFLICT` of `upsert_record`; the collection is a foreign key. -/
def storeRow (database : Database) (row : PathRow) : Except DatabaseError Database :=
  match Skillsync.pathRecords.upsert row database.pathRecords with
  | some rows =>
      if (database.collections[row.collection]?).isSome then
        .ok { database with pathRecords := rows }
      else .error (.state .sqlite)
  | none => .error .check

/-- `SET materialized = 0, materialized_modified_ns = NULL, …`. -/
def repairColumns (row : PathRow) : PathRow :=
  { row with
    materialized := 0
    materializedModifiedNs := none
    materializedSize := none
    materializedHash := none }

/-- `SET materialized = 1, materialized_modified_ns = ?3, …`. -/
def fingerprintColumns (fingerprint : FileFingerprint) (size : I64) (row : PathRow) : PathRow :=
  { row with
    materialized := 1
    materializedModifiedNs := some fingerprint.modifiedNs
    materializedSize := some size
    materializedHash := some fingerprint.hash.bytes }

/-- `SET materialized = 1`. -/
def materializedColumn (row : PathRow) : PathRow := { row with materialized := 1 }

/-- `update_materialized_fingerprint`. -/
def updateMaterializedFingerprint (database : Database) (collection path : String)
    (fingerprint : FileFingerprint) : Except DatabaseError Database := do
  let size ← signedSize fingerprint.size
  let (marked, updated) ← database.updateRows
    (fun row => decide (row.collection = collection ∧ row.path = path ∧ row.kind = 1))
    (fingerprintColumns fingerprint size)
  if updated ≠ 1 then .error (.state .missingPathRecord) else return marked

/-- `mark_repair_required_and_log`. -/
def markRepairRequiredAndLog (database : Database) (collection path : String) (createdNs : I64)
    (event : OperationalEvent) (maxLogs : Nat) : Except DatabaseError Database := do
  let (marked, updated) ← database.updateRows
    (fun row => decide (row.collection = collection ∧ row.path = path ∧ row.kind = 1))
    repairColumns
  if updated ≠ 1 then .error (.state .missingPathRecord)
  else marked.insertLog createdNs event maxLogs

/-- The part of `mark_materialized_and_log` that binds another root. -/
def bindRoot (database : Database) (collection path : String) (stored : CollectionState)
    (resolvedRoot : RootPath) : Except DatabaseError Database :=
  if stored.resolvedRoot = some resolvedRoot then .ok database
  else do
    let bound := { database with
      collections := database.collections.insert collection
        { stored with resolvedRoot := some resolvedRoot } }
    let (rebound, _) ← bound.updateRows
      (fun row => decide (row.collection = collection ∧ row.path ≠ path ∧ row.kind = 1))
      repairColumns
    return rebound

/-- `mark_materialized_and_log`. -/
def markMaterializedAndLog (database : Database) (collection path : String)
    (resolvedRoot : RootPath) (fingerprint : FileFingerprint) (createdNs : I64)
    (event : OperationalEvent) (maxLogs : Nat) : Except DatabaseError Database := do
  let some stored := database.collections[collection]? | throw (.state .missingCollection)
  let rebound ← database.bindRoot collection path stored resolvedRoot
  let marked ← rebound.updateMaterializedFingerprint collection path fingerprint
  marked.insertLog createdNs event maxLogs

/-- `mark_tombstone_materialized_and_log`. -/
def markTombstoneMaterializedAndLog (database : Database) (collection path : String)
    (createdNs : I64) (event : OperationalEvent) (maxLogs : Nat) :
    Except DatabaseError Database := do
  let (marked, updated) ← database.updateRows
    (fun row => decide (row.collection = collection ∧ row.path = path ∧ row.kind = 0))
    materializedColumn
  if updated ≠ 1 then .error (.state .missingPathRecord)
  else marked.insertLog createdNs event maxLogs

/-- `complete_collection_scan`. -/
def completeCollectionScan (database : Database) (name localPath : String)
    (resolvedRoot : RootPath) : Except DatabaseError (Database × Bool) := do
  let some stored := database.collections[name]? | throw (.state .missingCollection)
  let changed := decide (stored.resolvedRoot ≠ some resolvedRoot)
  if localPath = "" then .error (.state .sqlite)
  else
    let bound := { database with
      collections := database.collections.insert name
        { stored with
          localPath := localPath, resolvedRoot := some resolvedRoot, scanStatus := .active } }
    if changed then
      let (rebound, _) ← bound.updateRows
        (fun row => decide (row.collection = name ∧ row.kind = 1)) repairColumns
      return (rebound, changed)
    else return (bound, changed)

/-- The `UPDATE collections` of `replace_collection_path`, which touches no row when no collection
has the name. -/
def pointCollection (database : Database) (name localPath : String) :
    Except DatabaseError Database :=
  match database.collections[name]? with
  | none => .ok database
  | some _ =>
      if localPath = "" then .error (.state .sqlite)
      else .ok { database with
        collections := database.collections.insert name ⟨localPath, none, .pending, .pending⟩ }

/-- `replace_collection_path`. -/
def replaceCollectionPath (database : Database) (name localPath : String) :
    Except DatabaseError Database := do
  let pointed ← database.pointCollection name localPath
  let (rebound, _) ← pointed.updateRows
    (fun row => decide (row.collection = name ∧ row.kind = 1)) repairColumns
  return rebound

/-- `add_collection`. -/
def addCollection (database : Database) (name localPath : String)
    (resolvedRoot : Option RootPath) : Except DatabaseError Database :=
  if name = "" ∨ localPath = "" ∨ (database.collections[name]?).isSome then .error (.state .sqlite)
  else .ok { database with
    collections :=
      database.collections.insert name ⟨localPath, resolvedRoot, .pending, .pending⟩ }

/-- `remove_collection`; `ON DELETE CASCADE` takes the rows of the collection. -/
def removeCollection (database : Database) (name : String) : Database × Bool :=
  if (database.collections[name]?).isSome then
    ({ database with
      collections := database.collections.erase name
      pathRecords := database.pathRecords.filter fun row => decide (row.collection ≠ name) }, true)
  else (database, false)

section
variable [Blake3]

/-- `decode_stored_record`. -/
def decodeStoredRecord (hash canonical : List UInt8) : Except DatabaseError Record := do
  let record ← (Record.fromCanonical canonical).mapError .record
  if hash ≠ record.canonicalHash.bytes then
    .error (.state (.invalidStoredState "record hash does not match canonical bytes"))
  else return record

/-- `decode_indexed_record`. -/
def decodeIndexedRecord (row : PathRow) (collection path : String) :
    Except DatabaseError Record := do
  let record ← decodeStoredRecord row.recordHash row.canonical
  if record.collection ≠ collection ∨ record.path.text ≠ path then
    .error (.state (.invalidStoredState "record index does not match canonical bytes"))
  else return record

/-- `decode_path_record_state`. -/
def decodePathRecordState (row : PathRow) (collection : String) :
    Except DatabaseError PathRecordState := do
  let record ← decodeIndexedRecord row collection row.path
  let fingerprint ← decodeMaterializedFingerprint row.materializedModifiedNs row.materializedSize
    row.materializedHash
  return ⟨record, decide (row.materialized ≠ 0), fingerprint⟩

/-- `record`, also `load_record`. -/
def record (database : Database) (collection path : String) :
    Except DatabaseError (Option Record) :=
  (Skillsync.pathRecords.find database.pathRecords (collection, path)).mapM fun row =>
    decodeIndexedRecord row collection path

/-- `record_state`. -/
def recordState (database : Database) (collection path : String) :
    Except DatabaseError (Option PathRecordState) :=
  (Skillsync.pathRecords.find database.pathRecords (collection, path)).mapM fun row =>
    decodePathRecordState row collection

/-- `WHERE collection = ?1 ORDER BY path`. -/
def rowsOf (database : Database) (collection : String) : List PathRow :=
  (database.pathRecords.filter fun row => decide (row.collection = collection)).mergeSort
    fun left right => decide (left.path ≤ right.path)

/-- `records`. -/
def records (database : Database) (collection : String) : Except DatabaseError (List Record) :=
  (database.rowsOf collection).mapM fun row => decodeIndexedRecord row collection row.path

/-- `record_states`. -/
def recordStates (database : Database) (collection : String) :
    Except DatabaseError (List PathRecordState) :=
  (database.rowsOf collection).mapM fun row => decodePathRecordState row collection

/-- `upsert_record`. -/
def upsertRecord (database : Database) (record : Record) (materialized : Bool) :
    Except DatabaseError Database := do
  let fingerprint := if materialized then StateStore.recordFingerprint record else none
  let size ← fingerprint.mapM fun value => signedSize value.size
  let row : PathRow :=
    { collection := record.collection
      path := record.path.text
      recordHash := record.canonicalHash.bytes
      kind := if record.kind.isFile then 1 else 0
      canonical := record.canonicalBytes
      materialized := if materialized then 1 else 0
      materializedModifiedNs := fingerprint.map FileFingerprint.modifiedNs
      materializedSize := size
      materializedHash := fingerprint.map fun value => value.hash.bytes }
  database.storeRow row

/-- `merge_record`. -/
def mergeRecord (database : Database) (record : Record) (observedNs : I64)
    (sourcePeer : Option EndpointId) (maxLogs : Nat) :
    Except DatabaseError (Database × Bool) := do
  let current ← database.record record.collection record.path.text
  let accepted := StateStore.accepts current record
  let merged ← (if accepted then database.upsertRecord record sourcePeer.isNone else .ok database)
  let logged ← merged.insertLog observedNs (StateStore.mergeEvent current record sourcePeer) maxLogs
  return (logged, accepted)

end

end Database

/-- An operation on the records of a collection, with its arguments. -/
inductive RecordOperation
  | addCollection (name localPath : String) (resolvedRoot : Option RootPath)
  | removeCollection (name : String)
  | replaceCollectionPath (name localPath : String)
  | completeCollectionScan (name localPath : String) (resolvedRoot : RootPath)
  | mergeRecord (record : Record) (observedNs : I64) (sourcePeer : Option EndpointId)
      (maxLogs : Nat)
  | markRepairRequiredAndLog (collection path : String) (createdNs : I64)
      (event : OperationalEvent) (maxLogs : Nat)
  | setMaterializedFingerprint (collection path : String) (fingerprint : FileFingerprint)
  | markMaterializedAndLog (collection path : String) (resolvedRoot : RootPath)
      (fingerprint : FileFingerprint) (createdNs : I64) (event : OperationalEvent) (maxLogs : Nat)
  | markTombstoneMaterializedAndLog (collection path : String) (createdNs : I64)
      (event : OperationalEvent) (maxLogs : Nat)

namespace RecordOperation

variable [Blake3]

/-- The transaction of an operation. -/
def perform (database : Database) : RecordOperation → Except DatabaseError Database
  | addCollection name localPath resolvedRoot => database.addCollection name localPath resolvedRoot
  | removeCollection name => .ok (database.removeCollection name).1
  | replaceCollectionPath name localPath => database.replaceCollectionPath name localPath
  | completeCollectionScan name localPath resolvedRoot =>
      (database.completeCollectionScan name localPath resolvedRoot).map Prod.fst
  | mergeRecord record observedNs sourcePeer maxLogs =>
      (database.mergeRecord record observedNs sourcePeer maxLogs).map Prod.fst
  | markRepairRequiredAndLog collection path createdNs event maxLogs =>
      database.markRepairRequiredAndLog collection path createdNs event maxLogs
  | setMaterializedFingerprint collection path fingerprint =>
      database.updateMaterializedFingerprint collection path fingerprint
  | markMaterializedAndLog collection path resolvedRoot fingerprint createdNs event maxLogs =>
      database.markMaterializedAndLog collection path resolvedRoot fingerprint createdNs event
        maxLogs
  | markTombstoneMaterializedAndLog collection path createdNs event maxLogs =>
      database.markTombstoneMaterializedAndLog collection path createdNs event maxLogs

/-- The tables after an operation: a transaction that fails leaves them as they were. -/
def after (database : Database) (operation : RecordOperation) : Database :=
  match operation.perform database with
  | .ok changed => changed
  | .error _ => database

end RecordOperation

end Skillsync
