import Skillsync.Walk

set_option autoImplicit false

namespace Skillsync

structure Scanner where
  /-- The compiled ignore patterns. -/
  ignores : String → Bool
  /-- `duration_ns(max_future_skew)` -/
  maxFutureSkew : I64
  maxLogs : Nat
  /-- How a root compares filenames, as it was probed. -/
  comparisonKey : RootPath → String → String

structure ScanSummary where
  files : Nat
  accepted : Nat
  tombstones : Nat
  rejected : Nat
  repairRequired : Nat
  paused : Bool
deriving DecidableEq

namespace ScanSummary

def empty : ScanSummary := ⟨0, 0, 0, 0, 0, false⟩

end ScanSummary

/-- Why `open_stable_root` fails. -/
inductive RootError
  | notDirectory
  | notFound
  | io
  | unstable
deriving DecidableEq

/-- Transactions of a scan stay committed when it fails later on. -/
abbrev Scanned (α : Type) := Except (ScanError × StateStore) α

/-- One transaction of a scan. -/
def commit {α : Type} (store : StateStore) (outcome : Except StateError α) : Scanned α :=
  outcome.mapError fun source => (.state source, store)

/-- `disk_matches_record` -/
def diskMatchesRecord (disk : DiskFile) (record : Record) : Bool :=
  match record.kind with
  | .file size contentHash =>
      decide (disk.modifiedNs = record.modifiedNs ∧ disk.size = size ∧ disk.hash = contentHash)
  | .tombstone => false

/-- `disk_bytes_match_record` -/
def diskBytesMatchRecord (disk : DiskFile) (record : Record) : Bool :=
  match record.kind with
  | .file size contentHash => decide (disk.size = size ∧ disk.hash = contentHash)
  | .tombstone => false

/-- `diverged_materialized_winner` -/
def divergedMaterializedWinner (current : List PathRecordState) (path : ProtocolPath)
    (disk : DiskFile) : Bool :=
  current.any fun winner => decide (winner.record.path = path) && winner.materialized &&
    !diskBytesMatchRecord disk winner.record

/-- `durable_match`: the fingerprint read at the start of the loop is the file's. -/
def durableMatch (current : List PathRecordState) (path : ProtocolPath) (disk : DiskFile) :
    Bool :=
  current.any fun winner => decide (winner.record.path = path) &&
    decide (winner.materializedFingerprint = some disk)

/-- The tombstone of a winner whose file is gone. -/
def deletionRecord (name : String) (author : EndpointId) (observedNs : I64) (winner : Record) :
    Except RecordError Record :=
  Record.tombstone name winner.path (max observedNs winner.modifiedNs.saturatingSucc) author

section
variable [Blake3]

/-- One iteration of the loop over the files. -/
def scanFile (scanner : Scanner) (name : String) (author : EndpointId) (observedNs : I64)
    (current : List PathRecordState) (state : StateStore × ScanSummary)
    (entry : ProtocolPath × DiskFile) : Scanned (StateStore × ScanSummary) :=
  let (store, summary) := state
  let (path, disk) := entry
  let key : RecordKey := ⟨name, path⟩
  if observedNs.saturatingAdd scanner.maxFutureSkew < disk.modifiedNs then
    let event : OperationalEvent := .collectionWarning name (some path) .timestampRejected
    let rejected := { summary with rejected := summary.rejected + 1 }
    if divergedMaterializedWinner current path disk then do
      let store ← commit store
        (store.markRepairRequiredAndLog key observedNs event scanner.maxLogs)
      return (store, { rejected with repairRequired := summary.repairRequired + 1 })
    else do
      let store ← commit store (store.appendLog observedNs event scanner.maxLogs)
      return (store, rejected)
  else do
    let candidate ← (Record.file name path disk.modifiedNs author disk.size disk.hash).mapError
      fun source => (ScanError.record source, store)
    match store.record key with
    | some winner =>
        if durableMatch current path disk || diskMatchesRecord disk winner then do
          let store ← commit store (store.setMaterializedFingerprint key disk)
          return (store, summary)
        else do
          let (store, accepted) ← commit store
            (store.mergeRecord candidate observedNs none scanner.maxLogs)
          let rejected := { summary with rejected := summary.rejected + 1 }
          if accepted then return (store, { summary with accepted := summary.accepted + 1 })
          else if winner.kind.isFile then do
            let store ← commit store (store.markRepairRequiredAndLog key observedNs
              (.repairRequired name path) scanner.maxLogs)
            return (store, { rejected with repairRequired := summary.repairRequired + 1 })
          else return (store, rejected)
    | none => do
        let (store, _) ← commit store
          (store.mergeRecord candidate observedNs none scanner.maxLogs)
        return (store, { summary with accepted := summary.accepted + 1 })

/-- Whether the deletion loop passes over a winner. -/
def keepsWinner (scanner : Scanner) (context : WalkContext) (winner : PathRecordState) : Bool :=
  !winner.record.kind.isFile || !winner.materialized ||
    (context.files[winner.record.path]?).isSome ||
    isIgnored scanner.ignores winner.record.path.text ||
    context.isExcluded winner.record.path.text

/-- One iteration of the loop over the winners. -/
def scanDeletion (scanner : Scanner) (name : String) (author : EndpointId) (observedNs : I64)
    (context : WalkContext) (state : StateStore × ScanSummary) (winner : PathRecordState) :
    Scanned (StateStore × ScanSummary) :=
  let (store, summary) := state
  if keepsWinner scanner context winner then .ok (store, summary)
  else do
    let tombstone ← (deletionRecord name author observedNs winner.record).mapError
      fun source => (ScanError.record source, store)
    let (store, accepted) ← commit store
      (store.mergeRecord tombstone observedNs none scanner.maxLogs)
    if accepted then return (store, { summary with tombstones := summary.tombstones + 1 })
    else return (store, summary)

/-- A scan of a collection whose root cannot be opened. -/
def pauseScan (scanner : Scanner) (name : String) (observedNs : I64) (store : StateStore)
    (status : CollectionScanStatus) : Scanned (StateStore × ScanSummary) := do
  let store := store.setCollectionScanStatus name status
  let store ← commit store
    (store.appendLog observedNs (.collectionPaused name) scanner.maxLogs)
  return (store, { ScanSummary.empty with paused := true })

/-- The part of `scan_collection` after the walk. -/
def scanListing (scanner : Scanner) (store : StateStore) (name localPath : String)
    (author : EndpointId) (observedNs : I64) (root : RootPath) (context : WalkContext) :
    Scanned (StateStore × ScanSummary) := do
  let (store, _) ← commit store (store.completeCollectionScan name localPath root)
  let store ← context.warnings.foldlM
    (fun store warning => commit store (store.appendLog observedNs warning scanner.maxLogs)) store
  let summary := { ScanSummary.empty with files := context.files.size }
  let current := store.recordStates name
  let state ← context.files.toList.foldlM
    (scanFile scanner name author observedNs current) (store, summary)
  let (store, summary) ← current.foldlM
    (scanDeletion scanner name author observedNs context) state
  let store ← commit store
    (store.appendLog observedNs (.collectionScanned name) scanner.maxLogs)
  return (store, summary)

/-- `scan_collection`; `opened` is the root that `open_stable_root` opens. -/
def scanCollection (scanner : Scanner) (store : StateStore) (name localPath : String)
    (author : EndpointId) (observedNs : I64) (opened : Except RootError (RootPath × FileSystem)) :
    Scanned (StateStore × ScanSummary) :=
  match opened with
  | .error .notDirectory => pauseScan scanner name observedNs store .notDirectory
  | .error .notFound => pauseScan scanner name observedNs store .missing
  | .error .io => .error (.io, store)
  | .error .unstable => .error (.unstableRoot, store)
  | .ok (root, fileSystem) => do
      let context ← (walk fileSystem name scanner.ignores (scanner.comparisonKey root)).mapError
        fun reason => (reason, store)
      scanListing scanner store name localPath author observedNs root context

end

end Skillsync
