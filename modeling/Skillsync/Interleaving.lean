import Skillsync.Scan
import Skillsync.Sync
import Skillsync.WalkSpec

set_option autoImplicit false

namespace Skillsync

structure Daemon where
  scanner : Scanner
  session : SessionConfig
  /-- The remote endpoint of each session. -/
  peer : Nat → EndpointId

/-- The local variables of a scan that has walked its root. -/
structure ScanRun where
  name : String
  localPath : String
  root : RootPath
  observedNs : I64
  context : WalkContext

/-- The next transaction for the first file of the loop. -/
inductive FileTask
  | choose
  /-- `set_materialized_fingerprint`, decided from the record `basis`. -/
  | settle (basis : Record)
  /-- `merge_record`; `winner` is the record read before it. -/
  | merge (candidate : Record) (winner : Option Record)
  | repair

/-- Where the scanning thread stands; `current` is the one read of `record_states`. -/
inductive ScanPhase
  | idle
  | walked (run : ScanRun)
  | warning (run : ScanRun) (rest : List OperationalEvent)
  | filing (run : ScanRun) (current : List PathRecordState)
      (rest : List (ProtocolPath × DiskFile)) (task : FileTask)
  | deleting (run : ScanRun) (rest : List PathRecordState)

/-- Where a session stands: in the first loop of `merge_remote_manifests` with a candidate, in
`receive_files` with a received record, or in `send_files` with a requested one. -/
inductive SessionPhase
  | idle
  | merging (candidate : Record)
  | merged (candidate : Record)
  | winning (candidate : Record)
  | removing (candidate : Record)
  | removed (candidate : Record)
  | removalFailed (candidate : Record)
  | receiving (record : Record) (stream : List UInt8)
  | installed (record : Record) (file : InstalledFile) (event : OperationalEvent)
  | installFailed (record : Record)
  | requested (key : RecordKey) (record : Record)
  | serving (key : RecordKey) (record : Record)
  | unavailable (key : RecordKey)

/-- A session's next step, with what it reads from the clock, the peer or the filesystem. -/
inductive SessionAction
  | compare (candidate : Record) (now : I64)
  | merge (now : I64)
  | checkWinner
  | checkMaterialized
  | removeFile (environment : RemovalEnvironment)
  | markRemoved (now : I64)
  | logRemoval (now : I64)
  | receive (record : Record) (stream : List UInt8)
  | install (environment : InstallEnvironment)
  | markInstalled (now : I64)
  | markInstallFailed (now : I64)
  | request (request : FileRequest)
  | checkServed
  | verify (environment : VerifyEnvironment)
  | markUnavailable (now : I64)
  | log (event : OperationalEvent) (now : I64)
  | stop

structure Node where
  store : StateStore
  disk : Disk
  scan : ScanPhase
  sessions : Nat → SessionPhase

/-- One transaction of a thread, or one change of the disk. -/
inductive Label
  /-- A scan opens its root, which shows a directory tree, and walks it. -/
  | walk (name localPath : String) (root : RootPath) (observedNs : I64) (fileSystem : FileSystem)
  /-- The next transaction of the scan; one that fails ends it. -/
  | advance
  | abort
  | session (i : Nat) (action : SessionAction)
  /-- A user's changes. -/
  | write (key : DiskKey) (file : RegularFile)
  | remove (key : DiskKey)
  | attach (name localPath : String) (root : Option RootPath)

/-- The thread goes on when the transaction commits. -/
def committed {Phase : Type} (store : StateStore) (outcome : Except StateError StateStore)
    (next failed : Phase) : StateStore × Phase :=
  match outcome with
  | .ok after => (after, next)
  | .error _ => (store, failed)

/-- The record that makes the scan settle a file: the winner, or the one whose fingerprint was
read at the start of the loop. -/
def settleBasis (current : List PathRecordState) (path : ProtocolPath) (disk : DiskFile)
    (winner : Record) : Option Record :=
  if diskMatchesRecord disk winner then some winner
  else (current.find? fun row => decide (row.record.path = path) &&
    decide (row.materializedFingerprint = some disk)).map PathRecordState.record

section
variable [Blake3]

/-- The scan looks at the next file of its listing. -/
def chooseTask (daemon : Daemon) (store : StateStore) (run : ScanRun)
    (current : List PathRecordState) (path : ProtocolPath) (disk : DiskFile)
    (rest : List (ProtocolPath × DiskFile)) : StateStore × ScanPhase :=
  let scanner := daemon.scanner
  let key : RecordKey := ⟨run.name, path⟩
  let next : ScanPhase := .filing run current rest .choose
  if run.observedNs.saturatingAdd scanner.maxFutureSkew < disk.modifiedNs then
    let event : OperationalEvent := .collectionWarning run.name (some path) .timestampRejected
    if divergedMaterializedWinner current path disk then
      committed store (store.markRepairRequiredAndLog key run.observedNs event scanner.maxLogs)
        next .idle
    else
      committed store (store.appendLog run.observedNs event scanner.maxLogs) next .idle
  else
    match Record.file run.name path disk.modifiedNs daemon.session.localEndpoint disk.size
        disk.hash with
    | .error _ => (store, .idle)
    | .ok candidate =>
        let winner := store.record key
        let task : FileTask :=
          match winner.bind (settleBasis current path disk) with
          | some basis => .settle basis
          | none => .merge candidate winner
        (store, .filing run current ((path, disk) :: rest) task)

/-- The next transaction of the scan. -/
def advanceScan (daemon : Daemon) (store : StateStore) : ScanPhase → StateStore × ScanPhase
  | .idle => (store, .idle)
  | .walked run =>
      match store.completeCollectionScan run.name run.localPath run.root with
      | .ok (after, _) => (after, .warning run run.context.warnings)
      | .error _ => (store, .idle)
  | .warning run (event :: rest) =>
      committed store (store.appendLog run.observedNs event daemon.scanner.maxLogs)
        (.warning run rest) .idle
  | .warning run [] =>
      (store, .filing run (store.recordStates run.name) run.context.files.toList .choose)
  | .filing run current [] _ => (store, .deleting run current)
  | .filing run current ((path, disk) :: rest) .choose =>
      chooseTask daemon store run current path disk rest
  | .filing run current ((path, disk) :: rest) (.settle _) =>
      committed store (store.setMaterializedFingerprint ⟨run.name, path⟩ disk)
        (.filing run current rest .choose) .idle
  | .filing run current ((path, disk) :: rest) (.merge candidate winner) =>
      match store.mergeRecord candidate run.observedNs none daemon.scanner.maxLogs with
      | .error _ => (store, .idle)
      | .ok (after, accepted) =>
          if !accepted && winner.any fun record => record.kind.isFile then
            (after, .filing run current ((path, disk) :: rest) .repair)
          else (after, .filing run current rest .choose)
  | .filing run current ((path, _) :: rest) .repair =>
      committed store (store.markRepairRequiredAndLog ⟨run.name, path⟩ run.observedNs
        (.repairRequired run.name path) daemon.scanner.maxLogs)
        (.filing run current rest .choose) .idle
  | .deleting run (winner :: rest) =>
      if keepsWinner daemon.scanner run.context winner then (store, .deleting run rest)
      else
        match deletionRecord run.name daemon.session.localEndpoint run.observedNs
            winner.record with
        | .error _ => (store, .idle)
        | .ok tombstone =>
            match store.mergeRecord tombstone run.observedNs none daemon.scanner.maxLogs with
            | .error _ => (store, .idle)
            | .ok (after, _) => (after, .deleting run rest)
  | .deleting run [] =>
      committed store (store.appendLog run.observedNs (.collectionScanned run.name)
        daemon.scanner.maxLogs) .idle .idle

/-- A session's next step; `none` when the session stands elsewhere. -/
def sessionStep (daemon : Daemon) (i : Nat) (store : StateStore) (disk : Disk) :
    SessionPhase → SessionAction → Option (StateStore × Disk × SessionPhase)
  | .idle, .compare candidate now =>
      if now.saturatingAdd daemon.session.maxFutureClockSkew < candidate.modifiedNs then
        let (store, phase) := committed store (store.appendLog now (.collectionWarning
          candidate.collection (some candidate.path) .timestampRejected) daemon.session.maxLogs)
          SessionPhase.idle .idle
        some (store, disk, phase)
      else if store.record candidate.key = some candidate then
        some (store, disk, .merged candidate)
      else some (store, disk, .merging candidate)
  | .merging candidate, .merge now =>
      match store.mergeRecord candidate now (some (daemon.peer i)) daemon.session.maxLogs with
      | .ok (after, _) => some (after, disk, .merged candidate)
      | .error _ => some (store, disk, .idle)
  | .merged candidate, .checkWinner =>
      if store.record candidate.key = some candidate ∧ candidate.kind = .tombstone then
        some (store, disk, .winning candidate)
      else some (store, disk, .idle)
  | .winning candidate, .checkMaterialized =>
      if (store.recordState candidate.key).any fun item => !item.materialized then
        some (store, disk, .removing candidate)
      else some (store, disk, .idle)
  | .removing candidate, .removeFile environment =>
      match removeForTombstone disk candidate environment with
      | (.ok (), disk) => some (store, disk, .removed candidate)
      | (.error _, disk) => some (store, disk, .removalFailed candidate)
  | .removed candidate, .markRemoved now =>
      let (store, phase) := committed store (store.markTombstoneMaterializedAndLog candidate.key
        now (.fileInstalled candidate.collection candidate.path) daemon.session.maxLogs)
        SessionPhase.idle (.removalFailed candidate)
      some (store, disk, phase)
  | .removalFailed candidate, .logRemoval now =>
      let (store, phase) := committed store (store.appendLog now
        (.repairRequired candidate.collection candidate.path) daemon.session.maxLogs)
        SessionPhase.idle .idle
      some (store, disk, phase)
  | .idle, .receive record stream =>
      if store.record record.key = some record ∧ record.kind.isFile = true ∧
          (store.collections[record.collection]?).isSome = true then
        some (store, disk, .receiving record stream)
      else some (store, disk, .idle)
  | .receiving record stream, .install environment =>
      match installFile disk record stream environment with
      | (.ok file, disk) =>
          some (store, disk, .installed record file (.fileInstalled record.collection record.path))
      | (.error (.postRenameDurability file), disk) =>
          some (store, disk,
            .installed record file (.fileApplyRejected record.collection record.path))
      | (.error .unstableRoot, disk) => some (store, disk, .idle)
      | (.error _, disk) => some (store, disk, .installFailed record)
  | .installed record file event, .markInstalled now =>
      let (store, phase) := committed store (store.markMaterializedAndLog record.key
        file.resolvedRoot file.fingerprint now event daemon.session.maxLogs)
        SessionPhase.idle .idle
      some (store, disk, phase)
  | .installFailed record, .markInstallFailed now =>
      let (store, phase) := committed store (store.markRepairRequiredAndLog record.key now
        (.fileApplyRejected record.collection record.path) daemon.session.maxLogs)
        SessionPhase.idle .idle
      some (store, disk, phase)
  | .idle, .request request =>
      match ProtocolPath.parse request.path with
      | .error _ => some (store, disk, .idle)
      | .ok path =>
          match store.record ⟨request.collection, path⟩ with
          | none => some (store, disk, .idle)
          | some record =>
              if record.canonicalHash = request.recordHash then
                some (store, disk, .requested ⟨request.collection, path⟩ record)
              else some (store, disk, .idle)
  | .requested key record, .checkServed =>
      if ((store.recordState key).any fun row => row.materialized) = true ∧
          (store.collections[key.collection]?).isSome = true ∧ record.kind.isFile = true then
        some (store, disk, .serving key record)
      else some (store, disk, .idle)
  | .serving key record, .verify environment =>
      match openVerifiedFile disk record environment with
      | .ok _ => some (store, disk, .idle)
      | .error _ => some (store, disk, .unavailable key)
  | .unavailable key, .markUnavailable now =>
      let (store, phase) := committed store (store.markRepairRequiredAndLog key now
        (.transferRejected key.collection key.path (daemon.peer i)) daemon.session.maxLogs)
        SessionPhase.idle .idle
      some (store, disk, phase)
  | .idle, .log event now =>
      let (store, phase) := committed store (store.appendLog now event daemon.session.maxLogs)
        SessionPhase.idle .idle
      some (store, disk, phase)
  | _, .stop => some (store, disk, .idle)
  | _, _ => none

namespace Node

def step (daemon : Daemon) (node : Node) : Label → Option Node
  | .walk name localPath root observedNs fileSystem =>
      match node.scan, walk fileSystem name daemon.scanner.ignores
          (daemon.scanner.comparisonKey root) with
      | .idle, .ok context =>
          some { node with scan := .walked ⟨name, localPath, root, observedNs, context⟩ }
      | _, _ => none
  | .advance =>
      let (store, scan) := advanceScan daemon node.store node.scan
      some { node with store := store, scan := scan }
  | .abort => some { node with scan := .idle }
  | .session i action =>
      (sessionStep daemon i node.store node.disk (node.sessions i) action).map
        fun (store, disk, phase) =>
          { node with
            store := store, disk := disk, sessions := Function.update node.sessions i phase }
  | .write key file => some { node with disk := node.disk.insert key file }
  | .remove key => some { node with disk := node.disk.erase key }
  | .attach name localPath root =>
      match node.store.addCollection name localPath root with
      | .ok store => some { node with store := store }
      | .error _ => none

/-- A store and a disk without running threads. -/
def start (store : StateStore) (disk : Disk) : Node := ⟨store, disk, .idle, fun _ => .idle⟩

/-- The directory tree that a scan walks is the one on the disk. -/
structure Shows (disk : Disk) (root : RootPath) (fileSystem : FileSystem) : Prop where
  stable : ∀ (path : ProtocolPath) file,
    fileSystem.fileAt fileSystem.root path.components = some (.stable file) →
      disk[DiskKey.mk root path]? = some file
  present : ∀ path : ProtocolPath, (disk[DiskKey.mk root path]?).isSome = true →
    (fileSystem.fileAt fileSystem.root path.components).isSome = true

/-- What a label says about the disk is so. -/
def Sees (node : Node) : Label → Prop
  | .walk _ _ root _ fileSystem => Shows node.disk root fileSystem
  | _ => True

end Node

/-- A label that starts a scan. -/
def Label.walks : Label → Bool
  | .walk _ _ _ _ _ => true
  | _ => false

omit [Blake3] in
theorem Node.sees_of_not_walks {node : Node} {label : Label} (other : label.walks = false) :
    node.Sees label := by
  cases label with
  | walk => cases other
  | _ => trivial

end

/-- A daemon without ignore patterns. -/
def Daemon.sample : Daemon :=
  ⟨⟨fun _ => false, 10, 100, fun _ text => text⟩, ⟨.fill 9, 10, 100⟩,
    fun i => .fill (UInt8.ofNat i)⟩

/-- An installation under a root that nothing disturbs. -/
def InstallEnvironment.sample (root : RootPath) : InstallEnvironment :=
  ⟨.ok root, .ok (), fun _ => false, .ok (), .ok (), id⟩

section
attribute [local instance] Blake3.checksum

/-- A peer's record of the file `f`, of one byte or of none. -/
def announced (ns : I64) (content : List UInt8) : Record :=
  .sample .sample ns (.fill 1) (.file content.length (Blake3.hash content))

/-- A session merges a candidate, and it finds no tombstone to apply. -/
def merges (i : Nat) (candidate : Record) : List Label :=
  [.session i (.compare candidate 0), .session i (.merge 0), .session i .checkWinner]

/-- A session receives a record's bytes and installs them. -/
def installs (i : Nat) (record : Record) (stream : List UInt8) : List Label :=
  [.session i (.receive record stream), .session i (.install (.sample "/c")),
    .session i (.markInstalled 0)]

end

end Skillsync
