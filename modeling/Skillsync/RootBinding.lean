import Skillsync.Deletions
import Skillsync.InterleavingSpec
import Skillsync.Runs

set_option autoImplicit false

namespace Skillsync

open Fallible Runs StateStore

/-- A complete operation on a collection, with what it finds on the disk. -/
inductive RootOperation
  | scan (scanner : Scanner) (localPath : String) (author : EndpointId) (observedNs : I64)
      (opened : Except RootError (RootPath × FileSystem))
  | replacePath (localPath : String)
  | merge (record : Record) (observedNs : I64) (source : EndpointId) (maxLogs : Nat)
  | install (disk : Disk) (record : Record) (stream : List UInt8)
      (environment : InstallEnvironment) (now : I64) (maxLogs : Nat)
  | removeFile (disk : Disk) (record : Record) (environment : RemovalEnvironment) (now : I64)
      (maxLogs : Nat)
  | markRepair (path : ProtocolPath) (createdNs : I64) (event : OperationalEvent)
      (maxLogs : Nat)

/-- The store after a transaction. -/
def settled (store : StateStore) (outcome : Except StateError StateStore) : StateStore :=
  match outcome with
  | .ok after => after
  | .error _ => store

/-- A materialized file row. -/
def StateStore.HoldsFile (store : StateStore) (key : RecordKey) : Prop :=
  ∃ row, store.recordState key = some row ∧ row.record.kind.isFile = true ∧
    row.materialized = true

theorem StateStore.HoldsFile.congr {store after : StateStore} {key : RecordKey}
    (holds : after.HoldsFile key) (same : after.recordState key = store.recordState key) :
    store.HoldsFile key := by
  obtain ⟨row, present, holds⟩ := holds
  exact ⟨row, same ▸ present, holds⟩

section
variable [Blake3]

/-- An installation renames its file into place. -/
def Installs (disk : Disk) (record : Record) (stream : List UInt8)
    (environment : InstallEnvironment) (file : InstalledFile) : Prop :=
  (installFile disk record stream environment).1 = .ok file ∨
    (installFile disk record stream environment).1 = .error (.postRenameDurability file)

namespace RootOperation

/-- The store an operation leaves, also one that fails. -/
def perform (name : String) (store : StateStore) : RootOperation → StateStore
  | scan scanner localPath author observedNs opened =>
      leftStore (scanCollection scanner store name localPath author observedNs opened)
  | replacePath localPath => settled store (store.replaceCollectionPath name localPath)
  | merge record observedNs source maxLogs =>
      settled store ((store.mergeRecord record observedNs (some source) maxLogs).map Prod.fst)
  | install disk record stream environment now maxLogs =>
      (applyFileFixture store disk record stream environment now maxLogs).2.1
  | removeFile disk record environment now maxLogs =>
      (materializeTombstone store disk record environment now maxLogs).2.1
  | markRepair path createdNs event maxLogs =>
      settled store (store.markRepairRequiredAndLog ⟨name, path⟩ createdNs event maxLogs)

/-- A scan of the root lists the path as a file, or an installation puts a file there. -/
def Observes (name : String) (root : RootPath) (path : ProtocolPath) : RootOperation → Prop
  | scan scanner _ _ _ opened => ∃ fileSystem context disk, opened = .ok (root, fileSystem) ∧
      walk fileSystem name scanner.ignores (scanner.comparisonKey root) = .ok context ∧
      context.files[path]? = some disk
  | install disk record stream environment _ _ => record.key = ⟨name, path⟩ ∧
      ∃ file, Installs disk record stream environment file ∧ file.resolvedRoot = root
  | _ => False

def step (name : String) (store : StateStore) (operation : RootOperation) : Option StateStore :=
  some (operation.perform name store)

end RootOperation

section scans
variable {scanner : Scanner} {store : StateStore} {name localPath : String} {author : EndpointId}
  {observedNs : I64} {root : RootPath} {context : WalkContext}

/-- During a scan, a materialized file is listed or was materialized under the same root. -/
structure Scanning (store : StateStore) (name : String) (root : RootPath) (context : WalkContext)
    (current : StateStore) : Prop where
  keyed : current.Keyed
  bound : current.resolvedRoot name = some root
  rows : ∀ path, current.HoldsFile ⟨name, path⟩ → (context.files[path]?).isSome = true ∨
    store.HoldsFile ⟨name, path⟩ ∧ store.resolvedRoot name = some root

omit [Blake3] in
theorem Scanning.unchanged {current after : StateStore}
    (scanning : Scanning store name root context current)
    (collections : after.collections = current.collections)
    (same : ∀ key, after.recordState key = current.recordState key) :
    Scanning store name root context after := by
  refine ⟨scanning.keyed.of_record fun key => record_congr (same key),
    (resolvedRoot_congr collections name).trans scanning.bound, fun path holds => ?_⟩
  exact scanning.rows path (holds.congr (same _))

omit [Blake3] in
theorem scanning_completed {completed : StateStore} {changed : Bool} (keyed : store.Keyed)
    (committed : store.completeCollectionScan name localPath root = .ok (completed, changed)) :
    Scanning store name root context completed := by
  obtain ⟨roots, rows⟩ := completeCollectionScan_ok committed
  have records : ∀ key, completed.record key = store.record key := fun key => by
    rw [StateStore.record, rows, ← completedRow_record store name root key, completedRow]
  refine ⟨keyed.of_record records, (roots name).trans (if_pos rfl), fun path holds => Or.inr ?_⟩
  obtain ⟨row, present, isFile, materialized⟩ := holds
  have start : store.completedRow name root ⟨name, path⟩ = some row :=
    (rows _).symm.trans present
  obtain ⟨bound, stored⟩ := completedRow_materialized start isFile materialized
  exact ⟨⟨row, stored, isFile, materialized⟩, bound⟩

theorem Scanning.scanFile {current : List PathRecordState} {state : StateStore × ScanSummary}
    {entry : ProtocolPath × DiskFile} (listed : context.files[entry.1]? = some entry.2)
    (scanning : Scanning store name root context state.1) :
    Always (fun after => Scanning store name root context after.1)
      (fun failure => Scanning store name root context failure.2)
      (scanFile scanner name author observedNs current state entry) := by
  have collections := scanFile_collections scanner name author observedNs current state entry
  cases done : Skillsync.scanFile scanner name author observedNs current state entry with
  | error failure =>
      rw [done] at collections
      exact scanning.unchanged collections (scanFile_error done)
  | ok after =>
      rw [done] at collections
      obtain ⟨row, outcome, rows⟩ := scanFile_ok done
      refine ⟨?_, (resolvedRoot_congr collections name).trans scanning.bound, fun path holds => ?_⟩
      · intro key record found
        by_cases same : (⟨name, entry.1⟩ : RecordKey) = key
        · rw [StateStore.record, rows, if_pos same] at found
          obtain ⟨stored, rfl, rfl⟩ := Option.map_eq_some_iff.mp found
          rw [← same]
          exact outcome.key (fun before present => scanning.keyed.row present) rfl
        · rw [StateStore.record, rows, if_neg same] at found
          exact scanning.keyed key record found
      by_cases same : entry.1 = path
      · exact Or.inl (by rw [← same, listed]; rfl)
      · have other : after.1.recordState ⟨name, path⟩ = state.1.recordState ⟨name, path⟩ := by
          rw [rows, if_neg fun equal => same (congrArg RecordKey.path equal)]
        exact scanning.rows path (holds.congr other)

theorem scanDeletion_holds {state after : StateStore × ScanSummary} {winner : PathRecordState}
    (done : scanDeletion scanner name author observedNs context state winner = .ok after)
    {key : RecordKey} (holds : after.1.HoldsFile key) : state.1.HoldsFile key := by
  rcases scanDeletion_rows done with rows | ⟨tombstone, -, removed, rows⟩
  · exact holds.congr (rows key)
  · by_cases same : tombstone.key = key
    · obtain ⟨row, present, isFile, -⟩ := holds
      rw [rows, if_pos same, Option.some.injEq] at present
      rw [← present, mergedRow, removed] at isFile
      cases isFile
    · exact holds.congr ((rows key).trans (if_neg same))

theorem scanDeletion_keyed {state after : StateStore × ScanSummary} {winner : PathRecordState}
    (done : scanDeletion scanner name author observedNs context state winner = .ok after)
    (keyed : state.1.Keyed) : after.1.Keyed := by
  rcases scanDeletion_rows done with rows | ⟨tombstone, -, -, rows⟩
  · exact keyed.of_record fun key => record_congr (rows key)
  · have named : (mergedRow tombstone none).record.key = tombstone.key := rfl
    exact keyed.rewritten named rows

theorem Scanning.scanDeletion {state : StateStore × ScanSummary} {winner : PathRecordState}
    (scanning : Scanning store name root context state.1) :
    Always (fun after => Scanning store name root context after.1)
      (fun failure => Scanning store name root context failure.2)
      (scanDeletion scanner name author observedNs context state winner) := by
  have collections := scanDeletion_collections scanner name author observedNs context state winner
  cases done : Skillsync.scanDeletion scanner name author observedNs context state winner with
  | error failure =>
      rw [show failure = (failure.1, failure.2) from rfl] at done
      show Scanning store name root context failure.2
      rw [show failure.2 = state.1 from scanDeletion_error done]
      exact scanning
  | ok after =>
      rw [done] at collections
      refine ⟨scanDeletion_keyed done scanning.keyed,
        (resolvedRoot_congr collections name).trans scanning.bound, fun path holds => ?_⟩
      exact scanning.rows path (scanDeletion_holds done holds)

/-- What holds of the store a scan leaves after its walk. -/
theorem scanListing_scanning (keyed : store.Keyed) :
    Always (fun after => Scanning store name root context after.1)
      (fun failure => failure.2 = store ∨ Scanning store name root context failure.2)
      (scanListing scanner store name localPath author observedNs root context) := by
  apply scanListing_always (Scanning store name root context)
  · exact fun completed changed committed => scanning_completed keyed committed
  · intro current event after scanning appended
    exact scanning.unchanged (appendLog_collections appended) (appendLog_recordState appended)
  · exact fun current state entry listed scanning => scanning.scanFile listed
  · exact fun warned state winner _ _ scanning => scanning.scanDeletion

theorem scanListing_left (keyed : store.Keyed) :
    leftStore (scanListing scanner store name localPath author observedNs root context) = store ∨
      Scanning store name root context
        (leftStore (scanListing scanner store name localPath author observedNs root context)) :=
  leftStore_always (scanListing_scanning keyed)

omit [Blake3] in
theorem setCollectionScanStatus_recordState (status : CollectionScanStatus) (key : RecordKey) :
    (store.setCollectionScanStatus name status).recordState key = store.recordState key := by
  unfold setCollectionScanStatus
  split <;> rfl

omit [Blake3] in
theorem pauseScan_left {status : CollectionScanStatus} :
    (leftStore (pauseScan scanner name observedNs store status)).resolvedRoot name =
        store.resolvedRoot name ∧
      ∀ key, (leftStore (pauseScan scanner name observedNs store status)).recordState key =
        store.recordState key := by
  have roots : (store.setCollectionScanStatus name status).resolvedRoot name =
      store.resolvedRoot name := by
    unfold setCollectionScanStatus
    split
    · rfl
    · rename_i collection attached
      simp only [resolvedRoot, OrderedMap.getElem?_insert, ↓reduceIte, attached, Option.bind_some]
  have rows : ∀ key, (store.setCollectionScanStatus name status).recordState key =
      store.recordState key := setCollectionScanStatus_recordState status
  cases appended : (store.setCollectionScanStatus name status).appendLog observedNs
      (.collectionPaused name) scanner.maxLogs with
  | error source =>
      have left : leftStore (pauseScan scanner name observedNs store status) =
          store.setCollectionScanStatus name status := by
        simp only [pauseScan, commit, appended, Except.mapError, Except.error_bind, leftStore]
      rw [left]
      exact ⟨roots, rows⟩
  | ok after =>
      have left : leftStore (pauseScan scanner name observedNs store status) = after := by
        simp only [pauseScan, commit, appended, Except.mapError, Except.ok_bind]
        rfl
      rw [left]
      exact ⟨(resolvedRoot_congr (appendLog_collections appended) name).trans roots,
        fun key => (appendLog_recordState appended key).trans (rows key)⟩

/-- A scan leaves the store as it was, or as far as its loops have come. -/
theorem scanCollection_left (keyed : store.Keyed)
    (opened : Except RootError (RootPath × FileSystem)) :
    ((leftStore (scanCollection scanner store name localPath author observedNs opened)).resolvedRoot
          name = store.resolvedRoot name ∧
        ∀ key, (leftStore (scanCollection scanner store name localPath author observedNs
          opened)).recordState key = store.recordState key) ∨
      ∃ root fileSystem context, opened = .ok (root, fileSystem) ∧
        walk fileSystem name scanner.ignores (scanner.comparisonKey root) = .ok context ∧
        Scanning store name root context
          (leftStore (scanCollection scanner store name localPath author observedNs opened)) := by
  cases opened with
  | error reason =>
      refine Or.inl ?_
      cases reason with
      | notDirectory => exact pauseScan_left
      | notFound => exact pauseScan_left
      | io => exact ⟨rfl, fun _ => rfl⟩
      | unstable => exact ⟨rfl, fun _ => rfl⟩
  | ok found =>
      obtain ⟨root, fileSystem⟩ := found
      unfold scanCollection
      dsimp only
      cases walked : walk fileSystem name scanner.ignores (scanner.comparisonKey root) with
      | error reason => exact Or.inl ⟨rfl, fun _ => rfl⟩
      | ok context =>
          rw [Except.mapError, Except.ok_bind]
          rcases scanListing_left keyed with same | scanning
          · rw [same]
            exact Or.inl ⟨rfl, fun _ => rfl⟩
          · exact Or.inr ⟨root, fileSystem, context, rfl, walked, scanning⟩

end scans

namespace RootOperation

variable {name : String} {store : StateStore}

/-- A file that an operation leaves materialized was so before under the same root, or the
operation observes it under the root it leaves. -/
def Binds (name : String) (store : StateStore) (operation : RootOperation)
    (after : StateStore) : Prop :=
  after.Keyed ∧ ∀ path, after.HoldsFile ⟨name, path⟩ →
    (store.HoldsFile ⟨name, path⟩ ∧ after.resolvedRoot name = store.resolvedRoot name) ∨
    ∃ root, operation.Observes name root path ∧ after.resolvedRoot name = some root

theorem binds_unchanged {operation : RootOperation} {after : StateStore} (keyed : store.Keyed)
    (same : store.Unchanged after) : Binds name store operation after :=
  ⟨keyed.of_record same.record, fun _ holds =>
    Or.inl ⟨holds.congr (same.rows _), same.roots name⟩⟩

/-- A row that is not a materialized file is written. -/
theorem binds_rewritten {operation : RootOperation} {after : StateStore} {key : RecordKey}
    {row : PathRecordState} (keyed : store.Keyed) (written : store.Rewritten key row after)
    (named : row.record.key = key)
    (idle : row.record.kind.isFile = true → row.materialized = false) :
    Binds name store operation after := by
  refine ⟨keyed.rewritten named written.rows, fun path holds => Or.inl ⟨?_, written.roots name⟩⟩
  by_cases same : key = ⟨name, path⟩
  · obtain ⟨stored, present, isFile, materialized⟩ := holds
    rw [written.rows, if_pos same, Option.some.injEq] at present
    subst present
    rw [idle isFile] at materialized
    cases materialized
  · exact holds.congr (written.of_ne same)

theorem binds_markRepair {operation : RootOperation} {after : StateStore} {key : RecordKey}
    {createdNs : I64} {event : OperationalEvent} {maxLogs : Nat} (keyed : store.Keyed)
    (committed : store.markRepairRequiredAndLog key createdNs event maxLogs = .ok after) :
    Binds name store operation after := by
  obtain ⟨row, present, -, written⟩ := markRepairRequired_rewrites committed
  have named : row.record.key = key := keyed.row present
  exact binds_rewritten keyed written named fun _ => rfl

/-- An installation that rebinds the collection spares its own path only. -/
theorem binds_markMaterialized {after : StateStore} {disk : Disk} {record : Record}
    {stream : List UInt8} {environment : InstallEnvironment} {now : I64} {maxLogs : Nat}
    {file : InstalledFile} {event : OperationalEvent} (keyed : store.Keyed)
    (installed : Installs disk record stream environment file)
    (committed : store.markMaterializedAndLog record.key file.resolvedRoot file.fingerprint now
      event maxLogs = .ok after) :
    Binds name store (install disk record stream environment now maxLogs) after := by
  obtain ⟨row, present, isFile, roots, rows⟩ := markMaterializedAndLog_ok committed
  have records : ∀ key, after.record key = store.record key := by
    intro key
    rw [StateStore.record, rows]
    split
    · rename_i same
      rw [← same, StateStore.record, present]
      rfl
    · unfold reboundRow
      split
      · rfl
      · rw [Option.map_map]
        exact congrArg (fun change => (store.recordState key).map change)
          (funext fun row => unmaterialized_record _ _ key row)
  refine ⟨keyed.of_record records, fun path holds => ?_⟩
  by_cases here : record.key = ⟨name, path⟩
  · have named : name = record.key.collection := (congrArg RecordKey.collection here).symm
    exact Or.inr ⟨file.resolvedRoot, ⟨here, file, installed, rfl⟩,
      (roots name).trans (if_pos named)⟩
  · obtain ⟨stored, found, isFile', materialized⟩ := holds
    rw [rows, if_neg here, reboundRow] at found
    split at found
    · rename_i bound
      refine Or.inl ⟨⟨stored, found, isFile', materialized⟩, ?_⟩
      rw [roots]
      split
      · rename_i named
        rw [named, bound]
      · rfl
    · obtain ⟨old, before, rfl⟩ := Option.map_eq_some_iff.mp found
      rw [unmaterialized_record] at isFile'
      by_cases named : name = record.key.collection
      · have other : some record.key.path ≠ some path := by
          intro same
          apply here
          rw [named, ← Option.some.inj same]
        simp [unmaterialized, named, other, isFile'] at materialized
      · have kept : unmaterialized record.key.collection (some record.key.path) ⟨name, path⟩ old =
            old := if_neg fun both => named both.1
        rw [kept] at materialized
        exact Or.inl ⟨⟨old, before, isFile', materialized⟩, (roots name).trans (if_neg named)⟩

theorem binds_scan {scanner : Scanner} {localPath : String} {author : EndpointId}
    {observedNs : I64} {opened : Except RootError (RootPath × FileSystem)}
    (keyed : store.Keyed) :
    Binds name store (scan scanner localPath author observedNs opened)
      (leftStore (scanCollection scanner store name localPath author observedNs opened)) := by
  rcases scanCollection_left keyed opened with
    ⟨root, rows⟩ | ⟨root, fileSystem, context, rfl, walked, scanning⟩
  · exact ⟨keyed.of_record fun key => record_congr (rows key),
      fun path holds => Or.inl ⟨holds.congr (rows _), root⟩⟩
  · refine ⟨scanning.keyed, fun path holds => ?_⟩
    rcases scanning.rows path holds with listed | ⟨before, bound⟩
    · obtain ⟨disk, listed⟩ := Option.isSome_iff_exists.mp listed
      exact Or.inr ⟨root, ⟨fileSystem, context, disk, rfl, walked, listed⟩, scanning.bound⟩
    · exact Or.inl ⟨before, scanning.bound.trans bound.symm⟩

theorem binds_install {disk : Disk} {record : Record} {stream : List UInt8}
    {environment : InstallEnvironment} {now : I64} {maxLogs : Nat} (keyed : store.Keyed) :
    Binds name store (install disk record stream environment now maxLogs)
      (applyFileFixture store disk record stream environment now maxLogs).2.1 := by
  have unchanged : Binds name store (install disk record stream environment now maxLogs) store :=
    binds_unchanged keyed (Unchanged.refl store)
  have marked : ∀ file event after, Installs disk record stream environment file →
      store.markMaterializedAndLog record.key file.resolvedRoot file.fingerprint now event
        maxLogs = .ok after →
      Binds name store (install disk record stream environment now maxLogs) after :=
    fun _ _ _ installed committed => binds_markMaterialized keyed installed committed
  unfold applyFileFixture
  dsimp only
  split
  · rename_i file disk' installed
    split
    · exact marked file _ _ (Or.inl (congrArg Prod.fst installed)) ‹_›
    · exact unchanged
  · rename_i file disk' installed
    split
    · exact marked file _ _ (Or.inr (congrArg Prod.fst installed)) ‹_›
    · exact unchanged
  · exact unchanged
  · split
    · exact binds_markRepair keyed ‹_›
    · exact unchanged

theorem binds_perform (operation : RootOperation) (keyed : store.Keyed) :
    Binds name store operation (operation.perform name store) := by
  have unchanged : ∀ operation, Binds name store operation store :=
    fun _ => binds_unchanged keyed (Unchanged.refl store)
  cases operation with
  | scan scanner localPath author observedNs opened => exact binds_scan keyed
  | replacePath localPath =>
      show Binds name store _ (settled store (store.replaceCollectionPath name localPath))
      cases committed : store.replaceCollectionPath name localPath with
      | error source => exact unchanged _
      | ok after =>
          obtain ⟨-, rows⟩ := replaceCollectionPath_ok committed
          refine ⟨keyed.of_record fun key => ?_, fun path holds => ?_⟩
          · show (after.recordState key).map _ = (store.recordState key).map _
            rw [rows, Option.map_map]
            exact congrArg (fun change => (store.recordState key).map change)
              (funext fun row => unmaterialized_record _ _ key row)
          · obtain ⟨row, present, isFile, materialized⟩ := holds
            rw [show settled store (.ok after) = after from rfl, rows] at present
            obtain ⟨old, -, rfl⟩ := Option.map_eq_some_iff.mp present
            rw [unmaterialized_record] at isFile
            simp [unmaterialized, isFile] at materialized
  | merge record observedNs source maxLogs =>
      show Binds name store _
        (settled store ((store.mergeRecord record observedNs (some source) maxLogs).map Prod.fst))
      cases committed : store.mergeRecord record observedNs (some source) maxLogs with
      | error source => exact unchanged _
      | ok result =>
          obtain ⟨after, accepted⟩ := result
          obtain ⟨-, written⟩ := mergeRecord_rewrites committed
          cases accepted with
          | true => exact binds_rewritten keyed written rfl fun _ => rfl
          | false => exact binds_unchanged keyed written
  | install disk record stream environment now maxLogs => exact binds_install keyed
  | removeFile disk record environment now maxLogs =>
      show Binds name store _ (materializeTombstone store disk record environment now maxLogs).2.1
      unfold materializeTombstone
      split
      · exact unchanged _
      · split
        · rename_i after committed
          obtain ⟨row, present, removed, written⟩ := markTombstoneMaterialized_rewrites committed
          have named : row.record.key = record.key := keyed.row present
          refine binds_rewritten keyed written named fun isFile => ?_
          rw [show row.record.kind = .tombstone from removed] at isFile
          cases isFile
        · exact unchanged _
  | markRepair path createdNs event maxLogs =>
      show Binds name store _
        (settled store (store.markRepairRequiredAndLog ⟨name, path⟩ createdNs event maxLogs))
      cases committed : store.markRepairRequiredAndLog ⟨name, path⟩ createdNs event maxLogs with
      | error source => exact unchanged _
      | ok after => exact binds_markRepair keyed committed

/-- The path was seen or installed as a file under the root, and the root has been bound since. -/
def KnownUnder (name : String) (root : RootPath) (path : ProtocolPath) (start : StateStore)
    (operations : List RootOperation) : Prop :=
  Since (step name) (fun _ operation => operation.Observes name root path)
    (fun store => store.resolvedRoot name = some root) start operations

/-- Induction on the run from its end: an operation either keeps the root, and with it what is
known under it, or observes the file itself. -/
theorem held_known {start : StateStore} (keyed : start.Keyed)
    (fresh : ∀ path, start.recordState ⟨name, path⟩ = none) {operations : List RootOperation}
    (reached : run (step name) start operations = some store) :
    store.Keyed ∧ ∀ path, store.HoldsFile ⟨name, path⟩ →
      ∃ root, store.resolvedRoot name = some root ∧
        KnownUnder name root path start operations := by
  induction operations using List.reverseRecOn generalizing store with
  | nil =>
      rw [run_nil, Option.some.injEq] at reached
      subst reached
      refine ⟨keyed, fun path holds => ?_⟩
      obtain ⟨row, present, -⟩ := holds
      rw [fresh] at present
      cases present
  | append_singleton front operation ih =>
      obtain ⟨before, begins, taken⟩ := run_snoc.mp reached
      obtain ⟨keyed', known⟩ := ih begins
      have performed : operation.perform name before = store := Option.some.inj taken
      have binds : Binds name before operation _ := binds_perform operation keyed'
      rw [performed] at binds
      refine ⟨binds.1, fun path holds => ?_⟩
      rcases binds.2 path holds with ⟨held, kept⟩ | ⟨root, observed, bound⟩
      · obtain ⟨root, bound, since⟩ := known path held
        exact ⟨root, kept.trans bound, since.extend begins taken (kept.trans bound)⟩
      · exact ⟨root, bound, Since.now begins taken observed bound⟩

end RootOperation

/-- A scan makes a tombstone of what it held when it started, under the same root. -/
theorem held_of_publishes {scanner : Scanner} {store : StateStore} {name localPath : String}
    {author : EndpointId} {observedNs : I64} {root : RootPath} {fileSystem : FileSystem}
    {path : ProtocolPath} (keyed : store.Keyed)
    (published : PublishesDeletion store (leftStore (scanCollection scanner store name localPath
      author observedNs (.ok (root, fileSystem)))) ⟨name, path⟩) :
    store.HoldsFile ⟨name, path⟩ ∧ store.resolvedRoot name = some root := by
  obtain ⟨context, row, made, -, -, deletes⟩ := deletes_of_publishes keyed published
  obtain ⟨isFile, materialized, -⟩ := keepsWinner_eq_false.mp deletes.removes
  obtain ⟨bound, stored⟩ := completedRow_materialized deletes.stored isFile materialized
  exact ⟨⟨row, stored, isFile, materialized⟩, bound⟩

open RootOperation in
/-- After any operations on a collection, a scan deletes only what was seen or installed under
its root since the collection was last bound to it. -/
theorem root_changes_arm_no_deletions {name : String} {start store : StateStore}
    (keyed : start.Keyed) (fresh : ∀ path, start.recordState ⟨name, path⟩ = none)
    (operations : List RootOperation)
    (reached : run (RootOperation.step name) start operations = some store)
    (scanner : Scanner) (localPath : String) (author : EndpointId) (observedNs : I64)
    (root : RootPath) (fileSystem : FileSystem) (path : ProtocolPath)
    (published : PublishesDeletion store (leftStore (scanCollection scanner store name localPath
      author observedNs (.ok (root, fileSystem)))) ⟨name, path⟩) :
    store.resolvedRoot name = some root ∧ KnownUnder name root path start operations := by
  obtain ⟨keyed', known⟩ := held_known keyed fresh reached
  obtain ⟨held, bound⟩ := held_of_publishes keyed' published
  obtain ⟨other, bound', since⟩ := known path held
  obtain rfl : root = other := Option.some.inj (bound.symm.trans bound')
  exact ⟨bound, since⟩

end

section
attribute [local instance] Blake3.checksum

/-- A collection that has been attached and not scanned. -/
def unscanned : StateStore :=
  { StateStore.empty with
    collections := (∅ : OrderedMap String CollectionState).insert "c"
      ⟨"/c", none, .pending, .pending⟩ }

/-- The first scan of the root finds a file. -/
def firstScan : RootOperation :=
  .scan Daemon.sample.scanner "/c" (.fill 1) 9 (.ok ("/c", nested))

open RootOperation in
/-- The second scan does not find it any more. -/
theorem seen_file_deleted :
    run (RootOperation.step "c") unscanned [firstScan] = some (firstScan.perform "c" unscanned) ∧
      KnownUnder "c" "/c" buildX unscanned [firstScan] := by
  have keyed : unscanned.Keyed := fun key record found => by cases found
  refine ⟨rfl, ?_⟩
  apply (root_changes_arm_no_deletions keyed (fun _ => rfl) [firstScan] rfl
    Daemon.sample.scanner "/c" (.fill 1) 10 "/c" bare buildX ?_).2
  have gone : ((leftStore (scanCollection Daemon.sample.scanner (firstScan.perform "c" unscanned)
      "c" "/c" (.fill 1) 10 (.ok ("/c", bare)))).record ⟨"c", buildX⟩).map Record.kind =
        some .tombstone := by decide +kernel
  have known : ((firstScan.perform "c" unscanned).record ⟨"c", buildX⟩).map Record.kind ≠
      some .tombstone := by decide +kernel
  obtain ⟨tombstone, recorded, removed⟩ := Option.map_eq_some_iff.mp gone
  refine ⟨tombstone, recorded, removed, fun old => ?_⟩
  rw [old] at known
  exact known (congrArg some removed)

end

end Skillsync
