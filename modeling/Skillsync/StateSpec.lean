import Skillsync.State

set_option autoImplicit false

namespace Skillsync

open Fallible

namespace StateStore

/-- The stored root of a collection. -/
def resolvedRoot (store : StateStore) (name : String) : Option RootPath :=
  (store.collections[name]?).bind CollectionState.resolvedRoot

/-- The row a merge writes. -/
def mergedRow (record : Record) (sourcePeer : Option EndpointId) : PathRecordState :=
  ⟨record, sourcePeer.isNone, if sourcePeer.isNone then recordFingerprint record else none⟩

theorem record_eq_some {store : StateStore} {key : RecordKey} {record : Record} :
    store.record key = some record ↔
      ∃ row, store.recordState key = some row ∧ row.record = record := by
  simp only [StateStore.record, Option.map_eq_some_iff]

theorem insertLog_tables {store after : StateStore} {createdNs : I64} {event : OperationalEvent}
    {maxLogs : Nat} (committed : store.insertLog createdNs event maxLogs = .ok after) :
    after.collections = store.collections ∧ after.pathRecords = store.pathRecords := by
  unfold insertLog at committed
  obtain ⟨_, _, committed⟩ := Except.bind_ok committed
  split at committed
  · cases committed
  split at committed
  · cases committed
  · cases committed
    exact ⟨rfl, rfl⟩

theorem appendLog_recordState {store after : StateStore} {createdNs : I64}
    {event : OperationalEvent} {maxLogs : Nat}
    (committed : store.appendLog createdNs event maxLogs = .ok after) (key : RecordKey) :
    after.recordState key = store.recordState key := by
  simp only [recordState, (insertLog_tables committed).2]

theorem appendLog_collections {store after : StateStore} {createdNs : I64}
    {event : OperationalEvent} {maxLogs : Nat}
    (committed : store.appendLog createdNs event maxLogs = .ok after) :
    after.collections = store.collections := (insertLog_tables committed).1

theorem fileRow_ok {store : StateStore} {key : RecordKey} {row : PathRecordState}
    (found : store.fileRow key = .ok row) :
    store.recordState key = some row ∧ row.record.kind.isFile = true := by
  unfold fileRow at found
  split at found
  · rename_i stored present
    split at found
    · rename_i isFile
      cases found
      exact ⟨present, isFile⟩
    · cases found
  · cases found

theorem fileRow_of_file {store : StateStore} {key : RecordKey} {row : PathRecordState}
    (present : store.recordState key = some row) (isFile : row.record.kind.isFile = true) :
    store.fileRow key = .ok row := by
  simp only [fileRow, present, isFile, ↓reduceIte]

section merge
variable [Blake3] {store after : StateStore} {record : Record} {observedNs : I64}
  {sourcePeer : Option EndpointId} {maxLogs : Nat} {accepted : Bool}

/-- A committed merge replaces the row of its key exactly when it accepts the record. -/
theorem mergeRecord_ok
    (committed : store.mergeRecord record observedNs sourcePeer maxLogs = .ok (after, accepted)) :
    accepted = accepts (store.record record.key) record ∧
      after.collections = store.collections ∧
      ∀ key, after.recordState key =
        if accepted = true ∧ record.key = key then some (mergedRow record sourcePeer)
        else store.recordState key := by
  unfold mergeRecord at committed
  obtain ⟨merged, upserted, committed⟩ := Except.bind_ok committed
  obtain ⟨logged, inserted, committed⟩ := Except.bind_ok committed
  obtain ⟨rfl, rfl⟩ : logged = after ∧ accepts (store.record record.key) record = accepted := by
    simpa [pure, Except.pure] using committed
  obtain ⟨sameCollections, sameRecords⟩ := insertLog_tables inserted
  refine ⟨rfl, ?_⟩
  simp only [recordState, sameCollections, sameRecords]
  cases decision : accepts (store.record record.key) record with
  | false =>
      simp only [decision, Bool.false_eq_true, ↓reduceIte, Except.ok.injEq] at upserted
      simp [← upserted]
  | true =>
      simp only [decision, ↓reduceIte, upsertRecord] at upserted
      split at upserted
      · cases upserted
        refine ⟨rfl, fun key => ?_⟩
        simp only [OrderedMap.getElem?_insert, true_and, mergedRow]
      · cases upserted

theorem mergeRecord_attached
    (committed : store.mergeRecord record observedNs sourcePeer maxLogs = .ok (after, true)) :
    (store.collections[record.collection]?).isSome = true := by
  unfold mergeRecord at committed
  obtain ⟨merged, upserted, committed⟩ := Except.bind_ok committed
  obtain ⟨logged, inserted, committed⟩ := Except.bind_ok committed
  obtain ⟨_, decision⟩ : logged = after ∧ accepts (store.record record.key) record = true := by
    simpa [pure, Except.pure] using committed
  simp only [decision, ↓reduceIte, upsertRecord] at upserted
  split at upserted
  · assumption
  · cases upserted

end merge

section updates
variable {store after : StateStore} {key : RecordKey} {createdNs : I64}
  {event : OperationalEvent} {maxLogs : Nat}

theorem markRepairRequiredAndLog_ok
    (committed : store.markRepairRequiredAndLog key createdNs event maxLogs = .ok after) :
    ∃ row, store.recordState key = some row ∧ row.record.kind.isFile = true ∧
      after.collections = store.collections ∧
      ∀ other, after.recordState other =
        if key = other then some ⟨row.record, false, none⟩ else store.recordState other := by
  unfold markRepairRequiredAndLog at committed
  obtain ⟨row, found, committed⟩ := Except.bind_ok committed
  obtain ⟨sameCollections, sameRecords⟩ := insertLog_tables committed
  obtain ⟨present, isFile⟩ := fileRow_ok found
  refine ⟨row, present, isFile, sameCollections, fun other => ?_⟩
  simp only [recordState, sameRecords, OrderedMap.getElem?_insert]

theorem updateMaterializedFingerprint_ok {fingerprint : FileFingerprint}
    (committed : store.updateMaterializedFingerprint key fingerprint = .ok after) :
    ∃ row, store.recordState key = some row ∧ row.record.kind.isFile = true ∧
      after.collections = store.collections ∧
      ∀ other, after.recordState other =
        if key = other then some ⟨row.record, true, some fingerprint⟩
        else store.recordState other := by
  unfold updateMaterializedFingerprint at committed
  split at committed
  · cases committed
  obtain ⟨row, found, committed⟩ := Except.bind_ok committed
  cases committed
  obtain ⟨present, isFile⟩ := fileRow_ok found
  exact ⟨row, present, isFile, rfl, fun other => OrderedMap.getElem?_insert _ _ _ _⟩

theorem unmaterialized_record (collection : String) (spared : Option ProtocolPath)
    (key : RecordKey) (row : PathRecordState) :
    (unmaterialized collection spared key row).record = row.record := by
  unfold unmaterialized
  split <;> rfl

theorem recordState_map (store : StateStore)
    (change : RecordKey → PathRecordState → PathRecordState)
    (key : RecordKey) :
    recordState { store with pathRecords := store.pathRecords.map change } key =
      (store.recordState key).map (change key) := by
  simp only [recordState, Std.ExtTreeMap.getElem?_map]

/-- The rows of a store after `mark_materialized_and_log` rebinds its collection. -/
def reboundRow (store : StateStore) (key : RecordKey) (root : RootPath) (other : RecordKey) :
    Option PathRecordState :=
  if store.resolvedRoot key.collection = some root then store.recordState other
  else (store.recordState other).map (unmaterialized key.collection (some key.path) other)

theorem reboundRow_record (store : StateStore) (key : RecordKey) (root : RootPath)
    (other : RecordKey) :
    (store.reboundRow key root other).map PathRecordState.record = store.record other := by
  unfold reboundRow
  split
  · rfl
  · rw [Option.map_map]
    exact congrArg (fun change => (store.recordState other).map change)
      (funext fun row => unmaterialized_record key.collection (some key.path) other row)

theorem markMaterializedAndLog_ok {root : RootPath} {fingerprint : FileFingerprint}
    (committed :
      store.markMaterializedAndLog key root fingerprint createdNs event maxLogs = .ok after) :
    ∃ row, store.recordState key = some row ∧ row.record.kind.isFile = true ∧
      (∀ name, after.resolvedRoot name =
        if name = key.collection then some root else store.resolvedRoot name) ∧
      ∀ other, after.recordState other =
        if key = other then some ⟨row.record, true, some fingerprint⟩
        else store.reboundRow key root other := by
  unfold markMaterializedAndLog at committed
  cases attached : store.collections[key.collection]? with
  | none =>
      rw [attached] at committed
      cases committed
  | some collection =>
      rw [attached] at committed
      obtain ⟨marked, updated, committed⟩ := Except.bind_ok committed
      obtain ⟨sameCollections, sameRecords⟩ := insertLog_tables committed
      obtain ⟨row, present, isFile, collections, rows⟩ := updateMaterializedFingerprint_ok updated
      have current : store.resolvedRoot key.collection = collection.resolvedRoot := by
        simp only [resolvedRoot, attached, Option.bind_some]
      have afterRow : ∀ other, after.recordState other = marked.recordState other := by
        intro other
        simp only [recordState, sameRecords]
      by_cases same : collection.resolvedRoot = some root
      · simp only [same, ↓reduceIte] at present collections rows
        refine ⟨row, present, isFile, fun name => ?_, fun other => ?_⟩
        · simp only [resolvedRoot, sameCollections, collections]
          split
          · rename_i named
            rw [named, attached, Option.bind_some, same]
          · rfl
        · simp only [afterRow, rows, reboundRow, current, same, ↓reduceIte]
      · simp only [same, ↓reduceIte] at present collections rows
        have mapped (other : RecordKey) :=
          recordState_map store (unmaterialized key.collection (some key.path)) other
        simp only [recordState] at present rows mapped
        have stored : ∃ old, store.pathRecords[key]? = some old ∧ old.record = row.record := by
          rw [mapped, Option.map_eq_some_iff] at present
          obtain ⟨old, found, changed⟩ := present
          exact ⟨old, found, by rw [← changed, unmaterialized_record]⟩
        obtain ⟨old, found, sameRecord⟩ := stored
        refine ⟨old, found, by rw [sameRecord]; exact isFile, fun name => ?_, fun other => ?_⟩
        · simp only [resolvedRoot, sameCollections, collections, OrderedMap.getElem?_insert]
          by_cases named : name = key.collection
          · simp [named]
          · simp [named, Ne.symm named]
        · simp only [recordState, sameRecords, rows, reboundRow, current, same, ↓reduceIte,
            sameRecord, mapped]

theorem markTombstoneMaterializedAndLog_ok
    (committed : store.markTombstoneMaterializedAndLog key createdNs event maxLogs = .ok after) :
    ∃ row, store.recordState key = some row ∧ row.record.kind = .tombstone ∧
      after.collections = store.collections ∧
      ∀ other, after.recordState other =
        if key = other then some ⟨row.record, true, row.materializedFingerprint⟩
        else store.recordState other := by
  unfold markTombstoneMaterializedAndLog at committed
  split at committed
  · rename_i row present
    split at committed
    · rename_i tombstone
      obtain ⟨sameCollections, sameRecords⟩ := insertLog_tables committed
      refine ⟨row, present, tombstone, sameCollections, fun other => ?_⟩
      simp only [recordState, sameRecords, OrderedMap.getElem?_insert]
    · cases committed
  · cases committed

theorem completeCollectionScan_ok {name localPath : String} {root : RootPath} {changed : Bool}
    (committed : store.completeCollectionScan name localPath root = .ok (after, changed)) :
    (∀ other, after.resolvedRoot other =
        if other = name then some root else store.resolvedRoot other) ∧
      ∀ other, after.recordState other =
        if store.resolvedRoot name = some root then store.recordState other
        else (store.recordState other).map (unmaterialized name none other) := by
  unfold completeCollectionScan at committed
  split at committed
  · cases committed
  · rename_i collection attached
    simp only [Except.ok.injEq, Prod.mk.injEq] at committed
    obtain ⟨rfl, -⟩ := committed
    have current : store.resolvedRoot name = collection.resolvedRoot := by
      simp only [resolvedRoot, attached, Option.bind_some]
    refine ⟨fun other => ?_, fun other => ?_⟩
    · simp only [resolvedRoot, OrderedMap.getElem?_insert]
      by_cases named : other = name
      · simp [named]
      · simp [named, Ne.symm named]
    · by_cases same : collection.resolvedRoot = some root
      · simp [current, same, recordState]
      · simp [current, same, recordState, Std.ExtTreeMap.getElem?_map]

/-- Every file of the collection is unmaterialized, and its root is unbound. -/
theorem replaceCollectionPath_ok {name localPath : String}
    (committed : store.replaceCollectionPath name localPath = .ok after) :
    after.resolvedRoot name = none ∧
      ∀ other, after.recordState other =
        (store.recordState other).map (unmaterialized name none other) := by
  unfold replaceCollectionPath at committed
  split at committed
  · rename_i absent
    cases committed
    refine ⟨?_, fun other => recordState_map store _ other⟩
    show (store.collections[name]?).bind CollectionState.resolvedRoot = none
    rw [absent, Option.bind_none]
  · split at committed
    · cases committed
    · cases committed
      refine ⟨?_, fun other => recordState_map store _ other⟩
      simp only [resolvedRoot, OrderedMap.getElem?_insert, ↓reduceIte, Option.bind_some]

end updates

end StateStore

end Skillsync
