import Skillsync.PathRecords
import Skillsync.StateSpec

set_option autoImplicit false

namespace Skillsync

open Fallible Tables
open StateStore (mergedRow recordFingerprint)

/-- Exactly a materialized file has a fingerprint, of a size that the column holds. -/
structure PathRecordState.Storable (state : PathRecordState) : Prop where
  present : state.materializedFingerprint.isSome = (state.record.kind.isFile && state.materialized)
  size : ∀ fingerprint ∈ state.materializedFingerprint, fingerprint.size < 2 ^ 63

/-- The column `path`. -/
def PathRecordState.hasPath (path : String) (state : PathRecordState) : Bool :=
  decide (state.record.path.text = path)

theorem PathRecordState.hasPath_iff {path : String} {state : PathRecordState} :
    state.hasPath path = true ↔ state.record.path.text = path := decide_eq_true_iff

theorem I64.clamp_natCast {size : Nat} (fits : size < 2 ^ 63) : (I64.clamp size).val = size :=
  I64.clamp_val_of_mem (by omega) (by omega)

theorem Record.canonicalBytes_nonempty (record : Record) : 0 < record.canonicalBytes.length := by
  have domain : 0 < Record.domain.length := by decide
  rw [Record.canonicalBytes, List.length_append]
  omega

theorem ProtocolPath.nonempty (path : ProtocolPath) : path.text ≠ "" := by
  intro empty
  have valid := path.valid
  rw [empty] at valid
  cases valid

variable [Blake3]

/-- The columns of a row are those of a record and its canonical bytes. -/
structure PathRow.Holds (row : PathRow) (record : Record) : Prop where
  decoded : Record.fromCanonical row.canonical = .ok record
  collection : row.collection = record.collection
  path : row.path = record.path.text
  recordHash : row.recordHash = record.canonicalHash.bytes
  kind : row.kind = if record.kind.isFile then 1 else 0

/-- The row that is read as a state. -/
def PathRow.of (state : PathRecordState) : PathRow where
  collection := state.record.collection
  path := state.record.path.text
  recordHash := state.record.canonicalHash.bytes
  kind := if state.record.kind.isFile then 1 else 0
  canonical := state.record.canonicalBytes
  materialized := if state.materialized then 1 else 0
  materializedModifiedNs := state.materializedFingerprint.map FileFingerprint.modifiedNs
  materializedSize := state.materializedFingerprint.map fun fingerprint => .clamp fingerprint.size
  materializedHash := state.materializedFingerprint.map fun fingerprint => fingerprint.hash.bytes

/-- A row of a storable state. -/
def PathRow.Written (row : PathRow) : Prop :=
  ∃ state : PathRecordState, state.Storable ∧ row = .of state

namespace PathRow

theorem holds_of (state : PathRecordState) : (of state).Holds state.record :=
  ⟨Record.fromCanonical_canonicalBytes _, rfl, rfl, rfl, rfl⟩

/-- What the third branch of the `CHECK` compares. -/
theorem fingerprintCheck_of {state : PathRecordState} (storable : state.Storable) :
    (of state).fingerprintCheck = some true := by
  have present := storable.present
  cases isFile : state.record.kind.isFile with
  | false =>
      rw [isFile, Bool.false_and, Option.isSome_eq_false_iff, Option.isNone_iff_eq_none] at present
      simp [fingerprintCheck, of, isFile, present]
  | true =>
      cases materialized : state.materialized with
      | false =>
          rw [materialized, Bool.and_false, Option.isSome_eq_false_iff,
            Option.isNone_iff_eq_none] at present
          simp [fingerprintCheck, of, isFile, materialized, present]
      | true =>
          rw [isFile, materialized, Bool.and_true, Option.isSome_iff_exists] at present
          obtain ⟨fingerprint, present⟩ := present
          have size := I64.clamp_natCast (storable.size fingerprint present)
          have nonnegative : 0 ≤ (I64.clamp fingerprint.size).val := by omega
          simp [fingerprintCheck, of, isFile, materialized, present, nonnegative,
            fingerprint.hash.length_eq]

/-- A written row violates no constraint. -/
theorem Written.admitted {row : PathRow} (written : row.Written) :
    pathRecords.admits row = true := by
  obtain ⟨state, storable, rfl⟩ := written
  show (of state).checks.all Condition.passes = true
  have kind : (of state).kind = 0 ∨ (of state).kind = 1 := by
    show (if state.record.kind.isFile then (1 : Int) else 0) = 0 ∨
      (if state.record.kind.isFile then (1 : Int) else 0) = 1
    split <;> simp
  have materialized : (of state).materialized = 0 ∨ (of state).materialized = 1 := by
    show (if state.materialized then (1 : Int) else 0) = 0 ∨
      (if state.materialized then (1 : Int) else 0) = 1
    split <;> simp
  have hash : (of state).recordHash.length = 32 := state.record.canonicalHash.length_eq
  simp [checks, fingerprintCheck_of storable, kind, materialized, hash,
    show (of state).path ≠ "" from ProtocolPath.nonempty _,
    show 0 < (of state).canonical.length from state.record.canonicalBytes_nonempty]

end PathRow

namespace Database

theorem decodeIndexedRecord_of (state : PathRecordState) :
    decodeIndexedRecord (.of state) state.record.collection state.record.path.text =
      .ok state.record := by
  simp [decodeIndexedRecord, decodeStoredRecord, PathRow.of, Except.mapError,
    Record.fromCanonical_canonicalBytes, pure, Except.pure]

theorem decodeMaterializedFingerprint_of {state : PathRecordState} (storable : state.Storable) :
    decodeMaterializedFingerprint (PathRow.of state).materializedModifiedNs
      (PathRow.of state).materializedSize (PathRow.of state).materializedHash =
        .ok state.materializedFingerprint := by
  cases present : state.materializedFingerprint with
  | none => simp [PathRow.of, present, decodeMaterializedFingerprint]
  | some fingerprint =>
      have size := I64.clamp_natCast (storable.size fingerprint present)
      simp [PathRow.of, present, decodeMaterializedFingerprint,
        fingerprint.hash.length_eq, size]

theorem decodePathRecordState_of {state : PathRecordState} (storable : state.Storable) :
    decodePathRecordState (.of state) state.record.collection = .ok state := by
  have record : decodeIndexedRecord (.of state) state.record.collection (PathRow.of state).path =
      .ok state.record := decodeIndexedRecord_of state
  have materialized : decide ((PathRow.of state).materialized ≠ 0) = state.materialized := by
    cases flag : state.materialized <;> simp [PathRow.of, flag]
  simp only [decodePathRecordState, record, Except.ok_bind,
    decodeMaterializedFingerprint_of storable, materialized]
  rfl

/-- Distinct keys, and rows of storable states. -/
abbrev Sound (database : Database) : Prop :=
  Skillsync.pathRecords.Sound PathRow.Written database.pathRecords

variable {database : Database} {selects : PathRow → Bool} {set : PathRow → PathRow}

theorem Sound.updateRows (sound : database.Sound)
    (keeps : ∀ row, (set row).key = row.key)
    (writes : ∀ row, row.Written → selects row = true → (set row).Written) :
    Always (fun done => done.1.Sound) (· ≠ .check) (database.updateRows selects set) := by
  obtain ⟨updated, after⟩ :=
    Schema.Sound.update sound keeps (fun _ written => written.admitted) writes
  rw [Database.updateRows, updated]
  exact after

/-- The second half of a transaction that must have touched one row. -/
theorem Sound.insertLog (sound : database.Sound) (createdNs : I64) (event : OperationalEvent)
    (maxLogs : Nat) : Always Sound (· ≠ .check) (database.insertLog createdNs event maxLogs) := by
  unfold Database.insertLog
  cases database.logs.insertLog createdNs event maxLogs with
  | error reason => exact DatabaseError.noConfusion
  | ok logged => exact sound

theorem written_repaired {row : PathRow} (written : row.Written) : (repairColumns row).Written := by
  obtain ⟨state, storable, rfl⟩ := written
  exact ⟨⟨state.record, false, none⟩, ⟨by simp, by simp⟩, rfl⟩

theorem isFile_of {state : PathRecordState} :
    (PathRow.of state).kind = 1 ↔ state.record.kind.isFile = true := by
  simp [PathRow.of]

theorem not_isFile_of {state : PathRecordState} :
    (PathRow.of state).kind = 0 ↔ state.record.kind.isFile = false := by
  simp [PathRow.of]

omit [Blake3] in
theorem signedSize_ok {size : Nat} {signed : I64} (fits : signedSize size = .ok signed) :
    size < 2 ^ 63 ∧ signed = .clamp size := by
  unfold signedSize at fits
  split at fits
  · cases fits
  · rename_i small
    exact ⟨by omega, (Except.ok.inj fits).symm⟩

omit [Blake3] in
theorem signedSize_failure (size : Nat) : Always (fun _ => True) (· ≠ .check)
    (signedSize size) := by
  unfold signedSize
  split
  · exact DatabaseError.noConfusion
  · trivial

theorem Sound.repair (sound : database.Sound) :
    Always (fun done => done.1.Sound) (· ≠ .check) (database.updateRows selects repairColumns) :=
  sound.updateRows (fun _ => rfl) fun _ written _ => written_repaired written

section operations
variable (collection path : String) (createdNs : I64)
  (event : OperationalEvent) (maxLogs : Nat)

theorem Sound.updateMaterializedFingerprint (sound : database.Sound)
    (fingerprint : FileFingerprint) :
    Always Sound (· ≠ .check)
      (database.updateMaterializedFingerprint collection path fingerprint) := by
  unfold Database.updateMaterializedFingerprint
  cases signed : signedSize fingerprint.size with
  | error reason =>
      have failure := signedSize_failure fingerprint.size
      rw [signed] at failure
      exact failure
  | ok size =>
      obtain ⟨fits, rfl⟩ := signedSize_ok signed
      rw [Except.ok_bind]
      refine Always.bind (sound.updateRows ?_ ?_) fun done after => ?_
      · exact fun _ => rfl
      · rintro row ⟨state, storable, rfl⟩ selected
        obtain ⟨-, -, isFile⟩ := of_decide_eq_true selected
        refine ⟨⟨state.record, true, some fingerprint⟩, ⟨?_, ?_⟩, rfl⟩
        · simp [isFile_of.mp isFile]
        · intro other same
          rw [← Option.some.inj same]
          exact fits
      · dsimp only
        split
        · exact DatabaseError.noConfusion
        · exact after

theorem Sound.markRepairRequiredAndLog (sound : database.Sound) :
    Always Sound (· ≠ .check)
      (database.markRepairRequiredAndLog collection path createdNs event maxLogs) := by
  unfold Database.markRepairRequiredAndLog
  refine sound.repair.bind fun done after => ?_
  dsimp only
  split
  · exact DatabaseError.noConfusion
  · exact after.insertLog createdNs event maxLogs

theorem Sound.markTombstoneMaterializedAndLog (sound : database.Sound) :
    Always Sound (· ≠ .check)
      (database.markTombstoneMaterializedAndLog collection path createdNs event maxLogs) := by
  unfold Database.markTombstoneMaterializedAndLog
  refine Always.bind (sound.updateRows ?_ ?_) fun done after => ?_
  · exact fun _ => rfl
  · rintro row ⟨state, storable, rfl⟩ selected
    obtain ⟨-, -, tombstone⟩ := of_decide_eq_true selected
    have present := storable.present
    rw [not_isFile_of.mp tombstone, Bool.false_and] at present
    refine ⟨⟨state.record, true, state.materializedFingerprint⟩, ⟨?_, storable.size⟩, rfl⟩
    rw [present, not_isFile_of.mp tombstone, Bool.false_and]
  · dsimp only
    split
    · exact DatabaseError.noConfusion
    · exact after.insertLog createdNs event maxLogs

theorem Sound.bindRoot (sound : database.Sound) (stored : CollectionState)
    (resolvedRoot : RootPath) :
    Always Sound (· ≠ .check) (database.bindRoot collection path stored resolvedRoot) := by
  unfold Database.bindRoot
  split
  · exact sound
  · refine Always.bind (Sound.repair ?_) fun done after => ?_
    · exact sound
    · exact after

theorem Sound.markMaterializedAndLog (sound : database.Sound) (resolvedRoot : RootPath)
    (fingerprint : FileFingerprint) :
    Always Sound (· ≠ .check)
      (database.markMaterializedAndLog collection path resolvedRoot fingerprint createdNs event
        maxLogs) := by
  unfold Database.markMaterializedAndLog
  cases database.collections[collection]? with
  | none => exact DatabaseError.noConfusion
  | some stored =>
      refine (sound.bindRoot collection path stored resolvedRoot).bind fun rebound after => ?_
      refine (after.updateMaterializedFingerprint collection path fingerprint).bind
        fun marked markedSound => ?_
      exact markedSound.insertLog createdNs event maxLogs

theorem Sound.completeCollectionScan (sound : database.Sound) (name localPath : String)
    (resolvedRoot : RootPath) :
    Always (fun done => done.1.Sound) (· ≠ .check)
      (database.completeCollectionScan name localPath resolvedRoot) := by
  unfold Database.completeCollectionScan
  cases database.collections[name]? with
  | none => exact DatabaseError.noConfusion
  | some stored =>
      dsimp only
      split
      · exact DatabaseError.noConfusion
      split
      · refine Always.bind (Sound.repair ?_) fun done after => ?_
        · exact sound
        · exact after
      · exact sound

theorem Sound.pointCollection (sound : database.Sound) (name localPath : String) :
    Always Sound (· ≠ .check) (database.pointCollection name localPath) := by
  unfold Database.pointCollection
  split
  · exact sound
  · split
    · exact DatabaseError.noConfusion
    · exact sound

theorem Sound.replaceCollectionPath (sound : database.Sound) (name localPath : String) :
    Always Sound (· ≠ .check) (database.replaceCollectionPath name localPath) := by
  unfold Database.replaceCollectionPath
  refine (sound.pointCollection name localPath).bind fun pointed pointedSound => ?_
  refine pointedSound.repair.bind fun done after => ?_
  exact after

theorem Sound.addCollection (sound : database.Sound) (name localPath : String)
    (resolvedRoot : Option RootPath) :
    Always Sound (· ≠ .check) (database.addCollection name localPath resolvedRoot) := by
  unfold Database.addCollection
  split
  · exact DatabaseError.noConfusion
  · exact sound

theorem Sound.removeCollection (sound : database.Sound) (name : String) :
    (database.removeCollection name).1.Sound := by
  unfold Database.removeCollection
  split
  · exact Schema.Sound.filter sound _
  · exact sound

end operations

theorem exists_states {rows : List PathRow} (written : ∀ row ∈ rows, row.Written) :
    ∃ states : List PathRecordState, rows = states.map .of ∧ ∀ state ∈ states, state.Storable := by
  induction rows with
  | nil => exact ⟨[], rfl, by simp⟩
  | cons row rest ih =>
      obtain ⟨⟨state, storable, rfl⟩, others⟩ := List.forall_mem_cons.mp written
      obtain ⟨states, rfl, all⟩ := ih others
      exact ⟨state :: states, rfl, List.forall_mem_cons.mpr ⟨storable, all⟩⟩

/-- The rows of a collection in path order, and the states that they hold. -/
theorem Sound.rowsOf (sound : database.Sound) (collection : String) :
    ∃ states : List PathRecordState, database.rowsOf collection = states.map .of ∧
      (∀ state ∈ states, state.Storable ∧ state.record.collection = collection) ∧
      states.Pairwise fun left right => left.record.path.text < right.record.path.text := by
  have listed : ∀ row ∈ database.rowsOf collection,
      row ∈ database.pathRecords ∧ row.collection = collection := by
    intro row member
    obtain ⟨stored, same⟩ := List.mem_filter.mp (List.mem_mergeSort.mp member)
    exact ⟨stored, of_decide_eq_true same⟩
  obtain ⟨states, rows, storable⟩ :=
    exists_states fun row member => sound.written row (listed row member).1
  refine ⟨states, rows, fun state member => ⟨storable state member, ?_⟩, ?_⟩
  · exact (listed (.of state) (rows ▸ List.mem_map_of_mem member)).2
  · have ordered : (database.rowsOf collection).Pairwise fun left right =>
        left.path ≤ right.path := by
      unfold Database.rowsOf
      refine (List.pairwise_mergeSort ?_ ?_ _).imp of_decide_eq_true
      · simpa using fun _ _ _ => le_trans
      · simpa using fun _ _ => le_total _ _
    have distinct : (database.rowsOf collection).Pairwise fun left right =>
        left.path ≠ right.path := by
      have keys : ((database.rowsOf collection).map PathRow.key).Nodup := by
        have some := (Schema.Sound.filter sound fun row =>
          decide (row.collection = collection)).distinct
        exact ((List.mergeSort_perm _ _).map PathRow.key).nodup_iff.mpr some
      rw [List.nodup_iff_pairwise_ne, List.pairwise_map] at keys
      refine keys.imp_of_mem fun first second differs same => differs ?_
      exact Prod.ext ((listed _ first).2.trans (listed _ second).2.symm) same
    have strict := ordered.and distinct
    rw [rows, List.pairwise_map] at strict
    exact strict.imp fun both => lt_of_le_of_ne both.1 both.2

/-- The reads of one collection, and what they return. -/
structure Reads (database : Database) (collection : String) (states : List PathRecordState) :
    Prop where
  recordStates : database.recordStates collection = .ok states
  records : database.records collection = .ok (states.map PathRecordState.record)
  recordState : ∀ path, database.recordState collection path =
    .ok (states.find? (PathRecordState.hasPath path))
  record : ∀ path, database.record collection path =
    .ok ((states.find? (PathRecordState.hasPath path)).map
      PathRecordState.record)
  named : ∀ state ∈ states, state.record.collection = collection
  ordered : states.Pairwise fun left right => left.record.path.text < right.record.path.text

theorem Sound.find_states (sound : database.Sound) {collection : String}
    {states : List PathRecordState} (rows : database.rowsOf collection = states.map .of)
    (path : String) :
    Skillsync.pathRecords.find database.pathRecords (collection, path) =
      (states.find? (PathRecordState.hasPath path)).map .of := by
  have member (row : PathRow) : row ∈ database.pathRecords ∧ row.collection = collection ↔
      ∃ state ∈ states, PathRow.of state = row := by
    rw [← List.mem_map, ← rows, Database.rowsOf, List.mem_mergeSort, List.mem_filter,
      decide_eq_true_eq]
  cases found : states.find? (PathRecordState.hasPath path) with
  | some state =>
      obtain ⟨stored, named⟩ :=
        (member (.of state)).mpr ⟨state, List.mem_of_find?_eq_some found, rfl⟩
      have path : state.record.path.text = path :=
        PathRecordState.hasPath_iff.mp (List.find?_some found)
      rw [Option.map_some, ← Schema.Sound.find_key sound stored]
      exact congrArg _ (Prod.ext named.symm path.symm)
  | none =>
      rw [Option.map_none, Schema.find_none]
      intro present
      obtain ⟨row, stored, key⟩ := List.mem_map.mp present
      obtain ⟨named, same⟩ := Prod.mk.inj key
      obtain ⟨state, listed, rfl⟩ := (member row).mp ⟨stored, named⟩
      exact List.find?_eq_none.mp found state listed (PathRecordState.hasPath_iff.mpr same)

theorem Sound.reads (sound : database.Sound) (collection : String) :
    ∃ states, database.Reads collection states := by
  obtain ⟨states, rows, stored, ordered⟩ := sound.rowsOf collection
  have decoded : ∀ state ∈ states, decodePathRecordState (.of state) collection = .ok state := by
    intro state member
    obtain ⟨storable, rfl⟩ := stored state member
    exact decodePathRecordState_of storable
  have indexed : ∀ state ∈ states,
      decodeIndexedRecord (.of state) collection (PathRow.of state).path = .ok state.record := by
    intro state member
    obtain ⟨-, rfl⟩ := stored state member
    exact decodeIndexedRecord_of state
  refine ⟨states, ?_, ?_, fun path => ?_, fun path => ?_, fun state member =>
    (stored state member).2, ordered⟩
  · rw [Database.recordStates, rows, List.mapM_map]
    exact (mapM_eq_ok decoded).trans (by rw [List.map_id'])
  · rw [Database.records, rows, List.mapM_map]
    exact mapM_eq_ok indexed
  · rw [Database.recordState, sound.find_states rows]
    cases found : states.find? (PathRecordState.hasPath path) with
    | none => rfl
    | some state =>
        rw [Option.map_some, Option.mapM_some, decoded state (List.mem_of_find?_eq_some found)]
        rfl
  · rw [Database.record, sound.find_states rows]
    cases found : states.find? (PathRecordState.hasPath path) with
    | none => rfl
    | some state =>
        have same : (PathRow.of state).path = path :=
          PathRecordState.hasPath_iff.mp (List.find?_some found)
        rw [Option.map_some, Option.mapM_some, ← same,
          indexed state (List.mem_of_find?_eq_some found)]
        rfl

omit [Blake3] in
theorem storable_merged (record : Record) (sourcePeer : Option EndpointId) :
    (mergedRow record sourcePeer).Storable := by
  have fits := record.size_fits
  cases sourcePeer with
  | some peer => exact ⟨by simp [mergedRow], by simp [mergedRow]⟩
  | none =>
      cases kind : record.kind with
      | tombstone =>
          constructor
          · simp [mergedRow, recordFingerprint, kind, RecordKind.isFile]
          · simp [mergedRow, recordFingerprint, kind]
      | file size contentHash =>
          rw [kind, RecordKind.SizeFits] at fits
          constructor
          · simp [mergedRow, recordFingerprint, kind, RecordKind.isFile]
          · simpa [mergedRow, recordFingerprint, kind] using fits

theorem Sound.storeRow (sound : database.Sound) {state : PathRecordState}
    (storable : state.Storable) :
    Always (fun after => after.Sound ∧ Skillsync.pathRecords.find after.pathRecords
        (state.record.collection, state.record.path.text) = some (.of state))
      (· ≠ .check) (database.storeRow (.of state)) := by
  obtain ⟨rows, upserted, after⟩ := Schema.Sound.upsert sound ⟨state, storable, rfl⟩
    (PathRow.Written.admitted ⟨state, storable, rfl⟩)
  unfold Database.storeRow
  rw [upserted]
  dsimp only
  split
  · exact ⟨after, (Schema.find_upsert upserted).trans (if_pos rfl)⟩
  · exact DatabaseError.noConfusion

omit [Blake3] in
theorem signedSize_of {state : PathRecordState} (storable : state.Storable) :
    state.materializedFingerprint.mapM (fun value => signedSize value.size) =
      .ok (state.materializedFingerprint.map fun value => .clamp value.size) := by
  cases present : state.materializedFingerprint with
  | none => rfl
  | some fingerprint =>
      have signed : signedSize fingerprint.size = .ok (.clamp fingerprint.size) :=
        if_neg (Nat.not_le.mpr (storable.size fingerprint present))
      rw [Option.mapM_some, signed]
      rfl

/-- An upsert writes the row of the state that the merge means. -/
theorem upsertRecord_eq (database : Database) (record : Record) (sourcePeer : Option EndpointId) :
    database.upsertRecord record sourcePeer.isNone =
      database.storeRow (.of (mergedRow record sourcePeer)) := by
  unfold Database.upsertRecord
  show ((mergedRow record sourcePeer).materializedFingerprint.mapM
    (fun value => signedSize value.size) >>= _) = _
  rw [signedSize_of (storable_merged record sourcePeer), Except.ok_bind]
  rfl

theorem Sound.upsertRecord (sound : database.Sound) (record : Record)
    (sourcePeer : Option EndpointId) :
    Always (fun after => after.Sound ∧ Skillsync.pathRecords.find after.pathRecords
        (record.collection, record.path.text) = some (.of (mergedRow record sourcePeer)))
      (· ≠ .check) (database.upsertRecord record sourcePeer.isNone) := by
  rw [upsertRecord_eq]
  exact sound.storeRow (storable_merged record sourcePeer)

theorem Sound.mergeRecord (sound : database.Sound) (record : Record) (observedNs : I64)
    (sourcePeer : Option EndpointId) (maxLogs : Nat) :
    Always (fun done => done.1.Sound ∧ (done.2 = true →
        Skillsync.pathRecords.find done.1.pathRecords (record.collection, record.path.text) =
          some (.of (mergedRow record sourcePeer))))
      (· ≠ .check) (database.mergeRecord record observedNs sourcePeer maxLogs) := by
  obtain ⟨states, reads⟩ := sound.reads record.collection
  unfold Database.mergeRecord
  rw [reads.record, Except.ok_bind]
  generalize StateStore.accepts _ record = accepted
  generalize StateStore.mergeEvent _ record sourcePeer = event
  refine Always.bind (p := fun merged => merged.Sound ∧ (accepted = true →
    Skillsync.pathRecords.find merged.pathRecords (record.collection, record.path.text) =
      some (.of (mergedRow record sourcePeer)))) ?_ fun merged kept => ?_
  · cases accepted with
    | false => exact ⟨sound, Bool.noConfusion⟩
    | true =>
        have upserted := sound.upsertRecord record sourcePeer
        rw [if_pos rfl]
        cases written : database.upsertRecord record sourcePeer.isNone with
        | error reason =>
            rw [written] at upserted
            exact upserted
        | ok after =>
            rw [written] at upserted
            exact ⟨upserted.1, fun _ => upserted.2⟩
  · unfold Database.insertLog
    cases merged.logs.insertLog observedNs event maxLogs with
    | error reason => exact DatabaseError.noConfusion
    | ok logged => exact kept

end Database

namespace RecordOperation

theorem perform_sound {database : Database} (sound : database.Sound) (operation : RecordOperation) :
    Always Database.Sound (· ≠ .check) (operation.perform database) := by
  cases operation with
  | addCollection name localPath resolvedRoot =>
      exact sound.addCollection name localPath resolvedRoot
  | removeCollection name => exact sound.removeCollection name
  | replaceCollectionPath name localPath => exact sound.replaceCollectionPath name localPath
  | completeCollectionScan name localPath resolvedRoot =>
      exact (sound.completeCollectionScan name localPath resolvedRoot).map fun _ holds => holds
  | mergeRecord record observedNs sourcePeer maxLogs =>
      exact (sound.mergeRecord record observedNs sourcePeer maxLogs).map fun _ holds => holds.1
  | markRepairRequiredAndLog collection path createdNs event maxLogs =>
      exact sound.markRepairRequiredAndLog collection path createdNs event maxLogs
  | setMaterializedFingerprint collection path fingerprint =>
      exact sound.updateMaterializedFingerprint collection path fingerprint
  | markMaterializedAndLog collection path resolvedRoot fingerprint createdNs event maxLogs =>
      exact sound.markMaterializedAndLog collection path createdNs event maxLogs resolvedRoot
        fingerprint
  | markTombstoneMaterializedAndLog collection path createdNs event maxLogs =>
      exact sound.markTombstoneMaterializedAndLog collection path createdNs event maxLogs

theorem after_sound {database : Database} (sound : database.Sound) (operation : RecordOperation) :
    (operation.after database).Sound := by
  have kept := perform_sound sound operation
  unfold after
  cases done : operation.perform database with
  | error reason => exact sound
  | ok changed =>
      rw [done] at kept
      exact kept

/-- The tables after a sequence of operations. -/
def reached (operations : List RecordOperation) : Database := operations.foldl after .created

theorem reached_sound (operations : List RecordOperation) : (reached operations).Sound := by
  induction operations using List.reverseRecOn with
  | nil => exact Schema.Sound.nil
  | append_singleton front operation ih =>
      rw [reached, List.foldl_append]
      exact after_sound ih operation

end RecordOperation

/-- The three columns of the fingerprint are set. -/
def PathRow.HasFingerprint (row : PathRow) : Prop :=
  row.materializedModifiedNs.isSome = true ∧ row.materializedSize.isSome = true ∧
    row.materializedHash.isSome = true

/-- The three columns of the fingerprint are NULL. -/
def PathRow.LacksFingerprint (row : PathRow) : Prop :=
  row.materializedModifiedNs = none ∧ row.materializedSize = none ∧ row.materializedHash = none

theorem PathRow.Written.fingerprint {row : PathRow} (written : row.Written) :
    (row.kind = 1 ∧ row.materialized = 1 → row.HasFingerprint) ∧
      (¬ (row.kind = 1 ∧ row.materialized = 1) → row.LacksFingerprint) := by
  obtain ⟨state, storable, rfl⟩ := written
  have present := storable.present
  have columns : (PathRow.of state).kind = 1 ∧ (PathRow.of state).materialized = 1 ↔
      state.materializedFingerprint.isSome = true := by
    rw [present, Bool.and_eq_true]
    simp [PathRow.of]
  rw [columns]
  constructor
  · intro isSome
    simp [PathRow.HasFingerprint, PathRow.of, isSome]
  · intro isNone
    rw [Bool.not_eq_true, Option.isSome_eq_false_iff, Option.isNone_iff_eq_none] at isNone
    simp [PathRow.LacksFingerprint, PathRow.of, isNone]

/-- After any sequence of operations, failed ones among them, the rows of `path_records` have
distinct keys and agree with their canonical bytes, exactly the materialized files have a
fingerprint, every read succeeds, and no operation violates a `CHECK`. -/
theorem record_rows_consistent (operations : List RecordOperation) :
    ((RecordOperation.reached operations).pathRecords.map PathRow.key).Nodup ∧
    (∀ row ∈ (RecordOperation.reached operations).pathRecords, (∃ record, row.Holds record) ∧
      (row.kind = 1 ∧ row.materialized = 1 → row.HasFingerprint) ∧
      (¬ (row.kind = 1 ∧ row.materialized = 1) → row.LacksFingerprint)) ∧
    (∀ operation : RecordOperation,
      operation.perform (RecordOperation.reached operations) ≠ .error .check) ∧
    (∀ collection, ∃ states, (RecordOperation.reached operations).Reads collection states) ∧
    ∀ record observedNs sourcePeer maxLogs after,
      (RecordOperation.reached operations).mergeRecord record observedNs sourcePeer maxLogs =
        .ok (after, true) →
      record.kind = .tombstone → after.recordState record.collection record.path.text =
        .ok (some ⟨record, sourcePeer.isNone, none⟩) := by
  have sound := RecordOperation.reached_sound operations
  refine ⟨sound.distinct, ?_, ?_, fun collection => sound.reads collection, ?_⟩
  · intro row listed
    have written := sound.written row listed
    refine ⟨?_, written.fingerprint⟩
    obtain ⟨state, -, rfl⟩ := written
    exact ⟨state.record, PathRow.holds_of state⟩
  · intro operation violated
    have kept := RecordOperation.perform_sound sound operation
    rw [violated] at kept
    exact kept rfl
  · intro record observedNs sourcePeer maxLogs after merged tombstone
    have kept := sound.mergeRecord record observedNs sourcePeer maxLogs
    rw [merged] at kept
    have row : mergedRow record sourcePeer = ⟨record, sourcePeer.isNone, none⟩ := by
      simp [mergedRow, recordFingerprint, tombstone]
    have decoded := Database.decodePathRecordState_of (Database.storable_merged record sourcePeer)
    rw [Database.recordState, kept.2 rfl, Option.mapM_some, ← row]
    rw [show (mergedRow record sourcePeer).record.collection = record.collection
      from rfl] at decoded
    rw [decoded]
    rfl

end Skillsync
