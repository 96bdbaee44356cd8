import Skillsync.PathRecordsSpec
import Skillsync.RosterCodec
import Skillsync.ScanSpec

set_option autoImplicit false

namespace Skillsync

open Fallible Tables

variable [Blake3]

namespace RecordOperation

/-- The key of a row, whose path the store reads as one of the protocol. -/
def keyOf (collection path : String) : Except StateError RecordKey :=
  match ProtocolPath.parse path with
  | .ok path => .ok ⟨collection, path⟩
  | .error _ => .error .missingPathRecord

/-- The transaction of an operation on a store. -/
def transaction (store : StateStore) : RecordOperation → Except StateError StateStore
  | addCollection name localPath resolvedRoot => store.addCollection name localPath resolvedRoot
  | removeCollection name => .ok (store.removeCollection name).1
  | replaceCollectionPath name localPath => store.replaceCollectionPath name localPath
  | completeCollectionScan name localPath resolvedRoot =>
      (store.completeCollectionScan name localPath resolvedRoot).map Prod.fst
  | mergeRecord record observedNs sourcePeer maxLogs =>
      (store.mergeRecord record observedNs sourcePeer maxLogs).map Prod.fst
  | markRepairRequiredAndLog collection path createdNs event maxLogs => do
      store.markRepairRequiredAndLog (← keyOf collection path) createdNs event maxLogs
  | setMaterializedFingerprint collection path fingerprint => do
      store.setMaterializedFingerprint (← keyOf collection path) fingerprint
  | markMaterializedAndLog collection path resolvedRoot fingerprint createdNs event maxLogs => do
      store.markMaterializedAndLog (← keyOf collection path) resolvedRoot fingerprint createdNs
        event maxLogs
  | markTombstoneMaterializedAndLog collection path createdNs event maxLogs => do
      store.markTombstoneMaterializedAndLog (← keyOf collection path) createdNs event maxLogs

/-- The store after an operation: a transaction that fails leaves it as it was. -/
def committed (store : StateStore) (operation : RecordOperation) : StateStore :=
  match operation.transaction store with
  | .ok changed => changed
  | .error _ => store

/-- The arguments are a path of the protocol, and for a scan the path of a directory. -/
def Typed : RecordOperation → Prop
  | completeCollectionScan _ localPath _ => localPath ≠ ""
  | markRepairRequiredAndLog _ path _ _ _ | setMaterializedFingerprint _ path _
  | markMaterializedAndLog _ path _ _ _ _ _ | markTombstoneMaterializedAndLog _ path _ _ _ =>
      ∃ parsed : ProtocolPath, parsed.text = path
  | _ => True

omit [Blake3] in
theorem keyOf_text (collection : String) (path : ProtocolPath) :
    keyOf collection path.text = .ok ⟨collection, path⟩ := by
  rw [keyOf, ProtocolPath.parse_text]

end RecordOperation

namespace Database

/-- The tables that a store reads: each row as the state that it holds. -/
structure Mirrors (database : Database) (store : StateStore) : Prop where
  sound : database.Sound
  collections : database.collections = store.collections
  operationalLogs : database.operationalLogs = store.operationalLogs
  logSequence : database.logSequence = store.logSequence
  storable : ∀ {key state}, store.recordState key = some state → state.Storable
  rows : ∀ key : RecordKey,
    Skillsync.pathRecords.find database.pathRecords (key.collection, key.path.text) =
      (store.recordState key).map .of

/-- Both transactions commit, or both fail for the same reason. -/
def Agrees : Except DatabaseError Database → Except StateError StateStore → Prop
  | .ok database, .ok store => database.Mirrors store
  | .error (.state reason), .error other => reason = other
  | _, _ => False

theorem Agrees.bind {first : Except DatabaseError Database} {second : Except StateError StateStore}
    {next : Database → Except DatabaseError Database}
    {later : StateStore → Except StateError StateStore} (agrees : Agrees first second)
    (continues : ∀ database store, database.Mirrors store → Agrees (next database) (later store)) :
    Agrees (first >>= next) (second >>= later) := by
  cases first with
  | ok database =>
      cases second with
      | ok store => exact continues database store agrees
      | error reason => exact agrees.elim
  | error reason =>
      cases second with
      | ok store => cases reason <;> exact agrees.elim
      | error other => cases reason <;> exact agrees

variable {database : Database} {store : StateStore}

theorem mirrors_created : created.Mirrors .empty where
  sound := Schema.Sound.nil
  collections := rfl
  operationalLogs := rfl
  logSequence := rfl
  storable := by
    intro key state present
    simp [StateStore.recordState, StateStore.empty] at present
  rows key := by simp [StateStore.recordState, StateStore.empty, created, Schema.find]

namespace Mirrors

theorem keyed (mirrors : database.Mirrors store) {key : RecordKey} {state : PathRecordState}
    (present : store.recordState key = some state) : state.record.key = key := by
  have found := mirrors.rows key
  rw [present] at found
  obtain ⟨collection, path⟩ := Prod.mk.inj (Schema.find_some found).2
  obtain ⟨named, place⟩ := key
  exact congrArg₂ RecordKey.mk collection (ProtocolPath.ext_text path)

/-- A store that reads the same tables. -/
theorem of_rows (mirrors : database.Mirrors store) {other : StateStore}
    (collections : other.collections = store.collections)
    (operationalLogs : other.operationalLogs = store.operationalLogs)
    (logSequence : other.logSequence = store.logSequence)
    (same : ∀ key, other.recordState key = store.recordState key) :
    database.Mirrors other where
  sound := mirrors.sound
  collections := mirrors.collections.trans collections.symm
  operationalLogs := mirrors.operationalLogs.trans operationalLogs.symm
  logSequence := mirrors.logSequence.trans logSequence.symm
  storable present := mirrors.storable (same _ ▸ present)
  rows key := same key ▸ mirrors.rows key

theorem withCollections (mirrors : database.Mirrors store)
    (collections : OrderedMap String CollectionState) :
    Mirrors { database with collections } { store with collections } where
  sound := mirrors.sound
  collections := rfl
  operationalLogs := mirrors.operationalLogs
  logSequence := mirrors.logSequence
  storable := mirrors.storable
  rows := mirrors.rows

theorem insertLog (mirrors : database.Mirrors store) (createdNs : I64) (event : OperationalEvent)
    (maxLogs : Nat) :
    Agrees (database.insertLog createdNs event maxLogs)
      (store.insertLog createdNs event maxLogs) := by
  unfold Database.insertLog StateStore.insertLog
  cases validateOperationalEvent event with
  | error reason => rfl
  | ok _ =>
      simp only [Except.ok_bind]
      split
      · rfl
      split
      · rfl
      · have logs : database.logs.operationalLogs = store.operationalLogs := mirrors.operationalLogs
        have sequence : database.logs.logSequence = store.logSequence := mirrors.logSequence
        rw [logs, sequence]
        exact ⟨mirrors.sound, mirrors.collections, rfl, rfl, mirrors.storable, mirrors.rows⟩

variable {selects : PathRow → Bool} {set : PathRow → PathRow}

/-- An `UPDATE` changes the rows as the store changes its states. -/
theorem updateRows (mirrors : database.Mirrors store) (keeps : ∀ row, (set row).key = row.key)
    (change : RecordKey → PathRecordState → PathRecordState)
    (changes : ∀ state : PathRecordState, state.Storable →
      Schema.changed selects set (.of state) = .of (change state.record.key state) ∧
        (change state.record.key state).Storable) :
    ∃ after, database.updateRows selects set =
        .ok (after, database.pathRecords.countP selects) ∧
      after.Mirrors { store with pathRecords := store.pathRecords.map change } := by
  have writes : ∀ row : PathRow, row.Written → selects row = true → (set row).Written := by
    rintro row ⟨state, storable, rfl⟩ selected
    obtain ⟨changed, kept⟩ := changes state storable
    rw [Schema.changed, if_pos selected] at changed
    exact ⟨_, kept, changed⟩
  obtain ⟨updated, sound⟩ :=
    Schema.Sound.update mirrors.sound keeps (fun _ written => written.admitted) writes
  refine ⟨{ database with pathRecords := database.pathRecords.map (Schema.changed selects set) },
    ?_, ?_⟩
  · rw [Database.updateRows, updated]
  · refine ⟨sound, mirrors.collections, mirrors.operationalLogs, mirrors.logSequence, ?_, ?_⟩
    · intro key state present
      rw [StateStore.recordState_map, Option.map_eq_some_iff] at present
      obtain ⟨old, found, rfl⟩ := present
      have kept := (changes old (mirrors.storable found)).2
      rwa [mirrors.keyed found] at kept
    · intro key
      rw [Schema.find_map (Schema.key_changed keeps), mirrors.rows, StateStore.recordState_map]
      cases found : store.recordState key with
      | none => rfl
      | some old =>
          have changed := (changes old (mirrors.storable found)).1
          rw [mirrors.keyed found] at changed
          exact congrArg some changed

/-- What selects the row of one key, where its record is of one kind. -/
abbrev selectsRow (key : RecordKey) (kind : Int) (row : PathRow) : Bool :=
  decide (row.collection = key.collection ∧ row.path = key.path.text ∧ row.kind = kind)

/-- An `UPDATE` of the row of one key. -/
theorem updateRow (mirrors : database.Mirrors store) (key : RecordKey) (set : PathRow → PathRow)
    (isFile : Bool) (kind : Int)
    (kinds : ∀ state : PathRecordState,
      (PathRow.of state).kind = kind ↔ state.record.kind.isFile = isFile)
    (next : PathRecordState → PathRecordState) (keeps : ∀ row, (set row).key = row.key)
    (sets : ∀ state : PathRecordState, state.Storable → state.record.kind.isFile = isFile →
      set (.of state) = .of (next state) ∧ (next state).Storable) :
    ∃ after updated, database.updateRows (selectsRow key kind) set = .ok (after, updated) ∧
      match (store.recordState key).filter fun state => state.record.kind.isFile = isFile with
      | none => updated ≠ 1
      | some state => updated = 1 ∧
          after.Mirrors { store with
            pathRecords := store.pathRecords.insert key (next state) } := by
  have selected : ∀ state : PathRecordState, selectsRow key kind (.of state) = true ↔
      state.record.key = key ∧ state.record.kind.isFile = isFile := by
    intro state
    rw [selectsRow, decide_eq_true_eq, kinds]
    constructor
    · rintro ⟨collection, path, named⟩
      exact ⟨congrArg₂ RecordKey.mk collection (ProtocolPath.ext_text path), named⟩
    · rintro ⟨rfl, named⟩
      exact ⟨rfl, rfl, named⟩
  have changes : ∀ state : PathRecordState, state.Storable →
      Schema.changed (selectsRow key kind) set (.of state) =
        .of (if state.record.key = key ∧ state.record.kind.isFile = isFile then next state
          else state) ∧
      PathRecordState.Storable (if state.record.key = key ∧ state.record.kind.isFile = isFile then
        next state else state) := by
    intro state storable
    unfold Schema.changed
    by_cases met : state.record.key = key ∧ state.record.kind.isFile = isFile
    · rw [if_pos ((selected state).mpr met), if_pos met]
      exact sets state storable met.2
    · rw [if_neg (fun holds => met ((selected state).mp holds)), if_neg met]
      exact ⟨rfl, storable⟩
  obtain ⟨after, updated, changed⟩ := mirrors.updateRows keeps (fun other state =>
    if other = key ∧ state.record.kind.isFile = isFile then next state else state) changes
  have named : ∀ row, selectsRow key kind row = true →
      Skillsync.pathRecords.key row = (key.collection, key.path.text) := by
    intro row selects
    obtain ⟨collection, path, -⟩ := of_decide_eq_true selects
    exact Prod.ext collection path
  have counted := Schema.countP_key mirrors.sound.distinct named
  refine ⟨after, _, updated, ?_⟩
  rw [counted, mirrors.rows]
  cases found : store.recordState key with
  | none => simp
  | some state =>
      have here := mirrors.keyed found
      by_cases named : state.record.kind.isFile = isFile
      · have one : ((some state).map PathRow.of).any (selectsRow key kind) = true :=
          (selected state).mpr ⟨here, named⟩
        rw [Option.filter_some, if_pos (decide_eq_true named), one, if_pos rfl]
        refine ⟨rfl, changed.of_rows rfl rfl rfl fun other => ?_⟩
        rw [StateStore.recordState_map, StateStore.recordState, OrderedMap.getElem?_insert]
        by_cases same : key = other
        · subst same
          rw [if_pos rfl, found, Option.map_some, if_pos ⟨rfl, named⟩]
        · rw [if_neg same]
          simp only [Ne.symm same, false_and, if_false, Option.map_id']
          rfl
      · have zero : ((some state).map PathRow.of).any (selectsRow key kind) = false := by
          rw [Bool.eq_false_iff]
          exact fun met => named ((selected state).mp met).2
        rw [Option.filter_some, if_neg (by simpa using named), zero]
        simp

/-- An `UPDATE` that takes the fingerprints of the files of a collection. -/
theorem repair (mirrors : database.Mirrors store) (selects : PathRow → Bool) (name : String)
    (spared : Option ProtocolPath)
    (selected : ∀ state : PathRecordState, selects (.of state) = true ↔
      state.record.key.collection = name ∧ spared ≠ some state.record.key.path ∧
        state.record.kind.isFile = true) :
    ∃ after, database.updateRows selects repairColumns =
        .ok (after, database.pathRecords.countP selects) ∧
      after.Mirrors { store with
        pathRecords := store.pathRecords.map (StateStore.unmaterialized name spared) } := by
  refine mirrors.updateRows ?_ (StateStore.unmaterialized name spared) ?_
  · exact fun _ => rfl
  intro state storable
  unfold Schema.changed StateStore.unmaterialized
  by_cases met : selects (.of state) = true
  · rw [if_pos met, if_pos ((selected state).mp met)]
    exact ⟨rfl, by simp, by simp⟩
  · rw [if_neg met, if_neg fun holds => met ((selected state).mpr holds)]
    exact ⟨rfl, storable⟩

theorem repairOthers (mirrors : database.Mirrors store) (key : RecordKey) :
    ∃ after updated, database.updateRows
        (fun row => decide (row.collection = key.collection ∧ row.path ≠ key.path.text ∧
          row.kind = 1)) repairColumns = .ok (after, updated) ∧
      after.Mirrors { store with
        pathRecords :=
          store.pathRecords.map (StateStore.unmaterialized key.collection (some key.path)) } := by
  have selected : ∀ state : PathRecordState,
      decide ((PathRow.of state).collection = key.collection ∧
        (PathRow.of state).path ≠ key.path.text ∧ (PathRow.of state).kind = 1) = true ↔
      state.record.key.collection = key.collection ∧ some key.path ≠ some state.record.key.path ∧
        state.record.kind.isFile = true := by
    intro state
    have paths : (PathRow.of state).path ≠ key.path.text ↔
        some key.path ≠ some state.record.key.path := by
      refine not_congr ⟨fun same => ?_, fun same => ?_⟩
      · exact congrArg some (ProtocolPath.ext_text same).symm
      · exact congrArg ProtocolPath.text (Option.some.inj same).symm
    rw [decide_eq_true_eq, isFile_of, paths]
    exact Iff.rfl
  obtain ⟨after, ran, repaired⟩ := mirrors.repair
    (fun row => decide (row.collection = key.collection ∧ row.path ≠ key.path.text ∧ row.kind = 1))
    key.collection (some key.path) selected
  exact ⟨after, _, ran, repaired⟩

theorem repairAll (mirrors : database.Mirrors store) (name : String) :
    ∃ after updated, database.updateRows
        (fun row => decide (row.collection = name ∧ row.kind = 1)) repairColumns =
          .ok (after, updated) ∧
      after.Mirrors { store with
        pathRecords := store.pathRecords.map (StateStore.unmaterialized name none) } := by
  have selected : ∀ state : PathRecordState,
      decide ((PathRow.of state).collection = name ∧ (PathRow.of state).kind = 1) = true ↔
      state.record.key.collection = name ∧ none ≠ some state.record.key.path ∧
        state.record.kind.isFile = true := by
    intro state
    rw [decide_eq_true_eq, isFile_of]
    simp [PathRow.of, Record.key]
  obtain ⟨after, ran, repaired⟩ := mirrors.repair
    (fun row => decide (row.collection = name ∧ row.kind = 1)) name none selected
  exact ⟨after, _, ran, repaired⟩

omit [Blake3] in
theorem fileRow_filter (store : StateStore) (key : RecordKey) :
    store.fileRow key =
      match (store.recordState key).filter fun state => state.record.kind.isFile = true with
      | some state => .ok state
      | none => .error .missingPathRecord := by
  unfold StateStore.fileRow
  cases store.recordState key with
  | none => rfl
  | some state =>
      rw [Option.filter_some]
      by_cases isFile : state.record.kind.isFile = true
      · rw [if_pos (decide_eq_true isFile)]
        exact if_pos isFile
      · rw [if_neg (by simpa using isFile)]
        exact if_neg isFile

section operations
variable (createdNs : I64) (event : OperationalEvent) (maxLogs : Nat)

theorem markRepairRequiredAndLog (mirrors : database.Mirrors store) (key : RecordKey) :
    Agrees (database.markRepairRequiredAndLog key.collection key.path.text createdNs event maxLogs)
      (store.markRepairRequiredAndLog key createdNs event maxLogs) := by
  obtain ⟨after, updated, ran, outcome⟩ := mirrors.updateRow key repairColumns true 1
    (fun _ => isFile_of) (fun state => ⟨state.record, false, none⟩) (fun _ => rfl)
    fun state _ _ => ⟨rfl, by simp, by simp⟩
  unfold Database.markRepairRequiredAndLog StateStore.markRepairRequiredAndLog
  rw [ran, Except.ok_bind, fileRow_filter]
  cases found : (store.recordState key).filter fun state => state.record.kind.isFile = true with
  | none =>
      rw [found] at outcome
      dsimp only
      rw [if_pos outcome]
      rfl
  | some state =>
      rw [found] at outcome
      obtain ⟨rfl, marked⟩ := outcome
      exact marked.insertLog createdNs event maxLogs

theorem updateMaterializedFingerprint (mirrors : database.Mirrors store) (key : RecordKey)
    (fingerprint : FileFingerprint) :
    Agrees (database.updateMaterializedFingerprint key.collection key.path.text fingerprint)
      (store.updateMaterializedFingerprint key fingerprint) := by
  unfold Database.updateMaterializedFingerprint StateStore.updateMaterializedFingerprint signedSize
  by_cases large : 2 ^ 63 ≤ fingerprint.size
  · rw [if_pos large, if_pos large]
    rfl
  · rw [if_neg large, if_neg large, Except.ok_bind, fileRow_filter]
    obtain ⟨after, updated, ran, outcome⟩ := mirrors.updateRow key
      (fingerprintColumns fingerprint (.clamp fingerprint.size)) true 1 (fun _ => isFile_of)
      (fun state => ⟨state.record, true, some fingerprint⟩) (fun _ => rfl) (by
        intro state _ isFile
        refine ⟨rfl, by simp [isFile], ?_⟩
        rintro other same
        cases same
        exact Nat.not_le.mp large)
    rw [ran, Except.ok_bind]
    cases found : (store.recordState key).filter fun state => state.record.kind.isFile = true with
    | none =>
        rw [found] at outcome
        dsimp only
        rw [if_pos outcome]
        rfl
    | some state =>
        rw [found] at outcome
        obtain ⟨rfl, marked⟩ := outcome
        exact marked

theorem markTombstoneMaterializedAndLog (mirrors : database.Mirrors store) (key : RecordKey) :
    Agrees
      (database.markTombstoneMaterializedAndLog key.collection key.path.text createdNs
        event maxLogs)
      (store.markTombstoneMaterializedAndLog key createdNs event maxLogs) := by
  obtain ⟨after, updated, ran, outcome⟩ := mirrors.updateRow key materializedColumn false 0
    (fun _ => not_isFile_of) (fun state => ⟨state.record, true, state.materializedFingerprint⟩)
    (fun _ => rfl) (by
      intro state storable tombstone
      have present := storable.present
      rw [tombstone, Bool.false_and] at present
      refine ⟨rfl, ?_, storable.size⟩
      rw [present, tombstone, Bool.false_and])
  unfold Database.markTombstoneMaterializedAndLog StateStore.markTombstoneMaterializedAndLog
  rw [ran, Except.ok_bind]
  cases found : store.recordState key with
  | none =>
      rw [found] at outcome
      have differs : updated ≠ 1 := outcome
      dsimp only
      rw [if_pos differs]
      rfl
  | some state =>
      rw [found] at outcome
      by_cases tombstone : state.record.kind = .tombstone
      · rw [Option.filter_some, if_pos (by simp [tombstone, RecordKind.isFile])] at outcome
        obtain ⟨rfl, marked⟩ := outcome
        dsimp only
        rw [if_pos tombstone]
        exact marked.insertLog createdNs event maxLogs
      · have isFile : state.record.kind.isFile = true := by
          cases kind : state.record.kind with
          | tombstone => exact absurd kind tombstone
          | file size contentHash => rfl
        rw [Option.filter_some, if_neg (by simp [isFile])] at outcome
        dsimp only
        rw [if_pos outcome, if_neg tombstone]
        rfl

theorem bindRoot (mirrors : database.Mirrors store) (key : RecordKey) (stored : CollectionState)
    (resolvedRoot : RootPath) :
    ∃ after, database.bindRoot key.collection key.path.text stored resolvedRoot = .ok after ∧
      after.Mirrors (if stored.resolvedRoot = some resolvedRoot then store
        else { store with
          collections := store.collections.insert key.collection
            { stored with resolvedRoot := some resolvedRoot }
          pathRecords :=
            store.pathRecords.map
              (StateStore.unmaterialized key.collection (some key.path)) }) := by
  unfold Database.bindRoot
  split
  · exact ⟨database, rfl, mirrors⟩
  · have bound := mirrors.withCollections (store.collections.insert key.collection
      { stored with resolvedRoot := some resolvedRoot })
    obtain ⟨after, updated, ran, repaired⟩ := bound.repairOthers key
    refine ⟨after, ?_, repaired⟩
    rw [mirrors.collections]
    dsimp only
    rw [ran]
    rfl

theorem markMaterializedAndLog (mirrors : database.Mirrors store) (key : RecordKey)
    (resolvedRoot : RootPath) (fingerprint : FileFingerprint) :
    Agrees
      (database.markMaterializedAndLog key.collection key.path.text resolvedRoot fingerprint
        createdNs event maxLogs)
      (store.markMaterializedAndLog key resolvedRoot fingerprint createdNs event maxLogs) := by
  unfold Database.markMaterializedAndLog StateStore.markMaterializedAndLog
  rw [mirrors.collections]
  cases store.collections[key.collection]? with
  | none => rfl
  | some stored =>
      obtain ⟨after, ran, rebound⟩ := mirrors.bindRoot key stored resolvedRoot
      dsimp only
      rw [ran, Except.ok_bind]
      apply (rebound.updateMaterializedFingerprint key fingerprint).bind
      intro database store marked
      exact marked.insertLog createdNs event maxLogs

end operations

section collections
variable (name localPath : String)

theorem addCollection (mirrors : database.Mirrors store) (resolvedRoot : Option RootPath) :
    Agrees (database.addCollection name localPath resolvedRoot)
      (store.addCollection name localPath resolvedRoot) := by
  unfold Database.addCollection StateStore.addCollection
  rw [mirrors.collections]
  split
  · rfl
  · exact mirrors.withCollections _

theorem removeCollection (mirrors : database.Mirrors store) :
    (database.removeCollection name).1.Mirrors (store.removeCollection name).1 := by
  unfold Database.removeCollection StateStore.removeCollection
  rw [mirrors.collections]
  split
  · have kept : ∀ key, StateStore.recordState
        { store with
          collections := store.collections.erase name
          pathRecords :=
            store.pathRecords.filter fun key _ => decide (key.collection ≠ name) } key =
          (store.recordState key).filter fun _ => decide (key.collection ≠ name) := by
      intro key
      simp only [StateStore.recordState, Std.ExtTreeMap.getElem?_filter']
    refine ⟨Schema.Sound.filter mirrors.sound _, rfl, mirrors.operationalLogs,
      mirrors.logSequence, ?_, ?_⟩
    · intro key state present
      rw [kept, Option.filter_eq_some_iff] at present
      exact mirrors.storable present.1
    · intro key
      rw [kept, Schema.Sound.find_filter mirrors.sound, mirrors.rows]
      cases found : store.recordState key with
      | none => rfl
      | some state =>
          have named : (PathRow.of state).collection = key.collection :=
            congrArg RecordKey.collection (mirrors.keyed found)
          rw [Option.map_some, Option.filter_some, Option.filter_some, named]
          split <;> rfl
  · exact mirrors

theorem completeCollectionScan (mirrors : database.Mirrors store) (resolvedRoot : RootPath)
    (named : localPath ≠ "") :
    Agrees ((database.completeCollectionScan name localPath resolvedRoot).map Prod.fst)
      ((store.completeCollectionScan name localPath resolvedRoot).map Prod.fst) := by
  unfold Database.completeCollectionScan StateStore.completeCollectionScan
  rw [mirrors.collections]
  cases store.collections[name]? with
  | none => rfl
  | some stored =>
      have bound := mirrors.withCollections (store.collections.insert name
        { stored with
          localPath := localPath, resolvedRoot := some resolvedRoot, scanStatus := .active })
      dsimp only
      rw [if_neg named]
      by_cases changed : stored.resolvedRoot = some resolvedRoot
      · simp only [changed, ne_eq, not_true_eq_false, decide_false, Bool.false_eq_true, if_false]
        exact bound
      · obtain ⟨after, updated, ran, repaired⟩ := bound.repairAll name
        simp only [changed, ne_eq, not_false_eq_true, decide_true, if_true]
        rw [ran, Except.ok_bind]
        exact repaired

theorem pointCollection (mirrors : database.Mirrors store) :
    Agrees (database.pointCollection name localPath)
      ((store.collections[name]?).elim (.ok store) fun _ =>
        if localPath = "" then .error .sqlite
        else .ok { store with
          collections := store.collections.insert name
            ⟨localPath, none, .pending, .pending⟩ }) := by
  unfold Database.pointCollection
  rw [mirrors.collections]
  cases store.collections[name]? with
  | none => exact mirrors
  | some stored =>
      dsimp only
      split
      · rfl
      · exact mirrors.withCollections _

theorem replaceCollectionPath (mirrors : database.Mirrors store) :
    Agrees (database.replaceCollectionPath name localPath)
      (store.replaceCollectionPath name localPath) := by
  have pointed := mirrors.pointCollection name localPath
  have repaired : Agrees
      (database.pointCollection name localPath >>= fun pointed => do
        let rebound ← pointed.updateRows
          (fun row => decide (row.collection = name ∧ row.kind = 1)) repairColumns
        return rebound.1)
      (((store.collections[name]?).elim (.ok store) fun _ =>
        if localPath = "" then .error .sqlite
        else .ok { store with
          collections :=
            store.collections.insert name ⟨localPath, none, .pending, .pending⟩ }) >>=
        fun store => .ok { store with
          pathRecords := store.pathRecords.map (StateStore.unmaterialized name none) }) := by
    apply pointed.bind
    intro database store mirrors
    obtain ⟨after, updated, ran, repaired⟩ := mirrors.repairAll name
    rw [ran, Except.ok_bind]
    exact repaired
  unfold Database.replaceCollectionPath
  convert repaired using 1
  unfold StateStore.replaceCollectionPath
  cases store.collections[name]? with
  | none => rfl
  | some stored =>
      dsimp only
      split <;> rfl

end collections

theorem record (mirrors : database.Mirrors store) (key : RecordKey) :
    database.record key.collection key.path.text = .ok (store.record key) := by
  rw [Database.record, mirrors.rows, StateStore.record]
  cases found : store.recordState key with
  | none => rfl
  | some state =>
      have decoded := decodeIndexedRecord_of state
      rw [show state.record.collection = key.collection from
          congrArg RecordKey.collection (mirrors.keyed found),
        show state.record.path.text = key.path.text from
          congrArg (fun named : RecordKey => named.path.text) (mirrors.keyed found)] at decoded
      rw [Option.map_some, Option.mapM_some, decoded]
      rfl

theorem recordState (mirrors : database.Mirrors store) (key : RecordKey) :
    database.recordState key.collection key.path.text = .ok (store.recordState key) := by
  rw [Database.recordState, mirrors.rows]
  cases found : store.recordState key with
  | none => rfl
  | some state =>
      have decoded := decodePathRecordState_of (mirrors.storable found)
      rw [show state.record.collection = key.collection from
        congrArg RecordKey.collection (mirrors.keyed found)] at decoded
      rw [Option.map_some, Option.mapM_some, decoded]
      rfl

/-- The rows of a collection, in path order. -/
theorem recordStates_ordered (mirrors : database.Mirrors store) (collection : String) :
    (store.recordStates collection).Pairwise fun left right =>
      left.record.path.text < right.record.path.text := by
  rw [StateStore.recordStates, List.pairwise_map]
  refine ((OrderedMap.toList_ascending store.pathRecords).filter _).imp_of_mem ?_
  rintro ⟨key, row⟩ ⟨other, later⟩ first second less
  simp only [List.mem_filter, Std.ExtTreeMap.mem_toList_iff_getElem?_eq_some,
    decide_eq_true_eq] at first second
  have left : row.record.path = key.path := congrArg RecordKey.path (mirrors.keyed first.1)
  have right : later.record.path = other.path := congrArg RecordKey.path (mirrors.keyed second.1)
  show row.record.path.text < later.record.path.text
  rw [left, right]
  rcases Prod.Lex.toLex_lt_toLex.mp less with apart | ⟨-, paths⟩
  · exact absurd (first.2.trans second.2.symm) (ne_of_lt apart)
  · exact paths

/-- The rows of a collection are listed in the same order. -/
theorem recordStates (mirrors : database.Mirrors store) (collection : String) :
    database.recordStates collection = .ok (store.recordStates collection) := by
  obtain ⟨states, reads⟩ := mirrors.sound.reads collection
  have looked : ∀ path : ProtocolPath,
      states.find? (PathRecordState.hasPath path.text) = store.recordState ⟨collection, path⟩ :=
    fun path => Except.ok.inj ((reads.recordState path.text).symm.trans
      (mirrors.recordState ⟨collection, path⟩))
  have distinct : (states.map fun state => state.record.path.text).Nodup := by
    rw [List.nodup_iff_pairwise_ne, List.pairwise_map]
    exact reads.ordered.imp fun less => ne_of_lt less
  have members : ∀ state, state ∈ states ↔ state ∈ store.recordStates collection := by
    intro state
    rw [StateStore.mem_recordStates]
    constructor
    · intro listed
      refine ⟨state.record.path, (looked state.record.path).symm.trans ?_⟩
      have present : (states.find? (PathRecordState.hasPath state.record.path.text)).isSome :=
        List.find?_isSome.mpr ⟨state, listed, PathRecordState.hasPath_iff.mpr rfl⟩
      obtain ⟨other, found⟩ := Option.isSome_iff_exists.mp present
      have same := PathRecordState.hasPath_iff.mp (List.find?_some found)
      have one := List.inj_on_of_nodup_map distinct (List.mem_of_find?_eq_some found) listed same
      rw [found, one]
    · rintro ⟨path, present⟩
      exact List.mem_of_find?_eq_some ((looked path).trans present)
  have ordered := mirrors.recordStates_ordered collection
  have apart : ∀ {left right : PathRecordState},
      left.record.path.text < right.record.path.text → left ≠ right :=
    fun less => ne_of_apply_ne (fun state => state.record.path.text) (ne_of_lt less)
  have same : states.Perm (store.recordStates collection) :=
    (List.perm_ext_iff_of_nodup (reads.ordered.imp apart) (ordered.imp apart)).mpr members
  rw [reads.recordStates]
  apply congrArg Except.ok
  apply same.eq_of_pairwise _ reads.ordered ordered
  exact fun _ _ _ _ less greater => absurd less (lt_asymm greater)

theorem records (mirrors : database.Mirrors store) (collection : String) :
    database.records collection = .ok (store.records collection) := by
  obtain ⟨states, reads⟩ := mirrors.sound.reads collection
  have same := reads.recordStates.symm.trans (mirrors.recordStates collection)
  rw [reads.records, StateStore.records, Except.ok.inj same]

theorem upsertRecord (mirrors : database.Mirrors store) (record : Record)
    (sourcePeer : Option EndpointId) :
    Agrees (database.upsertRecord record sourcePeer.isNone)
      (store.upsertRecord record sourcePeer.isNone) := by
  have storable := storable_merged record sourcePeer
  have written : (PathRow.of (StateStore.mergedRow record sourcePeer)).Written := ⟨_, storable, rfl⟩
  obtain ⟨rows, upserted, sound⟩ := Schema.Sound.upsert mirrors.sound written written.admitted
  rw [upsertRecord_eq, Database.storeRow, upserted, StateStore.upsertRecord, mirrors.collections]
  show Agrees (if (store.collections[record.collection]?).isSome then _ else _) _
  split
  · have changed : ∀ key, StateStore.recordState
        { store with
          pathRecords :=
            store.pathRecords.insert record.key (StateStore.mergedRow record sourcePeer) } key =
          if record.key = key then some (StateStore.mergedRow record sourcePeer)
          else store.recordState key := fun key => OrderedMap.getElem?_insert ..
    show Mirrors _ { store with
      pathRecords :=
        store.pathRecords.insert record.key (StateStore.mergedRow record sourcePeer) }
    refine ⟨sound, rfl, mirrors.operationalLogs, mirrors.logSequence, ?_, ?_⟩
    · intro key state present
      rw [changed] at present
      split at present
      · cases present
        exact storable
      · exact mirrors.storable present
    · intro key
      rw [changed, Schema.find_upsert upserted, mirrors.rows]
      have keys : Skillsync.pathRecords.key (.of (StateStore.mergedRow record sourcePeer)) =
          (key.collection, key.path.text) ↔ record.key = key := by
        constructor
        · intro same
          obtain ⟨collection, path⟩ := Prod.mk.inj same
          exact congrArg₂ RecordKey.mk collection (ProtocolPath.ext_text path)
        · rintro rfl
          rfl
      by_cases same : record.key = key
      · rw [if_pos (keys.mpr same), if_pos same]
        rfl
      · rw [if_neg fun equal => same (keys.mp equal), if_neg same]
  · rfl

omit [Blake3] in
theorem map_fst_bind {ε α β : Type} (first : Except ε α) (next : α → Except ε α) (second : β) :
    (first >>= fun value => next value >>= fun result => pure (result, second)).map Prod.fst =
      first >>= next := by
  cases first with
  | error reason => rfl
  | ok value =>
      rw [Except.ok_bind, Except.ok_bind]
      cases next value <;> rfl

theorem mergeRecord (mirrors : database.Mirrors store) (record : Record) (observedNs : I64)
    (sourcePeer : Option EndpointId) (maxLogs : Nat) :
    Agrees ((database.mergeRecord record observedNs sourcePeer maxLogs).map Prod.fst)
      ((store.mergeRecord record observedNs sourcePeer maxLogs).map Prod.fst) := by
  have current : database.record record.collection record.path.text =
      .ok (store.record record.key) :=
    mirrors.record record.key
  unfold Database.mergeRecord StateStore.mergeRecord
  rw [current, Except.ok_bind]
  dsimp only
  rw [map_fst_bind, map_fst_bind]
  apply Agrees.bind
  · split
    · exact mirrors.upsertRecord record sourcePeer
    · exact mirrors
  · exact fun _ _ merged => merged.insertLog observedNs _ maxLogs

end Mirrors

end Database

namespace RecordOperation

open Database

theorem transaction_agrees {database : Database} {store : StateStore}
    (mirrors : database.Mirrors store) (operation : RecordOperation) (typed : operation.Typed) :
    Agrees (operation.perform database) (operation.transaction store) := by
  cases operation with
  | addCollection name localPath resolvedRoot =>
      exact mirrors.addCollection name localPath resolvedRoot
  | removeCollection name => exact mirrors.removeCollection name
  | replaceCollectionPath name localPath => exact mirrors.replaceCollectionPath name localPath
  | completeCollectionScan name localPath resolvedRoot =>
      exact mirrors.completeCollectionScan name localPath resolvedRoot typed
  | mergeRecord record observedNs sourcePeer maxLogs =>
      exact mirrors.mergeRecord record observedNs sourcePeer maxLogs
  | markRepairRequiredAndLog collection path createdNs event maxLogs =>
      obtain ⟨parsed, rfl⟩ := typed
      rw [transaction, keyOf_text]
      exact mirrors.markRepairRequiredAndLog createdNs event maxLogs ⟨collection, parsed⟩
  | setMaterializedFingerprint collection path fingerprint =>
      obtain ⟨parsed, rfl⟩ := typed
      rw [transaction, keyOf_text]
      exact mirrors.updateMaterializedFingerprint ⟨collection, parsed⟩ fingerprint
  | markMaterializedAndLog collection path resolvedRoot fingerprint createdNs event maxLogs =>
      obtain ⟨parsed, rfl⟩ := typed
      rw [transaction, keyOf_text]
      exact mirrors.markMaterializedAndLog createdNs event maxLogs ⟨collection, parsed⟩ resolvedRoot
        fingerprint
  | markTombstoneMaterializedAndLog collection path createdNs event maxLogs =>
      obtain ⟨parsed, rfl⟩ := typed
      rw [transaction, keyOf_text]
      exact mirrors.markTombstoneMaterializedAndLog createdNs event maxLogs ⟨collection, parsed⟩

theorem committed_mirrors {database : Database} {store : StateStore}
    (mirrors : database.Mirrors store) (operation : RecordOperation) (typed : operation.Typed) :
    (operation.after database).Mirrors (operation.committed store) := by
  have agrees := transaction_agrees mirrors operation typed
  unfold after committed
  cases performed : operation.perform database with
  | ok changed =>
      rw [performed] at agrees
      cases done : operation.transaction store with
      | ok stored =>
          rw [done] at agrees
          exact agrees
      | error reason =>
          rw [done] at agrees
          exact agrees.elim
  | error reason =>
      rw [performed] at agrees
      cases done : operation.transaction store with
      | ok stored =>
          rw [done] at agrees
          cases reason <;> exact agrees.elim
      | error other => exact mirrors

/-- After any sequence of operations the store reads what the tables hold. -/
theorem reached_mirrors (operations : List RecordOperation)
    (typed : ∀ operation ∈ operations, operation.Typed) :
    (reached operations).Mirrors (operations.foldl committed .empty) := by
  induction operations using List.reverseRecOn with
  | nil => exact mirrors_created
  | append_singleton front operation ih =>
      rw [reached, List.foldl_append, List.foldl_append]
      apply committed_mirrors
      · exact ih fun earlier listed => typed earlier (List.mem_append_left _ listed)
      · exact typed operation (by simp)

end RecordOperation

end Skillsync
