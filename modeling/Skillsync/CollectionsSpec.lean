import Skillsync.Collections
import Skillsync.ProtocolSpec

set_option autoImplicit false

namespace Skillsync

open Fallible StateStore

/-- The tables are in order, and the two properties hold of what they store. -/
structure Holding (names : String → Prop) (records : Record → Prop) (store : StateStore) :
    Prop where
  named : ∀ name, (store.collections[name]?).isSome = true → NameAllowed name ∧ names name
  keyed : store.Keyed
  attached : ∀ key record, store.record key = some record →
    (store.collections[key.collection]?).isSome = true
  stored : ∀ key record, store.record key = some record → records record

section
variable {names : String → Prop} {records : Record → Prop} {store after : StateStore}

theorem holding_empty : Holding names records .empty := by
  refine ⟨fun name attached => ?_, fun key record found => ?_, fun key record found => ?_,
    fun key record found => ?_⟩
  · rw [show StateStore.empty.collections = ∅ from rfl, Std.ExtTreeMap.getElem?_empty] at attached
    cases attached
  all_goals cases found

theorem Holding.same (holding : Holding names records store)
    (collections : ∀ name : String,
      (after.collections[name]?).isSome = (store.collections[name]?).isSome)
    (same : ∀ key, after.record key = store.record key) : Holding names records after := by
  refine ⟨fun name attached => holding.named name (collections name ▸ attached),
    fun key record found => holding.keyed key record (same key ▸ found), ?_,
    fun key record found => holding.stored key record (same key ▸ found)⟩
  intro key record found
  rw [collections]
  exact holding.attached key record (same key ▸ found)

theorem Holding.unchanged (holding : Holding names records store)
    (collections : after.collections = store.collections)
    (same : ∀ key, after.record key = store.record key) : Holding names records after :=
  holding.same (fun name => by rw [collections]) same

/-- A record is written under its own key. -/
theorem Holding.written (holding : Holding names records store) {record : Record}
    (collections : after.collections = store.collections)
    (attached : (store.collections[record.collection]?).isSome = true) (admitted : records record)
    (rows : ∀ key, after.record key = if record.key = key then some record else store.record key) :
    Holding names records after := by
  refine ⟨fun name present => holding.named name (collections ▸ present), ?_, ?_, ?_⟩
  all_goals
    intro key stored found
    rw [rows] at found
    by_cases same : record.key = key
  · rw [if_pos same, Option.some.injEq] at found
    exact found ▸ same
  · exact holding.keyed key stored ((if_neg same).symm.trans found)
  · rw [collections, ← show record.collection = key.collection from
      congrArg RecordKey.collection same]
    exact attached
  · rw [collections]
    exact holding.attached key stored ((if_neg same).symm.trans found)
  · rw [if_pos same, Option.some.injEq] at found
    exact found ▸ admitted
  · exact holding.stored key stored ((if_neg same).symm.trans found)

theorem Holding.appendLog (holding : Holding names records store) {createdNs : I64}
    {event : OperationalEvent} {maxLogs : Nat}
    (appended : store.appendLog createdNs event maxLogs = .ok after) :
    Holding names records after :=
  holding.unchanged (appendLog_collections appended) (appendLog_record appended)

theorem insert_isSome {map : OrderedMap String CollectionState} {name : String}
    {old new : CollectionState} (present : map[name]? = some old) (other : String) :
    ((map.insert name new)[other]?).isSome = (map[other]?).isSome := by
  rw [OrderedMap.getElem?_insert]
  split
  · rename_i same
    rw [← same, present]
    rfl
  · rfl

theorem Holding.addCollection (holding : Holding names records store) {name path : String}
    {root : Option RootPath} (named : NameAllowed name) (admitted : names name)
    (added : store.addCollection name path root = .ok after) : Holding names records after := by
  unfold StateStore.addCollection at added
  split at added
  · cases added
  · cases added
    have grows : ∀ other : String, (store.collections[other]?).isSome = true →
        ((store.collections.insert name ⟨path, root, .pending, .pending⟩)[other]?).isSome =
          true := by
      intro other present
      rw [OrderedMap.getElem?_insert]
      split
      · rfl
      · exact present
    refine ⟨fun other attached => ?_, holding.keyed, fun key record found =>
      grows _ (holding.attached key record found), holding.stored⟩
    by_cases same : name = other
    · exact same ▸ ⟨named, admitted⟩
    · replace attached : ((store.collections.insert name _)[other]?).isSome = true := attached
      rw [OrderedMap.getElem?_insert, if_neg same] at attached
      exact holding.named other attached

theorem Holding.replaceCollectionPath (holding : Holding names records store)
    {name path : String} (replaced : store.replaceCollectionPath name path = .ok after) :
    Holding names records after := by
  have rows : ∀ key, after.record key = store.record key := by
    intro key
    rw [StateStore.record, (replaceCollectionPath_ok replaced).2, Option.map_map]
    exact congrArg (fun change => (store.recordState key).map change)
      (funext fun row => unmaterialized_record _ _ key row)
  unfold StateStore.replaceCollectionPath at replaced
  split at replaced
  · cases replaced
    exact holding.unchanged rfl rows
  · rename_i present
    split at replaced
    · cases replaced
    · cases replaced
      exact holding.same (insert_isSome present) rows

theorem Holding.attachCollection (holding : Holding names records store) {name path : String}
    {created : Bool} {now : I64} {maxLogs : Nat} (admitted : names name) :
    Holding names records (attachCollection store name path created now maxLogs).2 := by
  unfold Skillsync.attachCollection
  split
  · exact holding
  · rename_i valid
    have named : NameAllowed name := by
      unfold validateCollectionName at valid
      split at valid
      · cases valid
      · rename_i accepted
        rw [not_or, not_lt] at accepted
        exact accepted
    split
    · exact holding
    · dsimp only
      split
      · exact holding
      · rename_i attached opened
        have held : Holding names records attached := by
          split at opened
          · exact holding.addCollection named admitted opened
          · split at opened
            · exact holding.replaceCollectionPath opened
            · cases opened
              exact holding
        split
        · split
          · exact held.appendLog ‹_›
          · exact held
        · exact held

theorem Holding.detachCollection (holding : Holding names records store) {name : String}
    {now : I64} {maxLogs : Nat} :
    Holding names records (detachCollection store name now maxLogs).2 := by
  have held : Holding names records (store.removeCollection name).1 := by
    unfold StateStore.removeCollection
    split
    · have rows : ∀ key record, StateStore.record { store with
            collections := store.collections.erase name
            pathRecords := store.pathRecords.filter fun key _ => decide (key.collection ≠ name) }
          key = some record → key.collection ≠ name ∧ store.record key = some record := by
        intro key record found
        obtain ⟨row, present, rfl⟩ := record_eq_some.mp found
        rw [recordState, Std.ExtTreeMap.getElem?_filter', Option.filter_eq_some_iff] at present
        exact ⟨of_decide_eq_true present.2, record_eq_some.mpr ⟨row, present.1, rfl⟩⟩
      refine ⟨fun other attached => ?_, fun key record found =>
        holding.keyed key record (rows key record found).2, fun key record found => ?_,
        fun key record found => holding.stored key record (rows key record found).2⟩
      · replace attached : ((store.collections.erase name)[other]?).isSome = true := attached
        rw [OrderedMap.getElem?_erase] at attached
        split at attached
        · cases attached
        · exact holding.named other attached
      · obtain ⟨other, old⟩ := rows key record found
        show ((store.collections.erase name)[key.collection]?).isSome = true
        rw [OrderedMap.getElem?_erase, if_neg other.symm]
        exact holding.attached key record old
    · exact holding
  unfold Skillsync.detachCollection
  split
  · exact holding
  · split
    · rename_i next removed
      rw [removed] at held
      split
      · exact held.appendLog ‹_›
      · exact held
    · rename_i next removed
      rw [removed] at held
      exact held

variable [Blake3]

theorem Holding.mergeRecord (holding : Holding names records store) {record : Record}
    {observedNs : I64} {source : Option EndpointId} {maxLogs : Nat} {accepted : Bool}
    (admitted : records record)
    (committed : store.mergeRecord record observedNs source maxLogs = .ok (after, accepted)) :
    Holding names records after := by
  obtain ⟨-, collections, rows⟩ := mergeRecord_ok committed
  cases accepted with
  | false =>
      refine holding.unchanged collections fun key => record_congr ?_
      rw [rows, if_neg (by simp)]
  | true =>
      refine holding.written collections (mergeRecord_attached committed) admitted fun key => ?_
      rw [StateStore.record, rows]
      by_cases same : record.key = key
      · rw [if_pos ⟨rfl, same⟩, if_pos same]
        rfl
      · rw [if_neg fun both => same both.2, if_neg same]
        rfl

omit [Blake3] in
theorem materializeTombstone_collections (store : StateStore) (disk : Disk) (record : Record)
    (environment : RemovalEnvironment) (now : I64) (maxLogs : Nat) :
    (materializeTombstone store disk record environment now maxLogs).2.1.collections =
      store.collections := by
  unfold materializeTombstone
  split
  · rfl
  · split
    · rename_i marked
      obtain ⟨-, -, -, collections, -⟩ := markTombstoneMaterializedAndLog_ok marked
      exact collections
    · rfl

omit [Blake3] in
theorem deleteForWinner_collections {config : SessionConfig} {now : I64}
    {environment : RemovalEnvironment} {collection : String} {candidate : Record} {disk : Disk}
    {result : StateStore × Disk}
    (done : deleteForWinner config now environment collection candidate store disk =
      .ok result) : result.1.collections = store.collections := by
  have removal := materializeTombstone_collections store disk candidate environment now
    config.maxLogs
  unfold deleteForWinner at done
  dsimp only at done
  split at done
  · split at done
    · rename_i marked
      cases done
      rw [marked] at removal
      exact removal
    · rename_i failed
      rw [failed] at removal
      obtain ⟨logged, appended, done⟩ := Except.bind_ok done
      cases done
      exact (appendLog_collections (Except.mapError_ok appended)).trans removal
  · cases done
    rfl

section merging
variable {config : SessionConfig} {remoteEndpoint : EndpointId} {now : I64}
  {environment : Record → RemovalEnvironment} {collection : String} {candidate : Record}
  {state result : StateStore × Disk}

theorem Holding.mergeCandidate (holding : Holding names records state.1)
    (admitted : candidate.modifiedNs ≤ now.saturatingAdd config.maxFutureClockSkew →
      records candidate)
    (done : mergeCandidate config remoteEndpoint now environment collection state candidate =
      .ok result) : Holding names records result.1 := by
  obtain ⟨store, disk⟩ := state
  unfold Skillsync.mergeCandidate at done
  dsimp only at done holding
  split at done
  · obtain ⟨logged, appended, done⟩ := Except.bind_ok done
    cases done
    exact holding.appendLog (Except.mapError_ok appended)
  · rename_i present
    obtain ⟨middle, stored, done⟩ := Except.bind_ok done
    have held : Holding names records middle := by
      split at stored
      · cases stored
        exact holding
      · obtain ⟨⟨merged, accepted⟩, committed, rfl⟩ := Except.of_map_ok stored
        exact holding.mergeRecord (admitted (not_lt.mp present)) (Except.mapError_ok committed)
    exact held.unchanged (deleteForWinner_collections done) (deleteForWinner_record done)

theorem Holding.mergeCandidateLeft (holding : Holding names records state.1)
    (admitted : candidate.modifiedNs ≤ now.saturatingAdd config.maxFutureClockSkew →
      records candidate) :
    Holding names records
      (mergeCandidateLeft config remoteEndpoint now collection state candidate) := by
  unfold Skillsync.mergeCandidateLeft
  split
  · exact holding
  · rename_i present
    rw [not_or, not_lt] at present
    split
    · rename_i committed
      exact holding.mergeRecord (admitted present.1) committed
    · exact holding

theorem Holding.mergeRemoteLeft (holding : Holding names records store) {disk : Disk}
    {shared : List String} {bundle : ManifestBundle}
    (admitted : ∀ record ∈ bundle.records,
      record.modifiedNs ≤ now.saturatingAdd config.maxFutureClockSkew → records record) :
    Holding names records
      (mergeRemoteLeft config remoteEndpoint now environment store disk shared bundle) := by
  unfold Skillsync.mergeRemoteLeft
  split
  · exact holding
  have offered : ∀ manifest ∈ bundle.manifests, ∀ record ∈ manifest.2.records,
      record.modifiedNs ≤ now.saturatingAdd config.maxFutureClockSkew → records record :=
    fun manifest member record listed =>
      admitted record (List.mem_flatMap.mpr ⟨manifest, member, listed⟩)
  apply leftBehind_keeps fun state => Holding names records state.1
  · exact holding
  · intro state manifest next member holds done
    unfold mergeManifest at done
    split at done
    · exact foldlM_invariant (fun state => Holding names records state.1) holds
        (fun state record next listed holds done =>
          holds.mergeCandidate (offered manifest member record listed) done) done
    · cases done
  · intro state manifest member holds
    unfold mergeManifestLeft
    split
    · exact leftBehind_keeps (fun state => Holding names records state.1) holds
        (fun state record next listed holds done =>
          holds.mergeCandidate (offered manifest member record listed) done)
        (fun state record listed holds =>
          holds.mergeCandidateLeft (offered manifest member record listed))
        fun state holds => holds
    · exact holds
  · exact fun state holds => holds

end merging

section scanning
variable {scanner : Scanner} {name localPath : String} {author : EndpointId} {observedNs : I64}

/-- The record of a listed file's row stays, or is the one of the file. -/
theorem FileOutcome.record_cases {limit : I64} {path : ProtocolPath} {disk : DiskFile}
    {diverged durable : Bool} {row last : Option PathRecordState}
    (outcome : FileOutcome name author limit path disk diverged durable row last) :
    last.map PathRecordState.record = row.map PathRecordState.record ∨
      ∃ candidate, disk.modifiedNs ≤ limit ∧
        Record.file name path disk.modifiedNs author disk.size disk.hash = .ok candidate ∧
        last.map PathRecordState.record = some candidate := by
  cases outcome with
  | accepted _ candidate inTime built _ => exact Or.inr ⟨candidate, inTime, built, rfl⟩
  | postponed => exact Or.inl rfl
  | diverged => exact Or.inl rfl
  | settled => exact Or.inl rfl
  | lost => exact Or.inl rfl
  | outlived => exact Or.inl rfl

theorem Holding.scanFile {current : List PathRecordState}
    {state : StateStore × ScanSummary} {entry : ProtocolPath × DiskFile}
    (holding : Holding names records state.1)
    (attached : (state.1.collections[name]?).isSome = true)
    (admitted : ∀ record, entry.2.modifiedNs ≤ observedNs.saturatingAdd scanner.maxFutureSkew →
      Record.file name entry.1 entry.2.modifiedNs author entry.2.size entry.2.hash =
        .ok record → records record) :
    Always (fun after => Holding names records after.1 ∧
        (after.1.collections[name]?).isSome = true)
      (fun failure => Holding names records failure.2 ∧
        (failure.2.collections[name]?).isSome = true)
      (scanFile scanner name author observedNs current state entry) := by
  have collections := scanFile_collections scanner name author observedNs current state entry
  cases done : Skillsync.scanFile scanner name author observedNs current state entry with
  | error failure =>
      rw [done] at collections
      have same : failure.2.collections = state.1.collections := collections
      exact ⟨holding.unchanged same fun key => record_congr (scanFile_error done key),
        by rw [same]; exact attached⟩
  | ok after =>
      rw [done] at collections
      have same : after.1.collections = state.1.collections := collections
      refine ⟨?_, by rw [same]; exact attached⟩
      obtain ⟨row, outcome, rows⟩ := scanFile_ok done
      have recorded : ∀ key, after.1.record key =
          if ⟨name, entry.1⟩ = key then row.map PathRecordState.record
          else state.1.record key := by
        intro key
        rw [StateStore.record, rows]
        split <;> rfl
      rcases outcome.record_cases with kept | ⟨candidate, inTime, built, new⟩
      · refine holding.unchanged same fun key => ?_
        rw [recorded, kept]
        split
        · rename_i here
          rw [← here]
          rfl
        · rfl
      · obtain ⟨named, located, -⟩ := Record.new_ok built
        have key : candidate.key = ⟨name, entry.1⟩ := by rw [Record.key, named, located]
        refine holding.written same (by rw [named]; exact attached)
          (admitted candidate inTime built) fun other => ?_
        rw [recorded, new, key]

theorem Holding.scanDeletion {context : WalkContext} {state : StateStore × ScanSummary}
    {winner : PathRecordState} (holding : Holding names records state.1)
    (attached : (state.1.collections[name]?).isSome = true)
    (admitted : ∀ tombstone : Record, tombstone.key = ⟨name, winner.record.path⟩ →
      tombstone.kind = .tombstone → records tombstone) :
    Always (fun after => Holding names records after.1 ∧
        (after.1.collections[name]?).isSome = true)
      (fun failure => Holding names records failure.2 ∧
        (failure.2.collections[name]?).isSome = true)
      (scanDeletion scanner name author observedNs context state winner) := by
  have collections := scanDeletion_collections scanner name author observedNs context state winner
  cases done : Skillsync.scanDeletion scanner name author observedNs context state winner with
  | error failure =>
      rw [show failure = (failure.1, failure.2) from rfl] at done
      show Holding names records failure.2 ∧ (failure.2.collections[name]?).isSome = true
      rw [show failure.2 = state.1 from scanDeletion_error done]
      exact ⟨holding, attached⟩
  | ok after =>
      rw [done] at collections
      have same : after.1.collections = state.1.collections := collections
      refine ⟨?_, by rw [same]; exact attached⟩
      rcases scanDeletion_rows done with rows | ⟨tombstone, key, removed, rows⟩
      · exact holding.unchanged same fun key => record_congr (rows key)
      · have named : tombstone.collection = name := congrArg RecordKey.collection key
        refine holding.written same (by rw [named]; exact attached)
          (admitted tombstone key removed) fun other => ?_
        rw [StateStore.record, rows]
        split <;> rfl

/-- A scan adds records of the files it lists, and tombstones where it held a record. -/
theorem Holding.scanCollection (holding : Holding names records store)
    (closed : ∀ winner tombstone : Record, records winner → tombstone.key = winner.key →
      tombstone.kind = .tombstone → records tombstone)
    {opened : Except RootError (RootPath × FileSystem)}
    (admitted : ∀ root fileSystem context, opened = .ok (root, fileSystem) →
      walk fileSystem name scanner.ignores (scanner.comparisonKey root) = .ok context →
      ∀ path disk record, context.files[path]? = some disk →
        disk.modifiedNs ≤ observedNs.saturatingAdd scanner.maxFutureSkew →
        Record.file name path disk.modifiedNs author disk.size disk.hash = .ok record →
        records record) :
    Holding names records
      (leftStore (scanCollection scanner store name localPath author observedNs opened)) := by
  have paused : ∀ status, Holding names records
      (leftStore (pauseScan scanner name observedNs store status)) := by
    intro status
    have held : Holding names records (store.setCollectionScanStatus name status) := by
      unfold setCollectionScanStatus
      split
      · exact holding
      · rename_i collection present
        exact holding.same (insert_isSome present) fun _ => rfl
    cases appended : (store.setCollectionScanStatus name status).appendLog observedNs
        (.collectionPaused name) scanner.maxLogs with
    | error source =>
        simp only [pauseScan, commit, appended, Except.mapError, Except.error_bind, leftStore]
        exact held
    | ok after =>
        simp only [pauseScan, commit, appended, Except.mapError, Except.ok_bind]
        exact held.appendLog appended
  cases opened with
  | error reason =>
      cases reason with
      | notDirectory => exact paused _
      | notFound => exact paused _
      | io => exact holding
      | unstable => exact holding
  | ok found =>
      obtain ⟨root, fileSystem⟩ := found
      unfold Skillsync.scanCollection
      dsimp only
      cases walked : walk fileSystem name scanner.ignores (scanner.comparisonKey root) with
      | error reason => exact holding
      | ok context =>
          rw [Except.mapError, Except.ok_bind]
          let invariant (current : StateStore) : Prop := Holding names records current ∧
            (current.collections[name]?).isSome = true
          suffices left : leftStore
                (scanListing scanner store name localPath author observedNs root context) = store ∨
              invariant (leftStore
                (scanListing scanner store name localPath author observedNs root context)) by
            rcases left with same | ⟨holds, -⟩
            · rw [same]
              exact holding
            · exact holds
          apply leftStore_always
          apply scanListing_always invariant
          · intro completed changed committed
            have rows : ∀ key, completed.record key = store.record key := fun key => by
              rw [StateStore.record, (completeCollectionScan_ok committed).2,
                ← completedRow_record store name root key, completedRow]
            unfold completeCollectionScan at committed
            split at committed
            · cases committed
            · rename_i collection present
              cases committed
              refine ⟨holding.same (insert_isSome present) rows, ?_⟩
              exact (insert_isSome present name).trans (by rw [present]; rfl)
          · rintro current event after ⟨holds, present⟩ appended
            exact ⟨holds.appendLog appended, by rw [appendLog_collections appended]; exact present⟩
          · rintro current state entry listed ⟨holds, present⟩
            exact holds.scanFile present fun record inTime built =>
              admitted root fileSystem context rfl walked entry.1 entry.2 record listed inTime built
          · rintro warned state winner ⟨warns, -⟩ member ⟨holds, present⟩
            refine holds.scanDeletion present fun tombstone key removed => ?_
            obtain ⟨path, found⟩ := mem_recordStates.mp member
            have recorded : warned.record ⟨name, path⟩ = some winner.record :=
              record_eq_some.mpr ⟨winner, found, rfl⟩
            have located := warns.keyed _ _ recorded
            have same : winner.record.path = path := congrArg RecordKey.path located
            exact closed winner.record tombstone (warns.stored _ _ recorded)
              (by rw [key, located, same]) removed

end scanning

/-- The operation lemma: an operation keeps what holds of the collections it attaches, of the
records it offers, and of every tombstone that takes the place of a record. -/
theorem Holding.perform (holding : Holding names records store)
    (closed : ∀ winner tombstone : Record, records winner → tombstone.key = winner.key →
      tombstone.kind = .tombstone → records tombstone) {operation : StoreOperation}
    (named : ∀ name ∈ operation.attaches, names name)
    (offered : ∀ record ∈ operation.offers, records record) :
    Holding names records (operation.perform store) := by
  cases operation with
  | attach name path created now maxLogs =>
      exact holding.attachCollection (named name (List.mem_singleton_self name))
  | detach name now maxLogs => exact holding.detachCollection
  | scan scanner name localPath author observedNs opened =>
      apply holding.scanCollection closed
      rintro root fileSystem context rfl walked path disk record listed inTime built
      apply offered
      simp only [StoreOperation.offers, walked, List.mem_filterMap]
      refine ⟨(path, disk), Std.ExtTreeMap.mem_toList_iff_getElem?_eq_some.mpr listed, ?_⟩
      rw [if_pos inTime, built]
      rfl
  | merge config remoteEndpoint now environment disk shared bytes =>
      unfold StoreOperation.perform
      dsimp only
      split
      · rename_i bundle decoded
        refine holding.mergeRemoteLeft fun record listed inTime => offered record ?_
        simp only [StoreOperation.offers, decoded, List.mem_filter, decide_eq_true_eq]
        exact ⟨listed, inTime⟩
      · exact holding

end

end Skillsync
