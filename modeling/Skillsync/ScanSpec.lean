import Skillsync.Scan
import Skillsync.WalkSpec
import Skillsync.SyncSpec

set_option autoImplicit false

namespace Skillsync

open Fallible

theorem diskMatchesRecord_iff {disk : DiskFile} {record : Record} :
    diskMatchesRecord disk record = true ↔
      record.kind = .file disk.size disk.hash ∧ disk.modifiedNs = record.modifiedNs := by
  unfold diskMatchesRecord
  cases record.kind with
  | tombstone => simp
  | file size contentHash =>
      simp only [decide_eq_true_eq, RecordKind.file.injEq]
      constructor
      · rintro ⟨time, rfl, rfl⟩
        exact ⟨⟨rfl, rfl⟩, time⟩
      · rintro ⟨⟨rfl, rfl⟩, time⟩
        exact ⟨time, rfl, rfl⟩

theorem diskBytesMatchRecord_iff {disk : DiskFile} {record : Record} :
    diskBytesMatchRecord disk record = true ↔ record.kind = .file disk.size disk.hash := by
  unfold diskBytesMatchRecord
  cases record.kind with
  | tombstone => simp
  | file size contentHash =>
      simp only [decide_eq_true_eq, RecordKind.file.injEq]
      exact ⟨fun ⟨a, b⟩ => ⟨a.symm, b.symm⟩, fun ⟨a, b⟩ => ⟨a.symm, b.symm⟩⟩

namespace StateStore

variable {store : StateStore}

theorem mem_recordStates {name : String} {row : PathRecordState} :
    row ∈ store.recordStates name ↔ ∃ path, store.recordState ⟨name, path⟩ = some row := by
  simp only [recordStates, List.mem_map, List.mem_filter, decide_eq_true_eq, recordState]
  constructor
  · rintro ⟨⟨⟨collection, path⟩, stored⟩, ⟨member, rfl⟩, rfl⟩
    exact ⟨path, Std.ExtTreeMap.mem_toList_iff_getElem?_eq_some.mp member⟩
  · rintro ⟨path, present⟩
    exact ⟨(⟨name, path⟩, row), ⟨Std.ExtTreeMap.mem_toList_iff_getElem?_eq_some.mpr present, rfl⟩,
      rfl⟩

theorem Keyed.row (keyed : store.Keyed) {key : RecordKey} {row : PathRecordState}
    (present : store.recordState key = some row) : row.record.key = key :=
  keyed key row.record (record_eq_some.mpr ⟨row, present, rfl⟩)

theorem Keyed.of_record {after : StateStore} (keyed : store.Keyed)
    (same : ∀ key, after.record key = store.record key) : after.Keyed :=
  fun key record found => keyed key record (same key ▸ found)

theorem Keyed.rewritten {after : StateStore} {key : RecordKey}
    {row : PathRecordState} (keyed : store.Keyed) (named : row.record.key = key)
    (rows : ∀ other, after.recordState other =
      if key = other then some row else store.recordState other) : after.Keyed := by
  intro other record found
  by_cases same : key = other
  · rw [StateStore.record, rows, if_pos same] at found
    cases found
    exact named.trans same
  · rw [StateStore.record, rows, if_neg same] at found
    exact keyed other record found

/-- The rows of a collection, looked up by the path of their record. -/
theorem any_recordStates (keyed : store.Keyed) {name : String} {path : ProtocolPath}
    {test : PathRecordState → Bool} :
    ((store.recordStates name).any fun row => decide (row.record.path = path) && test row) =
      ((store.recordState ⟨name, path⟩).any test) := by
  rw [Bool.eq_iff_iff, List.any_eq_true]
  constructor
  · rintro ⟨row, member, holds⟩
    obtain ⟨other, present⟩ := mem_recordStates.mp member
    simp only [Bool.and_eq_true, decide_eq_true_eq] at holds
    obtain ⟨rfl, holds⟩ := holds
    have same : other = row.record.path := by
      have key := keyed.row present
      exact (congrArg RecordKey.path key).symm
    rw [← same, present]
    exact holds
  · intro holds
    cases present : store.recordState ⟨name, path⟩ with
    | none =>
        rw [present] at holds
        cases holds
    | some row =>
    rw [present] at holds
    refine ⟨row, mem_recordStates.mpr ⟨path, present⟩, ?_⟩
    have same : row.record.path = path := congrArg RecordKey.path (keyed.row present)
    rw [Option.any_some] at holds
    simp [same, holds]

theorem nodup_recordStates (keyed : store.Keyed) (name : String) :
    ((store.recordStates name).map fun row => row.record.path).Nodup := by
  have distinct := OrderedMap.nodup_keys store.pathRecords
  rw [List.nodup_iff_pairwise_ne, List.pairwise_map] at distinct ⊢
  rw [recordStates, List.pairwise_map]
  refine (distinct.filter _).imp_of_mem ?_
  rintro ⟨key, row⟩ ⟨other, row'⟩ member member' differs same
  simp only [List.mem_filter, Std.ExtTreeMap.mem_toList_iff_getElem?_eq_some,
    decide_eq_true_eq] at member member'
  refine differs ?_
  have first := keyed.row member.1
  have second := keyed.row member'.1
  obtain ⟨collection, path⟩ := key
  obtain ⟨collection', path'⟩ := other
  have paths : path = path' :=
    (congrArg RecordKey.path first).symm.trans (same.trans (congrArg RecordKey.path second))
  obtain rfl : collection = name := member.2
  obtain rfl : collection' = collection := member'.2
  rw [paths]

/-- The row a scan of the root starts from. -/
def completedRow (store : StateStore) (name : String) (root : RootPath) (key : RecordKey) :
    Option PathRecordState :=
  if store.resolvedRoot name = some root then store.recordState key
  else (store.recordState key).map (unmaterialized name none key)

theorem completedRow_record (store : StateStore) (name : String) (root : RootPath)
    (key : RecordKey) :
    (store.completedRow name root key).map PathRecordState.record = store.record key := by
  unfold completedRow
  split
  · rfl
  · rw [Option.map_map]
    exact congrArg (fun change => (store.recordState key).map change)
      (funext fun row => unmaterialized_record name none key row)

/-- A file that is materialized when the loops start was materialized under the same root. -/
theorem completedRow_materialized {store : StateStore} {name : String} {root : RootPath}
    {path : ProtocolPath} {row : PathRecordState}
    (present : store.completedRow name root ⟨name, path⟩ = some row)
    (isFile : row.record.kind.isFile = true) (materialized : row.materialized = true) :
    store.resolvedRoot name = some root ∧ store.recordState ⟨name, path⟩ = some row := by
  unfold completedRow at present
  split at present
  · rename_i same
    exact ⟨same, present⟩
  · obtain ⟨old, -, rfl⟩ := Option.map_eq_some_iff.mp present
    rw [unmaterialized_record] at isFile
    simp [unmaterialized, isFile] at materialized

theorem completedRow_of_ne (store : StateStore) {name : String} (root : RootPath)
    {key : RecordKey} (other : key.collection ≠ name) :
    store.completedRow name root key = store.recordState key := by
  unfold completedRow
  split
  · rfl
  · have same : unmaterialized name none key = id := by
      funext row
      simp [unmaterialized, other]
    rw [same, Option.map_id_fun, id]

end StateStore

theorem keepsWinner_eq_false {scanner : Scanner} {context : WalkContext}
    {winner : PathRecordState} :
    keepsWinner scanner context winner = false ↔
      winner.record.kind.isFile = true ∧ winner.materialized = true ∧
        context.files[winner.record.path]? = none ∧
        isIgnored scanner.ignores winner.record.path.text = false ∧
        context.isExcluded winner.record.path.text = false := by
  simp only [keepsWinner, Bool.or_eq_false_iff, Bool.not_eq_false', Option.isSome_eq_false_iff,
    Option.isNone_iff_eq_none, and_assoc]

theorem commit_ok {α : Type} {store : StateStore} {outcome : Except StateError α} {a : α}
    (done : commit store outcome = .ok a) : outcome = .ok a := Except.mapError_ok done

theorem isFile_eq_false {kind : RecordKind} : kind.isFile = false ↔ kind = .tombstone := by
  cases kind <;> simp [RecordKind.isFile]

/-- The store a scan leaves, also one that fails half way. -/
def leftStore : Scanned (StateStore × ScanSummary) → StateStore
  | .ok (store, _) => store
  | .error (_, store) => store

theorem commit_always {α : Type} {store : StateStore} {outcome : Except StateError α}
    {p : α → Prop} {failure : ScanError × StateStore → Prop}
    (succeeds : ∀ a, outcome = .ok a → p a)
    (fails : ∀ reason, failure (reason, store)) : Always p failure (commit store outcome) := by
  cases outcome with
  | error source => exact fails _
  | ok a => exact succeeds a rfl

theorem leftStore_always {store : StateStore} {invariant : StateStore → Prop}
    {outcome : Scanned (StateStore × ScanSummary)}
    (always : Always (fun after => invariant after.1)
      (fun failure => failure.2 = store ∨ invariant failure.2) outcome) :
    leftStore outcome = store ∨ invariant (leftStore outcome) := by
  cases outcome with
  | error failure => exact always
  | ok after => exact Or.inr always

section
variable [Blake3]

open StateStore

/-- What the loop over the files makes of the row of a listed file. `diverged` and `durable`
were decided from the rows read before the loop. -/
inductive FileOutcome (name : String) (author : EndpointId) (limit : I64) (path : ProtocolPath)
    (disk : DiskFile) (diverged durable : Bool) :
    Option PathRecordState → Option PathRecordState → Prop
  | diverged (row : PathRecordState) : limit < disk.modifiedNs → diverged = true →
      row.record.kind.isFile = true →
      FileOutcome name author limit path disk diverged durable (some row)
        (some ⟨row.record, false, none⟩)
  | postponed (row : Option PathRecordState) : limit < disk.modifiedNs → diverged = false →
      FileOutcome name author limit path disk diverged durable row row
  | settled (row : PathRecordState) : disk.modifiedNs ≤ limit →
      row.record.kind.isFile = true →
      durable = true ∨ diskMatchesRecord disk row.record = true →
      FileOutcome name author limit path disk diverged durable (some row)
        (some ⟨row.record, true, some disk⟩)
  | accepted (row : Option PathRecordState) (candidate : Record) : disk.modifiedNs ≤ limit →
      Record.file name path disk.modifiedNs author disk.size disk.hash = .ok candidate →
      (∀ stored ∈ row, durable = false ∧ candidate.compareWinner stored.record = .gt) →
      FileOutcome name author limit path disk diverged durable row
        (some (mergedRow candidate none))
  | lost (row : PathRecordState) (candidate : Record) : disk.modifiedNs ≤ limit →
      Record.file name path disk.modifiedNs author disk.size disk.hash = .ok candidate →
      durable = false → candidate.compareWinner row.record ≠ .gt →
      row.record.kind.isFile = true →
      FileOutcome name author limit path disk diverged durable (some row)
        (some ⟨row.record, false, none⟩)
  | outlived (row : PathRecordState) (candidate : Record) : disk.modifiedNs ≤ limit →
      Record.file name path disk.modifiedNs author disk.size disk.hash = .ok candidate →
      durable = false → candidate.compareWinner row.record ≠ .gt →
      row.record.kind = .tombstone →
      FileOutcome name author limit path disk diverged durable (some row) (some row)

theorem FileOutcome.key {name : String} {author : EndpointId} {limit : I64} {path : ProtocolPath}
    {disk : DiskFile}
    {diverged durable : Bool} {row after : Option PathRecordState}
    (outcome : FileOutcome name author limit path disk diverged durable row after)
    (keyed : ∀ stored, row = some stored → stored.record.key = ⟨name, path⟩)
    {stored : PathRecordState} (present : after = some stored) :
    stored.record.key = ⟨name, path⟩ := by
  cases outcome with
  | accepted _ candidate _ built _ =>
      cases present
      obtain ⟨named, located, -⟩ := Record.new_ok built
      rw [mergedRow, Record.key, named, located]
  | postponed => exact keyed stored present
  | diverged row =>
      cases present
      exact keyed row rfl
  | settled row =>
      cases present
      exact keyed row rfl
  | lost row =>
      cases present
      exact keyed row rfl
  | outlived => exact keyed stored present

/-- A merge of a scanned record either replaces its row or leaves every row as it is. -/
theorem mergeScanned {store merged : StateStore} {record : Record} {observedNs : I64}
    {maxLogs : Nat} {accepted : Bool}
    (committed : store.mergeRecord record observedNs none maxLogs = .ok (merged, accepted)) :
    (accepted = true ∧
      (∀ row ∈ store.recordState record.key, record.compareWinner row.record = .gt) ∧
      ∀ key, merged.recordState key =
        if record.key = key then some (mergedRow record none) else store.recordState key) ∨
    (accepted = false ∧
      (∃ row, store.recordState record.key = some row ∧
        record.compareWinner row.record ≠ .gt) ∧
      ∀ key, merged.recordState key = store.recordState key) := by
  obtain ⟨decision, -, rows⟩ := mergeRecord_ok committed
  cases accepted with
  | true =>
      refine Or.inl ⟨rfl, fun row present => ?_, fun key => by simp only [rows, true_and]⟩
      have stored : store.record record.key = some row.record :=
        record_eq_some.mpr ⟨row, present, rfl⟩
      rw [stored] at decision
      exact beq_iff_eq.mp decision.symm
  | false =>
      refine Or.inr ⟨rfl, ?_, fun key => by simp [rows]⟩
      cases present : store.recordState record.key with
      | none =>
          have nothing : store.record record.key = none := by rw [StateStore.record, present]; rfl
          rw [nothing] at decision
          cases decision
      | some row =>
          refine ⟨row, rfl, fun greater => ?_⟩
          have stored : store.record record.key = some row.record :=
            record_eq_some.mpr ⟨row, present, rfl⟩
          rw [stored] at decision
          exact absurd greater (beq_eq_false_iff_ne.mp decision.symm)

/-- One iteration changes the row of its file, and no other one. -/
theorem scanFile_ok {scanner : Scanner} {name : String} {author : EndpointId}
    {observedNs : I64} {current : List PathRecordState} {state after : StateStore × ScanSummary}
    {entry : ProtocolPath × DiskFile}
    (done : scanFile scanner name author observedNs current state entry = .ok after) :
    ∃ row, FileOutcome name author (observedNs.saturatingAdd scanner.maxFutureSkew) entry.1
        entry.2 (divergedMaterializedWinner current entry.1 entry.2)
        (durableMatch current entry.1 entry.2) (state.1.recordState ⟨name, entry.1⟩) row ∧
      ∀ key, after.1.recordState key =
        if ⟨name, entry.1⟩ = key then row else state.1.recordState key := by
  obtain ⟨store, summary⟩ := state
  obtain ⟨path, disk⟩ := entry
  unfold scanFile at done
  dsimp only at done ⊢
  have unchanged (key : RecordKey) : store.recordState key =
      if (⟨name, path⟩ : RecordKey) = key then store.recordState ⟨name, path⟩
      else store.recordState key := by
    split
    · rename_i same
      rw [same]
    · rfl
  split at done
  · rename_i future
    split at done
    · rename_i diverged
      obtain ⟨marked, committed, done⟩ := Except.bind_ok done
      cases done
      obtain ⟨row, present, isFile, -, rows⟩ := markRepairRequiredAndLog_ok (commit_ok committed)
      rw [present]
      exact ⟨_, .diverged row future diverged isFile, rows⟩
    · rename_i settled
      obtain ⟨logged, committed, done⟩ := Except.bind_ok done
      cases done
      refine ⟨_, .postponed _ future (Bool.eq_false_iff.mpr settled), fun key => ?_⟩
      rw [appendLog_recordState (commit_ok committed)]
      exact unchanged key
  · rename_i present
    have inTime := not_lt.mp present
    obtain ⟨candidate, built, done⟩ := Except.bind_ok done
    replace built := Except.mapError_ok built
    obtain ⟨named, located, -⟩ := Record.new_ok built
    have candidateKey : candidate.key = ⟨name, path⟩ := by rw [Record.key, named, located]
    split at done
    · rename_i winner found
      obtain ⟨row, present, rfl⟩ := record_eq_some.mp found
      rw [present]
      split at done
      · rename_i settles
        obtain ⟨marked, committed, done⟩ := Except.bind_ok done
        cases done
        obtain ⟨row', present', isFile, -, rows⟩ :=
          updateMaterializedFingerprint_ok (commit_ok committed)
        rw [present] at present'
        cases present'
        exact ⟨_, .settled row inTime isFile (Bool.or_eq_true_iff.mp settles), rows⟩
      · rename_i unsettled
        rw [Bool.not_eq_true, Bool.or_eq_false_iff] at unsettled
        obtain ⟨⟨merged, accepted⟩, committed, done⟩ := Except.bind_ok done
        have outcome := mergeScanned (commit_ok committed)
        rw [candidateKey, present] at outcome
        dsimp only at done
        rcases outcome with ⟨rfl, greater, rows⟩ | ⟨rfl, ⟨_, same, notGreater⟩, rows⟩
        · cases done
          exact ⟨_, .accepted _ candidate inTime built
            fun stored member => ⟨unsettled.1, greater stored member⟩, rows⟩
        · cases same
          simp only [Bool.false_eq_true, ↓reduceIte] at done
          split at done
          · rename_i isFile
            obtain ⟨marked, repaired, done⟩ := Except.bind_ok done
            cases done
            obtain ⟨row', present', -, -, marks⟩ :=
              markRepairRequiredAndLog_ok (commit_ok repaired)
            rw [rows, present] at present'
            cases present'
            refine ⟨_, .lost row candidate inTime built unsettled.1 notGreater isFile,
              fun key => ?_⟩
            rw [marks, rows]
          · rename_i notFile
            cases done
            refine ⟨_, .outlived row candidate inTime built unsettled.1 notGreater
              (isFile_eq_false.mp (Bool.eq_false_iff.mpr notFile)), fun key => ?_⟩
            rw [rows, ← present]
            exact unchanged key
    · rename_i nothing
      have absent : store.recordState ⟨name, path⟩ = none := by
        simpa only [StateStore.record, Option.map_eq_none_iff] using nothing
      obtain ⟨⟨merged, accepted⟩, committed, done⟩ := Except.bind_ok done
      cases done
      have outcome := mergeScanned (commit_ok committed)
      rw [candidateKey, absent] at outcome
      rw [absent]
      rcases outcome with ⟨-, -, rows⟩ | ⟨-, ⟨_, impossible, -⟩, -⟩
      · exact ⟨_, .accepted none candidate inTime built
          (fun _ impossible => absurd impossible (Option.not_mem_none _)), rows⟩
      · cases impossible

/-- What the loop over the winners makes of the row of a path that is not listed. -/
inductive DeletionOutcome (scanner : Scanner) (name : String) (author : EndpointId)
    (observedNs : I64) (context : WalkContext) :
    Option PathRecordState → Option PathRecordState → Prop
  | deleted (row : PathRecordState) (tombstone : Record) :
      keepsWinner scanner context row = false →
      deletionRecord name author observedNs row.record = .ok tombstone →
      tombstone.compareWinner row.record = .gt →
      DeletionOutcome scanner name author observedNs context (some row)
        (some (mergedRow tombstone none))
  | kept (row : Option PathRecordState) :
      (∀ stored ∈ row, keepsWinner scanner context stored = true ∨
        ∃ tombstone, deletionRecord name author observedNs stored.record = .ok tombstone ∧
          tombstone.compareWinner stored.record ≠ .gt) →
      DeletionOutcome scanner name author observedNs context row row

section deletion
variable {scanner : Scanner} {name : String} {author : EndpointId} {observedNs : I64}
  {context : WalkContext}

omit [Blake3] in
theorem deletionRecord_ok {winner tombstone : Record}
    (built : deletionRecord name author observedNs winner = .ok tombstone) :
    tombstone.key = ⟨name, winner.path⟩ ∧ tombstone.kind = .tombstone ∧
      tombstone.modifiedNs = max observedNs winner.modifiedNs.saturatingSucc ∧
      tombstone.author = author := by
  obtain ⟨named, located, time, by_, kind⟩ := Record.new_ok built
  exact ⟨by rw [Record.key, named, located], kind, time, by_⟩

/-- An iteration over a winner that is still stored. -/
theorem scanDeletion_ok {state after : StateStore × ScanSummary} {winner : PathRecordState}
    (stored : state.1.recordState ⟨name, winner.record.path⟩ = some winner)
    (done : scanDeletion scanner name author observedNs context state winner = .ok after) :
    DeletionOutcome scanner name author observedNs context (some winner)
      (after.1.recordState ⟨name, winner.record.path⟩) := by
  obtain ⟨store, summary⟩ := state
  unfold scanDeletion at done
  dsimp only at done stored
  split at done
  · rename_i keeps
    cases done
    rw [stored]
    refine .kept _ fun row same => ?_
    cases same
    exact Or.inl keeps
  · rename_i removes
    obtain ⟨tombstone, built, done⟩ := Except.bind_ok done
    replace built := Except.mapError_ok built
    obtain ⟨key, -⟩ := deletionRecord_ok built
    obtain ⟨⟨merged, accepted⟩, committed, done⟩ := Except.bind_ok done
    have outcome := mergeScanned (commit_ok committed)
    rw [key, stored] at outcome
    dsimp only at done
    rcases outcome with ⟨rfl, greater, rows⟩ | ⟨rfl, ⟨row, same, notGreater⟩, rows⟩
    · cases done
      rw [rows, if_pos rfl]
      exact .deleted winner tombstone (Bool.eq_false_iff.mpr removes) built
        (greater winner rfl)
    · cases same
      cases done
      rw [rows, stored]
      refine .kept _ fun row same => ?_
      cases same
      exact Or.inr ⟨tombstone, built, notGreater⟩

theorem scanDeletion_other {state after : StateStore × ScanSummary} {winner : PathRecordState}
    (done : scanDeletion scanner name author observedNs context state winner = .ok after)
    {key : RecordKey} (other : keepsWinner scanner context winner = true ∨
      key ≠ ⟨name, winner.record.path⟩) :
    after.1.recordState key = state.1.recordState key := by
  obtain ⟨store, summary⟩ := state
  unfold scanDeletion at done
  dsimp only at done
  split at done
  · cases done
    rfl
  · rename_i removes
    replace other := other.resolve_left removes
    obtain ⟨tombstone, built, done⟩ := Except.bind_ok done
    obtain ⟨named, -⟩ := deletionRecord_ok (Except.mapError_ok built)
    obtain ⟨⟨merged, accepted⟩, committed, done⟩ := Except.bind_ok done
    obtain ⟨-, -, rows⟩ := mergeRecord_ok (commit_ok committed)
    have kept : merged.recordState key = store.recordState key := by
      rw [rows, named, if_neg fun both => other both.2.symm]
    dsimp only at done
    split at done <;>
    · cases done
      exact kept

/-- The deletion loop changes nothing, or writes a tombstone's row. -/
theorem scanDeletion_rows {state after : StateStore × ScanSummary} {winner : PathRecordState}
    (done : scanDeletion scanner name author observedNs context state winner = .ok after) :
    (∀ key, after.1.recordState key = state.1.recordState key) ∨
      ∃ tombstone : Record, tombstone.key = ⟨name, winner.record.path⟩ ∧
        tombstone.kind = .tombstone ∧ ∀ key, after.1.recordState key =
          if tombstone.key = key then some (mergedRow tombstone none)
          else state.1.recordState key := by
  cases keeps : keepsWinner scanner context winner with
  | true => exact Or.inl fun key => scanDeletion_other done (Or.inl keeps)
  | false =>
      obtain ⟨store, summary⟩ := state
      unfold scanDeletion at done
      dsimp only at done ⊢
      rw [keeps] at done
      simp only [Bool.false_eq_true, ↓reduceIte] at done
      obtain ⟨tombstone, built, done⟩ := Except.bind_ok done
      obtain ⟨located, removed, -⟩ := deletionRecord_ok (Except.mapError_ok built)
      obtain ⟨⟨merged, accepted⟩, committed, done⟩ := Except.bind_ok done
      have result : after.1 = merged := by
        dsimp only at done
        split at done <;>
        · cases done
          rfl
      rw [result]
      rcases mergeScanned (commit_ok committed) with ⟨-, -, rows⟩ | ⟨-, -, rows⟩
      · exact Or.inr ⟨tombstone, located, removed, rows⟩
      · exact Or.inl rows

end deletion

/-- What a scan makes of the rows of its collection, path by path. -/
def ScannedRow (scanner : Scanner) (name : String) (author : EndpointId) (observedNs : I64)
    (context : WalkContext) (path : ProtocolPath) (row after : Option PathRecordState) : Prop :=
  match context.files[path]? with
  | some disk =>
      FileOutcome name author (observedNs.saturatingAdd scanner.maxFutureSkew) path disk
        (row.any fun stored => stored.materialized && !diskBytesMatchRecord disk stored.record)
        (row.any fun stored => decide (stored.materializedFingerprint = some disk)) row after
  | none => DeletionOutcome scanner name author observedNs context row after

/-- The two loops of a successful scan, which start from the completed rows. -/
theorem scanListing_loops {scanner : Scanner} {store after : StateStore} {name localPath : String}
    {author : EndpointId} {observedNs : I64} {root : RootPath} {context : WalkContext}
    {summary : ScanSummary} (keyed : store.Keyed)
    (done : scanListing scanner store name localPath author observedNs root context =
      .ok (after, summary)) :
    ∃ warned filed deleted, warned.Keyed ∧
      (∀ key, warned.recordState key = store.completedRow name root key) ∧
      context.files.toList.foldlM
        (scanFile scanner name author observedNs (warned.recordStates name))
        (warned, { ScanSummary.empty with files := context.files.size }) = .ok filed ∧
      (warned.recordStates name).foldlM (scanDeletion scanner name author observedNs context)
        filed = .ok (deleted, summary) ∧
      ∀ key, after.recordState key = deleted.recordState key := by
  unfold scanListing at done
  obtain ⟨⟨completed, changed⟩, committed, done⟩ := Except.bind_ok done
  obtain ⟨warned, logged, done⟩ := Except.bind_ok done
  obtain ⟨filed, listed, done⟩ := Except.bind_ok done
  obtain ⟨⟨deleted, counts⟩, removed, done⟩ := Except.bind_ok done
  obtain ⟨final, finished, done⟩ := Except.bind_ok done
  cases done
  dsimp only at logged listed removed finished
  have start : ∀ key, warned.recordState key = store.completedRow name root key := by
    intro key
    have kept := foldlM_keeps (fun store => store.recordState key)
      (fun store warning next _ step => appendLog_recordState (commit_ok step) key) logged
    exact kept.trans ((completeCollectionScan_ok (commit_ok committed)).2 key)
  have keyedWarned : warned.Keyed := by
    intro key record found
    apply keyed
    rw [← completedRow_record store name root key, ← start key]
    exact found
  exact ⟨warned, filed, deleted, keyedWarned, start, listed, removed,
    fun key => appendLog_recordState (commit_ok finished) key⟩

section loops
variable {scanner : Scanner} {warned : StateStore} {name : String} {author : EndpointId}
  {observedNs : I64} {context : WalkContext} {start filed deleted : StateStore × ScanSummary}
  {path : ProtocolPath}

/-- The iteration that decides the row of a listed file. -/
theorem filing_iteration {current : List PathRecordState} {disk : DiskFile}
    (present : context.files[path]? = some disk)
    (listed : context.files.toList.foldlM (scanFile scanner name author observedNs current) start =
      .ok filed)
    (removed : current.foldlM (scanDeletion scanner name author observedNs context) filed =
      .ok deleted) :
    ∃ before middle, before.1.recordState ⟨name, path⟩ = start.1.recordState ⟨name, path⟩ ∧
      scanFile scanner name author observedNs current before (path, disk) = .ok middle ∧
      deleted.1.recordState ⟨name, path⟩ = middle.1.recordState ⟨name, path⟩ := by
  have member := Std.ExtTreeMap.mem_toList_iff_getElem?_eq_some.mpr present
  obtain ⟨before, middle, same, step, view⟩ := foldlM_at Prod.fst
    (fun state => state.1.recordState ⟨name, path⟩) (OrderedMap.nodup_keys context.files)
    member (fun state other next differs step => by
      obtain ⟨row, -, rows⟩ := scanFile_ok step
      rw [rows, if_neg fun equal => differs (congrArg RecordKey.path equal)]) listed
  have removedSame := foldlM_keeps (fun state => state.1.recordState ⟨name, path⟩)
    (fun state winner next member step => scanDeletion_other step ?_) removed
  · exact ⟨before, middle, same, step, removedSame.trans view⟩
  · by_cases equal : path = winner.record.path
    · refine Or.inl ?_
      simp [keepsWinner, ← equal, present]
    · exact Or.inr fun same => equal (congrArg RecordKey.path same)

/-- The loop over the files leaves the rows of other paths alone. -/
theorem filing_other {current : List PathRecordState}
    (absent : context.files[path]? = none)
    (listed : context.files.toList.foldlM (scanFile scanner name author observedNs current) start =
      .ok filed) :
    filed.1.recordState ⟨name, path⟩ = start.1.recordState ⟨name, path⟩ := by
  apply foldlM_keeps (fun state => state.1.recordState ⟨name, path⟩) _ listed
  intro state entry next member step
  obtain ⟨row, -, rows⟩ := scanFile_ok step
  rw [rows, if_neg]
  intro equal
  have paths : entry.1 = path := congrArg RecordKey.path equal
  rw [← paths, Std.ExtTreeMap.mem_toList_iff_getElem?_eq_some.mp member] at absent
  cases absent

/-- What the loop over the winners makes of the row of a path that is not listed. -/
theorem deletion_outcome (keyed : warned.Keyed) (absent : context.files[path]? = none)
    (unfiled : filed.1.recordState ⟨name, path⟩ = warned.recordState ⟨name, path⟩)
    (removed : (warned.recordStates name).foldlM
      (scanDeletion scanner name author observedNs context) filed = .ok deleted) :
    DeletionOutcome scanner name author observedNs context (warned.recordState ⟨name, path⟩)
      (deleted.1.recordState ⟨name, path⟩) := by
  cases stored : warned.recordState ⟨name, path⟩ with
  | some winner =>
      have member := mem_recordStates.mpr ⟨path, stored⟩
      have samePath : winner.record.path = path :=
        congrArg RecordKey.path (keyed.row stored)
      subst samePath
      obtain ⟨before, middle, same, step, view⟩ := foldlM_at
        (fun row : PathRecordState => row.record.path)
        (fun state => state.1.recordState ⟨name, winner.record.path⟩)
        (nodup_recordStates keyed name) member
        (fun state other next differs step => scanDeletion_other step
          (Or.inr fun equal => differs (congrArg RecordKey.path equal).symm)) removed
      rw [view]
      exact scanDeletion_ok (same.trans (unfiled.trans stored)) step
  | none =>
      have located : ∀ winner ∈ warned.recordStates name,
          warned.recordState ⟨name, winner.record.path⟩ = some winner := by
        intro winner member
        obtain ⟨other, found⟩ := mem_recordStates.mp member
        rwa [show winner.record.path = other from congrArg RecordKey.path (keyed.row found)]
      have removedSame := foldlM_keeps (fun state => state.1.recordState ⟨name, path⟩)
        (fun state winner next member step => scanDeletion_other step (Or.inr fun equal => by
          have found := located winner member
          rw [← equal, stored] at found
          cases found)) removed
      rw [removedSame, unfiled, stored]
      exact .kept none fun _ impossible => absurd impossible (Option.not_mem_none _)

end loops

/-- The effect of a successful scan after its walk. -/
theorem scanListing_ok {scanner : Scanner} {store after : StateStore} {name localPath : String}
    {author : EndpointId} {observedNs : I64} {root : RootPath} {context : WalkContext}
    {summary : ScanSummary} (keyed : store.Keyed)
    (done : scanListing scanner store name localPath author observedNs root context =
      .ok (after, summary)) :
    (∀ path, ScannedRow scanner name author observedNs context path
      (store.completedRow name root ⟨name, path⟩) (after.recordState ⟨name, path⟩)) ∧
    ∀ key, key.collection ≠ name → after.recordState key = store.recordState key := by
  obtain ⟨warned, filed, deleted, keyedWarned, start, listed, removed, last⟩ :=
    scanListing_loops keyed done
  refine ⟨fun path => ?_, fun key other => ?_⟩
  · rw [last, ← start]
    unfold ScannedRow
    cases present : context.files[path]? with
    | some disk =>
        dsimp only
        obtain ⟨before, middle, same, step, view⟩ := filing_iteration present listed removed
        obtain ⟨row, outcome, rows⟩ := scanFile_ok step
        dsimp only at same view
        rw [view, rows, if_pos rfl]
        rw [same, divergedMaterializedWinner, durableMatch] at outcome
        simp only [Bool.and_assoc] at outcome
        rwa [any_recordStates keyedWarned, any_recordStates keyedWarned] at outcome
    | none => exact deletion_outcome keyedWarned present (filing_other present listed) removed
  · have filedSame := foldlM_keeps (fun state => state.1.recordState key)
      (fun state entry next _ step => by
        obtain ⟨row, -, rows⟩ := scanFile_ok step
        rw [rows, if_neg fun equal => other (congrArg RecordKey.collection equal).symm]) listed
    have removedSame := foldlM_keeps (fun state => state.1.recordState key)
      (fun state winner next _ step => scanDeletion_other step
        (Or.inr fun equal => other (congrArg RecordKey.collection equal))) removed
    dsimp only at filedSame removedSame
    rw [last, removedSame, filedSame, start, completedRow_of_ne store root other]

/-- An iteration that fails has changed no row. -/
theorem scanFile_error {scanner : Scanner} {name : String} {author : EndpointId}
    {observedNs : I64} {current : List PathRecordState} {state : StateStore × ScanSummary}
    {entry : ProtocolPath × DiskFile} {reason : ScanError} {left : StateStore}
    (failed : scanFile scanner name author observedNs current state entry =
      .error (reason, left)) (key : RecordKey) :
    left.recordState key = state.1.recordState key := by
  obtain ⟨store, summary⟩ := state
  obtain ⟨path, disk⟩ := entry
  have always : Always (fun _ => True)
      (fun failure : ScanError × StateStore =>
        failure.2.recordState key = store.recordState key)
      (scanFile scanner name author observedNs current (store, summary) (path, disk)) := by
    unfold scanFile
    dsimp only
    split
    · split
      · exact (commit_always (fun _ _ => trivial) fun _ => rfl).bind fun _ _ => trivial
      · exact (commit_always (fun _ _ => trivial) fun _ => rfl).bind fun _ _ => trivial
    · refine Always.bind (p := fun _ => True) ?_ fun candidate _ => ?_
      · cases Record.file name path disk.modifiedNs author disk.size disk.hash with
        | error source => rfl
        | ok candidate => trivial
      · split
        · split
          · exact (commit_always (fun _ _ => trivial) fun _ => rfl).bind fun _ _ => trivial
          · refine (commit_always (p := fun merged => merged.2 = false →
              merged.1.recordState key = store.recordState key) ?_ fun _ => rfl).bind ?_
            · rintro ⟨merged, accepted⟩ committed rfl
              rcases mergeScanned committed with ⟨impossible, -⟩ | ⟨-, -, rows⟩
              · cases impossible
              · exact rows key
            · rintro ⟨merged, accepted⟩ kept
              dsimp only at kept ⊢
              split
              · trivial
              · rename_i rejected
                split
                · exact (commit_always (fun _ _ => trivial) fun _ =>
                    kept (Bool.eq_false_iff.mpr rejected)).bind fun _ _ => trivial
                · trivial
        · exact (commit_always (fun _ _ => trivial) fun _ => rfl).bind fun _ _ => trivial
  rw [failed] at always
  exact always

theorem scanDeletion_error {scanner : Scanner} {name : String} {author : EndpointId}
    {observedNs : I64} {context : WalkContext} {state : StateStore × ScanSummary}
    {winner : PathRecordState} {reason : ScanError} {left : StateStore}
    (failed : scanDeletion scanner name author observedNs context state winner =
      .error (reason, left)) : left = state.1 := by
  obtain ⟨store, summary⟩ := state
  unfold scanDeletion at failed
  dsimp only at failed
  split at failed
  · cases failed
  · cases built : deletionRecord name author observedNs winner.record with
    | error source =>
        rw [built] at failed
        cases failed
        rfl
    | ok tombstone =>
        rw [built] at failed
        cases committed : store.mergeRecord tombstone observedNs none scanner.maxLogs with
        | error source =>
            simp only [Except.mapError, Except.ok_bind, commit, committed] at failed
            cases failed
            rfl
        | ok merged =>
            simp only [Except.mapError, Except.ok_bind, commit, committed] at failed
            split at failed <;> cases failed

section collections
variable (scanner : Scanner) (name : String) (author : EndpointId) (observedNs : I64)

/-- A store and a failure with the collections of an earlier store. -/
abbrev KeepsCollections (store : StateStore) :
    Scanned (StateStore × ScanSummary) → Prop :=
  Always (fun after => after.1.collections = store.collections)
    fun failure => failure.2.collections = store.collections

theorem scanFile_collections (current : List PathRecordState) (state : StateStore × ScanSummary)
    (entry : ProtocolPath × DiskFile) :
    KeepsCollections state.1 (scanFile scanner name author observedNs current state entry) := by
  obtain ⟨store, summary⟩ := state
  obtain ⟨path, disk⟩ := entry
  have marks : ∀ (before : StateStore), before.collections = store.collections → ∀ event,
      Always (fun after : StateStore => after.collections = store.collections)
        (fun failure => failure.2.collections = store.collections)
        (commit before (before.markRepairRequiredAndLog ⟨name, path⟩ observedNs event
          scanner.maxLogs)) := by
    intro before same event
    refine commit_always (fun after committed => ?_) fun _ => same
    obtain ⟨-, -, -, collections, -⟩ := markRepairRequiredAndLog_ok committed
    rw [collections, same]
  have merges : ∀ candidate : Record,
      Always (fun merged : StateStore × Bool => merged.1.collections = store.collections)
        (fun failure => failure.2.collections = store.collections)
        (commit store (store.mergeRecord candidate observedNs none scanner.maxLogs)) := by
    intro candidate
    refine commit_always ?_ fun _ => rfl
    rintro ⟨merged, accepted⟩ committed
    exact (mergeRecord_ok committed).2.1
  unfold scanFile
  dsimp only
  split
  · split
    · exact (marks store rfl _).bind fun marked same => same
    · refine (commit_always (fun logged appended => ?_) fun _ => rfl).bind
        fun (logged : StateStore) (same : logged.collections = store.collections) => same
      exact appendLog_collections appended
  · refine Always.bind (p := fun _ => True) ?_ fun candidate _ => ?_
    · cases Record.file name path disk.modifiedNs author disk.size disk.hash with
      | error source => rfl
      | ok candidate => trivial
    · split
      · split
        · refine (commit_always (fun marked committed => ?_) fun _ => rfl).bind
            fun (marked : StateStore) (same : marked.collections = store.collections) => same
          obtain ⟨-, -, -, collections, -⟩ := updateMaterializedFingerprint_ok committed
          exact collections
        · apply (merges candidate).bind
          rintro ⟨merged, accepted⟩ same
          dsimp only at same ⊢
          split
          · exact same
          · split
            · exact (marks merged same _).bind fun marked same => same
            · exact same
      · exact (merges candidate).bind fun merged same => same

theorem scanDeletion_collections (context : WalkContext) (state : StateStore × ScanSummary)
    (winner : PathRecordState) :
    KeepsCollections state.1
      (scanDeletion scanner name author observedNs context state winner) := by
  obtain ⟨store, summary⟩ := state
  unfold scanDeletion
  dsimp only
  split
  · rfl
  · refine Always.bind (p := fun _ => True) ?_ fun tombstone _ => ?_
    · cases deletionRecord name author observedNs winner.record with
      | error source => rfl
      | ok tombstone => trivial
    · refine Always.bind (p := fun merged : StateStore × Bool =>
        merged.1.collections = store.collections) (commit_always ?_ fun _ => rfl) ?_
      · rintro ⟨merged, accepted⟩ committed
        exact (mergeRecord_ok committed).2.1
      · rintro ⟨merged, accepted⟩ same
        dsimp only at same ⊢
        split <;> exact same

end collections

/-- What the log entries and the iterations of both loops keep, also when they fail, a scan keeps,
unless `complete_collection_scan` has failed. -/
theorem scanListing_always (invariant : StateStore → Prop) {scanner : Scanner} {store : StateStore}
    {name localPath : String} {author : EndpointId} {observedNs : I64} {root : RootPath}
    {context : WalkContext}
    (completes : ∀ completed changed, store.completeCollectionScan name localPath root =
      .ok (completed, changed) → invariant completed)
    (logs : ∀ current event after, invariant current →
      current.appendLog observedNs event scanner.maxLogs = .ok after → invariant after)
    (files : ∀ current (state : StateStore × ScanSummary) (entry : ProtocolPath × DiskFile),
      context.files[entry.1]? = some entry.2 → invariant state.1 →
      Always (fun after => invariant after.1) (fun failure => invariant failure.2)
        (scanFile scanner name author observedNs current state entry))
    (deletions : ∀ (warned : StateStore) (state : StateStore × ScanSummary) winner,
      invariant warned → winner ∈ warned.recordStates name → invariant state.1 →
      Always (fun after => invariant after.1) (fun failure => invariant failure.2)
        (scanDeletion scanner name author observedNs context state winner)) :
    Always (fun after => invariant after.1)
      (fun failure => failure.2 = store ∨ invariant failure.2)
      (scanListing scanner store name localPath author observedNs root context) := by
  have logged : ∀ (current : StateStore) event, invariant current →
      Always (fun after => invariant after) (fun failure => failure.2 = store ∨ invariant failure.2)
        (commit current (current.appendLog observedNs event scanner.maxLogs)) :=
    fun current event holds =>
      commit_always (fun after appended => logs current event after holds appended)
        fun _ => Or.inr holds
  have weaken : ∀ {outcome : Scanned (StateStore × ScanSummary)},
      Always (fun after => invariant after.1) (fun failure => invariant failure.2) outcome →
      Always (fun after => invariant after.1)
        (fun failure => failure.2 = store ∨ invariant failure.2) outcome := by
    intro outcome always
    cases outcome with
    | ok after => exact always
    | error failure => exact Or.inr always
  unfold scanListing
  refine Always.bind (p := fun completed => invariant completed.1) ?_ ?_
  · refine commit_always ?_ fun _ => Or.inl rfl
    rintro ⟨completed, changed⟩ committed
    exact completes completed changed committed
  rintro ⟨completed, changed⟩ holds
  refine Always.bind (p := invariant) ?_ ?_
  · exact Always.foldlM holds fun current warning _ holds => logged current warning holds
  intro warned warns
  refine Always.bind (p := fun state => invariant state.1) ?_ ?_
  · refine Always.foldlM warns fun state entry member holds => weaken (files _ _ _ ?_ holds)
    exact Std.ExtTreeMap.mem_toList_iff_getElem?_eq_some.mp member
  intro state holds
  refine Always.bind (p := fun state => invariant state.1) ?_ ?_
  · exact Always.foldlM holds fun state winner member holds =>
      weaken (deletions warned state winner warns member holds)
  rintro ⟨deleted, summary⟩ holds
  exact (logged deleted _ holds).bind fun after holds => holds

end

end Skillsync
