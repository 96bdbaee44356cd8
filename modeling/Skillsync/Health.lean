import Skillsync.Deletions

set_option autoImplicit false

namespace Skillsync

open Fallible StateStore

/-- The row carries a fingerprint exactly when it is a materialized file, and then the one of
its own record. -/
def PathRecordState.Fingerprinted (row : PathRecordState) : Prop :=
  match row.materializedFingerprint with
  | some fingerprint =>
      row.materialized = true ∧ row.record.kind = .file fingerprint.size fingerprint.hash
  | none => row.materialized = true → row.record.kind = .tombstone

namespace StateStore

def Fingerprinted (store : StateStore) : Prop :=
  ∀ key row, store.recordState key = some row → row.Fingerprinted

theorem unmaterialized_fingerprinted {name : String} {spared : Option ProtocolPath}
    {key : RecordKey} {row : PathRecordState} (holds : row.Fingerprinted) :
    (unmaterialized name spared key row).Fingerprinted := by
  unfold unmaterialized
  split
  · intro impossible
    cases impossible
  · exact holds

theorem Fingerprinted.completedRow {store : StateStore} (holds : store.Fingerprinted)
    {name : String} {root : RootPath} {key : RecordKey} {row : PathRecordState}
    (present : store.completedRow name root key = some row) : row.Fingerprinted := by
  unfold StateStore.completedRow at present
  split at present
  · exact holds key row present
  · obtain ⟨old, stored, rfl⟩ := Option.map_eq_some_iff.mp present
    exact unmaterialized_fingerprinted (holds key old stored)

theorem completedRow_tombstone {store : StateStore} {name : String} {root : RootPath}
    {key : RecordKey} {row : PathRecordState} (removed : row.record.kind = .tombstone) :
    store.completedRow name root key = some row ↔ store.recordState key = some row := by
  unfold completedRow
  split
  · rfl
  · rw [Option.map_eq_some_iff]
    constructor
    · rintro ⟨old, stored, rfl⟩
      rw [unmaterialized_record] at removed
      simp [unmaterialized, removed, RecordKind.isFile, stored]
    · intro stored
      exact ⟨row, stored, by simp [unmaterialized, removed, RecordKind.isFile]⟩

end StateStore

/-- The disk holds what a materialized row says. -/
structure AgreesWithDisk [Blake3] (fileSystem : FileSystem) (path : ProtocolPath)
    (record : Record) : Prop where
  file : record.kind.isFile = true →
    ∃ file, fileSystem.fileAt fileSystem.root path.components = some (.stable file) ∧
      file.Holds record.kind
  tombstone : record.kind = .tombstone →
    fileSystem.fileAt fileSystem.root path.components = none

section
variable [Blake3]

/-- Neither ignored nor excluded by the walk. -/
def Visible (scanner : Scanner) (name : String) (root : RootPath) (fileSystem : FileSystem)
    (path : ProtocolPath) : Prop :=
  isIgnored scanner.ignores path.text = false ∧
    ∀ context, walk fileSystem name scanner.ignores (scanner.comparisonKey root) = .ok context →
      context.isExcluded path.text = false

/-- Every materialized row below the last timestamp agrees with the disk. -/
def Healthy (scanner : Scanner) (name : String) (root : RootPath) (fileSystem : FileSystem)
    (after : StateStore) : Prop :=
  ∀ path row, Visible scanner name root fileSystem path →
    after.recordState ⟨name, path⟩ = some row → row.record.modifiedNs < I64.max →
    row.materialized = true → AgreesWithDisk fileSystem path row.record

/-- A file on the disk that loses to the applied tombstone of its path. -/
structure Restored (scanner : Scanner) (store : StateStore) (name : String) (author : EndpointId)
    (observedNs : I64) (fileSystem : FileSystem) (path : ProtocolPath) : Prop where
  shown : fileSystem.fateOf scanner.ignores path.components ≠ .skipped
  row : ∃ row, store.recordState ⟨name, path⟩ = some row ∧ row.record.kind = .tombstone ∧
    row.materialized = true ∧ row.record.modifiedNs < I64.max ∧
    ∃ file candidate, fileSystem.fileAt fileSystem.root path.components = some (.stable file) ∧
      file.modifiedNs ≤ observedNs.saturatingAdd scanner.maxFutureSkew ∧
      Record.file name path file.modifiedNs author file.bytes.length (Blake3.hash file.bytes) =
        .ok candidate ∧
      candidate.compareWinner row.record ≠ .gt

/-- A file on the disk below an ignored directory, with a materialized row. -/
structure Unseen (scanner : Scanner) (store : StateStore) (name : String) (observedNs : I64)
    (root : RootPath) (fileSystem : FileSystem) (path : ProtocolPath) : Prop where
  hidden : fileSystem.fateOf scanner.ignores path.components = .skipped
  present : (fileSystem.fileAt fileSystem.root path.components).isSome = true
  row : ∃ row, store.recordState ⟨name, path⟩ = some row ∧ row.materialized = true ∧
    (row.record.kind = .tombstone ∧ row.record.modifiedNs < I64.max ∨
      row.record.kind.isFile = true ∧ store.resolvedRoot name = some root ∧
        max observedNs row.record.modifiedNs.saturatingSucc < I64.max)

omit [Blake3] in
theorem deletionRecord_total {name : String} {author : EndpointId} {observedNs : I64}
    {winner : Record} (named : winner.collection = name) :
    ∃ tombstone, deletionRecord name author observedNs winner = .ok tombstone := by
  subst named
  refine ⟨⟨winner.collection, winner.path, max observedNs winner.modifiedNs.saturatingSucc,
    author, .tombstone, winner.collection_ne, winner.collection_fits, winner.path_fits, trivial⟩,
    ?_⟩
  simp only [deletionRecord, Record.tombstone, Record.new, winner.collection_ne,
    winner.collection_fits, winner.path_fits, RecordKind.SizeFits, ↓reduceDIte]

/-- A deletion observed before the last timestamp beats its winner. -/
theorem deletionRecord_beats {name : String} {author : EndpointId} {observedNs : I64}
    {winner tombstone : Record} (room : winner.modifiedNs < I64.max)
    (built : deletionRecord name author observedNs winner = .ok tombstone) :
    tombstone.compareWinner winner = .gt := by
  obtain ⟨-, -, time, -⟩ := deletionRecord_ok built
  rw [Record.compareWinner_eq_gt, Record.rank, Record.rank, Prod.Lex.toLex_lt_toLex]
  refine Or.inl ?_
  dsimp only
  rw [time]
  exact lt_of_lt_of_le (I64.lt_saturatingSucc room) (le_max_right _ _)

section scanned
variable {scanner : Scanner} {store after : StateStore} {name localPath : String}
  {author : EndpointId} {observedNs : I64} {root : RootPath} {fileSystem : FileSystem}
  {context : WalkContext} {path : ProtocolPath}

/-- A visible regular file that the walk reaches is listed. -/
theorem listed_of_present
    (walked : walk fileSystem name scanner.ignores (scanner.comparisonKey root) = .ok context)
    (included : context.isExcluded path.text = false)
    (shown : fileSystem.fateOf scanner.ignores path.components ≠ .skipped)
    (present : fileSystem.fileAt fileSystem.root path.components ≠ none) :
    (context.files[path]?).isSome = true := by
  obtain ⟨content, found⟩ := Option.ne_none_iff_exists'.mp present
  rcases walk_covers walked found shown with ⟨other, text, listed⟩ | excluded
  · rwa [ProtocolPath.ext_text text] at listed
  · rw [included] at excluded
    cases excluded

/-- The row of a listed file agrees with the disk, unless the file was restored. -/
theorem FileOutcome.agrees (fingerprinted : store.Fingerprinted)
    (walked : walk fileSystem name scanner.ignores (scanner.comparisonKey root) = .ok context)
    {disk : DiskFile} (listed : context.files[path]? = some disk)
    {row : PathRecordState}
    (outcome : ScannedRow scanner name author observedNs context path
      (store.completedRow name root ⟨name, path⟩) (some row))
    (room : row.record.modifiedNs < I64.max) (materialized : row.materialized = true)
    (absent : ¬ Restored scanner store name author observedNs fileSystem path) :
    AgreesWithDisk fileSystem path row.record := by
  obtain ⟨file, reached, rfl⟩ := (walk_sound walked).listed path disk listed
  have found := fileAt_of_fate reached
  have agrees (kind : row.record.kind =
      .file file.fingerprint.size file.fingerprint.hash) :
      AgreesWithDisk fileSystem path row.record :=
    ⟨fun _ => ⟨file, found, kind⟩, fun removed => by rw [kind] at removed; cases removed⟩
  rw [ScannedRow, listed] at outcome
  dsimp only at outcome
  generalize start : store.completedRow name root ⟨name, path⟩ = before at outcome
  cases outcome with
  | diverged => cases materialized
  | postponed _ _ settled =>
      refine agrees (diskBytesMatchRecord_iff.mp ?_)
      rw [Option.any_some, materialized] at settled
      simpa using settled
  | settled old _ _ matches_ =>
      refine agrees ?_
      rcases matches_ with durable | same
      · rw [Option.any_some, decide_eq_true_eq] at durable
        have holds := fingerprinted.completedRow start
        rw [PathRecordState.Fingerprinted, durable] at holds
        exact holds.2
      · exact (diskMatchesRecord_iff.mp same).1
  | accepted _ candidate _ built _ =>
      obtain ⟨-, -, -, -, kind⟩ := Record.new_ok built
      exact agrees kind
  | lost => cases materialized
  | outlived _ candidate inTime built _ loses removed =>
      refine absurd ⟨?_, ?_⟩ absent
      · rw [FileSystem.fateOf] at reached ⊢
        rw [reached]
        simp
      · exact ⟨row, (completedRow_tombstone removed).mp start, removed, materialized, room,
          file, candidate, found, inTime, built, loses⟩

/-- The row of an unlisted path agrees with the disk, unless its file is unseen. -/
theorem DeletionOutcome.agrees (keyed : store.Keyed)
    (walked : walk fileSystem name scanner.ignores (scanner.comparisonKey root) = .ok context)
    (visible : Visible scanner name root fileSystem path)
    (unlisted : context.files[path]? = none) {row : PathRecordState}
    (outcome : ScannedRow scanner name author observedNs context path
      (store.completedRow name root ⟨name, path⟩) (some row))
    (room : row.record.modifiedNs < I64.max) (materialized : row.materialized = true)
    (absent : ¬ Unseen scanner store name observedNs root fileSystem path) :
    AgreesWithDisk fileSystem path row.record := by
  have included := visible.2 context walked
  have missing (known : fileSystem.fileAt fileSystem.root path.components ≠ none →
      ∃ row, store.recordState ⟨name, path⟩ = some row ∧ row.materialized = true ∧
        (row.record.kind = .tombstone ∧ row.record.modifiedNs < I64.max ∨
          row.record.kind.isFile = true ∧ store.resolvedRoot name = some root ∧
            max observedNs row.record.modifiedNs.saturatingSucc < I64.max)) :
      fileSystem.fileAt fileSystem.root path.components = none := by
    by_contra present
    by_cases hidden : fileSystem.fateOf scanner.ignores path.components = .skipped
    · exact absent ⟨hidden, Option.isSome_iff_ne_none.mpr present, known present⟩
    · have listed := listed_of_present walked included hidden present
      rw [unlisted] at listed
      cases listed
  rw [ScannedRow, unlisted] at outcome
  dsimp only at outcome
  generalize start : store.completedRow name root ⟨name, path⟩ = before at outcome
  cases outcome with
  | deleted old tombstone removes built _ =>
      obtain ⟨isFile, wasMaterialized, -⟩ := keepsWinner_eq_false.mp removes
      obtain ⟨bound, stored⟩ := completedRow_materialized start isFile wasMaterialized
      obtain ⟨-, kind, time, -⟩ := deletionRecord_ok built
      refine ⟨fun isFile => ?_, fun _ => missing fun _ => ?_⟩
      · rw [mergedRow, kind] at isFile
        cases isFile
      · rw [mergedRow, time] at room
        exact ⟨old, stored, wasMaterialized, Or.inr ⟨isFile, bound, room⟩⟩
  | kept _ keeps =>
      refine ⟨fun isFile => ?_, fun removed => missing fun _ => ?_⟩
      · exfalso
        obtain ⟨bound, stored⟩ := completedRow_materialized start isFile materialized
        have key := keyed.row stored
        have samePath : row.record.path = path := congrArg RecordKey.path key
        rcases keeps row rfl with kept | ⟨tombstone, built, notBeaten⟩
        · have removes : keepsWinner scanner context row = false := by
            rw [keepsWinner_eq_false, samePath]
            exact ⟨isFile, materialized, unlisted, visible.1, included⟩
          rw [removes] at kept
          cases kept
        · exact notBeaten (deletionRecord_beats room built)
      · exact ⟨row, (completedRow_tombstone removed).mp start, materialized,
          Or.inl ⟨removed, room⟩⟩

/-- A restored file leaves its tombstone marked as applied. -/
theorem Restored.not_healthy (fingerprinted : store.Fingerprinted)
    (walked : walk fileSystem name scanner.ignores (scanner.comparisonKey root) = .ok context)
    (visible : Visible scanner name root fileSystem path)
    (restored : Restored scanner store name author observedNs fileSystem path)
    (outcome : ScannedRow scanner name author observedNs context path
      (store.completedRow name root ⟨name, path⟩) (after.recordState ⟨name, path⟩)) :
    ¬ Healthy scanner name root fileSystem after := by
  intro healthy
  obtain ⟨shown, row, stored, removed, materialized, room, file, candidate, found, inTime, built,
    loses⟩ := restored
  have listed : context.files[path]? = some file.fingerprint :=
    (walk_files walked shown (visible.2 context walked) _).mpr ⟨file, found, rfl⟩
  have holds := fingerprinted _ _ stored
  have noFingerprint : row.materializedFingerprint = none := by
    cases fingerprint : row.materializedFingerprint with
    | none => rfl
    | some other =>
        rw [PathRecordState.Fingerprinted, fingerprint, removed] at holds
        cases holds.2
  rw [ScannedRow, listed, (completedRow_tombstone removed).mpr stored] at outcome
  dsimp only at outcome
  have kept : after.recordState ⟨name, path⟩ = some row := by
    generalize after.recordState ⟨name, path⟩ = final at outcome
    cases outcome with
    | diverged _ late => exact absurd late (not_lt.mpr inTime)
    | postponed _ late => rfl
    | settled _ _ isFile =>
        rw [removed] at isFile
        cases isFile
    | accepted _ made _ builtMade beats =>
        obtain rfl : made = candidate := Except.ok.inj (builtMade.symm.trans built)
        exact absurd (beats row rfl).2 loses
    | lost _ _ _ _ _ _ isFile =>
        rw [removed] at isFile
        cases isFile
    | outlived => rfl
  have agrees := (healthy path row visible kept room materialized).tombstone removed
  rw [found] at agrees
  cases agrees

/-- An unseen file is marked as deleted, or its tombstone stays marked as applied. -/
theorem Unseen.not_healthy (keyed : store.Keyed)
    (walked : walk fileSystem name scanner.ignores (scanner.comparisonKey root) = .ok context)
    (visible : Visible scanner name root fileSystem path)
    (unseen : Unseen scanner store name observedNs root fileSystem path)
    (outcome : ScannedRow scanner name author observedNs context path
      (store.completedRow name root ⟨name, path⟩) (after.recordState ⟨name, path⟩)) :
    ¬ Healthy scanner name root fileSystem after := by
  intro healthy
  obtain ⟨hidden, present, row, stored, materialized, kind⟩ := unseen
  obtain ⟨unlisted, included⟩ := walk_skipped walked hidden
  have lies {other : PathRecordState} (left : after.recordState ⟨name, path⟩ = some other)
      (removed : other.record.kind = .tombstone) (room : other.record.modifiedNs < I64.max)
      (marked : other.materialized = true) : False := by
    rw [(healthy path other visible left room marked).tombstone removed] at present
    cases present
  rw [ScannedRow, unlisted] at outcome
  dsimp only at outcome
  generalize result : after.recordState ⟨name, path⟩ = final at outcome
  rcases kind with ⟨removed, room⟩ | ⟨isFile, bound, room⟩
  · rw [(completedRow_tombstone removed).mpr stored] at outcome
    cases outcome with
    | deleted _ _ removes =>
        obtain ⟨isFile, -⟩ := keepsWinner_eq_false.mp removes
        rw [removed] at isFile
        cases isFile
    | kept => exact lies result removed room materialized
  · have key := keyed.row stored
    have samePath : row.record.path = path := congrArg RecordKey.path key
    rw [completedRow, if_pos bound, stored] at outcome
    cases outcome with
    | deleted _ tombstone _ built =>
        obtain ⟨-, removed, time, -⟩ := deletionRecord_ok built
        exact lies result removed (by rw [mergedRow, time]; exact room) rfl
    | kept _ keeps =>
        have removes : keepsWinner scanner context row = false := by
          rw [keepsWinner_eq_false, samePath]
          exact ⟨isFile, materialized, unlisted, visible.1, included⟩
        rcases keeps row rfl with kept | ⟨tombstone, built, notBeaten⟩
        · rw [removes] at kept
          cases kept
        · refine notBeaten (deletionRecord_beats ?_ built)
          exact lt_of_le_of_lt (I64.le_saturatingSucc _) (lt_of_le_of_lt (le_max_right _ _) room)

/-- A scan leaves only what the disk holds marked as materialized, except for restored and
unseen files. -/
theorem scan_healthy_iff (keyed : store.Keyed) (fingerprinted : store.Fingerprinted)
    {summary : ScanSummary}
    (done : scanCollection scanner store name localPath author observedNs
      (.ok (root, fileSystem)) = .ok (after, summary)) :
    Healthy scanner name root fileSystem after ↔
      ∀ path, Visible scanner name root fileSystem path →
        ¬ Restored scanner store name author observedNs fileSystem path ∧
        ¬ Unseen scanner store name observedNs root fileSystem path := by
  unfold scanCollection at done
  obtain ⟨context, walked, done⟩ := Except.bind_ok done
  replace walked := Except.mapError_ok walked
  obtain ⟨outcomes, -⟩ := scanListing_ok keyed done
  constructor
  · intro healthy path visible
    exact ⟨fun restored =>
        restored.not_healthy fingerprinted walked visible (outcomes path) healthy,
      fun unseen => unseen.not_healthy keyed walked visible (outcomes path) healthy⟩
  · intro clean path row visible left room materialized
    obtain ⟨notRestored, notUnseen⟩ := clean path visible
    have outcome := outcomes path
    rw [left] at outcome
    cases listed : context.files[path]? with
    | some disk =>
        exact FileOutcome.agrees fingerprinted walked listed outcome room materialized notRestored
    | none =>
        exact DeletionOutcome.agrees keyed walked visible listed outcome room materialized
          notUnseen

end scanned

end

section
attribute [local instance] Blake3.checksum

/-- One collection with one applied deletion. -/
def knownDeletion : StateStore :=
  { StateStore.empty with
    collections := (∅ : OrderedMap String CollectionState).insert "c"
      ⟨"/c", some "/c", .active, .active⟩
    pathRecords := (∅ : OrderedMap RecordKey PathRecordState).insert ⟨"c", .sample⟩
      ⟨.sample .sample 7 (.fill 1) .tombstone, true, none⟩ }

/-- A root with one old file. -/
def restoredFile : FileSystem where
  root := (0, 0)
  directories := [((0, 0), ⟨[(some "f", .file (.stable ⟨[], 5⟩))], by decide, by decide⟩)]

/-- The restored file has lost to the tombstone, which stays marked as applied. -/
theorem restored_file_not_healthy :
    ∃ after summary, scanCollection ignoringBuild knownDeletion "c" "/c" (.fill 1) 9
        (.ok ("/c", restoredFile)) = .ok (after, summary) ∧
      ¬ Healthy ignoringBuild "c" "/c" restoredFile after := by
  have left : ((scanCollection ignoringBuild knownDeletion "c" "/c" (.fill 1) 9
      (.ok ("/c", restoredFile))).toOption.bind fun result =>
        result.1.recordState ⟨"c", .sample⟩) =
      knownDeletion.recordState ⟨"c", .sample⟩ := by decide +kernel
  have stored : (knownDeletion.recordState ⟨"c", .sample⟩).isSome = true := by
    decide +kernel
  obtain ⟨row, present⟩ := Option.isSome_iff_exists.mp stored
  rw [present] at left
  obtain ⟨⟨after, summary⟩, done, left⟩ := Option.bind_eq_some_iff.mp left
  refine ⟨after, summary, Except.toOption_eq_some.mp done, fun healthy => ?_⟩
  have excluded : ((walk restoredFile "c" ignoringBuild.ignores
      (ignoringBuild.comparisonKey "/c")).toOption.all fun context =>
        !context.isExcluded ProtocolPath.sample.text) = true := by decide +kernel
  have visible : Visible ignoringBuild "c" "/c" restoredFile .sample := by
    refine ⟨by decide +kernel, fun context walked => ?_⟩
    rw [walked] at excluded
    simpa [Except.toOption] using excluded
  have facts : (knownDeletion.recordState ⟨"c", .sample⟩).all (fun row =>
      decide (row.record.modifiedNs < I64.max) && row.materialized &&
        decide (row.record.kind = .tombstone)) = true := by decide +kernel
  rw [present] at facts
  simp only [Option.all_some, Bool.and_eq_true, decide_eq_true_eq] at facts
  have missing := (healthy _ row visible left facts.1.1 facts.1.2).tombstone facts.2
  exact absurd missing (by decide +kernel)

theorem knownFile_fingerprinted : knownFile.Fingerprinted := by
  intro key row present
  rw [recordState, knownFile, OrderedMap.getElem?_insert] at present
  split at present
  · cases present
    exact ⟨rfl, by decide +kernel⟩
  · rw [Std.ExtTreeMap.getElem?_empty] at present
    cases present

theorem bare_fileAt (components : List String) : bare.fileAt bare.root components = none := by
  cases components <;> rfl

/-- A scan after the only file is gone. -/
theorem missing_file_healthy :
    ∃ after summary, scanCollection ignoringBuild knownFile "c" "/c" (.fill 1) 9
        (.ok ("/c", bare)) = .ok (after, summary) ∧
      Healthy ignoringBuild "c" "/c" bare after := by
  have total : (scanCollection ignoringBuild knownFile "c" "/c" (.fill 1) 9
      (.ok ("/c", bare))).toOption.isSome = true := by decide +kernel
  obtain ⟨⟨after, summary⟩, done⟩ := Option.isSome_iff_exists.mp total
  replace done := Except.toOption_eq_some.mp done
  refine ⟨after, summary, done, ?_⟩
  refine (scan_healthy_iff knownFile_keyed knownFile_fingerprinted done).mpr fun path _ => ⟨?_, ?_⟩
  · rintro ⟨-, -, -, -, -, -, file, -, found, -⟩
    rw [bare_fileAt] at found
    cases found
  · rintro ⟨-, present, -⟩
    rw [bare_fileAt] at present
    cases present

end

end Skillsync
