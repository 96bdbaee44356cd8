import Skillsync.ScanSpec

set_option autoImplicit false

namespace Skillsync

open Fallible StateStore

/-- A tombstone has become the winner of a key. -/
def PublishesDeletion (store after : StateStore) (key : RecordKey) : Prop :=
  ∃ tombstone, after.record key = some tombstone ∧ tombstone.kind = .tombstone ∧
    store.record key ≠ some tombstone

section
variable [Blake3]

/-- A regular file that the walk passes over, as a pattern ignores a directory above it but not
the file, and whose materialized record a tombstone would beat. -/
structure Overlooked (scanner : Scanner) (store : StateStore) (name : String)
    (author : EndpointId) (observedNs : I64) (root : RootPath) (fileSystem : FileSystem)
    (path : ProtocolPath) (row : PathRecordState) : Prop where
  present : (fileSystem.fileAt fileSystem.root path.components).isSome = true
  hidden : fileSystem.fateOf scanner.ignores path.components = .skipped
  notIgnored : isIgnored scanner.ignores path.text = false
  bound : store.resolvedRoot name = some root
  stored : store.recordState ⟨name, path⟩ = some row
  isFile : row.record.kind.isFile = true
  materialized : row.materialized = true
  beaten : ∃ tombstone, deletionRecord name author observedNs row.record = .ok tombstone ∧
    tombstone.compareWinner row.record = .gt

/-- The tombstone of a winner that the deletion loop does not keep. -/
structure Deletes (scanner : Scanner) (store : StateStore) (name : String) (author : EndpointId)
    (observedNs : I64) (root : RootPath) (context : WalkContext) (path : ProtocolPath)
    (row : PathRecordState) (tombstone : Record) : Prop where
  stored : store.completedRow name root ⟨name, path⟩ = some row
  removes : keepsWinner scanner context row = false
  built : deletionRecord name author observedNs row.record = .ok tombstone
  beaten : tombstone.compareWinner row.record = .gt

/-- Every tombstone is an old one or was made by the deletion loop. -/
structure Explained (scanner : Scanner) (store : StateStore) (name : String)
    (author : EndpointId) (observedNs : I64) (root : RootPath) (context : WalkContext)
    (current : StateStore) : Prop where
  listed : ∀ path tombstone, (context.files[path]?).isSome = true →
    current.record ⟨name, path⟩ = some tombstone → tombstone.kind = .tombstone →
    store.record ⟨name, path⟩ = some tombstone
  unlisted : ∀ path : ProtocolPath, context.files[path]? = none →
    current.record ⟨name, path⟩ = store.record ⟨name, path⟩ ∨
    ∃ row tombstone, Deletes scanner store name author observedNs root context path row tombstone ∧
      current.record ⟨name, path⟩ = some tombstone

theorem FileOutcome.tombstone {name : String} {author : EndpointId} {limit : I64}
    {path : ProtocolPath} {disk : DiskFile} {diverged durable : Bool}
    {row after : Option PathRecordState}
    (outcome : FileOutcome name author limit path disk diverged durable row after)
    {stored : PathRecordState} (present : after = some stored)
    (removed : stored.record.kind = .tombstone) :
    row.map PathRecordState.record = some stored.record := by
  cases outcome with
  | accepted _ candidate _ built _ =>
      cases present
      obtain ⟨-, -, -, -, kind⟩ := Record.new_ok built
      rw [mergedRow, kind] at removed
      cases removed
  | postponed => rw [present]; rfl
  | diverged => cases present; rfl
  | settled => cases present; rfl
  | lost => cases present; rfl
  | outlived => cases present; rfl

section explained
variable {scanner : Scanner} {store : StateStore} {name : String} {author : EndpointId}
  {observedNs : I64} {root : RootPath} {context : WalkContext}

theorem Explained.start :
    Explained scanner store name author observedNs root context store :=
  ⟨fun _ _ _ found _ => found, fun _ _ => Or.inl rfl⟩

theorem Explained.of_record {current after : StateStore}
    (explained : Explained scanner store name author observedNs root context current)
    (same : ∀ key, after.record key = current.record key) :
    Explained scanner store name author observedNs root context after := by
  refine ⟨fun path tombstone isListed found => ?_, fun path absent => ?_⟩
  · exact explained.listed path tombstone isListed (same _ ▸ found)
  · rw [same]
    exact explained.unlisted path absent

theorem Explained.scanFile {current : List PathRecordState} {state : StateStore × ScanSummary}
    {entry : ProtocolPath × DiskFile} (isListed : context.files[entry.1]? = some entry.2)
    (explained : Explained scanner store name author observedNs root context state.1) :
    Always (fun after => Explained scanner store name author observedNs root context after.1)
      (fun failure => Explained scanner store name author observedNs root context failure.2)
      (scanFile scanner name author observedNs current state entry) := by
  cases done : Skillsync.scanFile scanner name author observedNs current state entry with
  | error failure =>
      exact explained.of_record fun key => record_congr (scanFile_error done key)
  | ok after =>
      obtain ⟨row, outcome, rows⟩ := scanFile_ok done
      refine ⟨fun path tombstone listed found removed => ?_, fun path absent => ?_⟩
      · obtain ⟨stored, present, rfl⟩ := record_eq_some.mp found
        rw [rows] at present
        split at present
        · rename_i same
          have old := outcome.tombstone present removed
          rw [same] at old
          exact explained.listed path stored.record listed old removed
        · exact explained.listed path stored.record listed
            (record_eq_some.mpr ⟨stored, present, rfl⟩) removed
      · have other : after.1.recordState ⟨name, path⟩ = state.1.recordState ⟨name, path⟩ := by
          rw [rows, if_neg]
          intro same
          rw [← show entry.1 = path from congrArg RecordKey.path same, isListed] at absent
          cases absent
        rw [record_congr other]
        exact explained.unlisted path absent

/-- The iteration over a winner that is not kept. -/
theorem Explained.deletion {state after : StateStore × ScanSummary} {winner : PathRecordState}
    (known : store.completedRow name root ⟨name, winner.record.path⟩ = some winner)
    (explained : Explained scanner store name author observedNs root context state.1)
    (absent : context.files[winner.record.path]? = none)
    (removes : keepsWinner scanner context winner = false)
    (done : scanDeletion scanner name author observedNs context state winner = .ok after) :
    after.1.record ⟨name, winner.record.path⟩ = store.record ⟨name, winner.record.path⟩ ∨
    ∃ row tombstone, Deletes scanner store name author observedNs root context
        winner.record.path row tombstone ∧
      after.1.record ⟨name, winner.record.path⟩ = some tombstone := by
  have before := explained.unlisted winner.record.path absent
  have recorded := completedRow_record store name root ⟨name, winner.record.path⟩
  rw [known, Option.map_some] at recorded
  unfold Skillsync.scanDeletion at done
  dsimp only at done
  rw [removes] at done
  simp only [Bool.false_eq_true, ↓reduceIte] at done
  obtain ⟨tombstone, built, done⟩ := Except.bind_ok done
  replace built := Except.mapError_ok built
  obtain ⟨key, -⟩ := deletionRecord_ok built
  obtain ⟨⟨merged, accepted⟩, committed, done⟩ := Except.bind_ok done
  have outcome := mergeScanned (commit_ok committed)
  rw [key] at outcome
  have result : after.1 = merged := by
    dsimp only at done
    split at done <;>
    · cases done
      rfl
  rw [result]
  rcases outcome with ⟨-, greater, rows⟩ | ⟨-, -, rows⟩
  · have now : merged.record ⟨name, winner.record.path⟩ = some tombstone := by
      rw [StateStore.record, rows, if_pos rfl]
      rfl
    rw [now]
    rcases before with same | ⟨row, old, deletes, stored⟩
    · rw [← recorded] at same
      obtain ⟨row, present, equal⟩ := record_eq_some.mp same
      exact Or.inr ⟨winner, tombstone, ⟨known, removes, built, equal ▸ greater row present⟩, rfl⟩
    · obtain rfl : winner = row := Option.some.inj (known.symm.trans deletes.stored)
      obtain rfl : tombstone = old := Except.ok.inj (built.symm.trans deletes.built)
      exact Or.inr ⟨winner, tombstone, deletes, rfl⟩
  · rw [record_congr (rows ⟨name, winner.record.path⟩)]
    exact before

theorem Explained.scanDeletion {state : StateStore × ScanSummary} {winner : PathRecordState}
    (known : store.completedRow name root ⟨name, winner.record.path⟩ = some winner)
    (explained : Explained scanner store name author observedNs root context state.1) :
    Always (fun after => Explained scanner store name author observedNs root context after.1)
      (fun failure => Explained scanner store name author observedNs root context failure.2)
      (scanDeletion scanner name author observedNs context state winner) := by
  cases done : Skillsync.scanDeletion scanner name author observedNs context state winner with
  | error failure =>
      rw [show failure = (failure.1, failure.2) from rfl] at done
      exact explained.of_record fun key => by rw [scanDeletion_error done]
  | ok after =>
      cases keeps : keepsWinner scanner context winner with
      | true =>
          exact explained.of_record fun key =>
            record_congr (scanDeletion_other done (Or.inl keeps))
      | false =>
          have other {path : ProtocolPath} (differs : path ≠ winner.record.path) :
              after.1.record ⟨name, path⟩ = state.1.record ⟨name, path⟩ :=
            record_congr (scanDeletion_other done
              (Or.inr fun equal => differs (congrArg RecordKey.path equal)))
          have absent : context.files[winner.record.path]? = none :=
            (keepsWinner_eq_false.mp keeps).2.2.1
          refine ⟨fun path tombstone listed found removed => ?_, fun path missing => ?_⟩
          · have differs : path ≠ winner.record.path := fun same => by
              rw [same, absent] at listed
              cases listed
            rw [other differs] at found
            exact explained.listed path tombstone listed found removed
          · by_cases same : path = winner.record.path
            · subst same
              exact explained.deletion known missing keeps done
            · rw [other same]
              exact explained.unlisted path missing

/-- Whatever store a scan leaves, its new tombstones come from the deletion loop. -/
theorem scanListing_explained {localPath : String} (keyed : store.Keyed) :
    Explained scanner store name author observedNs root context
      (leftStore (scanListing scanner store name localPath author observedNs root context)) := by
  suffices always : Always
      (fun after => Explained scanner store name author observedNs root context after.1)
      (fun failure => Explained scanner store name author observedNs root context failure.2)
      (scanListing scanner store name localPath author observedNs root context) by
    unfold leftStore
    split <;> rename_i done <;> rw [done] at always <;> exact always
  unfold scanListing
  refine Always.bind (p := fun completed => ∀ key,
    completed.1.recordState key = store.completedRow name root key) ?_ ?_
  · exact commit_always (fun completed committed => (completeCollectionScan_ok committed).2)
      fun _ => Explained.start
  rintro ⟨completed, changed⟩ rows
  refine Always.bind (p := fun warned => ∀ key,
    warned.recordState key = store.completedRow name root key) ?_ ?_
  · refine Always.foldlM rows fun current warning _ same => ?_
    refine commit_always (fun logged appended key => ?_) fun _ => ?_
    · rw [appendLog_recordState appended, same]
    · refine Explained.start.of_record fun key => ?_
      rw [StateStore.record, same, completedRow_record]
  intro warned rows
  have records : ∀ key, warned.record key = store.record key := fun key => by
    rw [StateStore.record, rows, completedRow_record]
  have keyedWarned : warned.Keyed := fun key record found => keyed key record (records key ▸ found)
  refine Always.bind (p := fun state =>
    Explained scanner store name author observedNs root context state.1) ?_ ?_
  · refine Always.foldlM (Explained.start.of_record records) fun state entry member holds => ?_
    exact holds.scanFile (Std.ExtTreeMap.mem_toList_iff_getElem?_eq_some.mp member)
  intro state explained
  refine Always.bind (p := fun state =>
    Explained scanner store name author observedNs root context state.1) ?_ ?_
  · refine Always.foldlM explained fun state winner member holds => holds.scanDeletion ?_
    obtain ⟨path, present⟩ := mem_recordStates.mp member
    have same : winner.record.path = path := congrArg RecordKey.path (keyedWarned.row present)
    rw [same, ← rows]
    exact present
  rintro ⟨deleted, summary⟩ explained
  refine Always.bind (p := fun after =>
    Explained scanner store name author observedNs root context after) ?_ ?_
  · exact commit_always (fun after appended => explained.of_record (appendLog_record appended))
      fun _ => explained
  · exact fun after explained => explained

end explained

section results
variable {scanner : Scanner} {store : StateStore} {name localPath : String}
  {author : EndpointId} {observedNs : I64} {root : RootPath} {fileSystem : FileSystem}

/-- A published deletion was made by the deletion loop, for a path the walk has not listed. -/
theorem deletes_of_publishes (keyed : store.Keyed) {path : ProtocolPath}
    (published : PublishesDeletion store (leftStore (scanCollection scanner store name localPath
      author observedNs (.ok (root, fileSystem)))) ⟨name, path⟩) :
    ∃ context row tombstone,
      walk fileSystem name scanner.ignores (scanner.comparisonKey root) = .ok context ∧
      context.files[path]? = none ∧
      Deletes scanner store name author observedNs root context path row tombstone := by
  obtain ⟨tombstone, found, removed, fresh⟩ := published
  unfold scanCollection at found
  dsimp only at found
  cases walked : walk fileSystem name scanner.ignores (scanner.comparisonKey root) with
  | error reason =>
      rw [walked] at found
      exact absurd found fresh
  | ok context =>
      rw [walked] at found
      have explained : Explained scanner store name author observedNs root context
          (leftStore (scanListing scanner store name localPath author observedNs root context)) :=
        scanListing_explained keyed
      cases listed : context.files[path]? with
      | some disk =>
          exact absurd (explained.listed path tombstone (listed ▸ rfl) found removed) fresh
      | none =>
          rcases explained.unlisted path listed with same | ⟨row, made, deletes, recorded⟩
          · exact absurd (same.symm.trans found) fresh
          · exact ⟨context, row, made, rfl, listed, deletes⟩

/-- A deletion of a file that exists was published for an overlooked path. -/
theorem overlooked_of_publishes (keyed : store.Keyed) {path : ProtocolPath}
    (published : PublishesDeletion store (leftStore (scanCollection scanner store name localPath
      author observedNs (.ok (root, fileSystem)))) ⟨name, path⟩)
    (present : (fileSystem.fileAt fileSystem.root path.components).isSome = true) :
    ∃ row, Overlooked scanner store name author observedNs root fileSystem path row := by
  obtain ⟨context, row, made, walked, listed, deletes⟩ := deletes_of_publishes keyed published
  obtain ⟨isFile, materialized, -, notIgnored, notExcluded⟩ :=
    keepsWinner_eq_false.mp deletes.removes
  obtain ⟨bound, stored⟩ := completedRow_materialized deletes.stored isFile materialized
  have samePath : row.record.path = path := congrArg RecordKey.path (keyed.row stored)
  rw [samePath] at notIgnored notExcluded
  obtain ⟨content, reached⟩ := Option.isSome_iff_exists.mp present
  refine ⟨row, present, ?_, notIgnored, bound, stored, isFile, materialized,
    made, deletes.built, deletes.beaten⟩
  by_contra visible
  rcases walk_covers walked reached visible with ⟨other, text, isListed⟩ | excluded
  · rw [ProtocolPath.ext_text text, listed] at isListed
    cases isListed
  · rw [notExcluded] at excluded
    cases excluded

/-- A successful scan publishes the deletion of every overlooked path. -/
theorem Overlooked.publishes (keyed : store.Keyed) {path : ProtocolPath} {row : PathRecordState}
    (overlooked : Overlooked scanner store name author observedNs root fileSystem path row)
    {after : StateStore} {summary : ScanSummary}
    (done : scanCollection scanner store name localPath author observedNs
      (.ok (root, fileSystem)) = .ok (after, summary)) :
    PublishesDeletion store after ⟨name, path⟩ := by
  unfold scanCollection at done
  obtain ⟨context, walked, done⟩ := Except.bind_ok done
  obtain ⟨unlisted, notExcluded⟩ := walk_skipped (Except.mapError_ok walked) overlooked.hidden
  have outcome := (scanListing_ok keyed done).1 path
  have start : store.completedRow name root ⟨name, path⟩ = some row := by
    rw [completedRow, if_pos overlooked.bound, overlooked.stored]
  have samePath : row.record.path = path :=
    congrArg RecordKey.path (keyed.row overlooked.stored)
  have removes : keepsWinner scanner context row = false := by
    rw [keepsWinner_eq_false, samePath]
    exact ⟨overlooked.isFile, overlooked.materialized, unlisted, overlooked.notIgnored,
      notExcluded⟩
  obtain ⟨tombstone, built, beaten⟩ := overlooked.beaten
  rw [ScannedRow, unlisted, start] at outcome
  generalize result : after.recordState ⟨name, path⟩ = final at outcome
  cases outcome with
  | deleted _ made _ builtMade _ =>
      obtain rfl : made = tombstone := Except.ok.inj (builtMade.symm.trans built)
      refine ⟨made, ?_, (deletionRecord_ok built).2.1, fun old => ?_⟩
      · rw [StateStore.record, result]
        rfl
      · obtain ⟨stored, present, same⟩ := record_eq_some.mp old
        rw [overlooked.stored] at present
        cases present
        have isFile := overlooked.isFile
        rw [same, (deletionRecord_ok built).2.1] at isFile
        cases isFile
  | kept _ keeps =>
      rcases keeps row rfl with kept | ⟨made, builtMade, notBeaten⟩
      · rw [removes] at kept
        cases kept
      · obtain rfl : made = tombstone := Except.ok.inj (builtMade.symm.trans built)
        exact absurd beaten notBeaten

/-- The deletions a scan publishes are of missing files, except for overlooked ones. -/
theorem deletions_of_missing_files (keyed : store.Keyed) :
    ((¬ ∃ path row, Overlooked scanner store name author observedNs root fileSystem path row) →
      ∀ path, PublishesDeletion store (leftStore (scanCollection scanner store name localPath
          author observedNs (.ok (root, fileSystem)))) ⟨name, path⟩ →
        fileSystem.fileAt fileSystem.root path.components = none) ∧
    ∀ after summary, scanCollection scanner store name localPath author observedNs
        (.ok (root, fileSystem)) = .ok (after, summary) →
      ((∀ path, PublishesDeletion store after ⟨name, path⟩ →
        fileSystem.fileAt fileSystem.root path.components = none) ↔
      ¬ ∃ path row, Overlooked scanner store name author observedNs root fileSystem path row) := by
  have safe : (¬ ∃ path row,
      Overlooked scanner store name author observedNs root fileSystem path row) →
      ∀ path, PublishesDeletion store (leftStore (scanCollection scanner store name localPath
          author observedNs (.ok (root, fileSystem)))) ⟨name, path⟩ →
        fileSystem.fileAt fileSystem.root path.components = none := by
    intro none path published
    by_contra present
    obtain ⟨row, overlooked⟩ := overlooked_of_publishes keyed published
      (Option.isSome_iff_ne_none.mpr present)
    exact none ⟨path, row, overlooked⟩
  refine ⟨safe, fun after summary done => ⟨?_, fun none => ?_⟩⟩
  · rintro missing ⟨path, row, overlooked⟩
    have present := overlooked.present
    rw [missing path (overlooked.publishes keyed done)] at present
    cases present
  · have left := safe none
    rw [done] at left
    exact left

end results

end

section
attribute [local instance] Blake3.checksum

def buildX : ProtocolPath := ⟨"build/x", by decide⟩

/-- One collection with one materialized file. -/
def knownFile : StateStore :=
  { StateStore.empty with
    collections := (∅ : OrderedMap String CollectionState).insert "c"
      ⟨"/c", some "/c", .active, .active⟩
    pathRecords := (∅ : OrderedMap RecordKey PathRecordState).insert ⟨"c", buildX⟩
      ⟨.sample buildX 5 (.fill 1) (.file 0 (Blake3.hash [])), true,
        some ⟨5, 0, Blake3.hash []⟩⟩ }

/-- A root with one directory of one file. -/
def nested : FileSystem where
  root := (0, 0)
  directories :=
    [((0, 0), ⟨[(some "build", .directory (0, 1))], by decide, by decide⟩),
      ((0, 1), ⟨[(some "x", .file (.stable ⟨[], 5⟩))], by decide, by decide⟩)]

/-- A root without entries. -/
def bare : FileSystem where
  root := (0, 0)
  directories := [((0, 0), ⟨[], by decide, by decide⟩)]

/-- The pattern `build` ignores the directory, and not the paths below it. -/
def ignoringBuild : Scanner := ⟨fun text => text == "build", 10, 100, fun _ text => text⟩

theorem knownFile_keyed : knownFile.Keyed := by
  intro key record found
  obtain ⟨row, present, rfl⟩ := record_eq_some.mp found
  rw [recordState, knownFile, OrderedMap.getElem?_insert] at present
  split at present
  · rename_i same
    cases present
    rw [← same]
    decide +kernel
  · rw [Std.ExtTreeMap.getElem?_empty] at present
    cases present

/-- The file below the ignored directory is on the disk, and its deletion is published. -/
theorem ignored_directory_deletes :
    ∃ after summary, scanCollection ignoringBuild knownFile "c" "/c" (.fill 1) 9
        (.ok ("/c", nested)) = .ok (after, summary) ∧
      PublishesDeletion knownFile after ⟨"c", buildX⟩ ∧
      nested.fileAt nested.root ["build", "x"] = some (.stable ⟨[], 5⟩) := by
  have published : ((scanCollection ignoringBuild knownFile "c" "/c" (.fill 1) 9
      (.ok ("/c", nested))).toOption.bind fun result =>
        (result.1.record ⟨"c", buildX⟩).map Record.kind) = some .tombstone := by
    decide +kernel
  obtain ⟨⟨after, summary⟩, done, found⟩ := Option.bind_eq_some_iff.mp published
  obtain ⟨tombstone, recorded, removed⟩ := Option.map_eq_some_iff.mp found
  refine ⟨after, summary, Except.toOption_eq_some.mp done, ⟨tombstone, recorded, removed, ?_⟩,
    by decide +kernel⟩
  intro old
  have known : (knownFile.record ⟨"c", buildX⟩).map Record.kind ≠
      some .tombstone := by decide +kernel
  rw [old] at known
  exact known (congrArg some removed)

/-- A file that is gone. -/
theorem missing_file_deleted :
    ∃ after summary, scanCollection ignoringBuild knownFile "c" "/c" (.fill 1) 9
        (.ok ("/c", bare)) = .ok (after, summary) ∧
      ¬ ∃ path row, Overlooked ignoringBuild knownFile "c" (.fill 1) 9 "/c" bare path row := by
  have total : (scanCollection ignoringBuild knownFile "c" "/c" (.fill 1) 9
      (.ok ("/c", bare))).toOption.isSome = true := by decide +kernel
  obtain ⟨⟨after, summary⟩, done⟩ := Option.isSome_iff_exists.mp total
  have done := Except.toOption_eq_some.mp done
  refine ⟨after, summary, done, ?_⟩
  refine ((deletions_of_missing_files knownFile_keyed).2 after summary done).mp fun path _ => ?_
  obtain ⟨first, rest, components⟩ := List.exists_cons_of_ne_nil path.components_ne_nil
  rw [components]
  rfl

end

end Skillsync
