import Skillsync.TreeReplay

set_option autoImplicit false

namespace Skillsync

open Fallible

namespace OperationalEvent

/-- An entry is no longer than another one about the same path. -/
theorem Loggable.shorter {event other : OperationalEvent} {collection : String}
    {path : ProtocolPath} {maxLogs : Nat} (loggable : event.Loggable maxLogs)
    (names : event.collection? = some collection) (about : event.path? = some path)
    (otherNames : other.collection? = some collection) (otherAbout : other.path? = some path)
    (shorter : other.overhead ≤ event.overhead) : other.Loggable maxLogs := by
  obtain ⟨valid, fits, kept⟩ := loggable
  have size := payloadLength_eq names about
  have otherSize := payloadLength_eq otherNames otherAbout
  refine ⟨?_, by omega, kept⟩
  unfold validateOperationalEvent at valid ⊢
  rw [names, about] at valid
  rw [otherNames, otherAbout]
  exact valid

end OperationalEvent

namespace StateStore

variable {store after : StateStore} {key : RecordKey} {createdNs : I64}
  {event : OperationalEvent} {maxLogs : Nat}

theorem insertLog_iff_loggable :
    (∃ after, store.insertLog createdNs event maxLogs = .ok after) ↔ event.Loggable maxLogs := by
  unfold insertLog OperationalEvent.Loggable
  constructor
  · rintro ⟨after, written⟩
    obtain ⟨_, valid, rest⟩ := Except.bind_ok written
    refine ⟨valid, ?_⟩
    by_cases long : maxOperationalEventBytes < event.payloadLength
    · rw [if_pos long] at rest
      cases rest
    · rw [if_neg long] at rest
      by_cases many : 2 ^ 63 ≤ maxLogs
      · rw [if_pos many] at rest
        cases rest
      · exact ⟨not_lt.mp long, not_le.mp many⟩
  · rintro ⟨valid, fits, kept⟩
    rw [valid, Except.ok_bind, if_neg (not_lt.mpr fits), if_neg (not_le.mpr kept)]
    exact ⟨_, rfl⟩

/-- A tombstone row is marked when the entry is written. -/
theorem markTombstone_loggable {row : PathRecordState} (createdNs : I64)
    (present : store.recordState key = some row) (tombstone : row.record.kind = .tombstone)
    (loggable : event.Loggable maxLogs) :
    ∃ after, store.markTombstoneMaterializedAndLog key createdNs event maxLogs = .ok after := by
  unfold markTombstoneMaterializedAndLog
  rw [present]
  dsimp only
  rw [if_pos tombstone]
  exact insertLog_iff_loggable.mpr loggable

/-- A file row is marked under the root of its collection when the entry is written. -/
theorem markMaterialized_loggable {row : PathRecordState} {root : RootPath}
    {fingerprint : FileFingerprint} (bound : store.resolvedRoot key.collection = some root)
    (present : store.recordState key = some row) (isFile : row.record.kind.isFile = true)
    (fits : fingerprint.size < 2 ^ 63) (loggable : event.Loggable maxLogs) :
    ∃ after, store.markMaterializedAndLog key root fingerprint createdNs event maxLogs =
      .ok after := by
  obtain ⟨collection, attached, resolved⟩ := Option.bind_eq_some_iff.mp bound
  unfold markMaterializedAndLog
  rw [attached]
  dsimp only
  rw [if_pos resolved]
  unfold updateMaterializedFingerprint
  rw [if_neg (not_le.mpr fits), fileRow_of_file present isFile, Except.ok_bind]
  exact insertLog_iff_loggable.mpr loggable

section
variable [Blake3] {record : Record} {source : EndpointId}

/-- A winning record is merged when the entry is written. -/
theorem mergeRecord_iff_loggable
    (attached : (store.collections[record.collection]?).isSome = true)
    (wins : accepts (store.record record.key) record = true) :
    (∃ after, store.mergeRecord record createdNs (some source) maxLogs = .ok (after, true)) ↔
      (OperationalEvent.recordAccepted record.collection record.path (some source)).Loggable
        maxLogs := by
  have entry : mergeEvent (store.record record.key) record (some source) =
      .recordAccepted record.collection record.path (some source) := by
    unfold mergeEvent
    rw [wins]
    split
    · contradiction
    · rfl
  have upserted : ∃ merged, store.upsertRecord record false = .ok merged := by
    unfold upsertRecord
    rw [if_pos attached]
    exact ⟨_, rfl⟩
  obtain ⟨merged, upserted⟩ := upserted
  rw [← insertLog_iff_loggable]
  unfold mergeRecord
  dsimp only
  rw [wins, entry, if_pos rfl, show (some source).isNone = false from rfl, upserted,
    Except.ok_bind]
  constructor
  · rintro ⟨after, committed⟩
    obtain ⟨logged, written, _⟩ := Except.bind_ok committed
    exact ⟨logged, written⟩
  · rintro ⟨logged, written⟩
    rw [written]
    exact ⟨logged, rfl⟩

end

end StateStore

/-- The entry of an installation is shorter than the one of the merge before it. -/
theorem TreeChange.installed_loggable {receiver : Receiver} {record : Record} {maxLogs : Nat}
    (loggable : (TreeChange.entry receiver record).Loggable maxLogs) :
    (OperationalEvent.fileInstalled record.collection record.path).Loggable maxLogs := by
  apply loggable.shorter rfl rfl rfl rfl
  show 52 ≤ 68 + 66
  omega

theorem removeForTombstone_done {record : Record} {environment : RemovalEnvironment}
    {root : RootPath} (disk : Disk) (tombstone : record.kind = .tombstone)
      (opened : environment.root = .ok root)
    (parent : environment.parent = .ok true) (remove : environment.remove = .ok ())
    (sync : environment.sync = .ok ()) :
    ∃ after, removeForTombstone disk record environment = (.ok (), after) ∧
      ∀ key, after[key]? = if DiskKey.mk root record.path = key then none else disk[key]? := by
  unfold removeForTombstone
  rw [tombstone, opened, parent, remove, sync]
  dsimp only
  by_cases there : (disk[DiskKey.mk root record.path]?).isSome = true
  · rw [if_pos there]
    exact ⟨_, rfl, fun key => OrderedMap.getElem?_erase _ _ _⟩
  · rw [if_neg there]
    refine ⟨disk, rfl, fun key => ?_⟩
    split
    · rename_i same
      rw [← same]
      simpa using there
    · rfl

theorem deleteForWinner_file {config : SessionConfig} {now : I64}
    {environment : RemovalEnvironment} {collection : String} {candidate : Record}
    {store : StateStore} {disk : Disk} (file : candidate.kind ≠ .tombstone) :
    deleteForWinner config now environment collection candidate store disk =
      .ok (store, disk) := by
  unfold deleteForWinner
  dsimp only
  rw [if_neg]
  rintro ⟨_, tombstone, _⟩
  exact file tombstone

theorem deleteForWinner_done {config : SessionConfig} {environment : RemovalEnvironment}
    {candidate : Record} {store : StateStore} {root : RootPath} (now : I64) (disk : Disk)
    (tombstone : candidate.kind = .tombstone)
    (present : store.recordState candidate.key = some ⟨candidate, false, none⟩)
    (opened : environment.root = .ok root) (parent : environment.parent = .ok true)
    (remove : environment.remove = .ok ()) (sync : environment.sync = .ok ())
    (loggable : (OperationalEvent.fileInstalled candidate.collection candidate.path).Loggable
      config.maxLogs) :
    ∃ after diskAfter, deleteForWinner config now environment candidate.collection candidate
        store disk = .ok (after, diskAfter) ∧
      after.collections = store.collections ∧
      (∀ key, after.recordState key =
        if candidate.key = key then some ⟨candidate, true, none⟩ else store.recordState key) ∧
      ∀ key, diskAfter[key]? =
        if DiskKey.mk root candidate.path = key then none else disk[key]? := by
  have winner : store.record candidate.key = some candidate := by
    rw [StateStore.record, present]
    rfl
  have pending : ((store.recordState candidate.key).any fun item => !item.materialized) = true := by
    rw [present]
    rfl
  obtain ⟨diskAfter, removal, files⟩ :=
    removeForTombstone_done disk tombstone opened parent remove sync
  obtain ⟨after, marked⟩ := StateStore.markTombstone_loggable now present tombstone loggable
  obtain ⟨row, found, _, sameCollections, rows⟩ :=
    StateStore.markTombstoneMaterializedAndLog_ok marked
  rw [present] at found
  cases found
  refine ⟨after, diskAfter, ?_, sameCollections, rows, files⟩
  unfold deleteForWinner materializeTombstone
  dsimp only
  rw [if_pos ⟨winner, tombstone, pending⟩, removal]
  dsimp only
  rw [marked]

namespace Receiver

section
variable [Blake3] {receiver : Receiver} {collection : String} {replica : Replica}
  {record : Record}

/-- A winner that needs nothing is passed over. -/
theorem merge_settled {row : PathRecordState} (within : record.modifiedNs ≤ receiver.limit)
    (present : replica.store.recordState ⟨collection, record.path⟩ = some row)
    (same : row.record = record) (settled : record.kind = .tombstone → row.materialized = true) :
    receiver.merge collection replica record = .ok replica := by
  have current : ¬ receiver.now.saturatingAdd receiver.config.maxFutureClockSkew <
      record.modifiedNs := not_lt.mpr within
  have winner : replica.store.record ⟨collection, record.path⟩ = some record := by
    rw [StateStore.record, present, Option.map_some, same]
  have nothing : ¬ (replica.store.record ⟨collection, record.path⟩ = some record ∧
      record.kind = .tombstone ∧ (replica.store.recordState ⟨collection, record.path⟩).any
        (fun item => !item.materialized) = true) := by
    rintro ⟨_, tombstone, pending⟩
    rw [present, Option.any_some, settled tombstone] at pending
    cases pending
  unfold merge mergeCandidate deleteForWinner
  dsimp only
  rw [if_neg current, if_pos winner, Except.ok_bind, if_neg nothing]
  rfl

/-- What the merge of a new winner does. -/
structure Merged (receiver : Receiver) (replica : Replica) (record : Record) (next : Replica) :
    Prop where
  collections : next.store.collections = replica.store.collections
  rows : ∀ key, next.store.recordState key =
    if record.key = key then some ⟨record, decide (record.kind = .tombstone), none⟩
    else replica.store.recordState key
  directories : next.tree.directories = replica.tree.directories
  files : ∀ key, next.tree.disk[key]? =
    if record.kind = .tombstone ∧ DiskKey.mk receiver.root record.path = key then none
    else replica.tree.disk[key]?

section
variable (within : record.modifiedNs ≤ receiver.limit)
  (attached : (replica.store.collections[record.collection]?).isSome = true)
  (wins : StateStore.accepts (replica.store.record record.key) record = true)
  (other : replica.store.record record.key ≠ some record)

include within attached wins other

theorem merge_new
    (there : record.kind = .tombstone →
      replica.tree.openExistingSafeParent receiver.root [] record.path.components.dropLast =
        .ok true)
    (notDirectory : record.kind = .tombstone →
      record.path.components ∉ replica.tree.directories)
    (loggable : (TreeChange.entry receiver record).Loggable receiver.config.maxLogs) :
    ∃ next, receiver.merge record.collection replica record = .ok next ∧
      Merged receiver replica record next := by
  have current : ¬ receiver.now.saturatingAdd receiver.config.maxFutureClockSkew <
      record.modifiedNs := not_lt.mpr within
  have differs : ¬ replica.store.record ⟨record.collection, record.path⟩ = some record := other
  obtain ⟨store, committed⟩ : ∃ store, replica.store.mergeRecord record receiver.now
      (some receiver.remoteEndpoint) receiver.config.maxLogs = .ok (store, true) :=
    (StateStore.mergeRecord_iff_loggable attached wins).mpr loggable
  obtain ⟨_, sameCollections, rows⟩ := StateStore.mergeRecord_ok committed
  have merged : ∀ key, store.recordState key =
      if record.key = key then some ⟨record, false, none⟩
      else replica.store.recordState key := by
    intro key
    rw [rows key]
    simp only [true_and]
    rfl
  unfold merge mergeCandidate
  dsimp only
  rw [if_neg current, if_neg differs, committed]
  show ∃ next, (do
    let deleted ← deleteForWinner receiver.config receiver.now
      (replica.tree.removalEnvironment receiver.root record.path) record.collection record store
      replica.tree.disk
    return Replica.mk deleted.1 { replica.tree with disk := deleted.2 }) = .ok next ∧ _
  by_cases tombstone : record.kind = .tombstone
  · have present : store.recordState record.key = some ⟨record, false, none⟩ := by
      rw [merged, if_pos rfl]
    have remove : (replica.tree.removalEnvironment receiver.root record.path).remove = .ok () :=
      if_neg (notDirectory tombstone)
    obtain ⟨after, diskAfter, deleted, keeps, deletedRows, files⟩ :=
      deleteForWinner_done receiver.now replica.tree.disk tombstone present rfl
        (there tombstone) remove rfl (TreeChange.installed_loggable loggable)
    rw [deleted]
    refine ⟨_, rfl, keeps.trans sameCollections, ?_, rfl, ?_⟩
    · intro key
      rw [deletedRows, merged]
      by_cases here : record.key = key
      · simp only [here, tombstone, ↓reduceIte, decide_true]
      · simp only [here, ↓reduceIte]
    · intro key
      simp only [files, tombstone, true_and]
  · rw [deleteForWinner_file tombstone]
    refine ⟨_, rfl, sameCollections, ?_, rfl, ?_⟩
    · intro key
      simp only [merged, tombstone, decide_false]
    · intro key
      simp only [tombstone, false_and, ↓reduceIte]

theorem merge_loggable {next : Replica}
    (done : receiver.merge record.collection replica record = .ok next) :
    (TreeChange.entry receiver record).Loggable receiver.config.maxLogs := by
  have current : ¬ receiver.now.saturatingAdd receiver.config.maxFutureClockSkew <
      record.modifiedNs := not_lt.mpr within
  have differs : ¬ replica.store.record ⟨record.collection, record.path⟩ = some record := other
  unfold merge mergeCandidate at done
  dsimp only at done
  rw [if_neg current, if_neg differs] at done
  obtain ⟨_, merged, _⟩ := Except.bind_ok done
  obtain ⟨_, committed, _⟩ := Except.bind_ok merged
  obtain ⟨⟨after, accepted⟩, committed, _⟩ := Except.of_map_ok committed
  have committed := Except.mapError_ok committed
  obtain ⟨accepts, _, _⟩ := StateStore.mergeRecord_ok committed
  rw [accepts, wins] at committed
  exact (StateStore.mergeRecord_iff_loggable attached wins).mp ⟨after, committed⟩

end

end

end Receiver

namespace TreeChange

section
variable [Blake3] {change : TreeChange} {record other : Record}

theorem announced_collection (listed : record ∈ change.announced) :
    record.collection = change.collection :=
  change.named record (List.mem_append_right _ listed)

theorem old_collection (listed : record ∈ change.old) :
    record.collection = change.collection :=
  change.named record (List.mem_append_left _ listed)

theorem file_isFile (listed : record ∈ change.files) : record.kind.isFile = true := by
  rw [change.holds record (List.mem_append_right _ listed)]
  rfl

theorem tombstone_not_old (listed : record ∈ change.tombstones) : record ∉ change.old := by
  intro old
  have kind := change.holds record (List.mem_append_left _ old)
  rw [change.removes record listed] at kind
  cases kind

theorem not_file_of_tombstone (listed : record ∈ change.tombstones)
    (file : other ∈ change.files) : other.path ≠ record.path := by
  intro same
  obtain ⟨_, absent⟩ := (change.removed record.path).mp ⟨record, listed, rfl⟩
  exact absent ⟨other, file, same⟩

theorem announced_unique (listed : record ∈ change.announced)
    (alsoListed : other ∈ change.announced) (same : record.path = other.path) :
    record = other := by
  unfold announced at listed alsoListed
  rcases List.mem_append.mp listed with file | tombstone
  · rcases List.mem_append.mp alsoListed with alsoFile | alsoTombstone
    · apply change.files_apart record file other alsoFile
      rw [same]
    · exact absurd same (not_file_of_tombstone alsoTombstone file)
  · rcases List.mem_append.mp alsoListed with alsoFile | alsoTombstone
    · exact absurd same.symm (not_file_of_tombstone tombstone alsoFile)
    · exact change.removed_once record tombstone other alsoTombstone same

theorem tombstone_of_announced (listed : record ∈ change.announced)
    (tombstone : record.kind = .tombstone) : record ∈ change.tombstones := by
  rcases List.mem_append.mp listed with file | listed
  · have isFile := file_isFile file
    rw [tombstone] at isFile
    cases isFile
  · exact listed

/-- What holds after some records of the manifest. -/
structure Merging (change : TreeChange) (root : RootPath) (done : List Record)
    (replica : Replica) : Prop where
  bound : replica.store.resolvedRoot change.collection = some root
  directories : ∀ components,
    components ∈ replica.tree.directories ↔ change.OldDirectory components
  merged : ∀ record ∈ change.announced, record ∈ done ∨ record ∈ change.old →
    ∃ row, replica.store.recordState ⟨change.collection, record.path⟩ = some row ∧
      row.record = record ∧
      (row.materialized = true ↔ record ∈ change.old ∨ record.kind = .tombstone)
  waiting : ∀ record ∈ change.announced, record ∉ done → record ∉ change.old →
    ∀ stored, replica.store.record ⟨change.collection, record.path⟩ = some stored →
      stored ∈ change.old ∧ stored.path = record.path
  kept : ∀ record ∈ change.old, (∀ tombstone ∈ change.tombstones, tombstone ∈ done →
      tombstone.path ≠ record.path) →
    (replica.tree.disk[DiskKey.mk root record.path]?).map RegularFile.bytes =
      some (change.contents record)
  gone : ∀ tombstone ∈ change.tombstones, tombstone ∈ done →
    replica.tree.disk[DiskKey.mk root tombstone.path]? = none
  absent : ∀ path, (∀ record ∈ change.old, record.path ≠ path) →
    replica.tree.disk[DiskKey.mk root path]? = none

theorem Ready.merging {root : RootPath} {replica : Replica} (ready : change.Ready root replica) :
    change.Merging root [] replica where
  bound := ready.bound
  directories := ready.directories
  merged := by
    intro record listed known
    have old : record ∈ change.old := by simpa using known
    obtain ⟨row, present, same, materialized⟩ := ready.rows record old
    have key : record.key = ⟨change.collection, record.path⟩ := by
      rw [Record.key, old_collection old]
    rw [key] at present
    exact ⟨row, present, same, fun _ => Or.inl old, fun _ => materialized⟩
  waiting := by
    intro record listed _ _ stored found
    obtain ⟨row, present, same⟩ := StateStore.record_eq_some.mp found
    by_cases known : ∀ old ∈ change.old, old.path ≠ record.path
    · rw [ready.unknown record.path known] at present
      cases present
    · simp only [not_forall, not_not, exists_prop] at known
      obtain ⟨old, inOld, path⟩ := known
      obtain ⟨oldRow, oldPresent, oldSame, _⟩ := ready.rows old inOld
      rw [Record.key, old_collection inOld, path, present, Option.some.injEq] at oldPresent
      rw [← same, oldPresent, oldSame]
      exact ⟨inOld, path⟩
  kept := by
    intro record old _
    exact ready.files.present record old
  gone := by simp
  absent := ready.files.absent

/-- The parent of an old file is a directory of the old tree. -/
theorem oldDirectory_of_parent {found : List String} (old : record ∈ change.old)
    (nonempty : found ≠ []) (above : found <+: record.path.components.dropLast) :
    change.OldDirectory found := by
  exact ⟨nonempty, record, old, LocalTree.above_path above⟩

/-- No old file is a directory. -/
theorem not_oldDirectory (old : record ∈ change.old) :
    ¬ change.OldDirectory record.path.components := by
  rintro ⟨_, below, inOld, above, differs⟩
  have same := change.old_apart record old below inOld above
  rw [same] at differs
  exact differs rfl

variable {receiver : Receiver} {replica : Replica} {done : List Record}

/-- The merge of a record that was merged before, or that the replica had. -/
theorem Merging.known (holds : change.Merging receiver.root done replica)
    (listed : record ∈ change.announced) (within : record.modifiedNs ≤ receiver.limit)
    (known : record ∈ done ∨ record ∈ change.old) :
    receiver.merge change.collection replica record = .ok replica ∧
      change.Merging receiver.root (done ++ [record]) replica := by
  obtain ⟨row, present, same, materialized⟩ := holds.merged record listed known
  constructor
  · apply Receiver.merge_settled within present same
    intro tombstone
    exact materialized.mpr (Or.inr tombstone)
  · refine ⟨holds.bound, holds.directories, ?_, ?_, ?_, ?_, holds.absent⟩
    · intro other otherListed otherKnown
      apply holds.merged other otherListed
      rcases otherKnown with before | old
      · rcases List.mem_append.mp before with before | last
        · exact Or.inl before
        · rw [List.mem_singleton.mp last]
          exact known
      · exact Or.inr old
    · intro other otherListed notDone
      apply holds.waiting other otherListed
      intro before
      exact notDone (List.mem_append_left _ before)
    · intro old inOld others
      apply holds.kept old inOld
      intro tombstone inTombstones before
      exact others tombstone inTombstones (List.mem_append_left _ before)
    · intro tombstone inTombstones before
      apply holds.gone tombstone inTombstones
      rcases List.mem_append.mp before with before | last
      · exact before
      · have same := List.mem_singleton.mp last
        rw [same] at inTombstones ⊢
        rcases known with before | old
        · exact before
        · exact absurd old (tombstone_not_old inTombstones)

/-- What a merge of another record finds. -/
theorem Merging.wins (holds : change.Merging receiver.root done replica)
    (listed : record ∈ change.announced) (fresh : record ∉ done) (changed : record ∉ change.old) :
    (replica.store.collections[record.collection]?).isSome = true ∧
      StateStore.accepts (replica.store.record record.key) record = true ∧
      replica.store.record record.key ≠ some record := by
  have key : record.key = ⟨change.collection, record.path⟩ := by
    rw [Record.key, announced_collection listed]
  have waiting := holds.waiting record listed fresh changed
  rw [key]
  refine ⟨?_, ?_, ?_⟩
  · obtain ⟨collection, attached, _⟩ := Option.bind_eq_some_iff.mp holds.bound
    rw [announced_collection listed, attached]
    rfl
  · cases found : replica.store.record ⟨change.collection, record.path⟩ with
    | none => rfl
    | some stored =>
        obtain ⟨inOld, samePath⟩ := waiting stored found
        rcases change.newer record listed stored inOld samePath with same | greater
        · rw [same] at changed
          exact absurd inOld changed
        · simp [StateStore.accepts, greater]
  · intro found
    exact changed (waiting record found).1

theorem Merging.removable (holds : change.Merging receiver.root done replica)
    (listed : record ∈ change.tombstones) :
    replica.tree.openExistingSafeParent receiver.root [] record.path.components.dropLast =
        .ok true ∧
      record.path.components ∉ replica.tree.directories := by
  obtain ⟨⟨old, inOld, samePath⟩, _⟩ := (change.removed record.path).mp ⟨record, listed, rfl⟩
  rw [← samePath]
  constructor
  · apply LocalTree.openExistingSafeParent_ok
    intro found _ nonempty above
    exact (holds.directories found).mpr (oldDirectory_of_parent inOld nonempty above)
  · rw [holds.directories]
    exact not_oldDirectory inOld

/-- The merge of a new record. -/
theorem Merging.merged_next (holds : change.Merging receiver.root done replica)
    (listed : record ∈ change.announced) (changed : record ∉ change.old) {next : Replica}
    (step : Receiver.Merged receiver replica record next) :
    change.Merging receiver.root (done ++ [record]) next := by
  have key : record.key = ⟨change.collection, record.path⟩ := by
    rw [Record.key, announced_collection listed]
  have elsewhere : ∀ other ∈ change.announced, other ≠ record →
      next.store.recordState ⟨change.collection, other.path⟩ =
        replica.store.recordState ⟨change.collection, other.path⟩ := by
    intro other otherListed differs
    rw [step.rows, key, if_neg]
    intro same
    injection same with _ samePath
    exact differs (announced_unique otherListed listed samePath.symm)
  refine ⟨?_, ?_, ?_, ?_, ?_, ?_, ?_⟩
  · rw [StateStore.resolvedRoot, step.collections]
    exact holds.bound
  · intro components
    rw [step.directories]
    exact holds.directories components
  · intro other otherListed known
    by_cases same : other = record
    · rw [same, step.rows, key, if_pos rfl]
      refine ⟨_, rfl, rfl, ?_⟩
      simp [changed]
    · rw [elsewhere other otherListed same]
      apply holds.merged other otherListed
      simpa [same] using known
  · intro other otherListed notDone notOld stored found
    simp only [List.mem_append, List.mem_singleton, not_or] at notDone
    apply holds.waiting other otherListed notDone.1 notOld stored
    rw [← found]
    exact (StateStore.record_congr (elsewhere other otherListed notDone.2)).symm
  · intro old inOld others
    rw [step.files, if_neg]
    · apply holds.kept old inOld
      intro tombstone inTombstones before
      exact others tombstone inTombstones (List.mem_append_left _ before)
    · rintro ⟨tombstone, same⟩
      injection same with _ samePath
      exact others record (tombstone_of_announced listed tombstone)
        (List.mem_append_right _ (List.mem_singleton_self record)) samePath
  · intro tombstone inTombstones before
    rw [step.files]
    split
    · rfl
    · rename_i notHere
      apply holds.gone tombstone inTombstones
      rcases List.mem_append.mp before with before | last
      · exact before
      · rw [List.mem_singleton.mp last] at inTombstones notHere
        exact absurd ⟨change.removes record inTombstones, rfl⟩ notHere
  · intro path unknown
    rw [step.files]
    split
    · rfl
    · exact holds.absent path unknown

theorem Merging.fresh (holds : change.Merging receiver.root done replica)
    (listed : record ∈ change.announced) (within : record.modifiedNs ≤ receiver.limit)
    (unknown : ¬ (record ∈ done ∨ record ∈ change.old))
    (loggable : (entry receiver record).Loggable receiver.config.maxLogs) :
    ∃ next, receiver.merge change.collection replica record = .ok next ∧
      change.Merging receiver.root (done ++ [record]) next := by
  rw [not_or] at unknown
  obtain ⟨attached, wins, other⟩ := holds.wins listed unknown.1 unknown.2
  obtain ⟨next, merged, facts⟩ := Receiver.merge_new within attached wins other
    (fun tombstone => (holds.removable (tombstone_of_announced listed tombstone)).1)
    (fun tombstone => (holds.removable (tombstone_of_announced listed tombstone)).2) loggable
  rw [announced_collection listed] at merged
  exact ⟨next, merged, holds.merged_next listed unknown.2 facts⟩

/-- A merge fails only on the entry of a new record. -/
theorem Merging.step_iff (holds : change.Merging receiver.root done replica)
    (listed : record ∈ change.announced) (within : record.modifiedNs ≤ receiver.limit) :
    (∃ next, receiver.merge change.collection replica record = .ok next) ↔
      (record ∈ done ∨ record ∈ change.old) ∨
        (entry receiver record).Loggable receiver.config.maxLogs := by
  by_cases known : record ∈ done ∨ record ∈ change.old
  · constructor
    · exact fun _ => Or.inl known
    · exact fun _ => ⟨replica, (holds.known listed within known).1⟩
  · constructor
    · rintro ⟨next, merged⟩
      rw [← announced_collection listed] at merged
      obtain ⟨attached, wins, other⟩ := holds.wins listed (not_or.mp known).1 (not_or.mp known).2
      exact Or.inr (Receiver.merge_loggable within attached wins other merged)
    · intro either
      obtain ⟨next, merged, _⟩ := holds.fresh listed within known (either.resolve_left known)
      exact ⟨next, merged⟩

theorem Merging.step (holds : change.Merging receiver.root done replica)
    (listed : record ∈ change.announced) (within : record.modifiedNs ≤ receiver.limit)
    {next : Replica} (merged : receiver.merge change.collection replica record = .ok next) :
    change.Merging receiver.root (done ++ [record]) next := by
  by_cases known : record ∈ done ∨ record ∈ change.old
  · obtain ⟨same, kept⟩ := holds.known listed within known
    rw [merged, Except.ok.injEq] at same
    rw [same]
    exact kept
  · have loggable := ((holds.step_iff listed within).mp ⟨next, merged⟩).resolve_left known
    obtain ⟨found, same, kept⟩ := holds.fresh listed within known loggable
    rw [merged, Except.ok.injEq] at same
    rw [same]
    exact kept

section
variable {manifest : List Record}

/-- The loop over a manifest, from what one record does. -/
theorem Merging.run (holds : change.Merging receiver.root done replica)
    (listed : ∀ record ∈ manifest, record ∈ change.announced)
    (within : ∀ record ∈ manifest, record.modifiedNs ≤ receiver.limit) {merged : Replica}
    (finished : manifest.foldlM (receiver.merge change.collection) replica = .ok merged) :
    change.Merging receiver.root (done ++ manifest) merged := by
  induction manifest generalizing replica done with
  | nil =>
      cases finished
      rw [List.append_nil]
      exact holds
  | cons record rest ih =>
      obtain ⟨middle, first, finished⟩ := foldlM_cons_ok finished
      rw [List.forall_mem_cons] at listed within
      have next := ih (holds.step listed.1 within.1 first) listed.2 within.2 finished
      rw [List.append_assoc, List.singleton_append] at next
      exact next

theorem Merging.run_iff (holds : change.Merging receiver.root done replica)
    (listed : ∀ record ∈ manifest, record ∈ change.announced)
    (within : ∀ record ∈ manifest, record.modifiedNs ≤ receiver.limit) :
    (∃ merged, manifest.foldlM (receiver.merge change.collection) replica = .ok merged) ↔
      ∀ record ∈ manifest, (record ∈ done ∨ record ∈ change.old) ∨
        (entry receiver record).Loggable receiver.config.maxLogs := by
  induction manifest generalizing replica done with
  | nil => exact ⟨fun _ => by simp, fun _ => ⟨replica, rfl⟩⟩
  | cons record rest ih =>
      rw [List.forall_mem_cons] at listed within ⊢
      constructor
      · rintro ⟨merged, finished⟩
        obtain ⟨middle, first, finished⟩ := foldlM_cons_ok finished
        have here := (holds.step_iff listed.1 within.1).mp ⟨middle, first⟩
        refine ⟨here, fun other member => ?_⟩
        have later := (ih (holds.step listed.1 within.1 first) listed.2 within.2).mp
          ⟨merged, finished⟩ other member
        rcases later with (before | old) | loggable
        · rcases List.mem_append.mp before with before | last
          · exact Or.inl (Or.inl before)
          · rw [List.mem_singleton.mp last]
            exact here
        · exact Or.inl (Or.inr old)
        · exact Or.inr loggable
      · rintro ⟨here, others⟩
        obtain ⟨middle, first⟩ := (holds.step_iff listed.1 within.1).mpr here
        obtain ⟨merged, finished⟩ := (ih (holds.step listed.1 within.1 first) listed.2
          within.2).mpr fun other member => by
            rcases others other member with (before | old) | loggable
            · exact Or.inl (Or.inl (List.mem_append_left _ before))
            · exact Or.inl (Or.inr old)
            · exact Or.inr loggable
        refine ⟨merged, ?_⟩
        rw [List.foldlM_cons, first, Except.ok_bind]
        exact finished

end

end

end TreeChange

section
variable [Blake3]

namespace Receiver

variable {receiver : Receiver} {contents : Record → List UInt8} {replica : Replica}
  {record : Record}

/-- What an installation does that nothing prevents. -/
structure Installed (receiver : Receiver) (contents : Record → List UInt8) (replica : Replica)
    (record : Record) (next : Replica) : Prop where
  bound : next.store.resolvedRoot record.collection = some receiver.root
  rows : ∀ key, next.store.recordState key =
    if record.key = key then
      some ⟨record, true, some ⟨receiver.storedNs record.modifiedNs, (contents record).length,
        Blake3.hash (contents record)⟩⟩
    else replica.store.recordState key
  files : ∀ key, next.tree.disk[key]? =
    if DiskKey.mk receiver.root record.path = key then
      some ⟨contents record, receiver.storedNs record.modifiedNs⟩
    else replica.tree.disk[key]?

theorem install_done {row : PathRecordState}
    (bound : replica.store.resolvedRoot record.collection = some receiver.root)
    (present : replica.store.recordState record.key = some row) (same : row.record = record)
    (kind : record.kind = .file (contents record).length (Blake3.hash (contents record)))
    (parent : (replica.tree.ensureSafeParent receiver.root []
      record.path.components.dropLast).1 = .ok ())
    (again : ((replica.tree.withParent receiver.root record.path).ensureSafeParent receiver.root
      [] record.path.components.dropLast).1 = .ok ())
    (notDirectory :
      record.path.components ∉ (replica.tree.withParent receiver.root record.path).directories)
    (loggable : (OperationalEvent.fileInstalled record.collection record.path).Loggable
      receiver.config.maxLogs) :
    Installed receiver contents replica record (receiver.install contents replica record) := by
  have prepared : prepareInstall record (contents record) (replica.tree.installEnvironment
      receiver.root record.path receiver.storedNs) = .ok ⟨record.path, receiver.root,
        ⟨receiver.storedNs record.modifiedNs, _, _⟩⟩ :=
    (Renames.mk rfl parent kind (fun _ _ => rfl) again (if_neg notDirectory)).prepared
  have isFile : row.record.kind.isFile = true := by
    rw [same, kind]
    rfl
  have fits : (contents record).length < 2 ^ 63 := by
    have fits := record.size_fits
    rw [kind] at fits
    exact fits
  obtain ⟨after, marked⟩ : ∃ after, replica.store.markMaterializedAndLog record.key receiver.root
      ⟨receiver.storedNs record.modifiedNs, (contents record).length,
        Blake3.hash (contents record)⟩ receiver.now
      (.fileInstalled record.collection record.path) receiver.config.maxLogs = .ok after :=
    StateStore.markMaterialized_loggable bound present isFile fits loggable
  have result : receiver.install contents replica record = ⟨after,
      { replica.tree.withParent receiver.root record.path with
        disk := replica.tree.disk.insert ⟨receiver.root, record.path⟩
          ⟨contents record, receiver.storedNs record.modifiedNs⟩ }⟩ := by
    unfold install applyFileFixture installFile
    rw [prepared]
    dsimp only
    rw [if_neg (show ¬ (replica.tree.installEnvironment receiver.root record.path
      receiver.storedNs).fault .afterRename = true from Bool.false_ne_true)]
    dsimp only
    rw [marked]
    rfl
  obtain ⟨found, foundRow, _, roots, rows⟩ := StateStore.markMaterializedAndLog_ok marked
  rw [present, Option.some.injEq] at foundRow
  rw [result]
  refine ⟨?_, ?_, ?_⟩
  · rw [roots, if_pos (show record.collection = record.key.collection from rfl)]
  · intro key
    have boundKey : replica.store.resolvedRoot record.key.collection = some receiver.root := bound
    rw [rows, StateStore.reboundRow, if_pos boundKey, ← foundRow, same]
  · intro key
    exact OrderedMap.getElem?_insert _ _ _ _

/-- A directory in the place of a file. -/
def Blocked (receiver : Receiver) (path : ProtocolPath) (replica : Replica) : Prop :=
  path.components ∈ replica.tree.directories ∧
    replica.tree.disk[DiskKey.mk receiver.root path]? = none

/-- No installation puts a file in the place of a directory. -/
theorem Blocked.install {path : ProtocolPath} (blocked : receiver.Blocked path replica)
    (record : Record) : receiver.Blocked path (receiver.install contents replica record) := by
  have made : replica.tree.directories ⊆
      (replica.tree.withParent receiver.root record.path).directories :=
    LocalTree.ensureSafeParent_keeps _ _ _ _
  constructor
  · exact made blocked.1
  · show (applyFileFixture replica.store replica.tree.disk record (contents record) _ receiver.now
      receiver.config.maxLogs).2.2[DiskKey.mk receiver.root path]? = none
    rw [applyFileFixture_disk]
    unfold installFile
    split
    · exact blocked.2
    · rename_i file prepared
      obtain ⟨samePath, opened, _⟩ := prepareInstall_ok prepared
      have renames := (prepareInstall_renames prepared).rename
      have sameRoot : receiver.root = file.resolvedRoot := Except.ok.inj opened
      show (renamed replica.tree.disk file (contents record))[DiskKey.mk receiver.root path]? =
        none
      rw [renamed, OrderedMap.getElem?_insert, if_neg]
      · exact blocked.2
      · intro here
        injection here with _ here
        rw [samePath] at here
        have directory := made blocked.1
        rw [← here] at directory
        have failed : (replica.tree.installEnvironment receiver.root record.path
            receiver.storedNs).rename = .error .io := if_pos directory
        rw [renames] at failed
        cases failed

theorem Blocked.installs {path : ProtocolPath} (blocked : receiver.Blocked path replica)
    (requested : List Record) :
    receiver.Blocked path (requested.foldl (receiver.install contents) replica) := by
  induction requested generalizing replica with
  | nil => exact blocked
  | cons record rest ih => exact ih (blocked.install record)

end Receiver

namespace TreeChange

variable {change : TreeChange} {receiver : Receiver} {replica : Replica} {done : List Record}
  {record : Record}

/-- The directories of the new tree. -/
def NewDirectory (change : TreeChange) (components : List String) : Prop :=
  ∃ record ∈ change.files,
    components <+: record.path.components ∧ components ≠ record.path.components

/-- What holds after the manifest and some of the files. -/
structure Installing (change : TreeChange) (root : RootPath) (done : List Record)
    (replica : Replica) : Prop where
  bound : replica.store.resolvedRoot change.collection = some root
  directories : ∀ components ∈ replica.tree.directories,
    change.OldDirectory components ∨ change.NewDirectory components
  rows : ∀ record ∈ change.announced,
    ∃ row, replica.store.recordState ⟨change.collection, record.path⟩ = some row ∧
      row.record = record ∧
      (record ∈ change.old ∨ record.kind = .tombstone ∨ record ∈ done →
        row.materialized = true)
  present : ∀ record ∈ change.files, record ∈ change.old ∨ record ∈ done →
    (replica.tree.disk[DiskKey.mk root record.path]?).map RegularFile.bytes =
      some (change.contents record)
  absent : ∀ path, (∀ record ∈ change.files, record.path ≠ path) →
    replica.tree.disk[DiskKey.mk root path]? = none

theorem Merging.installing {root : RootPath} {manifest : List Record}
    (holds : change.Merging root manifest replica)
    (lists : ∀ record, record ∈ manifest ↔ record ∈ change.announced) :
    change.Installing root [] replica where
  bound := holds.bound
  directories := fun components there => Or.inl ((holds.directories components).mp there)
  rows := by
    intro record listed
    obtain ⟨row, present, same, materialized⟩ :=
      holds.merged record listed (Or.inl ((lists record).mpr listed))
    refine ⟨row, present, same, fun settled => ?_⟩
    rcases settled with old | tombstone | before
    · exact materialized.mpr (Or.inl old)
    · exact materialized.mpr (Or.inr tombstone)
    · exact absurd before List.not_mem_nil
  present := by
    intro record file known
    have old : record ∈ change.old := by simpa using known
    apply holds.kept record old
    intro tombstone inTombstones _ same
    exact not_file_of_tombstone inTombstones file same.symm
  absent := by
    intro path noFile
    by_cases known : ∃ record ∈ change.old, record.path = path
    · have gone : ¬ ∃ record ∈ change.files, record.path = path := by
        rintro ⟨record, file, same⟩
        exact noFile record file same
      obtain ⟨tombstone, inTombstones, same⟩ := (change.removed path).mpr ⟨known, gone⟩
      have listed := (lists tombstone).mpr (List.mem_append_right _ inTombstones)
      rw [← same]
      exact holds.gone tombstone inTombstones listed
    · apply holds.absent path
      intro record old same
      exact known ⟨record, old, same⟩

/-- What the session asks for after the manifest. -/
theorem Merging.requested {manifest : List Record}
    (holds : change.Merging receiver.root manifest replica)
    (lists : ∀ record, record ∈ manifest ↔ record ∈ change.announced)
    (within : ∀ record ∈ change.announced, record.modifiedNs ≤ receiver.limit) :
    record ∈ manifest.filter (isRequested replica.store receiver.limit change.collection) ↔
      record ∈ change.files ∧ record ∉ change.old := by
  rw [List.mem_filter, lists]
  constructor
  · rintro ⟨listed, asked⟩
    obtain ⟨row, present, same, materialized⟩ :=
      holds.merged record listed (Or.inl ((lists record).mpr listed))
    obtain ⟨isFile, pending⟩ : record.kind.isFile = true ∧ row.materialized = false := by
      simpa [isRequested, within record listed, present, same] using asked
    have waits : ¬ (record ∈ change.old ∨ record.kind = .tombstone) := by
      rw [← materialized, pending]
      exact Bool.false_ne_true
    rcases List.mem_append.mp listed with file | tombstone
    · exact ⟨file, (not_or.mp waits).1⟩
    · exact absurd (change.removes record tombstone) (not_or.mp waits).2
  · rintro ⟨file, changed⟩
    have listed : record ∈ change.announced := List.mem_append_left _ file
    obtain ⟨row, present, same, materialized⟩ :=
      holds.merged record listed (Or.inl ((lists record).mpr listed))
    have isFile := file_isFile file
    have pending : row.materialized = false := by
      rw [← Bool.not_eq_true, materialized]
      intro settled
      rcases settled with old | tombstone
      · exact changed old
      · rw [tombstone] at isFile
        cases isFile
    refine ⟨listed, ?_⟩
    simp [isRequested, within record listed, isFile, present, same, pending]

/-- No file is in the way of a new file. -/
theorem Installing.clear {tree : LocalTree} (holds : change.Installing receiver.root done replica)
    (sameDisk : tree.disk = replica.tree.disk) (file : record ∈ change.files) :
    (tree.ensureSafeParent receiver.root [] record.path.components.dropLast).1 = .ok () := by
  apply LocalTree.ensureSafeParent_ok
  intro found _ nonempty above
  rw [List.nil_append] at above
  obtain ⟨whole, differs⟩ := LocalTree.above_path above
  by_contra there
  rw [Bool.not_eq_false] at there
  have plain : ∀ component ∈ found, Plain component := by
    intro component member
    exact record.path.components_plain component (whole.subset member)
  obtain ⟨path, components, stored⟩ := LocalTree.path_of_fileAt there nonempty plain
  rw [sameDisk] at stored
  by_cases listed : ∃ other ∈ change.files, other.path = path
  · obtain ⟨other, inFiles, samePath⟩ := listed
    rw [← components, ← samePath] at whole differs
    have same := change.files_apart other inFiles record file whole
    rw [same] at differs
    exact differs rfl
  · rw [holds.absent path] at stored
    · cases stored
    · intro other inFiles same
      exact listed ⟨other, inFiles, same⟩

/-- A new file that no old directory is in the way of is not a directory. -/
theorem Installing.not_directory (holds : change.Installing receiver.root done replica)
    (file : record ∈ change.files) (unblocked : ¬ change.OldDirectory record.path.components) :
    record.path.components ∉ (replica.tree.withParent receiver.root record.path).directories := by
  intro directory
  rcases LocalTree.of_mem_ensureSafeParent directory with before | ⟨_, _, above⟩
  · rcases holds.directories _ before with old | ⟨other, inFiles, above, differs⟩
    · exact unblocked old
    · have same := change.files_apart record file other inFiles above
      rw [same] at differs
      exact differs rfl
  · exact (LocalTree.above_path above).2 rfl

theorem Installing.step (holds : change.Installing receiver.root done replica)
    (file : record ∈ change.files) (unblocked : ¬ change.OldDirectory record.path.components)
    (loggable : (entry receiver record).Loggable receiver.config.maxLogs) :
    change.Installing receiver.root (done ++ [record])
      (receiver.install change.contents replica record) := by
  have listed : record ∈ change.announced := List.mem_append_left _ file
  have named := announced_collection listed
  have key : record.key = ⟨change.collection, record.path⟩ := by
    rw [Record.key, named]
  obtain ⟨row, present, same, _⟩ := holds.rows record listed
  have bound := holds.bound
  rw [← named] at bound present
  have installed := Receiver.install_done bound present same
    (change.holds record (List.mem_append_right _ file)) (holds.clear rfl file)
    (holds.clear (LocalTree.ensureSafeParent_disk _ _ _ _) file)
    (holds.not_directory file unblocked) (installed_loggable loggable)
  have elsewhere : ∀ other ∈ change.announced, other ≠ record → other.path ≠ record.path :=
    fun other otherListed differs samePath =>
      differs (announced_unique otherListed listed samePath)
  refine ⟨?_, ?_, ?_, ?_, ?_⟩
  · rw [← named]
    exact installed.bound
  · intro components there
    rcases LocalTree.of_mem_ensureSafeParent there with before | ⟨_, _, above⟩
    · exact holds.directories components before
    · exact Or.inr ⟨record, file, LocalTree.above_path above⟩
  · intro other otherListed
    by_cases here : other = record
    · rw [here, installed.rows, key, if_pos rfl]
      exact ⟨_, rfl, rfl, fun _ => rfl⟩
    · obtain ⟨otherRow, otherPresent, otherSame, materialized⟩ := holds.rows other otherListed
      rw [installed.rows, key, if_neg]
      · refine ⟨otherRow, otherPresent, otherSame, fun settled => materialized ?_⟩
        simpa [here] using settled
      · intro sameKey
        injection sameKey with _ samePath
        exact elsewhere other otherListed here samePath.symm
  · intro other inFiles known
    rw [installed.files]
    by_cases here : other = record
    · rw [here, if_pos rfl]
      rfl
    · rw [if_neg]
      · apply holds.present other inFiles
        simpa [here] using known
      · intro sameKey
        injection sameKey with _ samePath
        exact elsewhere other (List.mem_append_left _ inFiles) here samePath.symm
  · intro path noFile
    rw [installed.files, if_neg]
    · exact holds.absent path noFile
    · intro sameKey
      injection sameKey with _ samePath
      exact noFile record file samePath

theorem Installing.run (holds : change.Installing receiver.root done replica)
    {requested : List Record} (files : ∀ record ∈ requested, record ∈ change.files)
    (unblocked : ∀ record ∈ requested, ¬ change.OldDirectory record.path.components)
    (loggable : ∀ record ∈ requested, (entry receiver record).Loggable receiver.config.maxLogs) :
    change.Installing receiver.root (done ++ requested)
      (requested.foldl (receiver.install change.contents) replica) := by
  induction requested generalizing replica done with
  | nil =>
      rw [List.append_nil]
      exact holds
  | cons record rest ih =>
      rw [List.forall_mem_cons] at files unblocked loggable
      have next := ih (holds.step files.1 unblocked.1 loggable.1) files.2 unblocked.2 loggable.2
      rw [List.append_assoc, List.singleton_append] at next
      exact next

theorem Installing.replayed {requested : List Record}
    (holds : change.Installing receiver.root requested replica)
    (asks : ∀ record, record ∈ requested ↔ record ∈ change.files ∧ record ∉ change.old) :
    change.Replayed receiver.root replica := by
  have known : ∀ record ∈ change.files, record ∈ change.old ∨ record ∈ requested := by
    intro record file
    by_cases old : record ∈ change.old
    · exact Or.inl old
    · exact Or.inr ((asks record).mpr ⟨file, old⟩)
  constructor
  · intro record listed
    obtain ⟨row, present, same, materialized⟩ := holds.rows record listed
    rw [Record.key, announced_collection listed]
    refine ⟨row, present, same, materialized ?_⟩
    rcases List.mem_append.mp listed with file | tombstone
    · rcases known record file with old | asked
      · exact Or.inl old
      · exact Or.inr (Or.inr asked)
    · exact Or.inr (Or.inl (change.removes record tombstone))
  · exact ⟨fun record file => holds.present record file (known record file), holds.absent⟩

section
variable {manifest : List Record} (ready : change.Ready receiver.root replica)
  (lists : ∀ record, record ∈ manifest ↔ record ∈ change.announced)
  (within : ∀ record ∈ change.announced, record.modifiedNs ≤ receiver.limit)

include ready lists within

/-- A replay goes through the manifest and then through the files. -/
theorem replay_phases {final : Replica} :
    receiver.replay change.collection change.contents manifest replica = .ok final ↔
      ∃ merged, manifest.foldlM (receiver.merge change.collection) replica = .ok merged ∧
        change.Merging receiver.root manifest merged ∧
        (manifest.filter (isRequested merged.store receiver.limit change.collection)).foldl
          (receiver.install change.contents) merged = final := by
  obtain ⟨collection, attached, _⟩ := Option.bind_eq_some_iff.mp ready.bound
  have announced : ∀ record ∈ manifest, record ∈ change.announced :=
    fun record member => (lists record).mp member
  have there : (replica.store.collections[change.collection]?).isSome = true := by
    rw [attached]
    rfl
  unfold Receiver.replay
  rw [if_pos there]
  constructor
  · intro finished
    obtain ⟨merged, loop, last⟩ := Except.bind_ok finished
    have holds := ready.merging.run announced
      (fun record member => within record (announced record member)) loop
    rw [List.nil_append] at holds
    exact ⟨merged, loop, holds, Except.ok.inj last⟩
  · rintro ⟨merged, loop, _, last⟩
    rw [loop, Except.ok_bind, ← last]
    rfl

/-- A new file in the place of an old directory is never installed. -/
theorem not_replayed (file : record ∈ change.files)
    (directory : change.OldDirectory record.path.components) {final : Replica}
    (finished : receiver.replay change.collection change.contents manifest replica = .ok final) :
    ¬ change.Replayed receiver.root final := by
  intro replayed
  obtain ⟨merged, _, holds, last⟩ := (replay_phases ready lists within).mp finished
  have blocked : receiver.Blocked record.path merged := by
    constructor
    · exact (holds.directories _).mpr directory
    · apply holds.absent
      intro old inOld same
      rw [← same] at directory
      exact not_oldDirectory inOld directory
  have still : receiver.Blocked record.path final := by
    rw [← last]
    exact blocked.installs _
  have present := replayed.files.present record file
  rw [still.2] at present
  cases present

end

/-- A change of a tree is replayed exactly when no new file takes the place of an old directory
and the entry of each new record is written. -/
theorem tree_change_replayed (ready : change.Ready receiver.root replica) {manifest : List Record}
    (lists : ∀ record, record ∈ manifest ↔ record ∈ change.announced)
    (within : ∀ record ∈ change.announced, record.modifiedNs ≤ receiver.limit) :
    (∃ final, receiver.replay change.collection change.contents manifest replica = .ok final ∧
        change.Replayed receiver.root final) ↔
      (∀ record ∈ change.files, ¬ change.OldDirectory record.path.components) ∧
      ∀ record ∈ change.announced, record ∉ change.old →
        (entry receiver record).Loggable receiver.config.maxLogs := by
  have announced : ∀ record ∈ manifest, record ∈ change.announced :=
    fun record member => (lists record).mp member
  have run := ready.merging.run_iff announced
    (fun record member => within record (announced record member))
  constructor
  · rintro ⟨final, finished, replayed⟩
    constructor
    · intro record file directory
      exact not_replayed ready lists within file directory finished replayed
    · intro record listed changed
      obtain ⟨merged, loop, _⟩ := (replay_phases ready lists within).mp finished
      rcases run.mp ⟨merged, loop⟩ record ((lists record).mpr listed) with (before | old) | written
      · exact absurd before List.not_mem_nil
      · exact absurd old changed
      · exact written
  · rintro ⟨unblocked, loggable⟩
    obtain ⟨merged, loop⟩ := run.mpr fun record member => by
      by_cases old : record ∈ change.old
      · exact Or.inl (Or.inr old)
      · exact Or.inr (loggable record (announced record member) old)
    have holds := ready.merging.run announced
      (fun record member => within record (announced record member)) loop
    rw [List.nil_append] at holds
    have asks : ∀ record, record ∈ manifest.filter (isRequested merged.store receiver.limit
        change.collection) ↔ record ∈ change.files ∧ record ∉ change.old :=
      fun record => holds.requested lists within
    have installed := (holds.installing lists).run
      (fun record asked => ((asks record).mp asked).1)
      (fun record asked => unblocked record ((asks record).mp asked).1)
      (fun record asked => loggable record (List.mem_append_left _ ((asks record).mp asked).1)
        ((asks record).mp asked).2)
    rw [List.nil_append] at installed
    exact ⟨_, (replay_phases ready lists within).mpr ⟨merged, loop, holds, rfl⟩,
      installed.replayed asks⟩

end TreeChange

end

section
attribute [local instance] Blake3.checksum

/-- One file takes the place of another one. -/
def movedFile (bytes : List UInt8) (old file tombstone : Record)
    (named : old.collection = file.collection ∧ tombstone.collection = file.collection)
    (kinds : old.kind = .file bytes.length (Blake3.hash bytes) ∧
      file.kind = .file bytes.length (Blake3.hash bytes) ∧ tombstone.kind = .tombstone)
    (paths : tombstone.path = old.path ∧ file.path ≠ old.path)
    (newer : tombstone.compareWinner old = .gt) : TreeChange where
  collection := file.collection
  old := [old]
  files := [file]
  tombstones := [tombstone]
  contents _ := bytes
  named := by simp [named]
  holds := by simp [kinds]
  removes := by simp [kinds]
  old_apart := by simp
  files_apart := by simp
  removed := by
    intro path
    simp only [List.mem_singleton, exists_eq_left, paths.1]
    constructor
    · intro same
      exact ⟨same, same ▸ paths.2⟩
    · exact fun both => both.1
  removed_once := by simp
  newer := by
    intro record listed stored inOld same
    rw [List.mem_singleton.mp inOld] at same ⊢
    rcases List.mem_cons.mp listed with here | there
    · rw [here] at same
      exact absurd same.symm paths.2
    · rw [List.mem_singleton.mp there]
      exact Or.inr newer

/-- A replica with one file. -/
def replicaOf (root : RootPath) (bytes : List UInt8) (old : Record) : Replica where
  store :=
    { StateStore.empty with
      collections := StateStore.empty.collections.insert old.collection
        ⟨root, some root, .active, .active⟩
      pathRecords := StateStore.empty.pathRecords.insert old.key ⟨old, true, none⟩ }
  tree :=
    { disk := (∅ : Disk).insert ⟨root, old.path⟩ ⟨bytes, old.modifiedNs⟩
      directories := (old.path.components.inits.filter fun components =>
        decide (components ≠ [] ∧ components ≠ old.path.components)).toFinset }

theorem replicaOf_ready {change : TreeChange} {root : RootPath} {bytes : List UInt8}
    {old : Record} (only : change.old = [old]) (named : old.collection = change.collection)
    (contents : change.contents old = bytes) : change.Ready root (replicaOf root bytes old) := by
  have inOld : ∀ record, record ∈ change.old ↔ record = old := by
    intro record
    rw [only, List.mem_singleton]
  refine ⟨?_, ?_, ?_, ⟨?_, ?_⟩, ?_⟩
  · rw [StateStore.resolvedRoot, ← named, replicaOf, OrderedMap.getElem?_insert, if_pos rfl]
    rfl
  · intro record listed
    rw [(inOld record).mp listed, StateStore.recordState, replicaOf, OrderedMap.getElem?_insert,
      if_pos rfl]
    exact ⟨_, rfl, rfl, rfl⟩
  · intro path other
    rw [StateStore.recordState, replicaOf, OrderedMap.getElem?_insert, if_neg]
    · rfl
    · intro same
      injection same with _ samePath
      exact other old ((inOld old).mpr rfl) samePath
  · intro record listed
    rw [(inOld record).mp listed, replicaOf, OrderedMap.getElem?_insert, if_pos rfl, contents]
    rfl
  · intro path other
    rw [replicaOf, OrderedMap.getElem?_insert, if_neg]
    · rfl
    · intro same
      injection same with _ samePath
      exact other old ((inOld old).mpr rfl) samePath
  · intro components
    simp only [replicaOf, List.mem_toFinset, List.mem_filter, List.mem_inits, decide_eq_true_eq,
      TreeChange.OldDirectory, inOld, exists_eq_left]
    constructor
    · rintro ⟨above, nonempty, differs⟩
      exact ⟨nonempty, above, differs⟩
    · rintro ⟨nonempty, above, differs⟩
      exact ⟨above, nonempty, differs⟩

def treePath (text : String) : ProtocolPath :=
  (ProtocolPath.parse text).toOption.getD .sample

def movedRecord (text : String) (modifiedNs : I64) : Record :=
  Record.sample (treePath text) modifiedNs (.fill 1) (.file 1 (Blake3.hash [7]))

def movedAway (text : String) (modifiedNs : I64) : Record :=
  Record.sample (treePath text) modifiedNs (.fill 1) .tombstone

def movingReceiver : Receiver :=
  ⟨⟨.fill 2, 100, 1000⟩, .fill 1, "/c", 5, id⟩

/-- The file `a/b` becomes the file `a`. -/
def directoryToFile : TreeChange :=
  movedFile [7] (movedRecord "a/b" 1) (movedRecord "a" 2) (movedAway "a/b" 2) (by decide +kernel)
    (by decide +kernel) (by decide +kernel) (by decide +kernel)

/-- The file `a` becomes the file `a/b`. -/
def fileToDirectory : TreeChange :=
  movedFile [7] (movedRecord "a" 1) (movedRecord "a/b" 2) (movedAway "a" 2) (by decide +kernel)
    (by decide +kernel) (by decide +kernel) (by decide +kernel)

theorem directory_not_replaced_by_file :
    ∃ (change : TreeChange) (receiver : Receiver) (replica : Replica) (manifest : List Record),
      change.Ready receiver.root replica ∧
      (∀ record, record ∈ manifest ↔ record ∈ change.announced) ∧
      (∀ record ∈ change.announced, record.modifiedNs ≤ receiver.limit) ∧
      (∀ record ∈ change.announced,
        (TreeChange.entry receiver record).Loggable receiver.config.maxLogs) ∧
      ¬ ∃ final, receiver.replay change.collection change.contents manifest replica = .ok final ∧
        change.Replayed receiver.root final := by
  have ready : directoryToFile.Ready movingReceiver.root
      (replicaOf "/c" [7] (movedRecord "a/b" 1)) :=
    replicaOf_ready rfl (by decide +kernel) rfl
  have within : ∀ record ∈ directoryToFile.announced,
      record.modifiedNs ≤ movingReceiver.limit := by decide +kernel
  have file : movedRecord "a" 2 ∈ directoryToFile.files := List.mem_singleton_self _
  have directory : directoryToFile.OldDirectory (movedRecord "a" 2).path.components := by
    refine ⟨by decide +kernel, movedRecord "a/b" 1, List.mem_singleton_self _, ?_, ?_⟩
    · decide +kernel
    · decide +kernel
  refine ⟨directoryToFile, movingReceiver, _, directoryToFile.announced, ready, fun _ => Iff.rfl,
    within, ?_, ?_⟩
  · unfold OperationalEvent.Loggable
    decide +kernel
  · rintro ⟨final, finished, replayed⟩
    exact TreeChange.not_replayed ready (fun _ => Iff.rfl) within file directory finished replayed

theorem directory_replaces_file :
    ∃ final, movingReceiver.replay fileToDirectory.collection fileToDirectory.contents
        [movedAway "a" 2, movedRecord "a/b" 2] (replicaOf "/c" [7] (movedRecord "a" 1)) =
        .ok final ∧ fileToDirectory.Replayed movingReceiver.root final := by
  have ready : fileToDirectory.Ready movingReceiver.root
      (replicaOf "/c" [7] (movedRecord "a" 1)) :=
    replicaOf_ready rfl (by decide +kernel) rfl
  have lists : ∀ record, record ∈ [movedAway "a" 2, movedRecord "a/b" 2] ↔
      record ∈ fileToDirectory.announced := by
    intro record
    show record ∈ [_, _] ↔ record ∈ [_, _]
    simp only [List.mem_cons, List.not_mem_nil, or_false]
    exact or_comm
  have within : ∀ record ∈ fileToDirectory.announced,
      record.modifiedNs ≤ movingReceiver.limit := by decide +kernel
  apply (TreeChange.tree_change_replayed ready lists within).mpr
  constructor
  · rintro record file ⟨_, old, inOld, above, _⟩
    rw [List.mem_singleton.mp file, List.mem_singleton.mp inOld] at above
    revert above
    decide +kernel
  · intro record listed _
    revert record listed
    unfold OperationalEvent.Loggable
    decide +kernel

end

end Skillsync
