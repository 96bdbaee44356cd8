import Skillsync.Health
import Skillsync.RootBinding

set_option autoImplicit false

namespace Skillsync

open Fallible StateStore

/-- The scan takes the file to be the one of the stored record. -/
def settles (disk : DiskFile) (stored : PathRecordState) : Bool :=
  decide (stored.materializedFingerprint = some disk) || diskMatchesRecord disk stored.record

theorem settles_self (record : Record) (disk : DiskFile) :
    settles disk ⟨record, true, some disk⟩ = true := by
  simp [settles]

/-- The fingerprint of a scanned record is the one of its file. -/
theorem recordFingerprint_file {name : String} {path : ProtocolPath} {author : EndpointId}
    {disk : DiskFile} {candidate : Record}
    (built : Record.file name path disk.modifiedNs author disk.size disk.hash = .ok candidate) :
    recordFingerprint candidate = some disk := by
  obtain ⟨-, -, time, -, kind⟩ := Record.new_ok built
  rw [recordFingerprint, kind, time]

theorem mergedRow_file {name : String} {path : ProtocolPath} {author : EndpointId}
    {disk : DiskFile} {candidate : Record}
    (built : Record.file name path disk.modifiedNs author disk.size disk.hash = .ok candidate) :
    mergedRow candidate none = ⟨candidate, true, some disk⟩ := by
  rw [mergedRow, recordFingerprint_file built]
  rfl

section
variable [Blake3]

/-- The row of a listed file after the scan has looked at it. -/
def filedRow (candidate : Record) (disk : DiskFile) :
    Option PathRecordState → Option PathRecordState
  | none => some (mergedRow candidate none)
  | some stored =>
      if settles disk stored then some ⟨stored.record, true, some disk⟩
      else if candidate.compareWinner stored.record = .gt then some (mergedRow candidate none)
      else if stored.record.kind.isFile then some ⟨stored.record, false, none⟩
      else some stored

/-- The row of a winner after the deletion loop. -/
def deletedRow (scanner : Scanner) (name : String) (author : EndpointId) (observedNs : I64)
    (context : WalkContext) (winner : PathRecordState) : PathRecordState :=
  if keepsWinner scanner context winner then winner
  else
    match deletionRecord name author observedNs winner.record with
    | .error _ => winner
    | .ok tombstone =>
        if tombstone.compareWinner winner.record = .gt then mergedRow tombstone none else winner

/-- The row of a path after a whole scan. -/
def scannedRow (scanner : Scanner) (name : String) (author : EndpointId) (observedNs : I64)
    (context : WalkContext) (path : ProtocolPath) (row : Option PathRecordState) :
    Option PathRecordState :=
  match context.files[path]? with
  | none => row.map (deletedRow scanner name author observedNs context)
  | some disk =>
      match Record.file name path disk.modifiedNs author disk.size disk.hash with
      | .error _ => row
      | .ok candidate => filedRow candidate disk row

/-- A second look at a file changes nothing. -/
theorem filedRow_filedRow {name : String} {path : ProtocolPath} {author : EndpointId}
    {disk : DiskFile} {candidate : Record}
    (built : Record.file name path disk.modifiedNs author disk.size disk.hash = .ok candidate)
    (row : Option PathRecordState) :
    filedRow candidate disk (filedRow candidate disk row) = filedRow candidate disk row := by
  have kept (record : Record) : filedRow candidate disk (some ⟨record, true, some disk⟩) =
      some ⟨record, true, some disk⟩ := by
    rw [filedRow, if_pos (settles_self record disk)]
  cases row with
  | none => rw [filedRow, mergedRow_file built, kept]
  | some stored =>
      by_cases settled : settles disk stored = true
      · rw [filedRow, if_pos settled, kept]
      · by_cases beats : candidate.compareWinner stored.record = .gt
        · rw [filedRow, if_neg settled, if_pos beats, mergedRow_file built, kept]
        · by_cases isFile : stored.record.kind.isFile = true
          · have differs : settles disk ⟨stored.record, false, none⟩ = false := by
              rw [settles, Bool.not_eq_true, Bool.or_eq_false_iff] at settled
              simp [settles, settled.2]
            simp [filedRow, settled, beats, isFile, differs]
          · simp [filedRow, settled, beats, isFile]

/-- Two rows that a scan of the same disk leaves, up to the time stamped on a deletion. -/
inductive UpToStamp (name : String) (author : EndpointId) (winner : Option Record) :
    Option PathRecordState → Option PathRecordState → Prop
  | same (row : Option PathRecordState) : UpToStamp name author winner row row
  | stamped (record first second : Record) (firstNs secondNs : I64) : winner = some record →
      deletionRecord name author firstNs record = .ok first →
      deletionRecord name author secondNs record = .ok second →
      UpToStamp name author winner (some (mergedRow first none)) (some (mergedRow second none))

section deletion
variable {scanner : Scanner} {name : String} {author : EndpointId} {context : WalkContext}
  {winner : PathRecordState}

omit [Blake3] in
/-- A winner at the last timestamp gets the same tombstone at any time. -/
theorem deletionRecord_top (full : ¬ winner.record.modifiedNs < I64.max) (first second : I64) :
    deletionRecord name author first winner.record =
      deletionRecord name author second winner.record := by
  have top : winner.record.modifiedNs = I64.max := le_antisymm (I64.le_max _) (not_lt.mp full)
  have last : I64.max ≤ winner.record.modifiedNs.saturatingSucc :=
    top.symm.le.trans (I64.le_saturatingSucc _)
  have latest (observedNs : I64) :
      max observedNs winner.record.modifiedNs.saturatingSucc = I64.max :=
    le_antisymm (I64.le_max _) (last.trans (le_max_right _ _))
  rw [deletionRecord, deletionRecord, latest, latest]

theorem deletedRow_kept (keeps : keepsWinner scanner context winner = true) (observedNs : I64) :
    deletedRow scanner name author observedNs context winner = winner := by
  rw [deletedRow, if_pos keeps]

theorem deletedRow_removed {observedNs : I64} {tombstone : Record}
    (removes : ¬ keepsWinner scanner context winner = true)
    (built : deletionRecord name author observedNs winner.record = .ok tombstone) :
    deletedRow scanner name author observedNs context winner =
      if tombstone.compareWinner winner.record = .gt then mergedRow tombstone none
      else winner := by
  rw [deletedRow, if_neg removes, built]

/-- Whether a winner is deleted does not depend on the time. -/
theorem deletedRow_upToStamp (named : winner.record.collection = name) (first second : I64) :
    UpToStamp name author (some winner.record)
      (some (deletedRow scanner name author first context winner))
      (some (deletedRow scanner name author second context winner)) := by
  by_cases keeps : keepsWinner scanner context winner = true
  · rw [deletedRow_kept keeps, deletedRow_kept keeps]
    exact .same _
  · by_cases room : winner.record.modifiedNs < I64.max
    · have total (observedNs : I64) :
          ∃ tombstone, deletionRecord name author observedNs winner.record = .ok tombstone :=
        deletionRecord_total named
      obtain ⟨early, builtFirst⟩ := total first
      obtain ⟨late, builtSecond⟩ := total second
      rw [deletedRow_removed keeps builtFirst, if_pos (deletionRecord_beats room builtFirst),
        deletedRow_removed keeps builtSecond, if_pos (deletionRecord_beats room builtSecond)]
      exact .stamped winner.record early late first second rfl builtFirst builtSecond
    · rw [deletedRow, deletedRow, deletionRecord_top room first second]
      exact .same _

omit [Blake3] in
theorem keepsWinner_tombstone (removed : winner.record.kind = .tombstone) :
    keepsWinner scanner context winner = true := by
  simp [keepsWinner, removed, RecordKind.isFile]

/-- A second deletion loop changes nothing. -/
theorem deletedRow_deletedRow (named : winner.record.collection = name) (first second : I64) :
    deletedRow scanner name author second context
        (deletedRow scanner name author first context winner) =
      deletedRow scanner name author first context winner := by
  by_cases keeps : keepsWinner scanner context winner = true
  · rw [deletedRow_kept keeps, deletedRow_kept keeps]
  · have total : ∃ tombstone, deletionRecord name author first winner.record = .ok tombstone :=
      deletionRecord_total named
    obtain ⟨tombstone, built⟩ := total
    rw [deletedRow_removed keeps built]
    by_cases beats : tombstone.compareWinner winner.record = .gt
    · rw [if_pos beats, deletedRow_kept (keepsWinner_tombstone (deletionRecord_ok built).2.1)]
    · have full : ¬ winner.record.modifiedNs < I64.max :=
        fun room => beats (deletionRecord_beats room built)
      rw [deletionRecord_top full first second] at built
      rw [if_neg beats, deletedRow_removed keeps built, if_neg beats]

end deletion

section rows
variable {scanner : Scanner} {name : String} {author : EndpointId} {context : WalkContext}
  {path : ProtocolPath} {row : Option PathRecordState}

theorem scannedRow_upToStamp (named : ∀ stored ∈ row, stored.record.collection = name)
    (first second : I64) :
    UpToStamp name author (row.map PathRecordState.record)
      (scannedRow scanner name author first context path row)
      (scannedRow scanner name author second context path row) := by
  unfold scannedRow
  split
  · cases row with
    | none => exact .same _
    | some winner => exact deletedRow_upToStamp (named winner rfl) first second
  · exact .same _

/-- Scanning a scanned row again changes nothing. -/
theorem scannedRow_scannedRow (named : ∀ stored ∈ row, stored.record.collection = name)
    (first second : I64) :
    scannedRow scanner name author second context path
        (scannedRow scanner name author first context path row) =
      scannedRow scanner name author first context path row := by
  unfold scannedRow
  cases listed : context.files[path]? with
  | none =>
      cases row with
      | none => rfl
      | some winner =>
          show some _ = some _
          rw [deletedRow_deletedRow (named winner rfl)]
  | some disk =>
      dsimp only
      cases built : Record.file name path disk.modifiedNs author disk.size disk.hash with
      | error reason => rfl
      | ok candidate => exact filedRow_filedRow built row

end rows

/-- The snapshot of the loop holds the stored row of a path. -/
def Snapshot (current : List PathRecordState) (path : ProtocolPath)
    (row : Option PathRecordState) : Prop :=
  ∀ disk, durableMatch current path disk =
    row.any fun stored => decide (stored.materializedFingerprint = some disk)

omit [Blake3] in
theorem snapshot_recordStates {store : StateStore} (keyed : store.Keyed) (name : String)
    (path : ProtocolPath) :
    Snapshot (store.recordStates name) path (store.recordState ⟨name, path⟩) :=
  fun _ => any_recordStates keyed

section loops
variable {scanner : Scanner} {name : String} {author : EndpointId} {observedNs : I64}
  {context : WalkContext} {state after : StateStore × ScanSummary}

/-- One iteration over a file that is not future-dated. -/
theorem scanFile_inTime {current : List PathRecordState} {path : ProtocolPath} {disk : DiskFile}
    (read : Snapshot current path (state.1.recordState ⟨name, path⟩))
    (inTime : disk.modifiedNs ≤ observedNs.saturatingAdd scanner.maxFutureSkew)
    (done : scanFile scanner name author observedNs current state (path, disk) = .ok after) :
    ∃ candidate, Record.file name path disk.modifiedNs author disk.size disk.hash = .ok candidate ∧
      (∀ key, after.1.recordState key = if (⟨name, path⟩ : RecordKey) = key then
        filedRow candidate disk (state.1.recordState ⟨name, path⟩) else state.1.recordState key) ∧
      after.2.tombstones = state.2.tombstones ∧
      (filedRow candidate disk (state.1.recordState ⟨name, path⟩) =
          state.1.recordState ⟨name, path⟩ →
        after.2.accepted = state.2.accepted) := by
  obtain ⟨store, summary⟩ := state
  dsimp only at read ⊢
  unfold scanFile at done
  dsimp only at done
  rw [if_neg (not_lt.mpr inTime)] at done
  obtain ⟨candidate, built, done⟩ := Except.bind_ok done
  replace built := Except.mapError_ok built
  obtain ⟨named, located, -⟩ := Record.new_ok built
  have candidateKey : candidate.key = ⟨name, path⟩ := by rw [Record.key, named, located]
  refine ⟨candidate, built, ?_⟩
  have unchanged (key : RecordKey) : store.recordState key =
      if (⟨name, path⟩ : RecordKey) = key then store.recordState ⟨name, path⟩
      else store.recordState key := by
    split
    · rename_i same
      rw [same]
    · rfl
  have lasting : mergedRow candidate none = ⟨candidate, true, some disk⟩ := mergedRow_file built
  split at done
  · rename_i winner found
    obtain ⟨row, present, rfl⟩ := record_eq_some.mp found
    have decision : (durableMatch current path disk || diskMatchesRecord disk row.record) =
        settles disk row := by
      rw [read, present, Option.any_some, settles]
    rw [decision] at done
    rw [present, filedRow]
    by_cases settled : settles disk row = true
    · rw [if_pos settled] at done ⊢
      obtain ⟨marked, committed, done⟩ := Except.bind_ok done
      cases done
      obtain ⟨row', present', isFile, -, rows⟩ :=
        updateMaterializedFingerprint_ok (commit_ok committed)
      rw [present] at present'
      cases present'
      exact ⟨rows, rfl, fun _ => rfl⟩
    · rw [if_neg settled] at done ⊢
      obtain ⟨⟨merged, accepted⟩, committed, done⟩ := Except.bind_ok done
      have outcome := mergeScanned (commit_ok committed)
      rw [candidateKey, present] at outcome
      dsimp only at done
      rcases outcome with ⟨rfl, greater, rows⟩ | ⟨rfl, ⟨_, same, notGreater⟩, rows⟩
      · cases done
        rw [if_pos (greater row rfl)]
        refine ⟨rows, rfl, fun same => absurd (settles_self candidate disk) ?_⟩
        rw [lasting] at same
        cases same
        exact settled
      · cases same
        rw [if_neg notGreater]
        simp only [Bool.false_eq_true, ↓reduceIte] at done
        split at done
        · rename_i isFile
          obtain ⟨marked, repaired, done⟩ := Except.bind_ok done
          cases done
          obtain ⟨row', present', -, -, marks⟩ :=
            markRepairRequiredAndLog_ok (commit_ok repaired)
          rw [rows, present] at present'
          cases present'
          rw [if_pos isFile]
          refine ⟨fun key => ?_, rfl, fun _ => rfl⟩
          rw [marks, rows]
        · rename_i notFile
          cases done
          rw [if_neg notFile]
          refine ⟨fun key => ?_, rfl, fun _ => rfl⟩
          rw [rows, ← present]
          exact unchanged key
  · rename_i nothing
    have absent : store.recordState ⟨name, path⟩ = none := by
      simpa only [StateStore.record, Option.map_eq_none_iff] using nothing
    obtain ⟨⟨merged, accepted⟩, committed, done⟩ := Except.bind_ok done
    cases done
    have outcome := mergeScanned (commit_ok committed)
    rw [candidateKey, absent] at outcome
    rw [absent, filedRow]
    rcases outcome with ⟨-, -, rows⟩ | ⟨-, ⟨_, impossible, -⟩, -⟩
    · refine ⟨rows, rfl, fun impossible => ?_⟩
      cases impossible
    · cases impossible

/-- One iteration over a winner that the loop leaves as it is. -/
theorem scanDeletion_fixed {winner : PathRecordState}
    (stored : state.1.recordState ⟨name, winner.record.path⟩ = some winner)
    (fixed : deletedRow scanner name author observedNs context winner = winner)
    (done : scanDeletion scanner name author observedNs context state winner = .ok after) :
    (∀ key, after.1.recordState key = state.1.recordState key) ∧ after.2 = state.2 := by
  obtain ⟨store, summary⟩ := state
  unfold scanDeletion at done
  dsimp only at done stored ⊢
  by_cases keeps : keepsWinner scanner context winner = true
  · rw [if_pos keeps] at done
    cases done
    exact ⟨fun _ => rfl, rfl⟩
  · rw [if_neg keeps] at done
    obtain ⟨tombstone, built, done⟩ := Except.bind_ok done
    replace built := Except.mapError_ok built
    rw [deletedRow_removed keeps built] at fixed
    obtain ⟨named, removed, -⟩ := deletionRecord_ok built
    obtain ⟨⟨merged, accepted⟩, committed, done⟩ := Except.bind_ok done
    have outcome := mergeScanned (commit_ok committed)
    rw [named, stored] at outcome
    rcases outcome with ⟨-, greater, -⟩ | ⟨rfl, -, rows⟩
    · rw [if_pos (greater winner rfl)] at fixed
      rw [← fixed] at keeps
      exact absurd (keepsWinner_tombstone removed) keeps
    · cases done
      exact ⟨rows, rfl⟩

end loops

/-- No listed file is beyond the future limit. -/
def NoFuture (scanner : Scanner) (observedNs : I64) (context : WalkContext) : Prop :=
  ∀ (path : ProtocolPath) (disk : DiskFile), context.files[path]? = some disk →
    disk.modifiedNs ≤ observedNs.saturatingAdd scanner.maxFutureSkew

section whole
variable {scanner : Scanner} {store after : StateStore} {name localPath : String}
  {author : EndpointId} {observedNs : I64} {root : RootPath} {context : WalkContext}
  {summary : ScanSummary}

/-- A complete scan gives every path its scanned row. -/
theorem scanListing_scannedRow (keyed : store.Keyed) (inTime : NoFuture scanner observedNs context)
    (done : scanListing scanner store name localPath author observedNs root context =
      .ok (after, summary)) (path : ProtocolPath) :
    after.recordState ⟨name, path⟩ = scannedRow scanner name author observedNs context path
      (store.completedRow name root ⟨name, path⟩) := by
  obtain ⟨warned, filed, deleted, keyedWarned, start, listed, removed, last⟩ :=
    scanListing_loops keyed done
  rw [last, ← start]
  unfold scannedRow
  cases present : context.files[path]? with
  | some disk =>
      obtain ⟨before, middle, same, step, view⟩ := filing_iteration present listed removed
      have read : Snapshot (warned.recordStates name) path (before.1.recordState ⟨name, path⟩) := by
        rw [same]
        exact snapshot_recordStates keyedWarned name path
      obtain ⟨candidate, built, rows, -⟩ := scanFile_inTime read (inTime path disk present) step
      dsimp only at view same ⊢
      rw [view, rows, if_pos rfl, same, built]
  | none =>
      have outcome := deletion_outcome keyedWarned present (filing_other present listed) removed
      dsimp only
      generalize deleted.recordState ⟨name, path⟩ = final at outcome
      generalize warned.recordState ⟨name, path⟩ = row at outcome ⊢
      cases outcome with
      | deleted row tombstone removes built beats =>
          rw [Option.map_some, deletedRow_removed (Bool.eq_false_iff.mp removes) built,
            if_pos beats]
      | kept _ keeps =>
          cases final with
          | none => rfl
          | some stored =>
              rw [Option.map_some]
              rcases keeps stored rfl with kept | ⟨tombstone, built, notGreater⟩
              · rw [deletedRow_kept kept]
              · by_cases kept : keepsWinner scanner context stored = true
                · rw [deletedRow_kept kept]
                · rw [deletedRow_removed kept built, if_neg notGreater]

/-- A scan that finds every row scanned counts nothing. -/
theorem scanListing_fixed (keyed : store.Keyed) (inTime : NoFuture scanner observedNs context)
    (fixed : ∀ path, scannedRow scanner name author observedNs context path
        (store.completedRow name root ⟨name, path⟩) = store.completedRow name root ⟨name, path⟩)
    (done : scanListing scanner store name localPath author observedNs root context =
      .ok (after, summary)) :
    summary.accepted = 0 ∧ summary.tombstones = 0 := by
  obtain ⟨warned, filed, deleted, keyedWarned, start, listed, removed, -⟩ :=
    scanListing_loops keyed done
  have scanned (path : ProtocolPath) : scannedRow scanner name author observedNs context path
      (warned.recordState ⟨name, path⟩) = warned.recordState ⟨name, path⟩ := by
    rw [start, fixed]
  let unchanged (state : StateStore × ScanSummary) : Prop :=
    (∀ path, state.1.recordState ⟨name, path⟩ = warned.recordState ⟨name, path⟩) ∧
      state.2.accepted = 0 ∧ state.2.tombstones = 0
  have filedFixed : unchanged filed := by
    refine foldlM_invariant unchanged ⟨fun _ => rfl, rfl, rfl⟩ ?_ listed
    rintro state ⟨path, disk⟩ next member ⟨same, accepted, tombstones⟩ step
    have present := Std.ExtTreeMap.mem_toList_iff_getElem?_eq_some.mp member
    have read : Snapshot (warned.recordStates name) path (state.1.recordState ⟨name, path⟩) := by
      rw [same]
      exact snapshot_recordStates keyedWarned name path
    obtain ⟨candidate, built, rows, kept, counted⟩ :=
      scanFile_inTime read (inTime path disk present) step
    have still : filedRow candidate disk (state.1.recordState ⟨name, path⟩) =
        state.1.recordState ⟨name, path⟩ := by
      have row := scanned path
      rw [scannedRow, present] at row
      dsimp only at row
      rw [built] at row
      rw [same]
      exact row
    refine ⟨fun other => ?_, (counted still).trans accepted, kept.trans tombstones⟩
    rw [rows, still, ← same]
    split
    · rename_i equal
      rw [equal]
    · rfl
  have deletedFixed : unchanged (deleted, summary) := by
    refine foldlM_invariant unchanged filedFixed ?_ removed
    rintro state winner next member ⟨same, accepted, tombstones⟩ step
    obtain ⟨path, present⟩ := mem_recordStates.mp member
    have located : winner.record.path = path := congrArg RecordKey.path (keyedWarned.row present)
    have stored : state.1.recordState ⟨name, winner.record.path⟩ = some winner := by
      rw [same, located, present]
    have row := scanned path
    by_cases keeps : keepsWinner scanner context winner = true
    · obtain ⟨rows, counts⟩ := scanDeletion_fixed stored (deletedRow_kept keeps observedNs) step
      refine ⟨fun other => (rows _).trans (same other), ?_, ?_⟩ <;>
      · rw [counts]
        assumption
    · have missing := (keepsWinner_eq_false.mp (Bool.eq_false_iff.mpr keeps)).2.2.1
      rw [located] at missing
      rw [scannedRow, missing, present] at row
      obtain ⟨rows, counts⟩ := scanDeletion_fixed stored (Option.some.inj row) step
      refine ⟨fun other => (rows _).trans (same other), ?_, ?_⟩ <;>
      · rw [counts]
        assumption
  exact deletedFixed.2

end whole

end

end Skillsync
