import Skillsync.InstallerSpec
import Skillsync.Interleaving
import Skillsync.ScanSpec

set_option autoImplicit false

namespace Skillsync

open Fallible StateStore

namespace StateStore

/-- No row and no root changes. -/
structure Unchanged (store after : StateStore) : Prop where
  rows : ∀ key, after.recordState key = store.recordState key
  roots : ∀ name, after.resolvedRoot name = store.resolvedRoot name

/-- One row is written, and nothing else changes. -/
structure Rewritten (store : StateStore) (key : RecordKey) (row : PathRecordState)
    (after : StateStore) : Prop where
  rows : ∀ other, after.recordState other =
    if key = other then some row else store.recordState other
  roots : ∀ name, after.resolvedRoot name = store.resolvedRoot name

theorem Unchanged.refl (store : StateStore) : store.Unchanged store :=
  ⟨fun _ => rfl, fun _ => rfl⟩

variable {store after : StateStore}

theorem resolvedRoot_congr (same : after.collections = store.collections) (name : String) :
    after.resolvedRoot name = store.resolvedRoot name := by
  rw [resolvedRoot, resolvedRoot, same]

theorem Unchanged.record (same : store.Unchanged after) (key : RecordKey) :
    after.record key = store.record key := record_congr (same.rows key)

theorem Rewritten.at {key : RecordKey} {row : PathRecordState}
    (written : store.Rewritten key row after) : after.recordState key = some row := by
  rw [written.rows, if_pos rfl]

theorem Rewritten.of_ne {key other : RecordKey} {row : PathRecordState}
    (written : store.Rewritten key row after) (differs : key ≠ other) :
    after.recordState other = store.recordState other := by
  rw [written.rows, if_neg differs]

/-- A row update that leaves its record in place changes no record. -/
theorem Rewritten.record {key : RecordKey} {row old : PathRecordState}
    (written : store.Rewritten key row after) (present : store.recordState key = some old)
    (same : row.record = old.record) (other : RecordKey) :
    after.record other = store.record other := by
  rw [StateStore.record, written.rows, StateStore.record]
  split
  · rename_i equal
    subst equal
    rw [present, Option.map_some, Option.map_some, same]
  · rfl

theorem appendLog_unchanged {createdNs : I64} {event : OperationalEvent} {maxLogs : Nat}
    (committed : store.appendLog createdNs event maxLogs = .ok after) : store.Unchanged after :=
  ⟨appendLog_recordState committed, resolvedRoot_congr (appendLog_collections committed)⟩

theorem markRepairRequired_rewrites {key : RecordKey} {createdNs : I64} {event : OperationalEvent}
    {maxLogs : Nat}
    (committed : store.markRepairRequiredAndLog key createdNs event maxLogs = .ok after) :
    ∃ row, store.recordState key = some row ∧ row.record.kind.isFile = true ∧
      store.Rewritten key ⟨row.record, false, none⟩ after := by
  have ⟨row, present, isFile, collections, rows⟩ := markRepairRequiredAndLog_ok committed
  exact ⟨row, present, isFile, rows, resolvedRoot_congr collections⟩

theorem setMaterializedFingerprint_rewrites {key : RecordKey} {fingerprint : FileFingerprint}
    (committed : store.setMaterializedFingerprint key fingerprint = .ok after) :
    ∃ row, store.recordState key = some row ∧ row.record.kind.isFile = true ∧
      store.Rewritten key ⟨row.record, true, some fingerprint⟩ after := by
  have ⟨row, present, isFile, collections, rows⟩ := updateMaterializedFingerprint_ok committed
  exact ⟨row, present, isFile, rows, resolvedRoot_congr collections⟩

theorem markTombstoneMaterialized_rewrites {key : RecordKey} {createdNs : I64}
    {event : OperationalEvent} {maxLogs : Nat}
    (committed : store.markTombstoneMaterializedAndLog key createdNs event maxLogs = .ok after) :
    ∃ row, store.recordState key = some row ∧ row.record.kind = .tombstone ∧
      store.Rewritten key ⟨row.record, true, row.materializedFingerprint⟩ after := by
  have ⟨row, present, removed, collections, rows⟩ := markTombstoneMaterializedAndLog_ok committed
  exact ⟨row, present, removed, rows, resolvedRoot_congr collections⟩

/-- A merge that is accepted writes the candidate's row, any other merge changes nothing. -/
theorem mergeRecord_rewrites [Blake3] {record : Record} {observedNs : I64}
    {sourcePeer : Option EndpointId} {maxLogs : Nat} {accepted : Bool}
    (committed : store.mergeRecord record observedNs sourcePeer maxLogs = .ok (after, accepted)) :
    accepted = accepts (store.record record.key) record ∧
      if accepted then store.Rewritten record.key (mergedRow record sourcePeer) after
      else store.Unchanged after := by
  have ⟨decision, collections, rows⟩ := mergeRecord_ok committed
  refine ⟨decision, ?_⟩
  cases accepted with
  | true => exact ⟨fun other => by simp only [rows, true_and], resolvedRoot_congr collections⟩
  | false => exact ⟨fun other => by simp [rows], resolvedRoot_congr collections⟩

/-- A collection is attached without a row. -/
theorem addCollection_rows {name localPath : String} {root : Option RootPath}
    (added : store.addCollection name localPath root = .ok after) :
    (∀ key, after.recordState key = store.recordState key) ∧
      ∀ other, store.resolvedRoot other ≠ none →
        after.resolvedRoot other = store.resolvedRoot other := by
  unfold addCollection at added
  split at added
  · cases added
  · rename_i fresh
    cases added
    refine ⟨fun _ => rfl, fun other bound => ?_⟩
    have absent : store.collections[name]? = none := by
      simpa using fun present => fresh (Or.inr (Or.inr present))
    have differs : name ≠ other := by
      intro same
      rw [resolvedRoot, ← same, absent] at bound
      exact bound rfl
    simp only [resolvedRoot, OrderedMap.getElem?_insert, if_neg differs]

end StateStore

/-- What holds of every session still holds when one of them has moved on. -/
theorem forall_update {sessions : Nat → SessionPhase} {p : SessionPhase → Prop} {i : Nat}
    {phase : SessionPhase} (new : p phase) (old : ∀ j, p (sessions j)) (j : Nat) :
    p (Function.update sessions i phase j) := by
  by_cases same : j = i
  · rw [same, Function.update_self]
    exact new
  · rw [Function.update_of_ne same]
    exact old j

theorem committed_cases {Phase : Type} {store after : StateStore}
    {outcome : Except StateError StateStore} {next failed phase : Phase}
    (done : committed store outcome next failed = (after, phase)) :
    (outcome = .ok after ∧ phase = next) ∨ (after = store ∧ phase = failed) := by
  unfold committed at done
  split at done <;> cases done
  · exact Or.inl ⟨rfl, rfl⟩
  · exact Or.inr ⟨rfl, rfl⟩

section
variable [Blake3]

/-- Why the scan goes on from a file whose row it leaves as it is: the file is from the future and
no materialized row differs from it, or its candidate has lost and the winner that was read before
is no file. -/
inductive PassesOver (store : StateStore) (current : List PathRecordState) (path : ProtocolPath)
    (disk : DiskFile) : FileTask → Prop
  | future : divergedMaterializedWinner current path disk = false →
      PassesOver store current path disk .choose
  | beaten (candidate : Record) (winner : Option Record) :
      accepts (store.record candidate.key) candidate = false →
      (winner.any fun record => record.kind.isFile) = false →
      PassesOver store current path disk (.merge candidate winner)

/-- One step of the scanning thread. -/
inductive Advanced (daemon : Daemon) (store : StateStore) :
    ScanPhase → StateStore → ScanPhase → Prop
  | stopped (phase : ScanPhase) : Advanced daemon store phase store .idle
  | completed (run : ScanRun) (after : StateStore) :
      (∀ key, after.recordState key = store.completedRow run.name run.root key) →
      (∀ name, after.resolvedRoot name =
        if name = run.name then some run.root else store.resolvedRoot name) →
      Advanced daemon store (.walked run) after (.warning run run.context.warnings)
  | warned (run : ScanRun) (event : OperationalEvent) (rest : List OperationalEvent)
      (after : StateStore) : store.Unchanged after →
      Advanced daemon store (.warning run (event :: rest)) after (.warning run rest)
  | read (run : ScanRun) :
      Advanced daemon store (.warning run []) store
        (.filing run (store.recordStates run.name) run.context.files.toList .choose)
  | filed (run : ScanRun) (current : List PathRecordState) (task : FileTask) :
      Advanced daemon store (.filing run current [] task) store (.deleting run current)
  | diverged (run : ScanRun) (current : List PathRecordState) (path : ProtocolPath)
      (disk : DiskFile) (rest : List (ProtocolPath × DiskFile)) (row : PathRecordState)
      (after : StateStore) :
      divergedMaterializedWinner current path disk = true →
      store.recordState ⟨run.name, path⟩ = some row → row.record.kind.isFile = true →
      store.Rewritten ⟨run.name, path⟩ ⟨row.record, false, none⟩ after →
      Advanced daemon store (.filing run current ((path, disk) :: rest) .choose) after
        (.filing run current rest .choose)
  | passed (run : ScanRun) (current : List PathRecordState) (path : ProtocolPath)
      (disk : DiskFile) (rest : List (ProtocolPath × DiskFile)) (task : FileTask)
      (after : StateStore) : PassesOver store current path disk task → store.Unchanged after →
      Advanced daemon store (.filing run current ((path, disk) :: rest) task) after
        (.filing run current rest .choose)
  | chose (run : ScanRun) (current : List PathRecordState) (path : ProtocolPath)
      (disk : DiskFile) (rest : List (ProtocolPath × DiskFile)) (winner basis : Record) :
      store.record ⟨run.name, path⟩ = some winner →
      settleBasis current path disk winner = some basis →
      Advanced daemon store (.filing run current ((path, disk) :: rest) .choose) store
        (.filing run current ((path, disk) :: rest) (.settle basis))
  | differed (run : ScanRun) (current : List PathRecordState) (path : ProtocolPath)
      (disk : DiskFile) (rest : List (ProtocolPath × DiskFile)) (candidate : Record) :
      Record.file run.name path disk.modifiedNs daemon.session.localEndpoint disk.size
        disk.hash = .ok candidate →
      (∀ winner, store.record ⟨run.name, path⟩ = some winner →
        settleBasis current path disk winner = none) →
      Advanced daemon store (.filing run current ((path, disk) :: rest) .choose) store
        (.filing run current ((path, disk) :: rest)
          (.merge candidate (store.record ⟨run.name, path⟩)))
  | settled (run : ScanRun) (current : List PathRecordState) (path : ProtocolPath)
      (disk : DiskFile) (rest : List (ProtocolPath × DiskFile)) (basis : Record)
      (row : PathRecordState) (after : StateStore) :
      store.recordState ⟨run.name, path⟩ = some row → row.record.kind.isFile = true →
      store.Rewritten ⟨run.name, path⟩ ⟨row.record, true, some disk⟩ after →
      Advanced daemon store (.filing run current ((path, disk) :: rest) (.settle basis)) after
        (.filing run current rest .choose)
  | accepted (run : ScanRun) (current : List PathRecordState) (path : ProtocolPath)
      (disk : DiskFile) (rest : List (ProtocolPath × DiskFile)) (candidate : Record)
      (winner : Option Record) (after : StateStore) :
      accepts (store.record candidate.key) candidate = true →
      store.Rewritten candidate.key (mergedRow candidate none) after →
      Advanced daemon store (.filing run current ((path, disk) :: rest) (.merge candidate winner))
        after (.filing run current rest .choose)
  | rejected (run : ScanRun) (current : List PathRecordState) (path : ProtocolPath)
      (disk : DiskFile) (rest : List (ProtocolPath × DiskFile)) (candidate : Record)
      (winner : Option Record) (after : StateStore) :
      accepts (store.record candidate.key) candidate = false → store.Unchanged after →
      Advanced daemon store (.filing run current ((path, disk) :: rest) (.merge candidate winner))
        after (.filing run current ((path, disk) :: rest) .repair)
  | repaired (run : ScanRun) (current : List PathRecordState) (path : ProtocolPath)
      (disk : DiskFile) (rest : List (ProtocolPath × DiskFile)) (row : PathRecordState)
      (after : StateStore) :
      store.recordState ⟨run.name, path⟩ = some row → row.record.kind.isFile = true →
      store.Rewritten ⟨run.name, path⟩ ⟨row.record, false, none⟩ after →
      Advanced daemon store (.filing run current ((path, disk) :: rest) .repair) after
        (.filing run current rest .choose)
  | kept (run : ScanRun) (winner : PathRecordState) (rest : List PathRecordState) :
      keepsWinner daemon.scanner run.context winner = true →
      Advanced daemon store (.deleting run (winner :: rest)) store (.deleting run rest)
  | deleted (run : ScanRun) (winner : PathRecordState) (rest : List PathRecordState)
      (tombstone : Record) (after : StateStore) :
      keepsWinner daemon.scanner run.context winner = false →
      deletionRecord run.name daemon.session.localEndpoint run.observedNs winner.record =
        .ok tombstone →
      accepts (store.record tombstone.key) tombstone = true →
      store.Rewritten tombstone.key (mergedRow tombstone none) after →
      Advanced daemon store (.deleting run (winner :: rest)) after (.deleting run rest)
  | outranked (run : ScanRun) (winner : PathRecordState) (rest : List PathRecordState)
      (tombstone : Record) (after : StateStore) :
      keepsWinner daemon.scanner run.context winner = false →
      deletionRecord run.name daemon.session.localEndpoint run.observedNs winner.record =
        .ok tombstone →
      accepts (store.record tombstone.key) tombstone = false → store.Unchanged after →
      Advanced daemon store (.deleting run (winner :: rest)) after (.deleting run rest)
  | finished (run : ScanRun) (after : StateStore) : store.Unchanged after →
      Advanced daemon store (.deleting run []) after .idle

theorem chooseTask_advanced {daemon : Daemon} {store after : StateStore} {run : ScanRun}
    {current : List PathRecordState} {path : ProtocolPath} {disk : DiskFile}
    {rest : List (ProtocolPath × DiskFile)} {phase : ScanPhase}
    (done : chooseTask daemon store run current path disk rest = (after, phase)) :
    Advanced daemon store (.filing run current ((path, disk) :: rest) .choose) after phase := by
  unfold chooseTask at done
  dsimp only at done
  split at done
  · split at done
    · rename_i diverges
      rcases committed_cases done with ⟨marked, rfl⟩ | ⟨rfl, rfl⟩
      · have ⟨row, present, isFile, written⟩ := markRepairRequired_rewrites marked
        exact .diverged run current path disk rest row after diverges present isFile written
      · exact .stopped _
    · rename_i agrees
      rcases committed_cases done with ⟨logged, rfl⟩ | ⟨rfl, rfl⟩
      · exact .passed run current path disk rest .choose after
          (.future (Bool.eq_false_of_not_eq_true agrees)) (appendLog_unchanged logged)
      · exact .stopped _
  · cases built : Record.file run.name path disk.modifiedNs daemon.session.localEndpoint disk.size
        disk.hash with
    | error reason =>
        rw [built] at done
        cases done
        exact .stopped _
    | ok candidate =>
        rw [built] at done
        cases based : (store.record ⟨run.name, path⟩).bind (settleBasis current path disk) with
        | some basis =>
            simp only [based, Prod.mk.injEq] at done
            have ⟨winner, stored, same⟩ := Option.bind_eq_some_iff.mp based
            rw [← done.1, ← done.2]
            exact .chose run current path disk rest winner basis stored same
        | none =>
            simp only [based, Prod.mk.injEq] at done
            rw [← done.1, ← done.2]
            apply Advanced.differed run current path disk rest candidate built
            intro winner stored
            rwa [stored] at based

theorem advanceScan_advanced (daemon : Daemon) (store : StateStore) (phase : ScanPhase) :
    Advanced daemon store phase (advanceScan daemon store phase).1
      (advanceScan daemon store phase).2 := by
  generalize done : advanceScan daemon store phase = result
  obtain ⟨after, next⟩ := result
  unfold advanceScan at done
  split at done
  · cases done
    exact .stopped _
  · rename_i run
    split at done
    · rename_i completed changed outcome
      cases done
      have ⟨roots, rows⟩ := completeCollectionScan_ok outcome
      exact .completed run _ rows roots
    · cases done
      exact .stopped _
  · rcases committed_cases done with ⟨logged, rfl⟩ | ⟨rfl, rfl⟩
    · exact .warned _ _ _ _ (appendLog_unchanged logged)
    · exact .stopped _
  · cases done
    exact .read _
  · cases done
    exact .filed _ _ _
  · exact chooseTask_advanced done
  · rcases committed_cases done with ⟨marked, rfl⟩ | ⟨rfl, rfl⟩
    · have ⟨row, present, isFile, written⟩ := setMaterializedFingerprint_rewrites marked
      exact .settled _ _ _ _ _ _ row _ present isFile written
    · exact .stopped _
  · split at done
    · cases done
      exact .stopped _
    · rename_i merged accepted outcome
      have ⟨decision, effect⟩ := mergeRecord_rewrites outcome
      cases accepted with
      | true =>
          simp only [Bool.not_true, Bool.false_and, Bool.false_eq_true, ↓reduceIte] at done effect
          cases done
          exact .accepted _ _ _ _ _ _ _ _ decision.symm effect
      | false =>
          simp only [Bool.false_eq_true, ↓reduceIte] at effect
          split at done <;> cases done
          · exact .rejected _ _ _ _ _ _ _ _ decision.symm effect
          · rename_i noFile
            have beaten := Bool.eq_false_of_not_eq_true noFile
            rw [Bool.not_false, Bool.true_and] at beaten
            exact .passed _ _ _ _ _ _ _ (.beaten _ _ decision.symm beaten) effect
  · rcases committed_cases done with ⟨marked, rfl⟩ | ⟨rfl, rfl⟩
    · have ⟨row, present, isFile, written⟩ := markRepairRequired_rewrites marked
      exact .repaired _ _ _ _ _ row _ present isFile written
    · exact .stopped _
  · split at done
    · rename_i keeps
      cases done
      exact .kept _ _ _ keeps
    · rename_i keeps
      have removes := Bool.eq_false_of_not_eq_true keeps
      split at done
      · cases done
        exact .stopped _
      · rename_i tombstone built
        split at done
        · cases done
          exact .stopped _
        · rename_i merged accepted outcome
          cases done
          have ⟨decision, effect⟩ := mergeRecord_rewrites outcome
          cases accepted with
          | true => exact .deleted _ _ _ tombstone _ removes built decision.symm effect
          | false => exact .outranked _ _ _ tombstone _ removes built decision.symm effect
  · rcases committed_cases done with ⟨logged, rfl⟩ | ⟨rfl, rfl⟩
    · exact .finished _ _ (appendLog_unchanged logged)
    · exact .stopped _

/-- One step of a session. -/
inductive Acted (daemon : Daemon) (i : Nat) (store : StateStore) (disk : Disk) :
    SessionPhase → SessionAction → StateStore → Disk → SessionPhase → Prop
  | ended (phase : SessionPhase) (action : SessionAction) (after : StateStore) :
      store.Unchanged after → Acted daemon i store disk phase action after disk .idle
  | offered (candidate : Record) (now : I64) :
      store.record candidate.key = some candidate →
      Acted daemon i store disk .idle (.compare candidate now) store disk (.merged candidate)
  | differed (candidate : Record) (now : I64) :
      Acted daemon i store disk .idle (.compare candidate now) store disk (.merging candidate)
  | accepted (candidate : Record) (now : I64) (after : StateStore) :
      accepts (store.record candidate.key) candidate = true →
      store.Rewritten candidate.key (mergedRow candidate (some (daemon.peer i))) after →
      Acted daemon i store disk (.merging candidate) (.merge now) after disk (.merged candidate)
  | rejected (candidate : Record) (now : I64) (after : StateStore) :
      accepts (store.record candidate.key) candidate = false → store.Unchanged after →
      Acted daemon i store disk (.merging candidate) (.merge now) after disk (.merged candidate)
  | won (candidate : Record) :
      store.record candidate.key = some candidate → candidate.kind = .tombstone →
      Acted daemon i store disk (.merged candidate) .checkWinner store disk (.winning candidate)
  | removable (candidate : Record) :
      Acted daemon i store disk (.winning candidate) .checkMaterialized store disk
        (.removing candidate)
  | removed (candidate : Record) (environment : RemovalEnvironment) (after : Disk) :
      removeForTombstone disk candidate environment = (.ok (), after) →
      Acted daemon i store disk (.removing candidate) (.removeFile environment) store after
        (.removed candidate)
  | notRemoved (candidate : Record) (environment : RemovalEnvironment) (reason : InstallError)
      (after : Disk) : removeForTombstone disk candidate environment = (.error reason, after) →
      Acted daemon i store disk (.removing candidate) (.removeFile environment) store after
        (.removalFailed candidate)
  | tombstoned (candidate : Record) (now : I64) (row : PathRecordState) (after : StateStore) :
      store.recordState candidate.key = some row → row.record.kind = .tombstone →
      store.Rewritten candidate.key ⟨row.record, true, row.materializedFingerprint⟩ after →
      Acted daemon i store disk (.removed candidate) (.markRemoved now) after disk .idle
  | notTombstoned (candidate : Record) (now : I64) :
      Acted daemon i store disk (.removed candidate) (.markRemoved now) store disk
        (.removalFailed candidate)
  | received (record : Record) (stream : List UInt8) :
      store.record record.key = some record → record.kind.isFile = true →
      Acted daemon i store disk .idle (.receive record stream) store disk
        (.receiving record stream)
  | installed (record : Record) (stream : List UInt8) (environment : InstallEnvironment)
      (file : InstalledFile) (event : OperationalEvent) :
      prepareInstall record stream environment = .ok file →
      Acted daemon i store disk (.receiving record stream) (.install environment) store
        (renamed disk file stream) (.installed record file event)
  | notInstalled (record : Record) (stream : List UInt8) (environment : InstallEnvironment)
      (phase : SessionPhase) : phase = .idle ∨ phase = .installFailed record →
      Acted daemon i store disk (.receiving record stream) (.install environment) store disk phase
  | marked (record : Record) (file : InstalledFile) (event : OperationalEvent) (now : I64)
      (row : PathRecordState) (after : StateStore) :
      store.recordState record.key = some row → row.record.kind.isFile = true →
      (∀ name, after.resolvedRoot name =
        if name = record.key.collection then some file.resolvedRoot
        else store.resolvedRoot name) →
      (∀ other, after.recordState other =
        if record.key = other then some ⟨row.record, true, some file.fingerprint⟩
        else store.reboundRow record.key file.resolvedRoot other) →
      Acted daemon i store disk (.installed record file event) (.markInstalled now) after disk .idle
  | installFailed (record : Record) (now : I64) (row : PathRecordState) (after : StateStore) :
      store.recordState record.key = some row → row.record.kind.isFile = true →
      store.Rewritten record.key ⟨row.record, false, none⟩ after →
      Acted daemon i store disk (.installFailed record) (.markInstallFailed now) after disk .idle
  | requested (request : FileRequest) (key : RecordKey) (record : Record) :
      store.record key = some record →
      Acted daemon i store disk .idle (.request request) store disk (.requested key record)
  | served (key : RecordKey) (record : Record) : record.kind.isFile = true →
      Acted daemon i store disk (.requested key record) .checkServed store disk
        (.serving key record)
  | unverified (key : RecordKey) (record : Record) (environment : VerifyEnvironment)
      (reason : InstallError) : openVerifiedFile disk record environment = .error reason →
      Acted daemon i store disk (.serving key record) (.verify environment) store disk
        (.unavailable key)
  | unavailable (key : RecordKey) (now : I64) (row : PathRecordState) (after : StateStore) :
      store.recordState key = some row → row.record.kind.isFile = true →
      store.Rewritten key ⟨row.record, false, none⟩ after →
      Acted daemon i store disk (.unavailable key) (.markUnavailable now) after disk .idle

theorem committed_acted {daemon : Daemon} {i : Nat} {store : StateStore} {disk : Disk}
    {phase next failed : SessionPhase} {action : SessionAction}
    {outcome : Except StateError StateStore}
    (succeeds : ∀ after, outcome = .ok after →
      Acted daemon i store disk phase action after disk next)
    (fails : Acted daemon i store disk phase action store disk failed) :
    Acted daemon i store disk phase action (committed store outcome next failed).1 disk
      (committed store outcome next failed).2 := by
  cases outcome with
  | ok after => exact succeeds after rfl
  | error source => exact fails

/-- A session ends with a log entry. -/
theorem logged_acted (daemon : Daemon) (i : Nat) (store : StateStore) (disk : Disk)
    (phase : SessionPhase) (action : SessionAction) (createdNs : I64) (event : OperationalEvent)
    (maxLogs : Nat) :
    Acted daemon i store disk phase action
      (committed store (store.appendLog createdNs event maxLogs) SessionPhase.idle .idle).1 disk
      (committed store (store.appendLog createdNs event maxLogs) SessionPhase.idle .idle).2 :=
  committed_acted (fun after logged => .ended _ _ after (appendLog_unchanged logged))
    (.ended _ _ _ (.refl _))

theorem install_acted {daemon : Daemon} {i : Nat} {store after : StateStore}
    {disk diskAfter : Disk} {next : SessionPhase} {record : Record} {stream : List UInt8}
    {environment : InstallEnvironment}
    (done : sessionStep daemon i store disk (.receiving record stream) (.install environment) =
      some (after, diskAfter, next)) :
    Acted daemon i store disk (.receiving record stream) (.install environment) after diskAfter
      next := by
  simp only [sessionStep] at done
  generalize outcome : installFile disk record stream environment = result at done
  obtain ⟨result, installedDisk⟩ := result
  rcases installFile_cases outcome with ⟨file, prepared, rfl, rfl | rfl⟩ |
    ⟨reason, failed, rfl, rfl⟩
  · cases done
    exact .installed record stream environment file _ prepared
  · cases done
    exact .installed record stream environment file _ prepared
  · have early := prepareInstall_early record stream environment
    rw [failed] at early
    cases reason with
    | postRenameDurability file => exact absurd rfl (early file)
    | unstableRoot =>
        cases done
        exact .notInstalled record stream environment _ (Or.inl rfl)
    | _ =>
        cases done
        exact .notInstalled record stream environment _ (Or.inr rfl)

theorem sessionStep_acted {daemon : Daemon} {i : Nat} {store after : StateStore}
    {disk diskAfter : Disk} {phase next : SessionPhase} {action : SessionAction}
    (done : sessionStep daemon i store disk phase action = some (after, diskAfter, next)) :
    Acted daemon i store disk phase action after diskAfter next := by
  unfold sessionStep at done
  split at done
  · split at done
    · cases done
      exact logged_acted _ _ _ _ _ _ _ _ _
    · split at done <;> cases done
      · exact .offered _ _ ‹_›
      · exact .differed _ _
  · split at done <;> cases done
    · rename_i accepted merged
      have ⟨decision, effect⟩ := mergeRecord_rewrites merged
      cases accepted with
      | true => exact .accepted _ _ _ decision.symm effect
      | false => exact .rejected _ _ _ decision.symm effect
    · exact .ended _ _ _ (.refl _)
  · split at done <;> cases done
    · rename_i current
      exact .won _ current.1 current.2
    · exact .ended _ _ _ (.refl _)
  · split at done <;> cases done
    · exact .removable _
    · exact .ended _ _ _ (.refl _)
  · split at done <;> cases done
    · exact .removed _ _ _ ‹_›
    · exact .notRemoved _ _ _ _ ‹_›
  · cases done
    apply committed_acted
    · intro after marked
      have ⟨row, present, removed, written⟩ := markTombstoneMaterialized_rewrites marked
      exact .tombstoned _ _ row after present removed written
    · exact .notTombstoned _ _
  · cases done
    exact logged_acted _ _ _ _ _ _ _ _ _
  · split at done <;> cases done
    · rename_i current
      exact .received _ _ current.1 current.2.1
    · exact .ended _ _ _ (.refl _)
  · exact install_acted done
  · cases done
    apply committed_acted
    · intro after marked
      have ⟨row, present, isFile, roots, rows⟩ := markMaterializedAndLog_ok marked
      exact .marked _ _ _ _ row after present isFile roots rows
    · exact .ended _ _ _ (.refl _)
  · cases done
    apply committed_acted
    · intro after marked
      have ⟨row, present, isFile, written⟩ := markRepairRequired_rewrites marked
      exact .installFailed _ _ row after present isFile written
    · exact .ended _ _ _ (.refl _)
  · split at done
    · cases done
      exact .ended _ _ _ (.refl _)
    · split at done
      · cases done
        exact .ended _ _ _ (.refl _)
      · split at done <;> cases done
        · exact .requested _ _ _ ‹_›
        · exact .ended _ _ _ (.refl _)
  · split at done <;> cases done
    · rename_i known
      exact .served _ _ known.2.2
    · exact .ended _ _ _ (.refl _)
  · split at done <;> cases done
    · exact .ended _ _ _ (.refl _)
    · exact .unverified _ _ _ _ ‹_›
  · cases done
    apply committed_acted
    · intro after marked
      have ⟨row, present, isFile, written⟩ := markRepairRequired_rewrites marked
      exact .unavailable _ _ row after present isFile written
    · exact .ended _ _ _ (.refl _)
  · cases done
    exact logged_acted _ _ _ _ _ _ _ _ _
  · cases done
    exact .ended _ _ _ (.refl _)
  · cases done

/-- One step of the node. -/
inductive Stepped (daemon : Daemon) (node : Node) : Label → Node → Prop
  | walked (name localPath : String) (root : RootPath) (observedNs : I64)
      (fileSystem : FileSystem) (context : WalkContext) : node.scan = .idle →
      walk fileSystem name daemon.scanner.ignores (daemon.scanner.comparisonKey root) =
        .ok context →
      Stepped daemon node (.walk name localPath root observedNs fileSystem)
        { node with scan := .walked ⟨name, localPath, root, observedNs, context⟩ }
  | advanced (store : StateStore) (scan : ScanPhase) :
      Advanced daemon node.store node.scan store scan →
      Stepped daemon node .advance { node with store := store, scan := scan }
  | aborted : Stepped daemon node .abort { node with scan := .idle }
  | acted (i : Nat) (action : SessionAction) (store : StateStore) (disk : Disk)
      (phase : SessionPhase) :
      Acted daemon i node.store node.disk (node.sessions i) action store disk phase →
      Stepped daemon node (.session i action)
        { node with
          store := store, disk := disk, sessions := Function.update node.sessions i phase }
  | wrote (key : DiskKey) (file : RegularFile) :
      Stepped daemon node (.write key file) { node with disk := node.disk.insert key file }
  | removed (key : DiskKey) :
      Stepped daemon node (.remove key) { node with disk := node.disk.erase key }
  | attached (name localPath : String) (root : Option RootPath) (store : StateStore) :
      (∀ key, store.recordState key = node.store.recordState key) →
      (∀ other, node.store.resolvedRoot other ≠ none →
        store.resolvedRoot other = node.store.resolvedRoot other) →
      Stepped daemon node (.attach name localPath root) { node with store := store }

theorem Node.step_cases {daemon : Daemon} {node next : Node} {label : Label}
    (taken : node.step daemon label = some next) : Stepped daemon node label next := by
  cases label with
  | walk name localPath root observedNs fileSystem =>
      simp only [Node.step] at taken
      split at taken
      · cases taken
        exact .walked _ _ _ _ _ _ ‹_› ‹_›
      · cases taken
  | advance =>
      cases taken
      exact .advanced _ _ (advanceScan_advanced daemon node.store node.scan)
  | abort =>
      cases taken
      exact .aborted
  | session i action =>
      have ⟨result, done, same⟩ := Option.map_eq_some_iff.mp taken
      rw [← same]
      exact .acted i action _ _ _ (sessionStep_acted done)
  | write key file =>
      cases taken
      exact .wrote key file
  | remove key =>
      cases taken
      exact .removed key
  | attach name localPath root =>
      simp only [Node.step] at taken
      split at taken
      · rename_i store added
        cases taken
        have ⟨rows, roots⟩ := addCollection_rows added
        exact .attached name localPath root store rows roots
      · cases taken

/-- The scanning thread comes from one state to another on its own. -/
def Lands (daemon : Daemon) (start final : StateStore × ScanPhase) : Prop :=
  ∃ steps, (fun state => advanceScan daemon state.1 state.2)^[steps] start = final

theorem Lands.refl {daemon : Daemon} (state : StateStore × ScanPhase) :
    Lands daemon state state := ⟨0, rfl⟩

theorem Lands.step {daemon : Daemon} {start next final : StateStore × ScanPhase}
    (first : advanceScan daemon start.1 start.2 = next) (rest : Lands daemon next final) :
    Lands daemon start final := by
  have ⟨steps, ends⟩ := rest
  exact ⟨steps + 1, by rw [Function.iterate_succ_apply, first, ends]⟩

theorem Lands.trans {daemon : Daemon} {start middle final : StateStore × ScanPhase}
    (front : Lands daemon start middle) (back : Lands daemon middle final) :
    Lands daemon start final := by
  have ⟨steps, reaches⟩ := front
  have ⟨more, ends⟩ := back
  exact ⟨more + steps, by rw [Function.iterate_add_apply, reaches, ends]⟩

/-- The state of the thread after an iteration of a loop. -/
def landing {σ : Type} (view : σ → StateStore) (next : ScanPhase) :
    Scanned σ → StateStore × ScanPhase
  | .ok state => (view state, next)
  | .error (_, left) => (left, .idle)

/-- A loop of the scan, followed by the rest of the scan. -/
theorem loop_lands {σ α : Type} {daemon : Daemon} (view : σ → StateStore)
    (phase : List α → ScanPhase) {body : σ → α → Scanned σ}
    {continuation : σ → Scanned (StateStore × ScanSummary)}
    (iteration : ∀ state item rest, Lands daemon (view state, phase (item :: rest))
      (landing view (phase rest) (body state item)))
    (ends : ∀ state, Lands daemon (view state, phase []) (leftStore (continuation state), .idle))
    (items : List α) (state : σ) :
    Lands daemon (view state, phase items)
      (leftStore (items.foldlM body state >>= continuation), .idle) := by
  induction items generalizing state with
  | nil => exact ends state
  | cons item rest ih =>
      have first := iteration state item rest
      rw [List.foldlM_cons]
      cases outcome : body state item with
      | error failure =>
          rw [outcome] at first
          exact first
      | ok next =>
          rw [outcome] at first
          exact first.trans (ih next)

omit [Blake3] in
theorem settleBasis_isSome (current : List PathRecordState) (path : ProtocolPath)
    (disk : DiskFile) (winner : Record) :
    (settleBasis current path disk winner).isSome =
      (durableMatch current path disk || diskMatchesRecord disk winner) := by
  unfold settleBasis durableMatch
  split
  · rename_i same
    rw [same, Bool.or_true]
    rfl
  · rename_i differs
    rw [Bool.eq_false_of_not_eq_true differs, Bool.or_false, Option.isSome_map, List.isSome_find?]

theorem scanFile_lands (daemon : Daemon) (run : ScanRun) (current : List PathRecordState)
    (state : StateStore × ScanSummary) (entry : ProtocolPath × DiskFile)
    (rest : List (ProtocolPath × DiskFile)) :
    Lands daemon (state.1, .filing run current (entry :: rest) .choose)
      (landing Prod.fst (.filing run current rest .choose)
        (scanFile daemon.scanner run.name daemon.session.localEndpoint run.observedNs current state
          entry)) := by
  obtain ⟨store, summary⟩ := state
  obtain ⟨path, disk⟩ := entry
  apply Lands.step rfl
  simp only [advanceScan, chooseTask, scanFile]
  split
  · split
    · cases store.markRepairRequiredAndLog ⟨run.name, path⟩ run.observedNs
        (.collectionWarning run.name (some path) .timestampRejected) daemon.scanner.maxLogs <;>
        exact .refl _
    · cases store.appendLog run.observedNs
        (.collectionWarning run.name (some path) .timestampRejected) daemon.scanner.maxLogs <;>
        exact .refl _
  · cases built : Record.file run.name path disk.modifiedNs daemon.session.localEndpoint disk.size
        disk.hash with
    | error reason => exact .refl _
    | ok candidate =>
        simp only [Except.mapError, Except.ok_bind]
        cases stored : store.record ⟨run.name, path⟩ with
        | none =>
            apply Lands.step rfl
            simp only [Option.bind_none, advanceScan]
            cases store.mergeRecord candidate run.observedNs none daemon.scanner.maxLogs with
            | error source => exact .refl _
            | ok result =>
                simp only [Option.any_none, Bool.and_false, Bool.false_eq_true, ↓reduceIte]
                exact .refl _
        | some winner =>
            simp only [Option.bind_some]
            rw [← settleBasis_isSome]
            cases settleBasis current path disk winner with
            | some basis =>
                apply Lands.step rfl
                simp only [advanceScan, Option.isSome_some, ↓reduceIte]
                cases store.setMaterializedFingerprint ⟨run.name, path⟩ disk <;> exact .refl _
            | none =>
                apply Lands.step rfl
                simp only [advanceScan, Option.isSome_none, Bool.false_eq_true, ↓reduceIte]
                cases store.mergeRecord candidate run.observedNs none daemon.scanner.maxLogs with
                | error source => exact .refl _
                | ok result =>
                    obtain ⟨merged, accepted⟩ := result
                    cases accepted with
                    | true => exact .refl _
                    | false =>
                        simp only [Bool.not_false, Bool.true_and, Option.any_some, commit,
                          Except.mapError, Except.ok_bind, Bool.false_eq_true, ↓reduceIte]
                        by_cases isFile : winner.kind.isFile = true
                        · simp only [isFile, ↓reduceIte]
                          apply Lands.step rfl
                          simp only [advanceScan]
                          cases merged.markRepairRequiredAndLog ⟨run.name, path⟩ run.observedNs
                            (.repairRequired run.name path) daemon.scanner.maxLogs <;>
                            exact .refl _
                        · simp only [isFile]
                          exact .refl _

theorem scanDeletion_lands (daemon : Daemon) (run : ScanRun) (state : StateStore × ScanSummary)
    (winner : PathRecordState) (rest : List PathRecordState) :
    Lands daemon (state.1, .deleting run (winner :: rest))
      (landing Prod.fst (.deleting run rest)
        (scanDeletion daemon.scanner run.name daemon.session.localEndpoint run.observedNs
          run.context state winner)) := by
  obtain ⟨store, summary⟩ := state
  apply Lands.step rfl
  simp only [advanceScan, scanDeletion]
  split
  · exact .refl _
  · cases built : deletionRecord run.name daemon.session.localEndpoint run.observedNs
        winner.record with
    | error reason => exact .refl _
    | ok tombstone =>
        simp only [Except.mapError, Except.ok_bind]
        cases merged : store.mergeRecord tombstone run.observedNs none daemon.scanner.maxLogs with
        | error source => exact .refl _
        | ok result =>
            obtain ⟨after, accepted⟩ := result
            cases accepted <;> exact .refl _

/-- A scan that no other thread interrupts leaves the store of `scan_collection`. -/
theorem scan_alone (daemon : Daemon) (run : ScanRun) (store : StateStore) :
    Lands daemon (store, .walked run)
      (leftStore (scanListing daemon.scanner store run.name run.localPath
        daemon.session.localEndpoint run.observedNs run.root run.context), .idle) := by
  unfold scanListing
  apply Lands.step rfl
  simp only [advanceScan]
  cases outcome : store.completeCollectionScan run.name run.localPath run.root with
  | error source => exact .refl _
  | ok completed =>
      simp only [commit, Except.mapError, Except.ok_bind]
      apply loop_lands id (fun rest => ScanPhase.warning run rest)
      · intro current warning rest
        apply Lands.step rfl
        simp only [advanceScan, id]
        cases current.appendLog run.observedNs warning daemon.scanner.maxLogs <;> exact .refl _
      · intro warned
        apply Lands.step rfl
        simp only [advanceScan, id]
        refine loop_lands Prod.fst (fun rest => ScanPhase.filing run _ rest .choose) ?_ ?_
          run.context.files.toList (warned, _)
        · exact scanFile_lands daemon run _
        · intro filed
          apply Lands.step rfl
          simp only [advanceScan]
          refine loop_lands Prod.fst (fun rest => ScanPhase.deleting run rest) ?_ ?_
            (warned.recordStates run.name) filed
          · exact scanDeletion_lands daemon run
          · intro deleted
            apply Lands.step rfl
            simp only [advanceScan]
            cases deleted.1.appendLog run.observedNs (.collectionScanned run.name)
              daemon.scanner.maxLogs <;> exact .refl _

end

end Skillsync
