import Skillsync.Health
import Skillsync.InterleavingSpec
import Skillsync.Runs

set_option autoImplicit false

namespace Skillsync

open Fallible StateStore Runs

/-- The record of a key still has the content of the record that was read before. -/
def StateStore.StillHolds (store : StateStore) (key : RecordKey) (record : Record) : Prop :=
  ∀ winner ∈ store.record key, winner.kind.isFile = true → winner.kind = record.kind

instance (store : StateStore) (key : RecordKey) (record : Record) :
    Decidable (store.StillHolds key record) :=
  inferInstanceAs (Decidable (∀ winner ∈ store.record key,
    winner.kind.isFile = true → winner.kind = record.kind))

/-- The row that the scan is about to mark, with the record the decision was made from. -/
def ScanPhase.pendingMark : ScanPhase → Option (RecordKey × Record)
  | .filing run _ ((path, _) :: _) (.settle basis) => some (⟨run.name, path⟩, basis)
  | _ => none

/-- The row that a session is about to mark, with the record it has installed. -/
def SessionPhase.pendingMark : SessionPhase → Option (RecordKey × Record)
  | .installed record _ _ => some (record.key, record)
  | _ => none

/-- The row whose fingerprint a step writes. -/
def Node.pendingMark (node : Node) : Label → Option (RecordKey × Record)
  | .advance => node.scan.pendingMark
  | .session i (.markInstalled _) => (node.sessions i).pendingMark
  | _ => none

/-- A step that writes a fingerprint finds the content it was decided for. -/
def Node.Current (node : Node) (label : Label) : Prop :=
  ∀ mark ∈ node.pendingMark label, node.store.StillHolds mark.1 mark.2

instance (node : Node) (label : Label) : Decidable (node.Current label) :=
  inferInstanceAs (Decidable (∀ mark ∈ node.pendingMark label,
    node.store.StillHolds mark.1 mark.2))

theorem Node.current_of_none {node : Node} {label : Label}
    (none : node.pendingMark label = none) : node.Current label := by
  intro mark member
  rw [none] at member
  cases member

/-- A decision was made for the content of the first file. -/
def FileTask.Sound (rest : List (ProtocolPath × DiskFile)) : FileTask → Prop
  | .settle basis => ∀ entry ∈ rest.head?, basis.kind = .file entry.2.size entry.2.hash
  | .merge candidate _ => ∀ entry ∈ rest.head?, candidate.kind = .file entry.2.size entry.2.hash
  | _ => True

/-- The rows that a scan has read carry their fingerprints. -/
def ScanPhase.Sound : ScanPhase → Prop
  | .filing _ current rest task => (∀ row ∈ current, row.Fingerprinted) ∧ task.Sound rest
  | _ => True

/-- An installed file has the content of its record. -/
def SessionPhase.Sound : SessionPhase → Prop
  | .installed record file _ =>
      record.kind = .file file.fingerprint.size file.fingerprint.hash
  | _ => True

structure Node.Fingerprinted (node : Node) : Prop where
  store : node.store.Fingerprinted
  scan : node.scan.Sound
  sessions : ∀ i, (node.sessions i).Sound

namespace StateStore

variable {store after : StateStore}

theorem Fingerprinted.unchanged (holds : store.Fingerprinted) (same : store.Unchanged after) :
    after.Fingerprinted := by
  intro key row present
  rw [same.rows] at present
  exact holds key row present

theorem Fingerprinted.rewritten (holds : store.Fingerprinted) {key : RecordKey}
    {row : PathRecordState} (written : store.Rewritten key row after)
    (new : row.Fingerprinted) : after.Fingerprinted := by
  intro other found present
  rw [written.rows] at present
  split at present
  · cases present
    exact new
  · exact holds other found present

theorem mergedRow_fingerprinted (record : Record) (sourcePeer : Option EndpointId) :
    (mergedRow record sourcePeer).Fingerprinted := by
  cases sourcePeer with
  | some peer =>
      intro impossible
      cases impossible
  | none =>
      cases kind : record.kind <;>
        simp [mergedRow, recordFingerprint, PathRecordState.Fingerprinted, kind]

theorem repaired_fingerprinted (record : Record) :
    (PathRecordState.mk record false none).Fingerprinted := by
  intro impossible
  cases impossible

/-- An update with a stale decision is what breaks the invariant. -/
theorem marked_fingerprinted {record basis : Record} {fingerprint : FileFingerprint}
    (decided : basis.kind = .file fingerprint.size fingerprint.hash) :
    (PathRecordState.mk record true (some fingerprint)).Fingerprinted ↔
      record.kind = basis.kind := by
  rw [decided]
  exact ⟨fun holds => holds.2, fun same => ⟨rfl, same⟩⟩

theorem Fingerprinted.reboundRow (holds : store.Fingerprinted) {key other : RecordKey}
    {root : RootPath} {row : PathRecordState}
    (present : store.reboundRow key root other = some row) : row.Fingerprinted := by
  unfold StateStore.reboundRow at present
  split at present
  · exact holds other row present
  · have ⟨old, stored, same⟩ := Option.map_eq_some_iff.mp present
    rw [← same]
    exact unmaterialized_fingerprinted (holds other old stored)

end StateStore

theorem settleBasis_kind {current : List PathRecordState} {path : ProtocolPath} {disk : DiskFile}
    {winner basis : Record} (holds : ∀ row ∈ current, row.Fingerprinted)
    (based : settleBasis current path disk winner = some basis) :
    basis.kind = .file disk.size disk.hash := by
  unfold settleBasis at based
  split at based
  · rename_i same
    cases based
    exact (diskMatchesRecord_iff.mp same).1
  · have ⟨row, found, same⟩ := Option.map_eq_some_iff.mp based
    have durable := List.find?_some found
    simp only [Bool.and_eq_true, decide_eq_true_eq] at durable
    have fingerprinted := holds row (List.mem_of_find?_eq_some found)
    rw [PathRecordState.Fingerprinted, durable.2] at fingerprinted
    rw [← same]
    exact fingerprinted.2

section
variable [Blake3] {daemon : Daemon}

/-- A step of the scan. -/
theorem Node.Fingerprinted.advanced {node : Node} (holds : node.Fingerprinted)
    {store : StateStore} {scan : ScanPhase}
    (current : node.Current .advance)
    (step : Advanced daemon node.store node.scan store scan) :
    store.Fingerprinted ∧ scan.Sound := by
  have stored := holds.store
  have sound := holds.scan
  simp only [Node.Current, Node.pendingMark] at current
  generalize node.scan = phase at step sound current
  cases step with
  | stopped => exact ⟨stored, trivial⟩
  | completed run after rows _ =>
      refine ⟨fun key row present => ?_, trivial⟩
      rw [rows] at present
      exact stored.completedRow present
  | warned run event rest after same => exact ⟨stored.unchanged same, trivial⟩
  | read run =>
      refine ⟨stored, fun row member => ?_, trivial⟩
      have ⟨path, present⟩ := mem_recordStates.mp member
      exact stored _ row present
  | filed => exact ⟨stored, trivial⟩
  | diverged run read path disk rest row after _ _ _ written =>
      exact ⟨stored.rewritten written (repaired_fingerprinted _), sound.1, trivial⟩
  | passed run read path disk rest task after _ same =>
    exact ⟨stored.unchanged same, sound.1, trivial⟩
  | chose run read path disk rest winner basis _ based =>
      refine ⟨stored, sound.1, fun entry first => ?_⟩
      cases first
      exact settleBasis_kind sound.1 based
  | differed run read path disk rest candidate built =>
      refine ⟨stored, sound.1, fun entry first => ?_⟩
      cases first
      exact (Record.new_ok built).2.2.2.2
  | settled run read path disk rest basis row after present isFile written =>
      refine ⟨stored.rewritten written ?_, sound.1, trivial⟩
      have decided : basis.kind = .file disk.size disk.hash := sound.2 (path, disk) rfl
      apply (marked_fingerprinted decided).mpr
      exact current (⟨run.name, path⟩, basis) rfl row.record
        (record_eq_some.mpr ⟨row, present, rfl⟩) isFile
  | accepted run read path disk rest candidate winner after _ written =>
      exact ⟨stored.rewritten written (mergedRow_fingerprinted _ _), sound.1, trivial⟩
  | rejected run read path disk rest candidate winner after _ same =>
      exact ⟨stored.unchanged same, sound.1, trivial⟩
  | repaired run read path disk rest row after _ _ written =>
      exact ⟨stored.rewritten written (repaired_fingerprinted _), sound.1, trivial⟩
  | kept => exact ⟨stored, trivial⟩
  | deleted run winner rest tombstone after _ _ _ written =>
      exact ⟨stored.rewritten written (mergedRow_fingerprinted _ _), trivial⟩
  | outranked run winner rest tombstone after _ _ _ same =>
      exact ⟨stored.unchanged same, trivial⟩
  | finished run after same => exact ⟨stored.unchanged same, trivial⟩

/-- A step of a session. -/
theorem Node.Fingerprinted.acted {node : Node} (holds : node.Fingerprinted) {i : Nat}
    {action : SessionAction} {store : StateStore} {disk : Disk} {phase : SessionPhase}
    (current : node.Current (.session i action))
    (step : Acted daemon i node.store node.disk (node.sessions i) action store disk phase) :
    store.Fingerprinted ∧ phase.Sound := by
  have stored := holds.store
  have sound := holds.sessions i
  generalize same : node.sessions i = before at step sound
  cases step with
  | ended _ _ _ quiet => exact ⟨stored.unchanged quiet, trivial⟩
  | accepted candidate now after _ written =>
      exact ⟨stored.rewritten written (mergedRow_fingerprinted _ _), trivial⟩
  | rejected candidate now after _ quiet => exact ⟨stored.unchanged quiet, trivial⟩
  | tombstoned candidate now row after present removed written =>
      refine ⟨stored.rewritten written ?_, trivial⟩
      have old := stored _ row present
      unfold PathRecordState.Fingerprinted at old ⊢
      cases fingerprint : row.materializedFingerprint with
      | none => exact fun _ => removed
      | some found =>
          rw [fingerprint] at old
          exact ⟨rfl, old.2⟩
  | installed record stream environment file event prepared =>
      exact ⟨stored, (prepareInstall_ok prepared).2.2.1⟩
  | notInstalled record stream environment phase idle =>
      refine ⟨stored, ?_⟩
      rcases idle with rfl | rfl <;> trivial
  | marked record file event now row after present isFile _ rows =>
      refine ⟨fun key found listed => ?_, trivial⟩
      rw [rows] at listed
      split at listed
      · cases listed
        have pending : node.pendingMark (.session i (.markInstalled now)) =
            some (record.key, record) := congrArg SessionPhase.pendingMark same
        apply (marked_fingerprinted sound).mpr
        exact current _ pending row.record (record_eq_some.mpr ⟨row, present, rfl⟩) isFile
      · exact stored.reboundRow listed
  | installFailed record now row after _ _ written =>
      exact ⟨stored.rewritten written (repaired_fingerprinted _), trivial⟩
  | unavailable key now row after _ _ written =>
      exact ⟨stored.rewritten written (repaired_fingerprinted _), trivial⟩
  | _ => exact ⟨stored, trivial⟩

/-- The step lemma. -/
theorem Node.Fingerprinted.step :
    Preserves (Node.step daemon) Node.Current Node.Fingerprinted := by
  intro node label next holds current taken
  cases Node.step_cases taken with
  | walked => exact ⟨holds.store, trivial, holds.sessions⟩
  | advanced store scan step =>
      have ⟨stored, sound⟩ := holds.advanced current step
      exact ⟨stored, sound, holds.sessions⟩
  | aborted => exact ⟨holds.store, trivial, holds.sessions⟩
  | acted i action store disk phase step =>
      have ⟨stored, sound⟩ := holds.acted current step
      exact ⟨stored, holds.scan, forall_update sound holds.sessions⟩
  | wrote => exact ⟨holds.store, holds.scan, holds.sessions⟩
  | removed => exact ⟨holds.store, holds.scan, holds.sessions⟩
  | attached name localPath root store rows _ =>
      refine ⟨fun key row present => ?_, holds.scan, holds.sessions⟩
      rw [rows] at present
      exact holds.store key row present

end

/-- A materialized file row carries the size and the hash of its own record. -/
def StateStore.CarriesOwn (store : StateStore) : Prop :=
  ∀ key row, store.recordState key = some row → row.record.kind.isFile = true →
    row.materialized = true → ∃ fingerprint, row.materializedFingerprint = some fingerprint ∧
      row.record.kind = .file fingerprint.size fingerprint.hash

theorem PathRecordState.Fingerprinted.own {row : PathRecordState} (holds : row.Fingerprinted)
    (isFile : row.record.kind.isFile = true) (materialized : row.materialized = true) :
    ∃ fingerprint, row.materializedFingerprint = some fingerprint ∧
      row.record.kind = .file fingerprint.size fingerprint.hash := by
  unfold PathRecordState.Fingerprinted at holds
  cases fingerprint : row.materializedFingerprint with
  | some found =>
      rw [fingerprint] at holds
      exact ⟨found, rfl, holds.2⟩
  | none =>
      rw [fingerprint] at holds
      rw [holds materialized] at isFile
      cases isFile

/-- A winner that is not materialized is requested from the peers that announce it. -/
theorem StateStore.requested_of_unmaterialized {store : StateStore} {key : RecordKey}
    {row : PathRecordState} {limit : I64} (present : store.recordState key = some row)
    (located : row.record.path = key.path) (isFile : row.record.kind.isFile = true)
    (within : row.record.modifiedNs ≤ limit) (cleared : row.materialized = false) :
    isRequested store limit key.collection row.record = true := by
  simp only [isRequested, within, decide_true, isFile, Bool.true_and, located, present,
    cleared, Bool.not_false]

theorem StateStore.not_carriesOwn {store : StateStore} {key : RecordKey} {record : Record}
    {fingerprint : FileFingerprint}
    (present : store.recordState key = some ⟨record, true, some fingerprint⟩)
    (isFile : record.kind.isFile = true)
    (differs : record.kind ≠ .file fingerprint.size fingerprint.hash) : ¬ store.CarriesOwn := by
  intro holds
  have ⟨found, same, own⟩ := holds key _ present isFile rfl
  cases same
  exact differs own

theorem StateStore.kind_ne_of_stale {store : StateStore} {key : RecordKey} {record : Record}
    (stale : ¬ store.StillHolds key record) {row : PathRecordState}
    (present : store.recordState key = some row) : row.record.kind ≠ record.kind := by
  intro same
  apply stale
  intro winner stored _
  have ⟨other, found, equal⟩ := record_eq_some.mp stored
  rw [present] at found
  cases found
  rw [← equal, same]

section
variable [Blake3] {daemon : Daemon}

/-- A step that writes a fingerprint over other content leaves a row with a foreign one,
unless its transaction fails. -/
theorem Node.Fingerprinted.stale {node next : Node} (holds : node.Fingerprinted) {label : Label}
    (stale : ¬ node.Current label) (taken : node.step daemon label = some next) :
    node.store.Unchanged next.store ∨ ¬ next.store.CarriesOwn := by
  cases Node.step_cases taken with
  | advanced store scan step =>
      have sound := holds.scan
      simp only [Node.Current, Node.pendingMark] at stale
      generalize node.scan = phase at step sound stale
      cases step with
      | stopped => exact Or.inl (.refl _)
      | passed run read path disk rest task after _ quiet => exact Or.inl quiet
      | settled run read path disk rest basis row after present isFile written =>
          have decided : basis.kind = .file disk.size disk.hash := sound.2 (path, disk) rfl
          have differs := kind_ne_of_stale (fun fresh => stale fun mark pending => by
            cases pending
            exact fresh) present
          rw [decided] at differs
          exact Or.inr (not_carriesOwn written.at isFile differs)
      | _ => exact absurd (fun _ none => by cases none) stale
  | acted i action store disk phase step =>
      have sound := holds.sessions i
      generalize same : node.sessions i = before at step sound
      cases step with
      | ended _ _ _ quiet => exact Or.inl quiet
      | marked record file event now row after present isFile _ rows =>
          have pending : node.pendingMark (.session i (.markInstalled now)) =
              some (record.key, record) := congrArg SessionPhase.pendingMark same
          have differs := kind_ne_of_stale (fun fresh => stale fun mark member => by
            rw [pending] at member
            cases member
            exact fresh) present
          rw [sound] at differs
          have written : store.recordState record.key =
              some ⟨row.record, true, some file.fingerprint⟩ := by
            rw [rows, if_pos rfl]
          exact Or.inr (not_carriesOwn written isFile differs)
      | _ => exact absurd (Node.current_of_none rfl) stale
  | _ => exact absurd (Node.current_of_none rfl) stale

end

end Skillsync
