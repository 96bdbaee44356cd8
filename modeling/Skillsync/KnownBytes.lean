import Skillsync.Fingerprints
import Skillsync.Places

set_option autoImplicit false

namespace Skillsync

open Fallible StateStore Runs

/-- The content of a file, as a record declares it. -/
def RegularFile.kind [Blake3] (file : RegularFile) : RecordKind :=
  .file file.bytes.length (Blake3.hash file.bytes)

def FileFingerprint.kind (fingerprint : FileFingerprint) : RecordKind :=
  .file fingerprint.size fingerprint.hash

/-- The content that the tables take the file of a place to have. -/
def Place.carried (place : Place) (store : StateStore) : Option RecordKind :=
  if place.Held store then (store.record place.key).map Record.kind else none

/-- A scan walks the root of a place for its collection. -/
def ScanRun.At (run : ScanRun) (place : Place) : Prop :=
  run.name = place.collection ∧ run.root = place.root

instance (run : ScanRun) (place : Place) : Decidable (run.At place) :=
  inferInstanceAs (Decidable (run.name = place.collection ∧ run.root = place.root))

/-- What the loop over the files has still to come to at a place. -/
def ScanPhase.finds (place : Place) : ScanPhase → Option RecordKind
  | .filing run _ rest _ =>
      if run.At place then
        (rest.find? fun entry => decide (entry.1 = place.path)).map fun entry => entry.2.kind
      else none
  | _ => none

/-- The loop over the files goes on from the path of a place. -/
def ScanPhase.passes (place : Place) (before after : ScanPhase) : Bool :=
  match before, after with
  | .filing run _ ((path, _) :: rest) _, .filing _ _ left _ =>
      decide (run.At place ∧ path = place.path ∧ left.length = rest.length)
  | _, _ => false

/-- What the scan is about to record as the content of a place. -/
def ScanPhase.records [Blake3] (place : Place) (store : StateStore) :
    ScanPhase → Option (ScanRun × FileFingerprint)
  | .filing run _ ((path, disk) :: _) (.settle _) =>
      if run.name = place.collection ∧ path = place.path then some (run, disk) else none
  | .filing run _ ((path, disk) :: _) (.merge candidate _) =>
      if run.name = place.collection ∧ path = place.path ∧
          accepts (store.record candidate.key) candidate = true then some (run, disk) else none
  | _ => none

/-- What a step of a session leaves at a place that it writes or removes. -/
def SessionPhase.leavesAt [Blake3] (place : Place) (disk : Disk) :
    SessionPhase → SessionAction → Option (Option RecordKind)
  | .receiving record stream, .install environment =>
      match prepareInstall record stream environment with
      | .error _ => none
      | .ok file =>
          if (⟨file.resolvedRoot, file.path⟩ : DiskKey) = place.diskKey then
            some (some (.file stream.length (Blake3.hash stream)))
          else none
  | .removing candidate, .removeFile environment =>
      if place.Present disk ∧ ¬ place.Present (removeForTombstone disk candidate environment).2 then
        some none
      else none
  | _, _ => none

/-- The record whose file a session has written at a place and is about to mark. -/
def SessionPhase.marksAt (place : Place) : SessionPhase → Option Record
  | .installed record file _ =>
      if record.key = place.key ∧ file.resolvedRoot = place.root then some record else none
  | _ => none

section
variable {place : Place} {store after : StateStore} {kind : RecordKind}

theorem Place.carried_eq_some : place.carried store = some kind ↔
    place.Held store ∧ ∃ record, store.record place.key = some record ∧ record.kind = kind := by
  unfold Place.carried
  split
  · rename_i held
    simp only [held, Option.map_eq_some_iff, true_and]
  · rename_i lost
    simp only [lost, reduceCtorEq, false_and]

theorem Place.carried_eq_none (lost : ¬ place.Held store) : place.carried store = none :=
  if_neg lost

/-- A mark that outlives a step that changes no record is of the same content. -/
theorem Place.carried_of_held (held : place.Held store)
    (same : after.record place.key = store.record place.key)
    (carries : place.carried after = some kind) : place.carried store = some kind := by
  have ⟨_, record, stored, named⟩ := carried_eq_some.mp carries
  exact carried_eq_some.mpr ⟨held, record, same ▸ stored, named⟩

theorem StateStore.Unchanged.bound (same : store.Unchanged after) (bound : place.Bound after) :
    place.Bound store := by
  unfold Place.Bound at bound ⊢
  rwa [same.roots] at bound

theorem StateStore.Unchanged.held (same : store.Unchanged after) (held : place.Held after) :
    place.Held store :=
  ⟨marked_congr (same.rows place.key) held.1, same.bound held.2⟩

theorem StateStore.Unchanged.carried (same : store.Unchanged after)
    (carries : place.carried after = some kind) : place.carried store = some kind :=
  Place.carried_of_held (same.held (Place.carried_eq_some.mp carries).1)
    (same.record place.key) carries

/-- The row that a transaction writes carries its own content, every other one what it did. -/
theorem StateStore.Rewritten.carried {key : RecordKey} {row : PathRecordState}
    (written : store.Rewritten key row after) (carries : place.carried after = some kind) :
    (key ≠ place.key ∧ place.carried store = some kind) ∨ key = place.key ∧
      row.materialized = true ∧ row.record.kind.isFile = true ∧ row.record.kind = kind ∧
      place.Bound store := by
  have ⟨⟨marked, bound⟩, record, stored, named⟩ := Place.carried_eq_some.mp carries
  have before : place.Bound store := by
    unfold Place.Bound at bound ⊢
    rwa [written.roots] at bound
  by_cases here : key = place.key
  · subst here
    have ⟨found, present, isFile, materialized⟩ := marked
    rw [written.at] at present
    cases present
    rw [record_eq_some.mpr ⟨row, written.at, rfl⟩] at stored
    cases stored
    exact Or.inr ⟨rfl, materialized, isFile, named, before⟩
  · have same := written.of_ne here
    exact Or.inl ⟨here, Place.carried_of_held ⟨marked_congr same marked, before⟩
      (record_congr same) carries⟩

end

section
variable [Blake3] {daemon : Daemon} {place : Place}

omit [Blake3] in
theorem ScanPhase.passes_iff {before after : ScanPhase} : before.passes place after = true ↔
    ∃ run current disk rest task other rows left next,
      before = .filing run current ((place.path, disk) :: rest) task ∧
        after = .filing other rows left next ∧ run.At place ∧ left.length = rest.length := by
  constructor
  · intro passes
    unfold ScanPhase.passes at passes
    split at passes
    · rename_i run current path disk rest task other rows left next
      obtain ⟨here, rfl, same⟩ := of_decide_eq_true passes
      exact ⟨run, current, disk, rest, task, other, rows, left, next, rfl, rfl, here, same⟩
    · cases passes
  · rintro ⟨run, current, disk, rest, task, other, rows, left, next, rfl, rfl, here, same⟩
    exact decide_eq_true ⟨here, rfl, same⟩

omit [Blake3] in
theorem ScanPhase.finds_head {run : ScanRun} (current : List PathRecordState) (disk : DiskFile)
    (rest : List (ProtocolPath × DiskFile)) (task : FileTask) (here : run.At place) :
    (ScanPhase.filing run current ((place.path, disk) :: rest) task).finds place =
      some disk.kind := by
  simp only [ScanPhase.finds, here, if_true, List.find?_cons, decide_true, Option.map_some]

omit [Blake3] in
/-- The listing has one file at a path. -/
theorem ScanPhase.finds_of_mem {run : ScanRun} {current : List PathRecordState} {disk : DiskFile}
    {rest : List (ProtocolPath × DiskFile)} {task : FileTask}
    (orderly : (ScanPhase.filing run current rest task).Orderly) (here : run.At place)
    (member : (place.path, disk) ∈ rest) :
    (ScanPhase.filing run current rest task).finds place = some disk.kind := by
  simp only [ScanPhase.finds, here, if_true, Option.map_eq_some_iff]
  have some_found : (rest.find? fun entry => decide (entry.1 = place.path)).isSome = true :=
    List.find?_isSome.mpr ⟨_, member, decide_eq_true rfl⟩
  have ⟨⟨path, found⟩, first⟩ := Option.isSome_iff_exists.mp some_found
  have located : path = place.path := by simpa using List.find?_some first
  have listed := orderly.1 _ (List.mem_of_find?_eq_some first)
  rw [located, orderly.1 _ member] at listed
  cases listed
  exact ⟨_, first, rfl⟩

/-- What the tables carry after a step of the scan they carried before, or the scan records it as
it goes on from the path. -/
theorem Node.Fingerprinted.carried_advanced {node : Node} (holds : node.Fingerprinted)
    (orderly : node.scan.Orderly) (current : node.Current .advance) {store : StateStore}
    {scan : ScanPhase} (step : Advanced daemon node.store node.scan store scan)
    {kind : RecordKind} (carries : place.carried store = some kind) :
    (place.carried node.store = some kind ∧ (node.scan.passes place scan = true →
      ∃ run rows disk rest task, node.scan = .filing run rows ((place.path, disk) :: rest) task ∧
        PassesOver node.store rows place.path disk task)) ∨
      ∃ run rows disk rest task, node.scan = .filing run rows ((place.path, disk) :: rest) task ∧
        scan = .filing run rows rest .choose ∧
        node.scan.records place node.store = some (run, disk) ∧ place.Bound node.store ∧
        run.name = place.collection ∧ kind = disk.kind := by
  have sound := holds.scan
  simp only [Node.Current, Node.pendingMark] at current
  generalize node.scan = phase at step sound current orderly
  have stays {run : ScanRun} {rows : List PathRecordState} {entry : ProtocolPath × DiskFile}
      {rest : List (ProtocolPath × DiskFile)} {task next : FileTask}
      (passes : (ScanPhase.filing run rows (entry :: rest) task).passes place
        (.filing run rows (entry :: rest) next) = true) : False := by
    obtain ⟨_, same⟩ := (of_decide_eq_true passes).2
    simp only [List.length_cons, Nat.add_eq_left, one_ne_zero] at same
  have elsewhere {run : ScanRun} {rows : List PathRecordState} {path : ProtocolPath}
      {disk : DiskFile} {rest : List (ProtocolPath × DiskFile)} {task : FileTask}
      (other : (⟨run.name, path⟩ : RecordKey) ≠ place.key)
      (passes : (ScanPhase.filing run rows ((path, disk) :: rest) task).passes place
        (.filing run rows rest .choose) = true) : False := by
    obtain ⟨here, located, _⟩ := of_decide_eq_true passes
    exact other (by rw [here.1, located]; rfl)
  cases step with
  | stopped => exact Or.inl ⟨carries, fun passes => by simp [ScanPhase.passes] at passes⟩
  | completed run after rows roots =>
      obtain ⟨⟨marked, bound⟩, _⟩ := Place.carried_eq_some.mp carries
      obtain ⟨before, kept⟩ := marked_of_completed (rows place.key) marked
      have bound : place.Bound node.store := by
        intro root member
        apply bound root
        rw [roots]
        split
        · rename_i named
          rwa [← kept named, ← named]
        · exact member
      refine Or.inl ⟨Place.carried_of_held ⟨before, bound⟩ ?_ carries, fun none => by cases none⟩
      rw [StateStore.record, rows place.key, completedRow_record]
  | warned run event rest after same =>
      exact Or.inl ⟨same.carried carries, fun none => by cases none⟩
  | read run => exact Or.inl ⟨carries, fun none => by cases none⟩
  | filed => exact Or.inl ⟨carries, fun none => by cases none⟩
  | diverged run rows path disk rest row after _ _ _ written =>
      rcases written.carried carries with ⟨other, before⟩ | ⟨_, marked, _⟩
      · exact Or.inl ⟨before, fun passes => absurd passes (elsewhere other)⟩
      · cases marked
  | passed run rows path disk rest task after beyond same =>
      refine Or.inl ⟨same.carried carries, fun passes => ?_⟩
      obtain ⟨_, rfl, _⟩ := of_decide_eq_true passes
      exact ⟨run, rows, disk, rest, task, rfl, beyond⟩
  | chose => exact Or.inl ⟨carries, fun passes => (stays passes).elim⟩
  | differed => exact Or.inl ⟨carries, fun passes => (stays passes).elim⟩
  | settled run rows path disk rest basis row after present isFile written =>
      rcases written.carried carries with ⟨other, before⟩ | ⟨here, _, _, named, bound⟩
      · exact Or.inl ⟨before, fun passes => (elsewhere other passes).elim⟩
      · obtain ⟨collected, located⟩ := RecordKey.mk.inj here
        have decided : basis.kind = .file disk.size disk.hash := sound.2 (path, disk) rfl
        have same := current (⟨run.name, path⟩, basis) rfl row.record
          (record_eq_some.mpr ⟨row, present, rfl⟩) isFile
        subst located
        refine Or.inr ⟨run, rows, disk, rest, _, rfl, rfl, ?_, bound, collected, ?_⟩
        · exact if_pos ⟨collected, rfl⟩
        · rw [← named, same, decided]
          rfl
  | accepted run rows path disk rest candidate winner after beats written =>
      rcases written.carried carries with ⟨other, before⟩ | ⟨here, _, _, named, bound⟩
      · have keyed : candidate.key = ⟨run.name, path⟩ := orderly.2.2 (path, disk) rfl
        rw [keyed] at other
        exact Or.inl ⟨before, fun passes => (elsewhere other passes).elim⟩
      · have keyed : candidate.key = ⟨run.name, path⟩ := orderly.2.2 (path, disk) rfl
        obtain ⟨collected, located⟩ := RecordKey.mk.inj (keyed.symm.trans here)
        have decided : candidate.kind = .file disk.size disk.hash := sound.2 (path, disk) rfl
        subst located
        refine Or.inr ⟨run, rows, disk, rest, _, rfl, rfl, ?_, bound, collected, ?_⟩
        · exact if_pos ⟨collected, rfl, beats⟩
        · rw [← named]
          exact decided
  | rejected run rows path disk rest candidate winner after _ same =>
      exact Or.inl ⟨same.carried carries, fun passes => (stays passes).elim⟩
  | repaired run rows path disk rest row after _ _ written =>
      rcases written.carried carries with ⟨other, before⟩ | ⟨_, marked, _⟩
      · exact Or.inl ⟨before, fun passes => (elsewhere other passes).elim⟩
      · cases marked
  | kept => exact Or.inl ⟨carries, fun none => by cases none⟩
  | deleted run winner rest tombstone after _ built _ written =>
      rcases written.carried carries with ⟨_, before⟩ | ⟨_, _, isFile, _⟩
      · exact Or.inl ⟨before, fun none => by cases none⟩
      · rw [mergedRow, (deletionRecord_ok built).2.1] at isFile
        cases isFile
  | outranked run winner rest tombstone after _ _ _ same =>
      exact Or.inl ⟨same.carried carries, fun none => by cases none⟩
  | finished run after same => exact Or.inl ⟨same.carried carries, fun none => by cases none⟩

end

section
variable [Blake3] {daemon : Daemon} {place : Place}

/-- What the tables carry after a step of a session they carried before, or the session marks what
it has installed. -/
theorem Node.Fingerprinted.carried_acted {node : Node} {i : Nat} {action : SessionAction}
    (current : node.Current (.session i action)) {store : StateStore} {disk : Disk}
    {phase : SessionPhase}
    (step : Acted daemon i node.store node.disk (node.sessions i) action store disk phase)
    {kind : RecordKind} (carries : place.carried store = some kind) :
    place.carried node.store = some kind ∨ ∃ now record, action = .markInstalled now ∧
      (node.sessions i).marksAt place = some record ∧ kind = record.kind := by
  obtain ⟨held, winner, stored, named⟩ := Place.carried_eq_some.mp carries
  by_cases marks : ∃ now, action = .markInstalled now ∧
      (node.sessions i).marksNext = some place.key
  · obtain ⟨now, rfl, next⟩ := marks
    simp only [Node.Current, Node.pendingMark] at current
    generalize node.sessions i = before at step current next
    cases step with
    | ended _ _ _ same => exact Or.inl (same.carried carries)
    | marked record file event _ row _ present isFile roots rows =>
        have here : record.key = place.key := Option.some.inj next
        have collected : record.collection = place.collection :=
          congrArg RecordKey.collection here
        have rooted : file.resolvedRoot = place.root :=
          held.2 _ (by rw [roots, if_pos (show place.collection = record.key.collection
            from collected.symm), Option.mem_def])
        refine Or.inr ⟨now, record, rfl, if_pos ⟨here, rooted⟩, ?_⟩
        have own := rows place.key
        rw [if_pos here] at own
        rw [record_eq_some.mpr ⟨_, own, rfl⟩] at stored
        cases stored
        rw [← named]
        exact current (record.key, record) rfl row.record
          (record_eq_some.mpr ⟨row, present, rfl⟩) isFile
  · rcases step.held_cases held with before | mark
    · refine Or.inl (Place.carried_of_held before ?_ carries)
      obtain ⟨row, present, isFile, materialized⟩ := held.1
      have effect := step.effect place.key
      generalize changed : store.recordState place.key = written at effect
      cases effect with
      | same => exact record_congr changed
      | marked record file event now old standing acts keyed _ _ =>
          exact absurd ⟨now, acts, by rw [standing, ← keyed]; rfl⟩ marks
      | accepted =>
          rw [changed] at present
          cases present
          cases materialized
      | tombstoned candidate old _ _ _ removed =>
          rw [changed] at present
          cases present
          rw [removed] at isFile
          cases isFile
      | cleared =>
          rw [changed] at present
          cases present
          cases materialized
    · exact absurd mark marks

/-- The loop over the files only drops what it has gone through, and reads the rows once. -/
theorem Advanced.filing {store after : StateStore} {phase : ScanPhase} {run : ScanRun}
    {rows : List PathRecordState} {rest : List (ProtocolPath × DiskFile)} {task : FileTask}
    (step : Advanced daemon store phase after (.filing run rows rest task)) :
    (after = store ∧ rows = store.recordStates run.name) ∨
      ∃ before last, phase = .filing run rows before last ∧ rest ⊆ before := by
  cases step with
  | read => exact Or.inl ⟨rfl, rfl⟩
  | diverged => exact Or.inr ⟨_, _, rfl, List.subset_cons_self _ _⟩
  | passed => exact Or.inr ⟨_, _, rfl, List.subset_cons_self _ _⟩
  | chose => exact Or.inr ⟨_, _, rfl, List.Subset.refl _⟩
  | differed => exact Or.inr ⟨_, _, rfl, List.Subset.refl _⟩
  | settled => exact Or.inr ⟨_, _, rfl, List.subset_cons_self _ _⟩
  | accepted => exact Or.inr ⟨_, _, rfl, List.subset_cons_self _ _⟩
  | rejected => exact Or.inr ⟨_, _, rfl, List.Subset.refl _⟩
  | repaired => exact Or.inr ⟨_, _, rfl, List.subset_cons_self _ _⟩

/-- The winner is read in the transaction that decides to merge. -/
theorem Advanced.merges {store after : StateStore} {phase : ScanPhase} {run : ScanRun}
    {rows : List PathRecordState} {path : ProtocolPath} {disk : DiskFile}
    {rest left : List (ProtocolPath × DiskFile)} {candidate : Record} {winner : Option Record}
    (step : Advanced daemon store phase after (.filing run rows left (.merge candidate winner)))
    (first : left = (path, disk) :: rest) :
    after = store ∧ winner = store.record ⟨run.name, path⟩ := by
  cases step with
  | differed =>
      cases first
      exact ⟨rfl, rfl⟩

omit [Blake3] in
/-- The rows that the scan reads tell what the tables carry. -/
theorem Place.carried_read {store : StateStore} (keyed : store.Keyed) {kind : RecordKind}
    (carries : place.carried store = some kind) (disk : DiskFile) :
    kind = disk.kind ∨
      divergedMaterializedWinner (store.recordStates place.collection) place.path disk = true := by
  have ⟨⟨⟨row, present, isFile, materialized⟩, _⟩, record, stored, named⟩ :=
    Place.carried_eq_some.mp carries
  rw [record_eq_some.mpr ⟨row, present, rfl⟩] at stored
  cases stored
  by_cases same : diskBytesMatchRecord disk row.record = true
  · exact Or.inl (named ▸ diskBytesMatchRecord_iff.mp same)
  · refine Or.inr (List.any_eq_true.mpr ⟨row, mem_recordStates.mpr ⟨place.path, present⟩, ?_⟩)
    have located : row.record.path = place.path := congrArg RecordKey.path (keyed.row present)
    simp only [located, decide_true, materialized, Bool.eq_false_of_not_eq_true same,
      Bool.not_false, Bool.and_self]

omit [Blake3] in
theorem removeForTombstone_stays {disk after : Disk} {record : Record}
    {environment : RemovalEnvironment} {result : Except InstallError Unit}
    (done : removeForTombstone disk record environment = (result, after))
    (stays : place.Present disk → place.Present after) :
    after[place.diskKey]? = disk[place.diskKey]? := by
  rcases removeForTombstone_disk done place.diskKey with same | ⟨gone, _⟩
  · exact same
  · cases found : disk[place.diskKey]? with
    | none => exact gone
    | some file =>
        have present := stays (by rw [Place.Present, found]; rfl)
        rw [Place.Present, gone] at present
        cases present

/-- A session changes the file of a place only as it is said to, and then no row. -/
theorem sessionStep_leavesAt (place : Place) {i : Nat} {store after : StateStore}
    {disk diskAfter : Disk}
    {phase next : SessionPhase} {action : SessionAction}
    (done : sessionStep daemon i store disk phase action = some (after, diskAfter, next)) :
    match phase.leavesAt place disk action with
    | some content => after = store ∧ (diskAfter[place.diskKey]?).map RegularFile.kind = content
    | none => diskAfter[place.diskKey]? = disk[place.diskKey]? := by
  have step := sessionStep_acted done
  generalize described : phase.leavesAt place disk action = left
  unfold SessionPhase.leavesAt at described
  split at described <;> subst described
  · rename_i record stream environment
    simp only [sessionStep] at done
    generalize outcome : installFile disk record stream environment = result at done
    obtain ⟨result, installedDisk⟩ := result
    rcases installFile_cases outcome with ⟨file, prepared, rfl, ok⟩ | ⟨reason, failed, kept, _⟩
    · have same : after = store ∧ diskAfter = renamed disk file stream := by
        rcases ok with rfl | rfl <;> cases done <;> exact ⟨rfl, rfl⟩
      rw [prepared, same.1, same.2, renamed, OrderedMap.getElem?_insert]
      by_cases here : (⟨file.resolvedRoot, file.path⟩ : DiskKey) = place.diskKey
      · simp only [here, if_true, true_and]
        rfl
      · simp only [here, if_false]
    · rw [failed]
      have same : diskAfter = installedDisk := by
        split at done <;> cases done <;> rename_i pair <;> exact (Prod.mk.inj pair).2.symm
      rw [same, kept]
  · rename_i candidate environment
    simp only [sessionStep] at done
    generalize outcome : removeForTombstone disk candidate environment = result at done
    obtain ⟨result, left⟩ := result
    have same : after = store ∧ diskAfter = left := by
      split at done <;> (rename_i pair; cases pair; cases done; exact ⟨rfl, rfl⟩)
    rw [same.1, same.2]
    by_cases gone : place.Present disk ∧ ¬ place.Present left
    · rw [if_pos gone]
      have absent := gone.2
      rw [Place.Present, Option.not_isSome_iff_eq_none] at absent
      exact ⟨rfl, by rw [absent]; rfl⟩
    · rw [if_neg gone]
      exact removeForTombstone_stays outcome fun present => by_contra fun absent =>
        gone ⟨present, absent⟩
  · rename_i installs removes
    cases step with
    | installed record stream environment =>
        exact absurd rfl (installs record stream environment rfl)
    | removed candidate environment => exact absurd rfl (removes candidate environment rfl)
    | notRemoved candidate environment => exact absurd rfl (removes candidate environment rfl)
    | _ => rfl

end

/-- A user changes the file of a place. -/
def Label.edits (place : Place) : Label → Bool
  | .write key _ | .remove key => decide (key = place.diskKey)
  | _ => false

/-- A walk sees the disk as it is, and no user changes the file of a place. -/
def Node.Unedited [Blake3] (place : Place) (node : Node) (label : Label) : Prop :=
  node.Sees label ∧ label.edits place = false

/-- A node, with what is known of the file of a place. -/
structure Watched where
  node : Node
  /-- The content that was last written, or found by a scan that has come to the path. -/
  known : Option RecordKind
  /-- No session has written or removed the file since the last walk. -/
  fresh : Bool

namespace Watched

section
variable [Blake3]

/-- A node whose file was found as it is. -/
def start (place : Place) (store : StateStore) (disk : Disk) : Watched :=
  ⟨.start store disk, (disk[place.diskKey]?).map RegularFile.kind, false⟩

def note (place : Place) (watched : Watched) (next : Node) : Label → Watched
  | .walk _ _ _ _ _ => ⟨next, watched.known, true⟩
  | .advance =>
      let passes := watched.fresh && watched.node.scan.passes place next.scan
      ⟨next, if passes then watched.node.scan.finds place else watched.known, watched.fresh⟩
  | .session i action =>
      let left := (watched.node.sessions i).leavesAt place watched.node.disk action
      ⟨next, left.getD watched.known, watched.fresh && left.isNone⟩
  | _ => ⟨next, watched.known, watched.fresh⟩

def step (daemon : Daemon) (place : Place) (watched : Watched) (label : Label) : Option Watched :=
  (watched.node.step daemon label).map fun next => watched.note place next label

/-- No step runs over what another thread has done to the file: the scan records what it has found
only if no session has written there and the root is still the collection's; a session writes or
removes the file only where no row claims other content for it, and marks what it has written only
if nobody has written or found anything else since. -/
def Undisturbed (place : Place) (watched : Watched) : Label → Prop
  | .advance =>
      ∀ found ∈ watched.node.scan.records place watched.node.store,
        place.Bound watched.node.store →
        (found.1.root = place.root ∧ watched.fresh = true) ∨ watched.known = some found.2.kind
  | .session i action =>
      (∀ left ∈ (watched.node.sessions i).leavesAt place watched.node.disk action,
        ∀ kind ∈ place.carried watched.node.store, left = some kind) ∧
      match action with
      | .markInstalled _ =>
          ∀ record ∈ (watched.node.sessions i).marksAt place, watched.known = some record.kind ∧
            (watched.fresh = true → ∀ kind ∈ watched.node.scan.finds place, kind = record.kind)
      | _ => True
  | _ => True

instance (place : Place) (watched : Watched) (label : Label) :
    Decidable (watched.Undisturbed place label) := by
  cases label with
  | advance => unfold Undisturbed; infer_instance
  | session i action => cases action <;> (unfold Undisturbed; infer_instance)
  | _ => exact .isTrue trivial

end

/-- What the tables carry is what is known, and so it is when the scan goes on from the path. -/
structure Sound (place : Place) (watched : Watched) : Prop where
  fingerprinted : watched.node.Fingerprinted
  wellFormed : watched.node.WellFormed
  known : ∀ kind ∈ place.carried watched.node.store, watched.known = some kind
  seen : watched.fresh = true → ∀ run rows rest task,
      watched.node.scan = .filing run rows rest task →
    run.At place → ∀ disk, (place.path, disk) ∈ rest →
      ∀ kind ∈ place.carried watched.node.store,
        kind = disk.kind ∨ divergedMaterializedWinner rows place.path disk = true
  chosen : watched.fresh = true → ∀ run rows disk rest candidate winner,
    watched.node.scan = .filing run rows ((place.path, disk) :: rest) (.merge candidate winner) →
      run.At place → (winner.any fun record => record.kind.isFile) = false →
        ∀ kind ∈ place.carried watched.node.store, kind = disk.kind

section
variable [Blake3] {daemon : Daemon} {place : Place} {watched : Watched}

/-- A file that the scan passes over is what the tables carry. -/
theorem Sound.passed (holds : watched.Sound place) (fresh : watched.fresh = true) {run : ScanRun}
    {rows : List PathRecordState} {disk : DiskFile} {rest : List (ProtocolPath × DiskFile)}
    {task : FileTask}
    (standing : watched.node.scan = .filing run rows ((place.path, disk) :: rest) task)
    (here : run.At place) (beyond : PassesOver watched.node.store rows place.path disk task)
    {kind : RecordKind} (carries : place.carried watched.node.store = some kind) :
    kind = disk.kind := by
  cases beyond with
  | future agrees =>
      rcases holds.seen fresh run rows _ _ standing here disk List.mem_cons_self kind carries with
        same | diverges
      · exact same
      · rw [agrees] at diverges
        cases diverges
  | beaten candidate winner _ noFile =>
      exact holds.chosen fresh run rows disk rest candidate winner standing here noFile kind carries

/-- After a step of the scan the tables carry what is known. -/
theorem Sound.advanced_known (holds : watched.Sound place)
    (current : watched.node.Current .advance) (allowed : watched.Undisturbed place .advance)
    {store : StateStore} {scan : ScanPhase}
    (step : Advanced daemon watched.node.store watched.node.scan store scan) {kind : RecordKind}
    (carries : place.carried store = some kind) :
    (if watched.fresh && watched.node.scan.passes place scan then watched.node.scan.finds place
      else watched.known) = some kind := by
  rcases holds.fingerprinted.carried_advanced holds.wellFormed.orderly current step carries with
    ⟨before, beyond⟩ | ⟨run, rows, disk, rest, task, standing, goes, recorded, bound, named, rfl⟩
  · split
    · rename_i both
      rw [Bool.and_eq_true] at both
      have ⟨run, rows, disk, rest, task, standing, beyond⟩ := beyond both.2
      obtain ⟨_, _, _, _, _, _, _, _, _, same, _, here, _⟩ := ScanPhase.passes_iff.mp both.2
      rw [standing] at same
      cases same
      rw [standing, ScanPhase.finds_head rows disk rest task here,
        holds.passed both.1 standing here beyond before]
    · exact holds.known kind before
  · have passes : watched.node.scan.passes place scan = decide (run.At place) := by
      rw [standing, goes]
      simp only [ScanPhase.passes, and_true]
    rw [passes]
    by_cases found : watched.fresh = true ∧ run.At place
    · rw [found.1, decide_eq_true found.2, standing]
      exact ScanPhase.finds_head rows disk rest task found.2
    · rw [if_neg (by simpa only [Bool.and_eq_true, decide_eq_true_eq] using found)]
      rcases allowed (run, disk) recorded bound with ⟨rooted, fresh⟩ | known
      · exact absurd ⟨fresh, named, rooted⟩ found
      · exact known

end

section
variable [Blake3] {daemon : Daemon} {place : Place}

theorem Sound.advanced {watched : Watched} (holds : watched.Sound place)
    (current : watched.node.Current .advance) (allowed : watched.Undisturbed place .advance)
    {store : StateStore} {scan : ScanPhase}
    (step : Advanced daemon watched.node.store watched.node.scan store scan) :
    (watched.note place { watched.node with store := store, scan := scan } .advance).Sound
      place := by
  have stepped : Stepped daemon watched.node .advance { watched.node with
    store := store, scan := scan } := .advanced store scan step
  have ⟨fingerprinted, sound⟩ := holds.fingerprinted.advanced current step
  have orderly := holds.wellFormed.orderly
  refine ⟨⟨fingerprinted, sound, holds.fingerprinted.sessions⟩, holds.wellFormed.stepped stepped,
    fun kind carries => holds.advanced_known current allowed step carries, ?_, ?_⟩
  · intro fresh run rows rest task standing here disk member kind carries
    have standing : scan = .filing run rows rest task := standing
    subst standing
    rcases step.filing with ⟨same, read⟩ | ⟨before, last, standing, shorter⟩
    · rw [same] at carries
      rw [read, here.1]
      exact Place.carried_read holds.wellFormed.keyed carries disk
    · rcases holds.fingerprinted.carried_advanced orderly current step carries with
        ⟨carried, _⟩ | ⟨run', _, disk', _, _, standing', _, _, _, _, rfl⟩
      · exact holds.seen fresh run rows before last standing here disk (shorter member) kind carried
      · rw [standing] at standing' orderly
        cases standing'
        have first := orderly.1 _ List.mem_cons_self
        rw [orderly.1 _ (shorter member)] at first
        cases first
        exact Or.inl rfl
  · intro fresh run rows disk rest candidate winner standing here noFile kind carries
    have standing : scan = .filing run rows ((place.path, disk) :: rest)
        (.merge candidate winner) :=
      standing
    subst standing
    have ⟨same, read⟩ := step.merges rfl
    rw [same] at carries
    -- The winner is read in the same transaction, and the tables carry nothing else.
    have ⟨⟨⟨row, present, isFile, _⟩, _⟩, _⟩ := Place.carried_eq_some.mp carries
    have stored : watched.node.store.record ⟨run.name, place.path⟩ = some row.record := by
      rw [here.1]
      exact record_eq_some.mpr ⟨row, present, rfl⟩
    rw [read, stored, Option.any_some, isFile] at noFile
    cases noFile

theorem Sound.acted {watched : Watched} (holds : watched.Sound place) {i : Nat}
    {action : SessionAction} (current : watched.node.Current (.session i action))
    (allowed : watched.Undisturbed place (.session i action))
    {store : StateStore} {disk : Disk} {phase : SessionPhase}
    (done : sessionStep daemon i watched.node.store watched.node.disk (watched.node.sessions i)
      action = some (store, disk, phase)) :
    (watched.note place { watched.node with
      store := store, disk := disk,
      sessions := Function.update watched.node.sessions i phase } (.session i action)).Sound
      place := by
  have step := sessionStep_acted done
  have stepped : Stepped daemon watched.node (.session i action) _ :=
    .acted i action store disk phase step
  have ⟨fingerprinted, sound⟩ := holds.fingerprinted.acted current step
  have leaves := sessionStep_leavesAt place done
  refine ⟨⟨fingerprinted, holds.fingerprinted.scan,
    forall_update sound holds.fingerprinted.sessions⟩, holds.wellFormed.stepped stepped, ?_, ?_, ?_⟩
  · intro kind carries
    show ((watched.node.sessions i).leavesAt place watched.node.disk action).getD watched.known =
      some kind
    cases left : (watched.node.sessions i).leavesAt place watched.node.disk action with
    | some content =>
        rw [left] at leaves
        have carries : place.carried store = some kind := carries
        rw [leaves.1] at carries
        exact allowed.1 content left kind carries
    | none =>
        rcases Node.Fingerprinted.carried_acted current step carries with
          before | ⟨now, record, rfl, marks, rfl⟩
        · exact holds.known kind before
        · exact (allowed.2 record marks).1
  · intro fresh run rows rest task standing here found member kind carries
    have still : watched.fresh = true := (Bool.and_eq_true_iff.mp fresh).1
    rcases Node.Fingerprinted.carried_acted current step carries with
      before | ⟨now, record, rfl, marks, rfl⟩
    · exact holds.seen still run rows rest task standing here found member kind before
    · have orderly := holds.wellFormed.orderly
      have standing : watched.node.scan = .filing run rows rest task := standing
      rw [standing] at orderly
      have finds := ScanPhase.finds_of_mem orderly here member
      rw [← standing] at finds
      exact Or.inl ((allowed.2 record marks).2 still _ finds).symm
  · intro fresh run rows found rest candidate winner standing here noFile kind carries
    have still : watched.fresh = true := (Bool.and_eq_true_iff.mp fresh).1
    rcases Node.Fingerprinted.carried_acted current step carries with
      before | ⟨now, record, rfl, marks, rfl⟩
    · exact holds.chosen still run rows found rest candidate winner standing here noFile kind before
    · have standing : watched.node.scan =
        .filing run rows ((place.path, found) :: rest) (.merge candidate winner) := standing
      have finds := ScanPhase.finds_head rows found rest (.merge candidate winner) here
      rw [← standing] at finds
      exact ((allowed.2 record marks).2 still _ finds).symm

end

section
variable [Blake3] {daemon : Daemon} {place : Place}

theorem step_project (daemon : Daemon) (place : Place) (watched : Watched) (label : Label) :
    (watched.step daemon place label).map node = watched.node.step daemon label := by
  unfold step
  rw [Option.map_map]
  have same : node ∘ (fun next => watched.note place next label) = id := by
    funext next
    cases label <;> rfl
  rw [same, Option.map_id, id]

/-- The step lemma. -/
theorem Sound.step : Preserves (step daemon place)
    (fun watched label => watched.node.Current label ∧ watched.Undisturbed place label)
    (Sound place) := by
  intro watched label next holds allowed moved
  have ⟨current, undisturbed⟩ := allowed
  obtain ⟨node, taken, rfl⟩ := Option.map_eq_some_iff.mp moved
  have stepped := Node.step_cases taken
  have wellFormed := holds.wellFormed.stepped stepped
  have fingerprinted := Node.Fingerprinted.step _ _ _ holds.fingerprinted current taken
  cases stepped with
  | walked =>
      exact ⟨fingerprinted, wellFormed, holds.known, fun _ _ _ _ _ none => (by cases none),
        fun _ _ _ _ _ _ _ none => (by cases none)⟩
  | advanced store scan step => exact holds.advanced current undisturbed step
  | aborted =>
      exact ⟨fingerprinted, wellFormed, holds.known, fun _ _ _ _ _ none => (by cases none),
        fun _ _ _ _ _ _ _ none => (by cases none)⟩
  | acted i action store disk phase _ =>
      have ⟨⟨store, disk, phase⟩, done, same⟩ := Option.map_eq_some_iff.mp taken
      rw [← same]
      exact holds.acted current undisturbed done
  | wrote => exact ⟨fingerprinted, wellFormed, holds.known, holds.seen, holds.chosen⟩
  | removed => exact ⟨fingerprinted, wellFormed, holds.known, holds.seen, holds.chosen⟩
  | attached name localPath root store rows roots =>
      have carried {kind : RecordKind} (carries : place.carried store = some kind) :
          place.carried watched.node.store = some kind := by
        have ⟨⟨marked, bound⟩, _⟩ := Place.carried_eq_some.mp carries
        have before : place.Bound watched.node.store := fun other member => bound other (by
          rw [roots place.collection (by rw [member]; exact Option.some_ne_none _)]
          exact member)
        exact Place.carried_of_held ⟨marked_congr (rows place.key) marked, before⟩
          (record_congr (rows place.key)) carries
      exact ⟨fingerprinted, wellFormed, fun kind carries => holds.known kind (carried carries),
        fun fresh run rows rest task standing here disk member kind carries =>
          holds.seen fresh run rows rest task standing here disk member kind (carried carries),
        fun fresh run rows disk rest candidate winner standing here noFile kind carries =>
          holds.chosen fresh run rows disk rest candidate winner standing here noFile kind
            (carried carries)⟩

/-- What is known is what the disk holds, and so it is for what the scan has yet to record. -/
structure Faithful (place : Place) (watched : Watched) : Prop where
  wellFormed : watched.node.WellFormed
  known : watched.known = (watched.node.disk[place.diskKey]?).map RegularFile.kind
  found : watched.fresh = true → ∀ run, watched.node.scan.run? = some run → run.At place →
    ∀ disk, run.context.files[place.path]? = some disk →
      (watched.node.disk[place.diskKey]?).map RegularFile.kind = some disk.kind

theorem Faithful.step : Preserves (step daemon place)
    (fun watched label => watched.node.Unedited place label) (Faithful place) := by
  intro watched label next holds allowed moved
  have ⟨sees, unedited⟩ := allowed
  obtain ⟨node, taken, rfl⟩ := Option.map_eq_some_iff.mp moved
  have stepped := Node.step_cases taken
  have wellFormed := holds.wellFormed.stepped stepped
  cases stepped with
  | walked name localPath root observedNs fileSystem context idle walked =>
      refine ⟨wellFormed, holds.known, fun _ run running here disk listed => ?_⟩
      cases running
      have shows : Node.Shows watched.node.disk root fileSystem := sees
      have ⟨file, reached, same⟩ := (walk_sound walked).listed place.path disk listed
      have stored := shows.stable place.path file (fileAt_of_fate reached)
      rw [show root = place.root from here.2] at stored
      show Option.map RegularFile.kind watched.node.disk[DiskKey.mk place.root place.path]? = _
      rw [stored, same]
      rfl
  | advanced store scan step =>
      refine ⟨wellFormed, ?_, fun fresh run running => holds.found fresh run (step.run? running)⟩
      show (if watched.fresh && watched.node.scan.passes place scan then
        watched.node.scan.finds place else watched.known) = _
      split
      · rename_i both
        rw [Bool.and_eq_true] at both
        obtain ⟨run, rows, disk, rest, task, _, _, _, _, standing, _, here, _⟩ :=
          ScanPhase.passes_iff.mp both.2
        have orderly := holds.wellFormed.orderly
        have found := holds.found both.1 run (by rw [standing]; rfl) here disk
        rw [standing] at orderly
        rw [standing, ScanPhase.finds_head rows disk rest task here]
        exact (found (orderly.1 _ List.mem_cons_self)).symm
      · exact holds.known
  | aborted => exact ⟨wellFormed, holds.known, fun _ _ none => by cases none⟩
  | acted i action store disk phase _ =>
      have ⟨⟨store, disk, phase⟩, done, same⟩ := Option.map_eq_some_iff.mp taken
      rw [← same] at wellFormed ⊢
      have leaves := sessionStep_leavesAt place done
      have fresh : (watched.fresh && ((watched.node.sessions i).leavesAt place watched.node.disk
          action).isNone) = true → watched.fresh = true ∧
            disk[place.diskKey]? = watched.node.disk[place.diskKey]? := by
        intro both
        rw [Bool.and_eq_true, Option.isNone_iff_eq_none] at both
        rw [both.2] at leaves
        exact ⟨both.1, leaves⟩
      refine ⟨wellFormed, ?_, fun both run running here found listed => ?_⟩
      · show ((watched.node.sessions i).leavesAt place watched.node.disk action).getD
          watched.known = (disk[place.diskKey]?).map RegularFile.kind
        cases left : (watched.node.sessions i).leavesAt place watched.node.disk action with
        | some content =>
            rw [left] at leaves
            exact leaves.2.symm
        | none =>
            rw [left] at leaves
            rw [leaves]
            exact holds.known
      · have ⟨still, same⟩ := fresh both
        show (disk[place.diskKey]?).map RegularFile.kind = _
        rw [same]
        exact holds.found still run running here found listed
  | wrote key file =>
      have same : (watched.node.disk.insert key file)[place.diskKey]? =
          watched.node.disk[place.diskKey]? := by
        rw [OrderedMap.getElem?_insert, if_neg (of_decide_eq_false unedited)]
      refine ⟨wellFormed, ?_, fun fresh run running here disk listed => ?_⟩
      · exact holds.known.trans (congrArg (Option.map RegularFile.kind) same.symm)
      · exact (congrArg (Option.map RegularFile.kind) same).trans
          (holds.found fresh run running here disk listed)
  | removed key =>
      have same : (watched.node.disk.erase key)[place.diskKey]? =
          watched.node.disk[place.diskKey]? := by
        rw [OrderedMap.getElem?_erase, if_neg (of_decide_eq_false unedited)]
      refine ⟨wellFormed, ?_, fun fresh run running here disk listed => ?_⟩
      · exact holds.known.trans (congrArg (Option.map RegularFile.kind) same.symm)
      · exact (congrArg (Option.map RegularFile.kind) same).trans
          (holds.found fresh run running here disk listed)
  | attached => exact ⟨wellFormed, holds.known, holds.found⟩

end

/-- A winner of other content than is known of the file is not materialized, and is requested from
the peers that announce it. -/
def Requests (place : Place) (watched : Watched) : Prop :=
  ∀ row limit, watched.node.store.recordState place.key = some row →
    place.Bound watched.node.store → row.record.kind.isFile = true →
    row.record.modifiedNs ≤ limit → watched.known ≠ some row.record.kind →
    row.materialized = false ∧
      isRequested watched.node.store limit place.collection row.record = true

theorem Sound.requests {place : Place} {watched : Watched} (holds : watched.Sound place) :
    watched.Requests place := by
  intro row limit present bound isFile within differs
  have stored : watched.node.store.record place.key = some row.record :=
    record_eq_some.mpr ⟨row, present, rfl⟩
  have cleared : row.materialized = false := by
    by_contra materialized
    apply differs
    apply holds.known
    refine Place.carried_eq_some.mpr ⟨⟨⟨row, present, isFile, ?_⟩, bound⟩, row.record, stored, rfl⟩
    exact Bool.eq_true_of_not_eq_false materialized
  have located : row.record.path = place.path :=
    congrArg RecordKey.path (holds.wellFormed.keyed.row present)
  exact ⟨cleared, requested_of_unmaterialized present located isFile within cleared⟩

end Watched

section
variable [Blake3] {daemon : Daemon}

/-- Every materialized row carries its own fingerprint as long as each update of a fingerprint
finds the content it was decided for; an update that finds other content and commits breaks this.
As long as the steps at a place are undisturbed, a winner of other content than was last written
or found there is requested, and that content is on the disk until a user changes it. -/
theorem fingerprints_of_current {store : StateStore} (start : store.Fingerprinted)
    (keyed : store.Keyed) (disk : Disk) {labels : List Label} {node : Node}
    (current : Along (Node.step daemon) Node.Current (Node.start store disk) labels)
    (reached : run (Node.step daemon) (Node.start store disk) labels = some node) :
    node.store.CarriesOwn ∧
      (∀ label next, node.step daemon label = some next → ¬ node.Current label →
        node.store.Unchanged next.store ∨ ¬ next.store.CarriesOwn) ∧
      ∀ place : Place,
        (∀ kind ∈ place.carried store, (disk[place.diskKey]?).map RegularFile.kind = some kind) →
        Along (Watched.step daemon place) (Watched.Undisturbed place)
          (Watched.start place store disk) labels →
        ∃ watched, run (Watched.step daemon place) (Watched.start place store disk) labels =
            some watched ∧ watched.node = node ∧ watched.Requests place ∧
          (Along (Node.step daemon) (Node.Unedited place) (Node.start store disk) labels →
            watched.known = (node.disk[place.diskKey]?).map RegularFile.kind) := by
  have fingerprinted : (Node.start store disk).Fingerprinted := ⟨start, trivial, fun _ => trivial⟩
  have holds : node.Fingerprinted := Node.Fingerprinted.step.run fingerprinted current reached
  refine ⟨fun key row present => (holds.store key row present).own,
    fun label next taken stale => holds.stale stale taken, fun place agrees undisturbed => ?_⟩
  have follows := Watched.step_project daemon place
  have projects := run_project follows (Watched.start place store disk) labels
  rw [show (Watched.start place store disk).node = Node.start store disk from rfl, reached]
    at projects
  have ⟨watched, passed, same⟩ := Option.map_eq_some_iff.mp projects
  have wellFormed : (Node.start store disk).WellFormed := ⟨keyed, trivial⟩
  have sound : watched.Sound place := by
    refine Watched.Sound.step.run ⟨fingerprinted, wellFormed, agrees, ?_, ?_⟩
      ((Along.of_project follows current).and undisturbed) passed
    · intro fresh
      cases fresh
    · intro fresh
      cases fresh
  refine ⟨watched, passed, same, sound.requests, fun unedited => ?_⟩
  have faithful : watched.Faithful place := by
    refine Watched.Faithful.step.run ⟨wellFormed, rfl, ?_⟩
      (Along.of_project follows unedited) passed
    intro fresh
    cases fresh
  rw [← same]
  exact faithful.known

end

section
attribute [local instance] Blake3.checksum

/-- The first session has checked its record before the second one merges a later record, and
it installs afterwards. -/
def overtaken : List Label :=
  .attach "c" "/c" (some "/c") :: merges 0 (announced 5 []) ++
    [.session 0 (.receive (announced 5 []) [])] ++ merges 1 (announced 6 [7]) ++
    [.session 0 (.install (.sample "/c")), .session 0 (.markInstalled 0)]

/-- The row of the later record is marked as materialized with the earlier one's fingerprint. -/
theorem overtaken_install_marks :
    ∃ node, run (Node.step .sample) (Node.start .empty ∅) overtaken = some node ∧
      ¬ node.store.CarriesOwn := by
  have row : ((run (Node.step .sample) (Node.start .empty ∅) overtaken).map fun node =>
      node.store.recordState ⟨"c", .sample⟩) =
      some (some ⟨announced 6 [7], true, some ⟨5, 0, Blake3.hash []⟩⟩) := by
    decide +kernel
  have ⟨node, reached, present⟩ := Option.map_eq_some_iff.mp row
  exact ⟨node, reached, not_carriesOwn present (by decide +kernel) (by decide +kernel)⟩

/-- Here the second session has installed and marked its record before the first one renames its
bytes into place and is stopped. -/
def overtakenRename : List Label :=
  .attach "c" "/c" (some "/c") :: merges 0 (announced 5 []) ++
    [.session 0 (.receive (announced 5 []) [])] ++ merges 1 (announced 6 [7]) ++
    installs 1 (announced 6 [7]) [7] ++
    [.session 0 (.install (.sample "/c")), .session 0 .stop]

/-- No fingerprint is foreign, and yet the earlier bytes are on the disk and not replaced. -/
example : Along (Node.step .sample) Node.Current (Node.start .empty ∅) overtakenRename ∧
    ((run (Node.step .sample) (Node.start .empty ∅) overtakenRename).map fun node =>
      ((node.disk[placeF.diskKey]?).map RegularFile.kind,
        isRequested node.store 9 "c" (announced 6 [7]))) =
      some (some (announced 5 []).kind, false) := by
  decide +kernel

/-- A later record is merged over the one that a session has installed. -/
def replacedInstall : List Label :=
  .attach "c" "/c" (some "/c") :: merges 0 (announced 5 []) ++ installs 0 (announced 5 []) [] ++
    merges 1 (announced 6 [7])

theorem lone_install_marks :
    ∃ node, run (Node.step .sample) (Node.start .empty ∅) replacedInstall = some node ∧
      node.store.CarriesOwn ∧ isRequested node.store 9 "c" (announced 6 [7]) = true ∧
      (node.disk[placeF.diskKey]?).map RegularFile.kind = some (announced 5 []).kind := by
  have outcome : ((run (Watched.step .sample placeF) (Watched.start placeF .empty ∅)
      replacedInstall).map fun watched =>
        (watched.node.store.recordState placeF.key, watched.known,
          decide (placeF.Bound watched.node.store))) =
      some (some ⟨announced 6 [7], false, none⟩, some (announced 5 []).kind, true) := by
    decide +kernel
  have total : (run (Node.step .sample) (Node.start .empty ∅) replacedInstall).isSome = true := by
    decide +kernel
  obtain ⟨node, reached⟩ := Option.isSome_iff_exists.mp total
  have absent (key : RecordKey) : StateStore.empty.recordState key = none := by
    rw [recordState, StateStore.empty, Std.ExtTreeMap.getElem?_empty]
  have fingerprinted : StateStore.empty.Fingerprinted := fun key row present => by
    rw [absent] at present
    cases present
  have keyed : StateStore.empty.Keyed := fun key record found => by
    rw [StateStore.record, absent] at found
    cases found
  have holds := fingerprints_of_current fingerprinted keyed ∅ (by decide +kernel) reached
  obtain ⟨watched, passed, same, requests, known⟩ := holds.2.2 placeF (by decide +kernel)
    (by decide +kernel)
  rw [passed, Option.map_some, Option.some.injEq, Prod.mk.injEq, Prod.mk.injEq] at outcome
  obtain ⟨present, found, bound⟩ := outcome
  have unedited : Along (Node.step .sample) (Node.Unedited placeF) (Node.start .empty ∅)
      replacedInstall :=
    (sees_without_walk (by decide)).and (by decide +kernel)
  have known := known unedited
  rw [found] at known
  have asks := requests ⟨announced 6 [7], false, none⟩ 9 present (of_decide_eq_true bound) rfl
    (by decide) (by rw [found]; decide +kernel)
  exact ⟨node, reached, holds.1, same ▸ asks.2, known.symm⟩

end

end Skillsync
