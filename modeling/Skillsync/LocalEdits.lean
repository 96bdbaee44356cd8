import Skillsync.ClockSkew
import Skillsync.KnownBytes
import Skillsync.RecordOrder

set_option autoImplicit false

namespace Skillsync

open Fallible StateStore Runs RankedMaximum

section
variable [Blake3]

/-- The record that a scan makes of a file, unless the file is the one that the stored fingerprint
describes or its write time is beyond the limit. -/
def unscannedEdit (author : EndpointId) (limit : I64) (store : StateStore) (key : RecordKey)
    (file : RegularFile) : Option Record :=
  if (store.recordState key).bind PathRecordState.materializedFingerprint = some file.fingerprint ∨
      limit < file.modifiedNs then none
  else (Record.file key.collection key.path file.modifiedNs author file.fingerprint.size
    file.fingerprint.hash).toOption

theorem unscannedEdit_kind {author : EndpointId} {limit : I64} {store : StateStore}
    {key : RecordKey} {file : RegularFile} {edit : Record}
    (made : unscannedEdit author limit store key file = some edit) : file.kind = edit.kind := by
  unfold unscannedEdit at made
  split at made
  · cases made
  · exact (Record.new_ok (Except.toOption_eq_some.mp made)).2.2.2.2.symm

/-- An edit that no scan has seen stands at the path of a record, and beats it. -/
def NewerEdit (author : EndpointId) (limit : I64) (store : StateStore) (disk : Disk)
    (record : Record) (root : RootPath) (file : RegularFile) : Prop :=
  disk[DiskKey.mk root record.path]? = some file ∧
    ∃ edit ∈ unscannedEdit author limit store record.key file, edit.compareWinner record = .gt

/-- Every newer edit keeps its bytes. -/
def KeepsEdits (author : EndpointId) (limit : I64) (store : StateStore) (disk after : Disk)
    (record : Record) : Prop :=
  ∀ root file, NewerEdit author limit store disk record root file →
    (after[DiskKey.mk root record.path]?).map RegularFile.bytes = some file.bytes

/-- An installation keeps the newer edits unless its rename goes through over other bytes. -/
theorem applyFileFixture_keeps (author : EndpointId) (limit : I64) (store : StateStore)
    (disk : Disk) (record : Record) (stream : List UInt8) (environment : InstallEnvironment)
    (now : I64) (maxLogs : Nat) :
    KeepsEdits author limit store disk
        (applyFileFixture store disk record stream environment now maxLogs).2.2 record ↔
      ∀ root file, NewerEdit author limit store disk record root file →
        Renames record stream environment root → file.bytes = stream := by
  rw [applyFileFixture_disk]
  constructor
  · intro keeps root file newer renames
    have kept := keeps root file newer
    rcases installFile_at disk record stream environment root with ⟨_, placed⟩ | ⟨none, _⟩
    · rw [placed] at kept
      exact (Option.some.inj kept).symm
    · exact absurd renames none
  · intro same root file newer
    rcases installFile_at disk record stream environment root with ⟨renames, placed⟩ | ⟨_, stays⟩
    · rw [placed, same root file newer renames]
    · rw [stays, newer.1]
      rfl

/-- A tombstone keeps the newer edits unless its removal goes through. -/
theorem materializeTombstone_keeps (author : EndpointId) (limit : I64) (store : StateStore)
    (disk : Disk) (record : Record) (environment : RemovalEnvironment) (now : I64)
    (maxLogs : Nat) :
    KeepsEdits author limit store disk
        (materializeTombstone store disk record environment now maxLogs).2.2 record ↔
      ∀ root file, NewerEdit author limit store disk record root file →
        ¬ Unlinks record environment root := by
  rw [materializeTombstone_leaves]
  constructor
  · intro keeps root file newer removes
    have kept := keeps root file newer
    rcases removeForTombstone_at disk record environment root with ⟨_, gone⟩ | ⟨none, _⟩
    · rw [gone] at kept
      cases kept
    · exact none removes
  · intro stands root file newer
    rcases removeForTombstone_at disk record environment root with ⟨removes, _⟩ | ⟨_, stays⟩
    · exact absurd removes (stands root file newer)
    · rw [stays, newer.1]
      rfl

end

/-- The record that a step of the scan has merged; the thread goes on when the transaction
commits. -/
def ScanPhase.joins (daemon : Daemon) : ScanPhase → ScanPhase → Option Record
  | _, .idle | .filing _ _ [] _, _ => none
  | phase, _ => phase.merges daemon

/-- The record that a step of a session has merged. -/
def SessionPhase.joins : SessionPhase → SessionPhase → Option Record
  | .merging candidate, .merged _ => some candidate
  | _, _ => none

/-- The record that a session has found to be the stored one and is about to apply. -/
def SessionPhase.applying : SessionPhase → Option Record
  | .winning candidate | .removing candidate => some candidate
  | .receiving record _ => some record
  | _ => none

/-- The record, if it is one of the key. -/
def RecordKey.own (key : RecordKey) (record : Option Record) : Option Record :=
  record.filter fun record => decide (record.key = key)

section
variable [Blake3] {daemon : Daemon} {key : RecordKey} {store after : StateStore}

omit [Blake3] in
theorem RecordKey.own_eq_some {record : Option Record} {own : Record} :
    key.own record = some own ↔ record = some own ∧ own.key = key := by
  simp only [RecordKey.own, Option.filter_eq_some_iff, decide_eq_true_eq]

omit [Blake3] in
theorem RecordKey.own_of_key {record : Record} (here : record.key = key) :
    key.own (some record) = some record :=
  RecordKey.own_eq_some.mpr ⟨rfl, here⟩

omit [Blake3] in
theorem RecordKey.own_of_ne {record : Record} (other : record.key ≠ key) :
    key.own (some record) = none := by
  rw [RecordKey.own, Option.filter_some, if_neg (by simpa using other)]

theorem StateStore.Rewritten.joined {candidate : Record} {row : PathRecordState}
    (beats : accepts (store.record candidate.key) candidate = true)
    (written : store.Rewritten candidate.key row after) (same : row.record = candidate)
    (key : RecordKey) :
    after.record key =
      joinOption Record.rank (store.record key) (key.own (some candidate)) := by
  by_cases here : candidate.key = key
  · rw [RecordKey.own_of_key here, joinOption, ← accepts_iff, ← here, if_pos beats]
    exact record_eq_some.mpr ⟨row, written.at, same⟩
  · rw [RecordKey.own_of_ne here, joinOption]
    exact record_congr (written.of_ne here)

theorem StateStore.Unchanged.joined {candidate : Record}
    (loses : accepts (store.record candidate.key) candidate = false)
    (same : store.Unchanged after) (key : RecordKey) :
    after.record key =
      joinOption Record.rank (store.record key) (key.own (some candidate)) := by
  by_cases here : candidate.key = key
  · rw [RecordKey.own_of_key here, joinOption, ← accepts_iff, ← here,
      if_neg (by simp only [loses, Bool.false_eq_true, not_false_iff])]
    exact same.record candidate.key
  · rw [RecordKey.own_of_ne here, joinOption]
    exact same.record key

/-- A step of the scan joins what it merges into the record of its path. -/
theorem Advanced.joined {phase next : ScanPhase} (step : Advanced daemon store phase after next)
    (key : RecordKey) :
    after.record key = joinOption Record.rank (store.record key)
      (key.own (phase.joins daemon next)) := by
  cases step with
  | stopped => cases phase <;> rfl
  | completed run after rows =>
      show (after.recordState key).map PathRecordState.record = _
      rw [rows, completedRow_record]
      rfl
  | warned run event rest after same => exact same.record key
  | read => rfl
  | filed run current task => cases task <;> rfl
  | diverged run current path disk rest row after _ present _ written =>
      exact written.record present rfl key
  | passed run current path disk rest task after beyond same =>
      cases beyond with
      | future => exact same.record key
      | beaten candidate winner loses _ => exact same.joined loses key
  | chose => rfl
  | differed => rfl
  | settled run current path disk rest basis row after present _ written =>
      exact written.record present rfl key
  | accepted run current path disk rest candidate winner after beats written =>
      exact written.joined beats rfl key
  | rejected run current path disk rest candidate winner after loses same =>
      exact same.joined loses key
  | repaired run current path disk rest row after present _ written =>
      exact written.record present rfl key
  | kept run winner rest keeps =>
      simp only [ScanPhase.joins, ScanPhase.merges, ScanPhase.creates, keeps, if_true]
      rfl
  | deleted run winner rest tombstone after removes built beats written =>
      simp only [ScanPhase.joins, ScanPhase.merges, ScanPhase.creates, removes, built,
        Bool.false_eq_true, if_false]
      exact written.joined beats rfl key
  | outranked run winner rest tombstone after removes built loses same =>
      simp only [ScanPhase.joins, ScanPhase.merges, ScanPhase.creates, removes, built,
        Bool.false_eq_true, if_false]
      exact same.joined loses key
  | finished run after same => exact same.record key

theorem Acted.joined {i : Nat} {disk diskAfter : Disk} {phase next : SessionPhase}
    {action : SessionAction} (step : Acted daemon i store disk phase action after diskAfter next)
    (key : RecordKey) :
    after.record key = joinOption Record.rank (store.record key)
      (key.own (phase.joins next)) := by
  have quiet (same : after.recordState key = store.recordState key) :
      after.record key = store.record key := record_congr same
  cases step with
  | ended phase action after same =>
      rw [show phase.joins .idle = none by cases phase <;> rfl]
      exact same.record key
  | accepted candidate now after beats written => exact written.joined beats rfl key
  | rejected candidate now after loses same => exact same.joined loses key
  | tombstoned candidate now row after present _ written =>
      exact written.record present rfl key
  | notInstalled record stream environment phase idle => rcases idle with rfl | rfl <;> rfl
  | marked record file event now row after present isFile _ rows =>
      show (after.recordState key).map PathRecordState.record = store.record key
      rw [rows]
      split
      · rename_i here
        rw [← here]
        exact (record_eq_some.mpr ⟨row, present, rfl⟩).symm
      · exact reboundRow_record store record.key file.resolvedRoot key
  | installFailed record now row after present _ written =>
      exact written.record present rfl key
  | unavailable served now row after present _ written =>
      exact written.record present rfl key
  | _ => rfl

/-- A session applies what it has found stored, and is still about to apply it. -/
theorem Acted.applying {i : Nat} {disk diskAfter : Disk} {phase next : SessionPhase}
    {action : SessionAction} (step : Acted daemon i store disk phase action after diskAfter next)
    {record : Record} (applies : next.applying = some record) :
    after = store ∧ (phase.applying = some record ∨ store.record record.key = some record) := by
  cases step with
  | won candidate stored =>
      cases applies
      exact ⟨rfl, Or.inr stored⟩
  | removable => exact ⟨rfl, Or.inl applies⟩
  | received candidate stream stored =>
      cases applies
      exact ⟨rfl, Or.inr stored⟩
  | notInstalled record stream environment phase idle =>
      rcases idle with rfl | rfl <;> cases applies
  | _ => cases applies

end

/-- What a record says that a path holds. -/
def Record.contents (record : Record) : Option RecordKind :=
  match record.kind with
  | .file size contentHash => some (.file size contentHash)
  | .tombstone => none

theorem Record.contents_eq_some {record : Record} {kind : RecordKind}
    (holds : record.contents = some kind) : record.kind = kind := by
  unfold contents at holds
  split at holds
  · rename_i same
    exact same.trans (Option.some.inj holds)
  · cases holds

/-- What a session leaves at a place is what the record that it applies says. -/
theorem SessionPhase.leavesAt_contents [Blake3] {place : Place} {disk : Disk}
    {phase : SessionPhase} {action : SessionAction} {left : Option RecordKind}
    (leaves : phase.leavesAt place disk action = some left) :
    ∃ record, phase.applying = some record ∧ left = record.contents := by
  unfold leavesAt at leaves
  split at leaves
  · rename_i record stream environment
    split at leaves
    · cases leaves
    · rename_i file prepared
      split at leaves
      · cases leaves
        have ⟨_, _, kind, size, hash⟩ := prepareInstall_ok prepared
        exact ⟨record, rfl, by rw [Record.contents, kind, size, hash]⟩
      · cases leaves
  · rename_i candidate environment
    split at leaves
    · rename_i gone
      cases leaves
      generalize done : removeForTombstone disk candidate environment = result at gone
      obtain ⟨result, after⟩ := result
      rcases removeForTombstone_disk done place.diskKey with same | ⟨_, _, tombstone, _⟩
      · rw [Place.Present, Place.Present, same] at gone
        exact absurd gone.1 gone.2
      · exact ⟨candidate, rfl, by rw [Record.contents, tombstone]⟩
    · cases leaves
  · cases leaves

/-- There is another record, and the record does not beat it. -/
def Record.YieldsTo [Blake3] (record : Record) (other : Option Record) : Prop :=
  ∃ winner ∈ other, record.compareWinner winner ≠ .gt

instance [Blake3] (record : Record) (other : Option Record) : Decidable (record.YieldsTo other) :=
  inferInstanceAs (Decidable (∃ winner ∈ other, record.compareWinner winner ≠ .gt))

theorem Record.yieldsTo_iff [Blake3] {record : Record} {other : Option Record} :
    record.YieldsTo other ↔ Below Record.rank (some record) other := by
  cases other with
  | none => exact ⟨fun ⟨_, absent, _⟩ => (by cases absent), False.elim⟩
  | some winner =>
      have same : record.YieldsTo (some winner) ↔ record.compareWinner winner ≠ .gt :=
        ⟨fun ⟨_, found, yields⟩ => Option.some.inj found ▸ yields, fun yields => ⟨_, rfl, yields⟩⟩
      rw [same, ne_eq, Record.compareWinner_eq_gt, not_lt]
      rfl

/-- A node, with the records that were offered for a place and what was put there. -/
structure Contest where
  node : Node
  /-- What scans and sessions have merged. -/
  merged : List Record
  /-- The user's last change of the place, if it was an edit, and what sessions have applied there
  since, the latest first. -/
  put : List Record
  /-- What sessions have replaced or removed there. -/
  displaced : List Record
  /-- Every edit of the place. -/
  edits : List Record

namespace Contest

section
variable [Blake3]

def start (daemon : Daemon) (place : Place) (limit : I64) (store : StateStore) (disk : Disk) :
    Contest :=
  let edit := (disk[place.diskKey]?).bind
    (unscannedEdit daemon.session.localEndpoint limit store place.key)
  ⟨.start store disk, (store.record place.key).toList, edit.toList, [], edit.toList⟩

/-- The record of an edit of the place. -/
def made (daemon : Daemon) (place : Place) (limit : I64) (contest : Contest) (key : DiskKey)
    (file : RegularFile) : Option Record :=
  if key = place.diskKey then
    unscannedEdit daemon.session.localEndpoint limit contest.node.store place.key file
  else none

def note (daemon : Daemon) (place : Place) (limit : I64) (contest : Contest) (next : Node) :
    Label → Contest
  | .advance =>
      let merged := place.key.own (contest.node.scan.joins daemon next.scan)
      { contest with node := next, merged := merged.toList ++ contest.merged }
  | .session i action =>
      let phase := contest.node.sessions i
      let merged := (place.key.own (phase.joins (next.sessions i))).toList ++ contest.merged
      if (phase.leavesAt place contest.node.disk action).isSome then
        { contest with
          node := next
          merged := merged
          put := match place.key.own phase.applying with
            | some record => record :: contest.put
            | none => []
          displaced := contest.put.head?.toList ++ contest.displaced }
      else { contest with node := next, merged := merged }
  | .write key file =>
      let edit := (contest.made daemon place limit key file).toList
      { contest with
        node := next
        put := if key = place.diskKey then edit else contest.put
        edits := edit ++ contest.edits }
  | .remove key =>
      { contest with node := next, put := if key = place.diskKey then [] else contest.put }
  | _ => { contest with node := next }

def step (daemon : Daemon) (place : Place) (limit : I64) (contest : Contest) (label : Label) :
    Option Contest :=
  (contest.node.step daemon label).map fun next => contest.note daemon place limit next label

/-- A session replaces or removes what was put in the place only for a record of its path that
what was put there does not beat. -/
def Spares (place : Place) (contest : Contest) : Label → Prop
  | .session i action =>
      ((contest.node.sessions i).leavesAt place contest.node.disk action).isSome = true →
        ∀ standing ∈ contest.put.head?,
          standing.YieldsTo (place.key.own (contest.node.sessions i).applying)
  | _ => True

instance (place : Place) (contest : Contest) : DecidablePred (contest.Spares place)
  | .session i action => inferInstanceAs (Decidable
      (((contest.node.sessions i).leavesAt place contest.node.disk action).isSome = true →
        ∀ standing ∈ contest.put.head?,
          standing.YieldsTo (place.key.own (contest.node.sessions i).applying)))
  | .walk _ _ _ _ _ | .advance | .abort | .write _ _ | .remove _ | .attach _ _ _ => .isTrue trivial

/-- The user replaces or removes what was put in the place only where the stored record or the new
edit is not older. -/
def Supersedes (daemon : Daemon) (place : Place) (limit : I64) (contest : Contest) : Label → Prop
  | .write key file =>
      key = place.diskKey → ∀ standing ∈ contest.put.head?,
        standing.YieldsTo (joinOption Record.rank (contest.node.store.record place.key)
          (contest.made daemon place limit key file))
  | .remove key =>
      key = place.diskKey → ∀ standing ∈ contest.put.head?,
        standing.YieldsTo (contest.node.store.record place.key)
  | _ => True

instance (daemon : Daemon) (place : Place) (limit : I64) (contest : Contest) :
    DecidablePred (contest.Supersedes daemon place limit)
  | .write key file => inferInstanceAs (Decidable
      (key = place.diskKey → ∀ standing ∈ contest.put.head?,
        standing.YieldsTo (joinOption Record.rank (contest.node.store.record place.key)
          (contest.made daemon place limit key file))))
  | .remove key => inferInstanceAs (Decidable
      (key = place.diskKey → ∀ standing ∈ contest.put.head?,
        standing.YieldsTo (contest.node.store.record place.key)))
  | .walk _ _ _ _ _ | .advance | .abort | .session _ _ | .attach _ _ _ => .isTrue trivial

/-- The records that were merged, and those whose content was replaced or removed. -/
def past (contest : Contest) : Set Record :=
  { record | record ∈ contest.merged ∨ record ∈ contest.displaced }

/-- The newer one of the stored record and what was put in the place last. -/
def newest (place : Place) (contest : Contest) : Option Record :=
  joinOption Record.rank (contest.node.store.record place.key) contest.put.head?

/-- Nothing newer than what stands in the place was ever replaced there. -/
structure Sound (place : Place) (contest : Contest) : Prop where
  winner : IsWinner Record.rank contest.past (contest.node.store.record place.key)
  latest : IsWinner Record.rank { record | record ∈ contest.put } contest.put.head?
  standing : ∀ record ∈ contest.put.head?,
    (contest.node.disk[place.diskKey]?).map RegularFile.kind = record.contents
  stored : ∀ i, ∀ record ∈ (contest.node.sessions i).applying,
    Below Record.rank (some record) (contest.node.store.record record.key)

variable {daemon : Daemon} {place : Place} {limit : I64}

theorem step_project (daemon : Daemon) (place : Place) (limit : I64) (contest : Contest)
    (label : Label) :
    (contest.step daemon place limit label).map node = contest.node.step daemon label := by
  unfold step
  rw [Option.map_map]
  have same : node ∘ (fun next => contest.note daemon place limit next label) = id := by
    funext next
    cases label with
    | session i action =>
        simp only [Function.comp_apply, note]
        split
        · split <;> rfl
        · rfl
    | _ => rfl
  rw [same, Option.map_id, id]

/-- A merge joins the stored record, and so it does in the past. -/
theorem winner_joined {contest : Contest} {current : Option Record} (record : Option Record)
    (wins : IsWinner Record.rank contest.past current) :
    IsWinner Record.rank
      { contest with merged := record.toList ++ contest.merged }.past
      (joinOption Record.rank current record) := by
  apply (wins.joinOption (IsWinner.held record)).congr
  ext other
  simp only [past, Set.mem_union, Set.mem_ofPred_eq, List.mem_append, Option.mem_toList]
  tauto

/-- A session's step keeps the records that are about to be applied below the stored ones. -/
theorem Sound.stored_acted {contest : Contest} (holds : contest.Sound place) {i : Nat}
    {action : SessionAction} {store : StateStore} {disk : Disk} {phase : SessionPhase}
    (step : Acted daemon i contest.node.store contest.node.disk (contest.node.sessions i) action
      store disk phase) (j : Nat) :
    ∀ record ∈ (Function.update contest.node.sessions i phase j).applying,
      Below Record.rank (some record) (store.record record.key) := by
  apply forall_update (p := fun phase => ∀ record ∈ phase.applying,
    Below Record.rank (some record) (store.record record.key))
  · intro record applies
    obtain ⟨rfl, before | stored⟩ := step.applying applies
    · exact holds.stored i record before
    · rw [stored]
      exact Below.refl _
  · intro other record applies
    apply (holds.stored other record applies).trans
    rw [step.joined record.key]
    exact below_joinOption _ _

/-- What gives way to a record that a session applies, the stored record is not below. -/
theorem Sound.gives {contest : Contest} (holds : contest.Sound place) {i : Nat} {standing : Record}
    (yields : standing.YieldsTo (place.key.own (contest.node.sessions i).applying)) :
    Below Record.rank (some standing) (contest.node.store.record place.key) := by
  have below := Record.yieldsTo_iff.mp yields
  cases own : place.key.own (contest.node.sessions i).applying with
  | none =>
      rw [own] at below
      cases below
  | some record =>
      rw [own] at below
      obtain ⟨applying, here⟩ := RecordKey.own_eq_some.mp own
      have stored := holds.stored i record applying
      rw [here] at stored
      exact below.trans stored

/-- What was put there last and does not beat a record is replaced by it. -/
theorem latest_cons {put : List Record} {record : Record}
    (wins : IsWinner Record.rank { record | record ∈ put } put.head?)
    (yields : ∀ standing ∈ put.head?, standing.YieldsTo (some record)) :
    IsWinner Record.rank { other | other ∈ record :: put } (some record) := by
  refine ⟨List.mem_cons_self, fun other member => ?_⟩
  rcases List.mem_cons.mp member with rfl | earlier
  · exact le_refl _
  · cases put with
    | nil => cases earlier
    | cons standing rest =>
        have below := Record.yieldsTo_iff.mp (yields standing rfl)
        exact le_trans (wins.2 other earlier) below

theorem Sound.acted {contest : Contest} (holds : contest.Sound place) {i : Nat}
    {action : SessionAction} (spares : contest.Spares place (.session i action))
    {store : StateStore} {disk : Disk} {phase : SessionPhase}
    (done : sessionStep daemon i contest.node.store contest.node.disk (contest.node.sessions i)
      action = some (store, disk, phase)) :
    (contest.note daemon place limit { contest.node with
      store := store, disk := disk,
      sessions := Function.update contest.node.sessions i phase } (.session i action)).Sound
      place := by
  have step := sessionStep_acted done
  have leaves := sessionStep_leavesAt place done
  have wins := winner_joined (place.key.own ((contest.node.sessions i).joins phase)) holds.winner
  rw [← step.joined place.key] at wins
  simp only [note, Function.update_self]
  cases left : (contest.node.sessions i).leavesAt place contest.node.disk action with
  | none =>
      rw [left] at leaves
      simp only [Option.isSome_none, Bool.false_eq_true, if_false]
      refine ⟨wins, holds.latest, fun record stands => ?_, holds.stored_acted step⟩
      show Option.map _ disk[place.diskKey]? = _
      rw [leaves]
      exact holds.standing record stands
  | some content =>
      rw [left] at leaves
      have spared := spares (by rw [left]; rfl)
      obtain ⟨record, applying, told⟩ := SessionPhase.leavesAt_contents left
      have displaced (put : List Record) : IsWinner Record.rank
          (past ⟨contest.node, (place.key.own ((contest.node.sessions i).joins phase)).toList ++
            contest.merged, put, contest.put.head?.toList ++ contest.displaced, contest.edits⟩)
          (store.record place.key) := by
        rw [leaves.1] at wins ⊢
        apply wins.dominated
        · exact fun other seen => seen.imp_right (List.mem_append_right _)
        · intro other seen
          rcases seen with merged | gone
          · exact ⟨other, Or.inl merged, le_refl _⟩
          rcases List.mem_append.mp gone with stood | gone
          · exact wins.bounds (holds.gives (spared other (Option.mem_toList.mp stood)))
          · exact ⟨other, Or.inr gone, le_refl _⟩
      simp only [Option.isSome_some, if_true]
      cases own : place.key.own (contest.node.sessions i).applying with
      | none =>
          exact ⟨displaced [], IsWinner.empty.congr (by simp), fun _ none => (by cases none),
            holds.stored_acted step⟩
      | some applied =>
          rw [own] at spared
          have same := (RecordKey.own_eq_some.mp own).1
          rw [applying] at same
          cases same
          refine ⟨displaced (record :: contest.put), latest_cons holds.latest spared,
            fun other stands => ?_, holds.stored_acted step⟩
          cases stands
          exact leaves.2.trans told

theorem latest_edit (edit : Option Record) :
    IsWinner Record.rank { record | record ∈ edit.toList } edit.toList.head? := by
  cases edit with
  | none => exact IsWinner.empty.congr (by simp)
  | some record =>
      exact latest_cons (IsWinner.empty.congr (by simp)) fun _ none => (by cases none)

theorem Sound.step : Preserves (step daemon place limit) (Spares place) (Sound place) := by
  intro contest label next holds spares moved
  obtain ⟨node, taken, rfl⟩ := Option.map_eq_some_iff.mp moved
  cases Node.step_cases taken with
  | walked => exact ⟨holds.winner, holds.latest, holds.standing, holds.stored⟩
  | advanced store scan step =>
      refine ⟨?_, holds.latest, holds.standing, fun i record applies => ?_⟩
      · show IsWinner Record.rank _ (store.record place.key)
        rw [step.joined place.key]
        exact winner_joined _ holds.winner
      · apply (holds.stored i record applies).trans
        show Below Record.rank _ (store.record record.key)
        rw [step.joined record.key]
        exact below_joinOption _ _
  | aborted => exact ⟨holds.winner, holds.latest, holds.standing, holds.stored⟩
  | acted i action store disk phase _ =>
      have ⟨⟨store, disk, phase⟩, done, same⟩ := Option.map_eq_some_iff.mp taken
      rw [← same]
      exact holds.acted spares done
  | wrote key file =>
      by_cases here : key = place.diskKey
      · subst here
        simp only [note, made, if_true]
        refine ⟨holds.winner, latest_edit _, fun record stands => ?_, holds.stored⟩
        show Option.map _ (contest.node.disk.insert place.diskKey file)[place.diskKey]? = _
        rw [OrderedMap.getElem?_insert, if_pos rfl, Record.contents,
          ← unscannedEdit_kind (Option.mem_toList.mp (List.mem_of_mem_head? stands))]
        rfl
      · simp only [note, here, if_false]
        refine ⟨holds.winner, holds.latest, fun record stands => ?_, holds.stored⟩
        show Option.map _ (contest.node.disk.insert key file)[place.diskKey]? = _
        rw [OrderedMap.getElem?_insert, if_neg here]
        exact holds.standing record stands
  | removed key =>
      by_cases here : key = place.diskKey
      · subst here
        simp only [note, if_true]
        exact ⟨holds.winner, latest_edit none, fun _ none => (by cases none), holds.stored⟩
      · simp only [note, here, if_false]
        refine ⟨holds.winner, holds.latest, fun record stands => ?_, holds.stored⟩
        show Option.map _ (contest.node.disk.erase key)[place.diskKey]? = _
        rw [OrderedMap.getElem?_erase, if_neg here]
        exact holds.standing record stands
  | attached name localPath root store rows _ =>
      have same (key : RecordKey) : store.record key = contest.node.store.record key :=
        record_congr (rows key)
      refine ⟨?_, holds.latest, holds.standing, fun i record applies => ?_⟩
      · show IsWinner Record.rank _ (store.record place.key)
        rw [same]
        exact holds.winner
      · show Below Record.rank _ (store.record record.key)
        rw [same]
        exact holds.stored i record applies

/-- No edit was newer than the newest record. -/
def Kept (place : Place) (contest : Contest) : Prop :=
  ∀ edit ∈ contest.edits, Below Record.rank (some edit) (contest.newest place)

/-- What stands in the place gives way to something that is not older. -/
theorem Kept.superseded {contest : Contest} (kept : contest.Kept place) {store : StateStore}
    {next : Option Record} (raised : Below Record.rank
      (contest.node.store.record place.key) (store.record place.key))
    (gives : ∀ standing ∈ contest.put.head?, Below Record.rank (some standing)
      (joinOption Record.rank (store.record place.key) next)) :
    ∀ edit ∈ contest.edits, Below Record.rank (some edit)
      (joinOption Record.rank (store.record place.key) next) := by
  intro edit made
  rcases below_joinOption_iff.mp (kept edit made) with stored | standing
  · exact (stored.trans raised).trans (below_joinOption _ _)
  · cases stands : contest.put.head? with
    | none =>
        rw [stands] at standing
        cases standing
    | some record =>
        rw [stands] at standing
        exact standing.trans (gives record stands)

/-- The stored record only rises. -/
theorem Kept.raised {contest : Contest} (kept : contest.Kept place) {store : StateStore}
    (raised : Below Record.rank (contest.node.store.record place.key) (store.record place.key)) :
    ∀ edit ∈ contest.edits, Below Record.rank (some edit)
      (joinOption Record.rank (store.record place.key) contest.put.head?) := by
  apply kept.superseded raised
  intro standing stands
  rw [below_joinOption_iff, Option.mem_def.mp stands]
  exact Or.inr (Below.refl _)

theorem Kept.step : Preserves (step daemon place limit)
    (fun contest label =>
      contest.Spares place label ∧ contest.Supersedes daemon place limit label)
    (fun contest => contest.Sound place ∧ contest.Kept place) := by
  intro contest label next both allowed moved
  obtain ⟨holds, kept⟩ := both
  obtain ⟨spares, supersedes⟩ := allowed
  refine ⟨Sound.step contest label next holds spares moved, ?_⟩
  obtain ⟨node, taken, rfl⟩ := Option.map_eq_some_iff.mp moved
  cases Node.step_cases taken with
  | walked => exact kept
  | advanced store scan step =>
      apply kept.raised
      show Below Record.rank _ (store.record place.key)
      rw [step.joined place.key]
      exact below_joinOption _ _
  | aborted => exact kept
  | acted i action store disk phase step =>
      have raised : Below Record.rank (contest.node.store.record place.key)
          (store.record place.key) := by
        rw [step.joined place.key]
        exact below_joinOption _ _
      unfold Kept newest
      simp only [note]
      split
      · rename_i left
        apply kept.superseded raised
        intro standing stands
        exact ((holds.gives (spares left standing stands)).trans raised).trans
          (below_joinOption _ _)
      · exact kept.raised raised
  | wrote key file =>
      unfold Kept newest
      simp only [note]
      intro edit member
      by_cases here : key = place.diskKey
      · rw [if_pos here, Option.head?_toList]
        rcases List.mem_append.mp member with new | old
        · rw [Option.mem_toList.mp new, below_joinOption_iff]
          exact Or.inr (Below.refl _)
        · exact kept.superseded (Below.refl _)
            (fun standing stands => Record.yieldsTo_iff.mp (supersedes here standing stands)) edit
            old
      · rw [if_neg here]
        rw [made, if_neg here] at member
        exact kept edit member
  | removed key =>
      unfold Kept newest
      simp only [note]
      by_cases here : key = place.diskKey
      · rw [if_pos here]
        exact kept.superseded (Below.refl _) fun standing stands =>
          Record.yieldsTo_iff.mp (supersedes here standing stands)
      · rw [if_neg here]
        exact kept
  | attached name localPath root store rows _ =>
      apply kept.raised
      show Below Record.rank _ (store.record place.key)
      rw [record_congr (rows place.key)]
      exact Below.refl _

theorem Sound.start (daemon : Daemon) (place : Place) (limit : I64) (store : StateStore)
    (disk : Disk) :
    (start daemon place limit store disk).Sound place := by
  refine ⟨(IsWinner.held (store.record place.key)).congr ?_, latest_edit _, fun record stands => ?_,
    fun _ _ none => (by cases none)⟩
  · ext record
    simp only [past, Contest.start, Option.mem_toList, List.not_mem_nil, or_false,
      Set.mem_ofPred_eq]
  · obtain ⟨file, present, edit⟩ := Option.bind_eq_some_iff.mp
      (Option.mem_toList.mp (List.mem_of_mem_head? stands))
    show (disk[place.diskKey]?).map RegularFile.kind = _
    rw [present, Record.contents, ← unscannedEdit_kind edit]
    rfl

theorem Kept.start (daemon : Daemon) (place : Place) (limit : I64) (store : StateStore)
    (disk : Disk) :
    (start daemon place limit store disk).Kept place := by
  intro edit made
  unfold newest
  simp only [Contest.start, Option.head?_toList] at made ⊢
  rw [Option.mem_toList.mp made, below_joinOption_iff]
  exact Or.inr (Below.refl _)

/-- Every record that was merged or put in the place. -/
def offered (contest : Contest) : Set Record := contest.past ∪ { record | record ∈ contest.put }

/-- The bytes that survive at a place: what stands there is the newest of what was put there since
the user's last change, the newest record of all is the stored one or that, and a file that the row
takes to be its own has the content of the newest record. -/
structure Survives (place : Place) (contest : Contest) : Prop where
  latest : IsWinner Record.rank { record | record ∈ contest.put } contest.put.head?
  standing : ∀ record ∈ contest.put.head?,
    (contest.node.disk[place.diskKey]?).map RegularFile.kind = record.contents
  newest : IsWinner Record.rank contest.offered (contest.newest place)
  held : ∀ row file, contest.node.store.recordState place.key = some row →
    row.record.kind.isFile = true → row.materialized = true →
    contest.node.disk[place.diskKey]? = some file →
    row.materializedFingerprint = some file.fingerprint →
    ∀ record ∈ contest.newest place, file.kind = record.kind

theorem Sound.survives {contest : Contest} (holds : contest.Sound place)
    (own : contest.node.store.CarriesOwn) : contest.Survives place := by
  refine ⟨holds.latest, holds.standing, holds.winner.joinOption holds.latest, ?_⟩
  intro row file present isFile materialized found fingerprint record newest
  obtain ⟨_, same, kind⟩ := own place.key row present isFile materialized
  rw [fingerprint] at same
  cases same
  have stored := record_eq_some.mpr ⟨row, present, rfl⟩
  rw [Option.mem_def, Contest.newest, stored] at newest
  cases stands : contest.put.head? with
  | none =>
      rw [stands] at newest
      cases newest
      exact kind.symm
  | some standing =>
      rw [stands] at newest
      have joined : join Record.rank (some row.record) standing = some record := newest
      rcases join_mem joined with old | rfl
      · cases old
        exact kind.symm
      · have contents := holds.standing standing stands
        rw [found] at contents
        exact (Record.contents_eq_some contents.symm).symm

end

end Contest

section
variable [Blake3]

/-- An application keeps the newer edits exactly if none of them stands where it renames other
bytes or removes a file. As long as sessions replace nothing newer and each update of a fingerprint
finds the content it was decided for, the bytes that survive are those of the last write; and if
the user does not replace newer content with older either, no edit at all was newer. -/
theorem newest_bytes_survive (daemon : Daemon) (limit : I64) :
    (∀ store disk record stream environment now maxLogs,
      KeepsEdits daemon.session.localEndpoint limit store disk
          (applyFileFixture store disk record stream environment now maxLogs).2.2 record ↔
        ∀ root file, NewerEdit daemon.session.localEndpoint limit store disk record root file →
          Renames record stream environment root → file.bytes = stream) ∧
    (∀ store disk record environment now maxLogs,
      KeepsEdits daemon.session.localEndpoint limit store disk
          (materializeTombstone store disk record environment now maxLogs).2.2 record ↔
        ∀ root file, NewerEdit daemon.session.localEndpoint limit store disk record root file →
          ¬ Unlinks record environment root) ∧
    ∀ (place : Place) (store : StateStore) (disk : Disk) (labels : List Label) (node : Node),
      store.Fingerprinted →
      Along (Node.step daemon) Node.Current (Node.start store disk) labels →
      Along (Contest.step daemon place limit) (Contest.Spares place)
        (Contest.start daemon place limit store disk) labels →
      run (Node.step daemon) (Node.start store disk) labels = some node →
      ∃ contest, run (Contest.step daemon place limit)
          (Contest.start daemon place limit store disk) labels = some contest ∧
        contest.node = node ∧ contest.Survives place ∧
        (Along (Contest.step daemon place limit) (Contest.Supersedes daemon place limit)
            (Contest.start daemon place limit store disk) labels →
          ∀ edit ∈ contest.edits, edit.YieldsTo (contest.newest place)) := by
  refine ⟨applyFileFixture_keeps _ limit, materializeTombstone_keeps _ limit, ?_⟩
  intro place store disk labels node fingerprinted current spares reached
  have follows := Contest.step_project daemon place limit
  have projects := run_project follows (Contest.start daemon place limit store disk) labels
  rw [show (Contest.start daemon place limit store disk).node = Node.start store disk from rfl,
    reached] at projects
  obtain ⟨contest, passed, rfl⟩ := Option.map_eq_some_iff.mp projects
  have first := Contest.Sound.start daemon place limit store disk
  have sound := Contest.Sound.step.run first spares passed
  have started : (Node.start store disk).Fingerprinted := ⟨fingerprinted, trivial, fun _ => trivial⟩
  have carried := Node.Fingerprinted.step.run started current reached
  refine ⟨contest, passed, rfl, sound.survives fun key row present =>
    (carried.store key row present).own, fun supersedes edit made => ?_⟩
  have kept := Contest.Kept.step.run ⟨first, Contest.Kept.start daemon place limit store disk⟩
    (spares.and supersedes) passed
  exact Record.yieldsTo_iff.mpr (kept.2 edit made)

end

section
attribute [local instance] Blake3.checksum

/-- The record of a file that the user has written. -/
def localRecord (ns : I64) (content : List UInt8) : Record :=
  .sample .sample ns (.fill 9) (.file content.length (Blake3.hash content))

/-- A user writes a file, and a session merges a peer's record of it. -/
def editing (ns : I64) : List Label :=
  .attach "c" "/c" (some "/c") :: .write placeF.diskKey ⟨[7], ns⟩ :: merges 0 (announced 5 [])

/-- The user's file is newer than the peer's record, and its bytes are gone. -/
theorem newer_edit_overwritten :
    ∃ node contest,
      run (Node.step .sample) (Node.start .empty ∅) (editing 9) = some node ∧
      node.store.record placeF.key = some (announced 5 []) ∧
      ¬ KeepsEdits (.fill 9) 9 node.store node.disk
        (applyFileFixture node.store node.disk (announced 5 []) [] (.sample "/c") 0 100).2.2
        (announced 5 []) ∧
      run (Contest.step .sample placeF 9) (Contest.start .sample placeF 9 .empty ∅)
        (editing 9 ++ installs 0 (announced 5 []) []) = some contest ∧
      ¬ contest.Survives placeF := by
  have outcome : ((run (Node.step .sample) (Node.start .empty ∅) (editing 9)).map fun node =>
      (node.store.record placeF.key, node.disk[placeF.diskKey]?,
        unscannedEdit (.fill 9) 9 node.store placeF.key ⟨[7], 9⟩)) =
      some (some (announced 5 []), some ⟨[7], 9⟩, some (localRecord 9 [7])) := by
    decide +kernel
  have offers : ((run (Contest.step .sample placeF 9) (Contest.start .sample placeF 9 .empty ∅)
      (editing 9 ++ installs 0 (announced 5 []) [])).map Contest.put) =
      some [announced 5 [], localRecord 9 [7]] := by
    decide +kernel
  have beats : (localRecord 9 [7]).compareWinner (announced 5 []) = .gt := by decide +kernel
  obtain ⟨node, reached, same⟩ := Option.map_eq_some_iff.mp outcome
  obtain ⟨stored, found, edit⟩ := by simpa only [Prod.mk.injEq] using same
  obtain ⟨contest, passed, put⟩ := Option.map_eq_some_iff.mp offers
  refine ⟨node, contest, reached, stored, fun keeps => ?_, passed, fun survives => ?_⟩
  · have newer : NewerEdit (.fill 9) 9 node.store node.disk (announced 5 []) "/c" ⟨[7], 9⟩ :=
      ⟨found, localRecord 9 [7], edit, beats⟩
    have renames : Renames (announced 5 []) [] (.sample "/c") "/c" :=
      ⟨rfl, rfl, rfl, by decide, rfl, rfl⟩
    have same := (applyFileFixture_keeps _ _ _ _ _ _ _ _ _).mp keeps "/c" _ newer renames
    cases same
  · have latest := survives.latest
    rw [put] at latest
    have below := latest.2 (localRecord 9 [7]) (List.mem_cons_of_mem _ List.mem_cons_self)
    rw [Record.compareWinner_eq_gt] at beats
    exact absurd beats (not_lt.mpr below)

/-- An older file gives way to the peer's record, and a newer one stays. -/
theorem newer_edit_stands :
    ∃ contest, run (Contest.step .sample placeF 9) (Contest.start .sample placeF 9 .empty ∅)
        (editing 3 ++ installs 0 (announced 5 []) [] ++ [.write placeF.diskKey ⟨[8], 9⟩]) =
          some contest ∧
      contest.Survives placeF ∧ contest.newest placeF = some (localRecord 9 [8]) ∧
      (localRecord 3 [7]).YieldsTo (contest.newest placeF) ∧
      contest.node.disk[placeF.diskKey]? = some ⟨[8], 9⟩ := by
  have total : (run (Node.step .sample) (Node.start .empty ∅)
      (editing 3 ++ installs 0 (announced 5 []) [] ++
        [.write placeF.diskKey ⟨[8], 9⟩])).isSome = true := by
    decide +kernel
  obtain ⟨node, reached⟩ := Option.isSome_iff_exists.mp total
  have fingerprinted : StateStore.empty.Fingerprinted := fun key row present => by
    rw [recordState, StateStore.empty, Std.ExtTreeMap.getElem?_empty] at present
    cases present
  obtain ⟨contest, passed, _, survives, yields⟩ := (newest_bytes_survive .sample 9).2.2 placeF
    .empty ∅ _ node fingerprinted (by decide +kernel) (by decide +kernel) reached
  have outcome : ((run (Contest.step .sample placeF 9) (Contest.start .sample placeF 9 .empty ∅)
      (editing 3 ++ installs 0 (announced 5 []) [] ++ [.write placeF.diskKey ⟨[8], 9⟩])).map
        fun contest => (contest.newest placeF, contest.edits,
          contest.node.disk[placeF.diskKey]?)) =
      some (some (localRecord 9 [8]), [localRecord 9 [8], localRecord 3 [7]], some ⟨[8], 9⟩) := by
    decide +kernel
  rw [passed, Option.map_some, Option.some.injEq, Prod.mk.injEq, Prod.mk.injEq] at outcome
  obtain ⟨newest, edits, found⟩ := outcome
  refine ⟨contest, passed, survives, newest, yields (by decide +kernel) _ ?_, found⟩
  rw [edits]
  exact List.mem_cons_of_mem _ List.mem_cons_self

end

end Skillsync
