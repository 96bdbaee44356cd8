import Skillsync.Places

set_option autoImplicit false

namespace Skillsync

open Runs StateStore

/-- `duration_ns` of a duration in nanoseconds. -/
def durationNs (nanoseconds : Nat) : I64 := .clamp nanoseconds

/-- A daemon whose `max_future_clock_skew` bounds scans and sessions. -/
def Daemon.withSkew (daemon : Daemon) (skew : Nat) : Daemon :=
  { daemon with
    scanner := { daemon.scanner with maxFutureSkew := durationNs skew }
    session := { daemon.session with maxFutureClockSkew := durationNs skew } }

/-- The latest modification time that is accepted at a time. -/
def futureLimit (skew : Nat) (now : I64) : I64 := now.saturatingAdd (durationNs skew)

def SessionAction.reading : SessionAction → Option I64
  | .compare _ now | .merge now | .markRemoved now | .logRemoval now | .markInstalled now
  | .markInstallFailed now | .markUnavailable now | .log _ now => some now
  | _ => none

/-- What a step has read from the clock. -/
def Label.reading : Label → Option I64
  | .walk _ _ _ observedNs _ => some observedNs
  | .session _ action => action.reading
  | _ => none

/-- The tombstone that the next transaction of a scan merges. -/
def ScanPhase.creates (daemon : Daemon) : ScanPhase → Option Record
  | .deleting run (winner :: _) =>
      if keepsWinner daemon.scanner run.context winner then none
      else (deletionRecord run.name daemon.session.localEndpoint run.observedNs
        winner.record).toOption
  | _ => none

/-- A node and its clock, with the tombstones that its scans have created. -/
structure ClockedNode where
  node : Node
  now : I64
  created : List Record

namespace ClockedNode

/-- The tombstone that a label makes a scan create. -/
def creates (daemon : Daemon) (clocked : ClockedNode) : Label → Option Record
  | .advance => clocked.node.scan.creates daemon
  | _ => none

/-- A step at a time that is not before the last one; a thread may have read the clock earlier. -/
def step [Blake3] (daemon : Daemon) (clocked : ClockedNode) (timed : I64 × Label) :
    Option ClockedNode :=
  if clocked.now ≤ timed.1 ∧ ∀ reading ∈ timed.2.reading, reading ≤ timed.1 then
    (clocked.node.step daemon timed.2).map fun node =>
      ⟨node, timed.1, clocked.created ++ (clocked.creates daemon timed.2).toList⟩
  else none

end ClockedNode

theorem durationNs_nonneg (skew : Nat) : 0 ≤ (durationNs skew).val := by
  rw [durationNs, I64.clamp_val]
  omega

theorem le_futureLimit (skew : Nat) (now : I64) : now ≤ futureLimit skew now :=
  I64.le_saturatingAdd (durationNs_nonneg skew)

theorem futureLimit_mono (skew : Nat) {now later : I64} (ordered : now ≤ later) :
    futureLimit skew now ≤ futureLimit skew later :=
  I64.saturatingAdd_le_saturatingAdd ordered (le_refl _)

/-- A record is within a limit, or one of the tombstones by one nanosecond ahead of it. -/
def Record.Within (record : Record) (limit : I64) (created : List Record) : Prop :=
  record.modifiedNs ≤ limit ∨
    record ∈ created ∧ record.kind = .tombstone ∧ record.modifiedNs ≤ limit.saturatingSucc

theorem Record.Within.mono {record : Record} {limit later : I64} {created : List Record}
    (within : record.Within limit created) (ordered : limit ≤ later) :
    record.Within later created := by
  rcases within with soon | ⟨member, removed, soon⟩
  · exact Or.inl (soon.trans ordered)
  · exact Or.inr ⟨member, removed, soon.trans (I64.saturatingSucc_le_saturatingSucc ordered)⟩

theorem Record.Within.append {record : Record} {limit : I64} {created : List Record}
    (within : record.Within limit created) (more : List Record) :
    record.Within limit (created ++ more) := by
  rcases within with soon | ⟨member, removed, soon⟩
  · exact Or.inl soon
  · exact Or.inr ⟨List.mem_append_left _ member, removed, soon⟩

theorem Record.Within.of_file {record : Record} {limit : I64} {created : List Record}
    (within : record.Within limit created) (isFile : record.kind.isFile = true) :
    record.modifiedNs ≤ limit := by
  rcases within with soon | ⟨-, removed, -⟩
  · exact soon
  · rw [removed] at isFile
    cases isFile

/-- The tombstone of a file within the limit is at most one nanosecond ahead of it. -/
theorem deletionRecord_within {name : String} {author : EndpointId} {observedNs limit : I64}
    {winner tombstone : Record} (observed : observedNs ≤ limit) (soon : winner.modifiedNs ≤ limit)
    (built : deletionRecord name author observedNs winner = .ok tombstone) :
    tombstone.kind = .tombstone ∧ tombstone.modifiedNs ≤ limit.saturatingSucc := by
  obtain ⟨-, -, stamped, -, removed⟩ := Record.new_ok built
  refine ⟨removed, ?_⟩
  rw [stamped]
  exact max_le (observed.trans (I64.le_saturatingSucc limit))
    (I64.saturatingSucc_le_saturatingSucc soon)

/-- The rows that a scan has read hold no file beyond the limit. -/
def RowsWithin (limit : I64) (rows : List PathRecordState) : Prop :=
  ∀ row ∈ rows, row.record.kind.isFile = true → row.record.modifiedNs ≤ limit

def FileTask.Within (limit : I64) : FileTask → Prop
  | .merge candidate _ => candidate.modifiedNs ≤ limit
  | _ => True

/-- What a scan is about to merge is within the limit. -/
def ScanPhase.Within (limit now : I64) : ScanPhase → Prop
  | .idle => True
  | .walked run => run.observedNs ≤ now
  | .warning run _ => run.observedNs ≤ now
  | .filing run current _ task =>
      run.observedNs ≤ now ∧ RowsWithin limit current ∧ task.Within limit
  | .deleting run rest => run.observedNs ≤ now ∧ RowsWithin limit rest

def SessionPhase.Within (limit : I64) : SessionPhase → Prop
  | .merging candidate => candidate.modifiedNs ≤ limit
  | _ => True

structure Node.Within (node : Node) (limit now : I64) (created : List Record) : Prop where
  stored : ∀ key record, node.store.record key = some record → record.Within limit created
  scan : node.scan.Within limit now
  sessions : ∀ i, (node.sessions i).Within limit

theorem RowsWithin.mono {limit later : I64} {rows : List PathRecordState}
    (within : RowsWithin limit rows) (ordered : limit ≤ later) : RowsWithin later rows :=
  fun row member isFile => (within row member isFile).trans ordered

theorem ScanPhase.Within.mono {limit later now next : I64} {phase : ScanPhase}
    (within : phase.Within limit now) (ordered : limit ≤ later) (passed : now ≤ next) :
    phase.Within later next := by
  cases phase with
  | idle => trivial
  | walked run => exact le_trans (b := now) within passed
  | warning run rest => exact le_trans (b := now) within passed
  | filing run current rest task =>
      refine ⟨within.1.trans passed, within.2.1.mono ordered, ?_⟩
      cases task with
      | merge candidate winner => exact le_trans (b := limit) within.2.2 ordered
      | _ => trivial
  | deleting run rest => exact ⟨within.1.trans passed, within.2.mono ordered⟩

theorem SessionPhase.Within.mono {limit later : I64} {phase : SessionPhase}
    (within : phase.Within limit) (ordered : limit ≤ later) : phase.Within later := by
  cases phase with
  | merging candidate => exact le_trans (b := limit) within ordered
  | _ => trivial

theorem Node.Within.mono {node : Node} {limit later now next : I64} {created : List Record}
    (within : node.Within limit now created) (ordered : limit ≤ later) (passed : now ≤ next) :
    node.Within later next created :=
  ⟨fun key record stored => (within.stored key record stored).mono ordered,
    within.scan.mono ordered passed, fun i => (within.sessions i).mono ordered⟩

section
variable {store after : StateStore} {key : RecordKey} {record : Record}

/-- A record of a rewritten row is the new one or was stored before. -/
theorem StateStore.Rewritten.writes {other : RecordKey} {row : PathRecordState}
    (written : store.Rewritten other row after) (found : after.record key = some record) :
    store.record key = some record ∨ record = row.record := by
  rw [StateStore.record, written.rows] at found
  by_cases same : other = key
  · rw [if_pos same, Option.map_some, Option.some.injEq] at found
    exact Or.inr found.symm
  · rw [if_neg same] at found
    exact Or.inl found

/-- A row that keeps its record writes none. -/
theorem StateStore.Rewritten.keeps {row old : PathRecordState}
    {other : RecordKey} (written : store.Rewritten other row after)
    (present : store.recordState other = some old) (same : row.record = old.record)
    (found : after.record key = some record) : store.record key = some record := by
  rwa [written.record present same] at found

variable [Blake3] {daemon : Daemon}

/-- The record that the next transaction of a scan merges. -/
def ScanPhase.merges (daemon : Daemon) : ScanPhase → Option Record
  | .filing _ _ _ (.merge candidate _) => some candidate
  | phase => phase.creates daemon

theorem Advanced.writes {phase next : ScanPhase} (step : Advanced daemon store phase after next)
    (found : after.record key = some record) :
    store.record key = some record ∨ phase.merges daemon = some record := by
  cases step with
  | completed run after rows _ =>
      left
      rw [StateStore.record, rows, completedRow_record] at found
      exact found
  | warned run event rest after same => exact Or.inl ((same.record key).symm.trans found)
  | diverged run current path disk rest row after _ present _ written =>
      exact Or.inl (written.keeps present rfl found)
  | passed run current path disk rest task after _ same =>
      exact Or.inl ((same.record key).symm.trans found)
  | settled run current path disk rest basis row after present _ written =>
      exact Or.inl (written.keeps present rfl found)
  | accepted run current path disk rest candidate winner after _ written =>
      rcases written.writes found with old | rfl
      · exact Or.inl old
      · exact Or.inr rfl
  | rejected run current path disk rest candidate winner after _ same =>
      exact Or.inl ((same.record key).symm.trans found)
  | repaired run current path disk rest row after present _ written =>
      exact Or.inl (written.keeps present rfl found)
  | deleted run winner rest tombstone after removes built _ written =>
      rcases written.writes found with old | rfl
      · exact Or.inl old
      · right
        simp only [ScanPhase.merges, ScanPhase.creates, removes, built, Bool.false_eq_true,
          ↓reduceIte]
        rfl
  | outranked run winner rest tombstone after _ _ _ same =>
      exact Or.inl ((same.record key).symm.trans found)
  | finished run after same => exact Or.inl ((same.record key).symm.trans found)
  | _ => exact Or.inl found

theorem Acted.writes {i : Nat} {disk diskAfter : Disk} {phase next : SessionPhase}
    {action : SessionAction} (step : Acted daemon i store disk phase action after diskAfter next)
    (found : after.record key = some record) :
    store.record key = some record ∨ phase = .merging record := by
  cases step with
  | ended phase action after same => exact Or.inl ((same.record key).symm.trans found)
  | accepted candidate now after _ written =>
      rcases written.writes found with old | rfl
      · exact Or.inl old
      · exact Or.inr rfl
  | rejected candidate now after _ same => exact Or.inl ((same.record key).symm.trans found)
  | tombstoned candidate now row after present _ written =>
      exact Or.inl (written.keeps present rfl found)
  | marked installed file event now row after present _ _ rows =>
      left
      rw [StateStore.record, rows] at found
      split at found
      · rename_i same
        rw [← same]
        rw [Option.map_some, Option.some.injEq] at found
        exact record_eq_some.mpr ⟨row, present, found⟩
      · rwa [reboundRow_record] at found
  | installFailed record now row after present _ written =>
      exact Or.inl (written.keeps present rfl found)
  | unavailable key now row after present _ written =>
      exact Or.inl (written.keeps present rfl found)
  | _ => exact Or.inl found

omit [Blake3] in
/-- A scan merges no file whose time is beyond its limit. -/
theorem chooseTask_inTime {run other : ScanRun} {current read : List PathRecordState}
    {path : ProtocolPath} {disk : DiskFile} {rest listed : List (ProtocolPath × DiskFile)}
    {candidate : Record} {winner : Option Record}
    (chosen : (chooseTask daemon store run current path disk rest).2 =
      .filing other read listed (.merge candidate winner)) :
    candidate.modifiedNs ≤ run.observedNs.saturatingAdd daemon.scanner.maxFutureSkew := by
  unfold chooseTask at chosen
  dsimp only at chosen
  split at chosen
  · split at chosen
    · unfold committed at chosen
      split at chosen <;> cases chosen
    · unfold committed at chosen
      split at chosen <;> cases chosen
  · rename_i inTime
    split at chosen
    · cases chosen
    · rename_i built outcome
      obtain ⟨-, -, stamped, -, -⟩ := Record.new_ok outcome
      obtain ⟨-, -, -, task⟩ := ScanPhase.filing.inj chosen
      split at task
      · cases task
      · obtain ⟨rfl, -⟩ := FileTask.merge.inj task
        rw [stamped]
        exact not_lt.mp inTime

/-- A session merges no candidate whose time is beyond its limit. -/
theorem compare_inTime {i : Nat} {disk diskAfter : Disk} {candidate other : Record} {now : I64}
    (compared : sessionStep daemon i store disk .idle (.compare candidate now) =
      some (after, diskAfter, .merging other)) :
    other.modifiedNs ≤ now.saturatingAdd daemon.session.maxFutureClockSkew := by
  simp only [sessionStep] at compared
  split at compared
  · unfold committed at compared
    split at compared <;> cases compared
  · rename_i inTime
    split at compared
    · cases compared
    · cases compared
      exact not_lt.mp inTime

variable {skew : Nat} {limit now : I64} {created : List Record}

theorem ScanPhase.Within.advanced {phase : ScanPhase}
    (within : phase.Within (futureLimit skew now) now)
    (stored : ∀ key record, store.record key = some record →
      record.Within (futureLimit skew now) created) :
    (advanceScan (daemon.withSkew skew) store phase).2.Within (futureLimit skew now) now := by
  have step := advanceScan_advanced (daemon.withSkew skew) store phase
  generalize done : advanceScan (daemon.withSkew skew) store phase = result at step
  obtain ⟨after, next⟩ := result
  dsimp only at step ⊢
  cases step with
  | stopped => trivial
  | completed run after _ _ => exact within
  | warned run event rest after _ => exact within
  | read run =>
      refine ⟨within, fun row member isFile => ?_, trivial⟩
      obtain ⟨path, present⟩ := mem_recordStates.mp member
      exact (stored _ _ (record_eq_some.mpr ⟨row, present, rfl⟩)).of_file isFile
  | filed run current task => exact ⟨within.1, within.2.1⟩
  | differed run current path disk rest candidate _ _ =>
      refine ⟨within.1, within.2.1, ?_⟩
      have inTime := chooseTask_inTime (congrArg Prod.snd done)
      exact le_trans inTime (futureLimit_mono skew within.1)
  | kept run winner rest _ =>
      exact ⟨within.1, fun row member => within.2 row (List.mem_cons_of_mem _ member)⟩
  | deleted run winner rest tombstone after _ _ _ _ =>
      exact ⟨within.1, fun row member => within.2 row (List.mem_cons_of_mem _ member)⟩
  | outranked run winner rest tombstone after _ _ _ _ =>
      exact ⟨within.1, fun row member => within.2 row (List.mem_cons_of_mem _ member)⟩
  | finished => trivial
  | _ => exact ⟨within.1, within.2.1, trivial⟩

omit [Blake3] in
/-- What a scan merges is within the limit, or a tombstone that it creates. -/
theorem ScanPhase.Within.merges {phase : ScanPhase} {record : Record}
    (within : phase.Within (futureLimit skew now) now)
    (merged : phase.merges (daemon.withSkew skew) = some record) :
    record.Within (futureLimit skew now) (phase.creates (daemon.withSkew skew)).toList := by
  unfold ScanPhase.merges at merged
  split at merged
  · obtain rfl := Option.some.inj merged
    exact Or.inl within.2.2
  · right
    rw [merged]
    refine ⟨List.mem_singleton_self _, ?_⟩
    unfold ScanPhase.creates at merged
    split at merged
    · rename_i run winner rest _
      split at merged
      · cases merged
      · rename_i removes
        rw [Fallible.Except.toOption_eq_some] at merged
        have isFile : winner.record.kind.isFile = true :=
          (keepsWinner_eq_false.mp (Bool.eq_false_of_not_eq_true removes)).1
        exact deletionRecord_within (within.1.trans (le_futureLimit skew now))
          (within.2 winner List.mem_cons_self isFile) merged
    · cases merged

theorem SessionPhase.Within.acted {i : Nat} {disk diskAfter : Disk} {phase next : SessionPhase}
    {action : SessionAction} (read : ∀ reading ∈ action.reading, reading ≤ now)
    (done : sessionStep (daemon.withSkew skew) i store disk phase action =
      some (after, diskAfter, next)) : next.Within (futureLimit skew now) := by
  cases sessionStep_acted done with
  | differed candidate reading =>
      have inTime := compare_inTime done
      exact le_trans inTime (futureLimit_mono skew (read reading rfl))
  | notInstalled record stream environment phase idle =>
      rcases idle with rfl | rfl <;> trivial
  | _ => trivial

theorem Node.Within.step {node next : Node} {label : Label}
    (within : node.Within (futureLimit skew now) now created)
    (read : ∀ reading ∈ label.reading, reading ≤ now)
    (taken : node.step (daemon.withSkew skew) label = some next) :
    next.Within (futureLimit skew now) now (created ++
      (ClockedNode.creates (daemon.withSkew skew) ⟨node, now, created⟩ label).toList) := by
  cases label with
  | walk name localPath root observedNs fileSystem =>
      cases Node.step_cases taken with
      | walked =>
          exact ⟨fun key record found => (within.stored key record found).append _,
            read observedNs rfl, within.sessions⟩
  | advance =>
      obtain rfl := Option.some.inj taken
      refine ⟨fun key record found => ?_, within.scan.advanced within.stored, within.sessions⟩
      rcases (advanceScan_advanced (daemon.withSkew skew) node.store node.scan).writes found with
        old | merged
      · exact (within.stored key record old).append _
      · rcases within.scan.merges merged with soon | ⟨member, made⟩
        · exact Or.inl soon
        · exact Or.inr ⟨List.mem_append_right _ member, made⟩
  | abort =>
      obtain rfl := Option.some.inj taken
      exact ⟨fun key record found => (within.stored key record found).append _, trivial,
        within.sessions⟩
  | session i action =>
      obtain ⟨⟨store, disk, phase⟩, acted, rfl⟩ := Option.map_eq_some_iff.mp taken
      refine ⟨fun key record found => ?_, within.scan, ?_⟩
      · rcases (sessionStep_acted acted).writes found with old | merging
        · exact (within.stored key record old).append _
        · have soon := within.sessions i
          rw [merging] at soon
          exact Or.inl soon
      · exact forall_update (SessionPhase.Within.acted read acted) within.sessions
  | write key file =>
      obtain rfl := Option.some.inj taken
      exact ⟨fun key record found => (within.stored key record found).append _, within.scan,
        within.sessions⟩
  | remove key =>
      obtain rfl := Option.some.inj taken
      exact ⟨fun key record found => (within.stored key record found).append _, within.scan,
        within.sessions⟩
  | attach name localPath root =>
      cases Node.step_cases taken with
      | attached _ _ _ store rows _ =>
          refine ⟨fun key record found => ?_, within.scan, within.sessions⟩
          rw [record_congr (rows key)] at found
          exact (within.stored key record found).append _

end

namespace ClockedNode

/-- The winners of a node are within the limit of its clock. -/
def Punctual (skew : Nat) (clocked : ClockedNode) : Prop :=
  clocked.node.Within (futureLimit skew clocked.now) clocked.now clocked.created

variable [Blake3] {daemon : Daemon} {skew : Nat}

/-- The step lemma: the limit moves with the clock before the step is taken. -/
theorem Punctual.step :
    Preserves (ClockedNode.step (daemon.withSkew skew)) (fun _ _ => True) (Punctual skew) := by
  intro clocked timed next punctual _ taken
  unfold ClockedNode.step at taken
  split at taken
  · rename_i clock
    obtain ⟨node, stepped, rfl⟩ := Option.map_eq_some_iff.mp taken
    exact (punctual.mono (futureLimit_mono skew clock.1) clock.1).step clock.2 stepped
  · cases taken

omit [Blake3] in
/-- At the start nothing is stored and no thread runs. -/
theorem punctual_start (disk : Disk) (now : I64) :
    Punctual skew ⟨.start .empty disk, now, []⟩ := by
  refine ⟨fun key record found => ?_, trivial, fun _ => trivial⟩
  cases found

end ClockedNode

/-- In every run of scans and merges whose clock never goes back, a stored record is at most the
skew ahead of the clock, and only a tombstone that a scan of the run has created may be one
nanosecond further ahead. -/
theorem winners_within_skew [Blake3] (daemon : Daemon) (skew : Nat) (disk : Disk) (now : I64)
    (labels : List (I64 × Label)) (after : ClockedNode)
    (ran : run (ClockedNode.step (daemon.withSkew skew)) ⟨.start .empty disk, now, []⟩ labels =
      some after) (key : RecordKey) (record : Record)
    (stored : after.node.store.record key = some record) :
    record.modifiedNs ≤ after.now.saturatingAdd (durationNs skew) ∨
      record ∈ after.created ∧ record.kind = .tombstone ∧
        record.modifiedNs ≤ (after.now.saturatingAdd (durationNs skew)).saturatingSucc := by
  have punctual := ClockedNode.Punctual.step.run (ClockedNode.punctual_start disk now)
    (Along.of_forall fun _ _ _ => trivial) ran
  exact punctual.stored key record stored

section
attribute [local instance] Blake3.checksum

/-- A record is merged and installed; then its file is removed and a scan finds the root empty. -/
def deletedAhead : List Label :=
  [.attach "c" "/c" (some "/c"), .session 0 (.compare (announced 19 []) 9), .session 0 (.merge 9),
    .session 0 .checkWinner] ++ installs 0 (announced 19 []) [] ++
    [.remove ⟨"/c", .sample⟩, walkBare, .advance, .advance, .advance, .advance]

/-- At the time 9 and with a skew of 10, the tombstone of the record of the time 19 has the
time 20. -/
theorem tombstone_one_ahead :
    ∃ after, run (ClockedNode.step (Daemon.sample.withSkew 10)) ⟨.start .empty ∅, 9, []⟩
        (deletedAhead.map fun label => (9, label)) = some after ∧
      ∃ record, after.node.store.record placeF.key = some record ∧ record.modifiedNs = 20 ∧
        record ∈ after.created := by
  have outcome : ((run (ClockedNode.step (Daemon.sample.withSkew 10)) ⟨.start .empty ∅, 9, []⟩
      (deletedAhead.map fun label => (9, label))).map fun after =>
        (after.now, (after.node.store.record placeF.key).map Record.modifiedNs)) =
      some (9, some 20) := by decide +kernel
  obtain ⟨after, reached, seen⟩ := Option.map_eq_some_iff.mp outcome
  obtain ⟨clock, found⟩ := Prod.mk.inj seen
  obtain ⟨record, stored, stamped⟩ := Option.map_eq_some_iff.mp found
  refine ⟨after, reached, record, stored, stamped, ?_⟩
  rcases winners_within_skew .sample 10 ∅ 9 _ after reached _ record stored with soon | ⟨made, -⟩
  · rw [stamped, clock] at soon
    exact absurd soon (by decide +kernel)
  · exact made

end

end Skillsync
