import Skillsync.CompleteScan
import Skillsync.Places

set_option autoImplicit false

namespace Skillsync

open Fallible StateStore

section
variable [Blake3]

/-- The store after some of the transactions of `pauseScan`. -/
def interruptedPause (scanner : Scanner) (name : String) (observedNs : I64) (store : StateStore)
    (status : CollectionScanStatus) : Nat → StateStore
  | 0 => store
  | 1 => store.setCollectionScanStatus name status
  | _ => leftStore (pauseScan scanner name observedNs store status)

/-- The store after some of the transactions of `scan_collection`. -/
def interrupted (daemon : Daemon) (store : StateStore) (name localPath : String)
    (observedNs : I64) (opened : Except RootError (RootPath × FileSystem)) (steps : Nat) :
    StateStore :=
  match opened with
  | .error .notDirectory =>
      interruptedPause daemon.scanner name observedNs store .notDirectory steps
  | .error .notFound => interruptedPause daemon.scanner name observedNs store .missing steps
  | .error .io | .error .unstable => store
  | .ok (root, fileSystem) =>
      match walk fileSystem name daemon.scanner.ignores (daemon.scanner.comparisonKey root) with
      | .error _ => store
      | .ok context =>
          ((fun state => advanceScan daemon state.1 state.2)^[steps]
            (store, .walked ⟨name, localPath, root, observedNs, context⟩)).1

/-- One of the prefixes is the whole scan. -/
theorem interrupted_whole (daemon : Daemon) (store : StateStore) (name localPath : String)
    (observedNs : I64) (opened : Except RootError (RootPath × FileSystem)) :
    ∃ steps, interrupted daemon store name localPath observedNs opened steps =
      leftStore (scanCollection daemon.scanner store name localPath daemon.session.localEndpoint
        observedNs opened) := by
  cases opened with
  | error reason =>
      cases reason with
      | notDirectory => exact ⟨2, rfl⟩
      | notFound => exact ⟨2, rfl⟩
      | io => exact ⟨0, rfl⟩
      | unstable => exact ⟨0, rfl⟩
  | ok found =>
      obtain ⟨root, fileSystem⟩ := found
      cases walked : walk fileSystem name daemon.scanner.ignores
          (daemon.scanner.comparisonKey root) with
      | error reason =>
          refine ⟨0, ?_⟩
          simp only [interrupted, scanCollection, walked]
          rfl
      | ok context =>
          obtain ⟨steps, ends⟩ :=
            scan_alone daemon ⟨name, localPath, root, observedNs, context⟩ store
          refine ⟨steps, ?_⟩
          simp only [interrupted, scanCollection, walked]
          exact congrArg Prod.fst ends

section prefixes
variable {daemon : Daemon} {store : StateStore} {run : ScanRun}

variable (daemon store run) in
/-- The row of a path when the loops of the scan start. -/
def firstRow (path : ProtocolPath) : Option PathRecordState :=
  store.completedRow run.name run.root ⟨run.name, path⟩

variable (daemon store run) in
/-- The row of a path when the scan ends. -/
def lastRow (path : ProtocolPath) : Option PathRecordState :=
  scannedRow daemon.scanner run.name daemon.session.localEndpoint run.observedNs run.context path
    (firstRow store run path)

variable (daemon store run) in
/-- Every row is the first or the last one of its path; a waiting path has the first one. -/
structure Partly (waiting : ProtocolPath → Prop) (current : StateStore) : Prop where
  bound : current.resolvedRoot run.name = some run.root
  others : ∀ key, key.collection ≠ run.name → current.recordState key = store.recordState key
  rows : ∀ path, current.recordState ⟨run.name, path⟩ = firstRow store run path ∨
    current.recordState ⟨run.name, path⟩ = lastRow daemon store run path
  waits : ∀ path, waiting path → current.recordState ⟨run.name, path⟩ = firstRow store run path

section partly
variable {waiting waiting' : ProtocolPath → Prop} {current after : StateStore}

theorem Partly.unchanged (partly : Partly daemon store run waiting current)
    (same : current.Unchanged after) (fewer : ∀ path, waiting' path → waiting path) :
    Partly daemon store run waiting' after := by
  constructor
  · rw [same.roots, partly.bound]
  · intro key other
    rw [same.rows, partly.others key other]
  · intro path
    rw [same.rows]
    exact partly.rows path
  · intro path waits
    rw [same.rows]
    exact partly.waits path (fewer path waits)

/-- The row of one path has become its last one. -/
theorem Partly.rewritten (partly : Partly daemon store run waiting current) {key : RecordKey}
    {path : ProtocolPath} {row : PathRecordState} (named : key = ⟨run.name, path⟩)
    (written : current.Rewritten key row after) (last : lastRow daemon store run path = some row)
    (fewer : ∀ other, waiting' other → waiting other ∧ path ≠ other) :
    Partly daemon store run waiting' after := by
  subst named
  constructor
  · rw [written.roots, partly.bound]
  · intro key other
    rw [written.of_ne fun same => other (congrArg RecordKey.collection same).symm,
      partly.others key other]
  · intro other
    by_cases same : path = other
    · rw [← same, written.at, last]
      exact Or.inr rfl
    · rw [written.of_ne fun equal => same (congrArg RecordKey.path equal)]
      exact partly.rows other
  · intro other waits
    obtain ⟨waited, differs⟩ := fewer other waits
    rw [written.of_ne fun equal => differs (congrArg RecordKey.path equal)]
    exact partly.waits other waited

end partly

variable (daemon store run) in
/-- What a pending transaction for a file will write is the last row of its path. -/
def TaskFits (path : ProtocolPath) (disk : DiskFile) : FileTask → Prop
  | .choose => True
  | .settle _ => ∀ row ∈ firstRow store run path,
      lastRow daemon store run path = some ⟨row.record, true, some disk⟩
  | .merge candidate _ => candidate.key = ⟨run.name, path⟩ ∧
      (accepts ((firstRow store run path).map PathRecordState.record) candidate = true →
        lastRow daemon store run path = some (mergedRow candidate none)) ∧
      (accepts ((firstRow store run path).map PathRecordState.record) candidate = false →
        ∀ row ∈ firstRow store run path, row.record.kind.isFile = true →
          lastRow daemon store run path = some ⟨row.record, false, none⟩)
  | .repair => ∀ row ∈ firstRow store run path, row.record.kind.isFile = true →
      lastRow daemon store run path = some ⟨row.record, false, none⟩

variable (store run) in
/-- Winners that the deletion loop has before it. -/
structure Winners (rest : List PathRecordState) : Prop where
  stored : ∀ winner ∈ rest, firstRow store run winner.record.path = some winner
  distinct : (rest.map fun winner => winner.record.path).Nodup

variable (store run) in
/-- The rows that a scan reads before its loops. -/
structure Reads (current : List PathRecordState) : Prop extends Winners store run current where
  read : ∀ path, Snapshot current path (firstRow store run path)

variable (daemon store run) in
/-- Where an interrupted scan stands. -/
inductive ScanProgress : StateStore → ScanPhase → Prop
  | started : ScanProgress store (.walked run)
  | warning (current : StateStore) (rest : List OperationalEvent) :
      Partly daemon store run (fun _ => True) current → ScanProgress current (.warning run rest)
  | filing (current : StateStore) (rows : List PathRecordState)
      (rest : List (ProtocolPath × DiskFile)) (task : FileTask) :
      Partly daemon store run (fun path => run.context.files[path]? = none ∨
        path ∈ rest.map Prod.fst) current →
      Reads store run rows → rest <:+ run.context.files.toList →
      (∀ entry ∈ rest.head?, TaskFits daemon store run entry.1 entry.2 task) →
      ScanProgress current (.filing run rows rest task)
  | deleting (current : StateStore) (rest : List PathRecordState) :
      Partly daemon store run (fun path => run.context.files[path]? = none ∧
        path ∈ rest.map fun winner => winner.record.path) current →
      Winners store run rest → ScanProgress current (.deleting run rest)
  | untouched : ScanProgress store .idle
  | stopped (current : StateStore) : Partly daemon store run (fun _ => False) current →
      ScanProgress current .idle

/-- The scan starts its loops with the first rows. -/
theorem completed_partly {after : StateStore}
    (rows : ∀ key, after.recordState key = store.completedRow run.name run.root key)
    (roots : ∀ name, after.resolvedRoot name =
      if name = run.name then some run.root else store.resolvedRoot name) :
    Partly daemon store run (fun _ => True) after := by
  constructor
  · rw [roots, if_pos rfl]
  · intro key other
    rw [rows, completedRow_of_ne store run.root other]
  · exact fun path => Or.inl (rows _)
  · exact fun path _ => rows _

theorem recordStates_reads {current : StateStore} (keyed : store.Keyed)
    (partly : Partly daemon store run (fun _ => True) current) :
    Reads store run (current.recordStates run.name) := by
  have keyedCurrent : current.Keyed := by
    apply keyed.of_record
    intro key
    by_cases other : key.collection = run.name
    · have named : key = ⟨run.name, key.path⟩ := by rw [← other]
      rw [named, StateStore.record, partly.waits _ trivial, firstRow, completedRow_record]
    · exact record_congr (partly.others key other)
  refine ⟨⟨?_, ?_⟩, ?_⟩
  · intro winner member
    obtain ⟨path, present⟩ := mem_recordStates.mp member
    have located : winner.record.path = path :=
      congrArg RecordKey.path (keyedCurrent.row present)
    rw [located, ← partly.waits path trivial, present]
  · exact nodup_recordStates keyedCurrent run.name
  · intro path
    rw [← partly.waits path trivial]
    exact snapshot_recordStates keyedCurrent run.name path

/-- The last row of a listed file. -/
theorem lastRow_listed {path : ProtocolPath} {disk : DiskFile} {candidate : Record}
    (listed : run.context.files[path]? = some disk)
    (built : Record.file run.name path disk.modifiedNs daemon.session.localEndpoint disk.size
      disk.hash = .ok candidate) :
    lastRow daemon store run path = filedRow candidate disk (firstRow store run path) := by
  rw [lastRow, scannedRow, listed]
  dsimp only
  rw [built]

/-- What the scan decides for a file is what it makes of its row. -/
theorem chooseTask_fits {current : StateStore} {rows : List PathRecordState} {path : ProtocolPath}
    {disk : DiskFile} {rest : List (ProtocolPath × DiskFile)}
    (read : Snapshot rows path (firstRow store run path))
    (waits : current.recordState ⟨run.name, path⟩ = firstRow store run path)
    (listed : run.context.files[path]? = some disk)
    (inTime : disk.modifiedNs ≤ run.observedNs.saturatingAdd daemon.scanner.maxFutureSkew) :
    chooseTask daemon current run rows path disk rest = (current, .idle) ∨
      ∃ task, TaskFits daemon store run path disk task ∧
        chooseTask daemon current run rows path disk rest =
          (current, .filing run rows ((path, disk) :: rest) task) := by
  unfold chooseTask
  dsimp only
  rw [if_neg (not_lt.mpr inTime)]
  cases built : Record.file run.name path disk.modifiedNs daemon.session.localEndpoint disk.size
      disk.hash with
  | error reason => exact Or.inl rfl
  | ok candidate =>
      refine Or.inr ⟨_, ?_, rfl⟩
      have last : lastRow daemon store run path =
          filedRow candidate disk (firstRow store run path) := lastRow_listed listed built
      obtain ⟨named, located, -⟩ := Record.new_ok built
      have candidateKey : candidate.key = ⟨run.name, path⟩ := by rw [Record.key, named, located]
      rw [StateStore.record, waits]
      cases first : firstRow store run path with
      | none =>
          rw [first] at last
          refine ⟨candidateKey, fun _ => last, fun rejected => ?_⟩
          rw [first] at rejected
          cases rejected
      | some row =>
          rw [first] at last
          rw [Option.map_some, Option.bind_some]
          have decision : (settleBasis rows path disk row.record).isSome = settles disk row := by
            rw [settleBasis_isSome, read, first, Option.any_some, settles]
          by_cases settled : settles disk row = true
          · rw [settled] at decision
            obtain ⟨basis, based⟩ := Option.isSome_iff_exists.mp decision
            rw [based]
            intro stored present
            rw [first] at present
            cases present
            rw [last, filedRow, if_pos settled]
          · rw [Bool.eq_false_iff.mpr settled, Option.isSome_eq_false_iff,
              Option.isNone_iff_eq_none] at decision
            rw [decision]
            rw [filedRow, if_neg settled] at last
            refine ⟨candidateKey, fun accepted => ?_, fun rejected stored present isFile => ?_⟩
            · rw [first] at accepted
              rw [last, if_pos (beq_iff_eq.mp accepted)]
            · rw [first] at rejected present
              cases present
              rw [last, if_neg (beq_eq_false_iff_ne.mp rejected), if_pos isFile]

section steps
variable {current after : StateStore} {phase : ScanPhase}

/-- A transaction for the first file of the loop. -/
theorem filing_progress {rows : List PathRecordState} {path : ProtocolPath} {disk : DiskFile}
    {rest : List (ProtocolPath × DiskFile)} {task : FileTask}
    (partly : Partly daemon store run (fun other => run.context.files[other]? = none ∨
      other ∈ ((path, disk) :: rest).map Prod.fst) current)
    (reads : Reads store run rows) (suffix : (path, disk) :: rest <:+ run.context.files.toList)
    (fits : TaskFits daemon store run path disk task) (chosen : task ≠ .choose)
    (step : Advanced daemon current (.filing run rows ((path, disk) :: rest) task) after phase) :
    ScanProgress daemon store run after phase := by
  have waits : current.recordState ⟨run.name, path⟩ = firstRow store run path :=
    partly.waits path (Or.inr List.mem_cons_self)
  have distinct : (((path, disk) :: rest).map Prod.fst).Nodup :=
    (OrderedMap.nodup_keys run.context.files).sublist (suffix.sublist.map Prod.fst)
  have listed : run.context.files[path]? = some disk :=
    Std.ExtTreeMap.mem_toList_iff_getElem?_eq_some.mp (suffix.subset List.mem_cons_self)
  have later : rest <:+ run.context.files.toList := (List.suffix_cons _ _).trans suffix
  have none_chosen : ∀ entry ∈ rest.head?, TaskFits daemon store run entry.1 entry.2 .choose :=
    fun _ _ => trivial
  have fewer : ∀ other, (run.context.files[other]? = none ∨ other ∈ rest.map Prod.fst) →
      (run.context.files[other]? = none ∨ other ∈ ((path, disk) :: rest).map Prod.fst) ∧
        path ≠ other := by
    intro other waiting
    refine ⟨waiting.imp_right (List.mem_cons_of_mem _), ?_⟩
    rintro rfl
    rcases waiting with missing | member
    · rw [listed] at missing
      cases missing
    · exact (List.nodup_cons.mp distinct).1 member
  cases step with
  | stopped => exact .stopped _ (partly.unchanged (.refl _) fun _ => False.elim)
  | passed _ _ _ _ _ _ _ _ same =>
      exact .filing _ rows rest .choose (partly.unchanged same fun other waiting =>
        (fewer other waiting).1) reads later none_chosen
  | diverged => exact absurd rfl chosen
  | chose => exact absurd rfl chosen
  | differed => exact absurd rfl chosen
  | settled _ _ _ _ _ basis row _ present isFile written =>
      rw [waits] at present
      exact .filing _ rows rest .choose
        (partly.rewritten rfl written (fits row present) fewer) reads later none_chosen
  | accepted _ _ _ _ _ candidate winner _ accepts written =>
      obtain ⟨key, replaces, -⟩ := fits
      rw [key, StateStore.record, waits] at accepts
      exact .filing _ rows rest .choose
        (partly.rewritten key written (replaces accepts) fewer) reads later none_chosen
  | rejected _ _ _ _ _ candidate winner _ rejects same =>
      obtain ⟨key, -, repairs⟩ := fits
      rw [key, StateStore.record, waits] at rejects
      refine .filing _ rows _ .repair (partly.unchanged same fun _ => id) reads suffix ?_
      intro entry first
      cases first
      exact repairs rejects
  | repaired _ _ _ _ _ row _ present isFile written =>
      rw [waits] at present
      exact .filing _ rows rest .choose
        (partly.rewritten rfl written (fits row present isFile) fewer) reads later none_chosen

/-- A transaction of the deletion loop. -/
theorem deleting_progress {rest : List PathRecordState}
    (partly : Partly daemon store run (fun path => run.context.files[path]? = none ∧
      path ∈ rest.map fun winner => winner.record.path) current)
    (winners : Winners store run rest)
    (step : Advanced daemon current (.deleting run rest) after phase) :
    ScanProgress daemon store run after phase := by
  have fewer {winner : PathRecordState} {left : List PathRecordState}
      (distinct : ((winner :: left).map fun row => row.record.path).Nodup) :
      ∀ other, (run.context.files[other]? = none ∧
          other ∈ left.map fun row => row.record.path) →
        (run.context.files[other]? = none ∧
          other ∈ (winner :: left).map fun row => row.record.path) ∧
          winner.record.path ≠ other := by
    rintro other ⟨missing, member⟩
    refine ⟨⟨missing, List.mem_cons_of_mem _ member⟩, ?_⟩
    rintro rfl
    exact (List.nodup_cons.mp distinct).1 member
  cases step with
  | stopped => exact .stopped _ (partly.unchanged (.refl _) fun _ => False.elim)
  | kept _ winner rest keeps =>
      have distinct := winners.distinct
      refine .deleting _ rest (partly.unchanged (.refl _) fun other waiting =>
        (fewer distinct other waiting).1) ⟨fun row member => ?_, distinct.of_cons⟩
      exact winners.stored row (List.mem_cons_of_mem _ member)
  | deleted _ winner rest tombstone _ removes built accepts written =>
      have distinct := winners.distinct
      have stored := winners.stored winner List.mem_cons_self
      have key := (deletionRecord_ok built).1
      have missing := (keepsWinner_eq_false.mp removes).2.2.1
      have waits := partly.waits _ ⟨missing, List.mem_cons_self⟩
      rw [key, StateStore.record, waits, stored] at accepts
      have last : lastRow daemon store run winner.record.path =
          some (mergedRow tombstone none) := by
        rw [lastRow, scannedRow, missing, stored, Option.map_some,
          deletedRow_removed (Bool.eq_false_iff.mp removes) built, if_pos (beq_iff_eq.mp accepts)]
      refine .deleting _ rest (partly.rewritten key written last (fewer distinct))
        ⟨fun row member => ?_, distinct.of_cons⟩
      exact winners.stored row (List.mem_cons_of_mem _ member)
  | outranked _ winner rest tombstone _ removes built accepts same =>
      have distinct := winners.distinct
      refine .deleting _ rest (partly.unchanged same fun other waiting =>
        (fewer distinct other waiting).1) ⟨fun row member => ?_, distinct.of_cons⟩
      exact winners.stored row (List.mem_cons_of_mem _ member)
  | finished _ _ same => exact .stopped _ (partly.unchanged same fun _ => False.elim)

end steps

/-- Each step of the scan leaves every row the first or the last one of its path. -/
theorem ScanProgress.advance {current : StateStore} {phase : ScanPhase} (keyed : store.Keyed)
    (inTime : NoFuture daemon.scanner run.observedNs run.context)
    (progress : ScanProgress daemon store run current phase) :
    ScanProgress daemon store run (advanceScan daemon current phase).1
      (advanceScan daemon current phase).2 := by
  have step := advanceScan_advanced daemon current phase
  generalize result : advanceScan daemon current phase = next at step
  obtain ⟨after, landed⟩ := next
  dsimp only at step ⊢
  cases progress with
  | started =>
      cases step with
      | stopped => exact .untouched
      | completed _ _ rows roots => exact .warning _ _ (completed_partly rows roots)
  | warning _ rest partly =>
      cases step with
      | stopped => exact .stopped _ (partly.unchanged (.refl _) fun _ => False.elim)
      | warned _ _ rest _ same => exact .warning _ rest (partly.unchanged same fun _ => id)
      | read =>
          exact .filing _ _ _ .choose (partly.unchanged (.refl _) fun _ _ => trivial)
            (recordStates_reads keyed partly) List.suffix_rfl fun _ _ => trivial
  | filing _ rows rest task partly reads suffix fits =>
      cases rest with
      | nil =>
          cases step with
          | stopped => exact .stopped _ (partly.unchanged (.refl _) fun _ => False.elim)
          | filed =>
              exact .deleting _ _ (partly.unchanged (.refl _) fun _ waiting => Or.inl waiting.1)
                reads.toWinners
      | cons entry rest =>
          obtain ⟨path, disk⟩ := entry
          by_cases choosing : task = .choose
          · subst choosing
            have listed : run.context.files[path]? = some disk :=
              Std.ExtTreeMap.mem_toList_iff_getElem?_eq_some.mp
                (suffix.subset List.mem_cons_self)
            have waits := partly.waits path (Or.inr List.mem_cons_self)
            rw [show advanceScan daemon current (.filing run rows ((path, disk) :: rest) .choose) =
              chooseTask daemon current run rows path disk rest from rfl] at result
            rcases chooseTask_fits (reads.read path) waits listed (inTime path disk listed) with
              stops | ⟨chosen, fits, chooses⟩
            · rw [stops] at result
              cases result
              exact .stopped _ (partly.unchanged (.refl _) fun _ => False.elim)
            · rw [chooses] at result
              cases result
              refine .filing _ rows _ chosen partly reads suffix ?_
              intro entry first
              cases first
              exact fits
          · exact filing_progress partly reads suffix (fits _ rfl) choosing step
  | deleting _ rest partly winners => exact deleting_progress partly winners step
  | untouched =>
      cases result
      exact .untouched
  | stopped _ partly =>
      cases result
      exact .stopped _ partly

/-- An interrupted scan: the rows of its collection are first or last ones. -/
structure ScanLeft (daemon : Daemon) (store : StateStore) (run : ScanRun) (left : StateStore) :
    Prop where
  keyed : left.Keyed
  others : ∀ key, key.collection ≠ run.name → left.recordState key = store.recordState key
  rows : ∀ path, left.completedRow run.name run.root ⟨run.name, path⟩ = firstRow store run path ∨
    left.completedRow run.name run.root ⟨run.name, path⟩ = lastRow daemon store run path

theorem Partly.left {waiting : ProtocolPath → Prop} {current : StateStore}
    (partly : Partly daemon store run waiting current) (keyed : current.Keyed) :
    ScanLeft daemon store run current := by
  refine ⟨keyed, partly.others, fun path => ?_⟩
  rw [completedRow, if_pos partly.bound]
  exact partly.rows path

theorem ScanProgress.left {current : StateStore} {phase : ScanPhase} (keyed : current.Keyed)
    (progress : ScanProgress daemon store run current phase) :
    ScanLeft daemon store run current := by
  cases progress with
  | started => exact ⟨keyed, fun _ _ => rfl, fun _ => Or.inl rfl⟩
  | warning _ _ partly => exact partly.left keyed
  | filing _ _ _ _ partly => exact partly.left keyed
  | deleting _ _ partly => exact partly.left keyed
  | untouched => exact ⟨keyed, fun _ _ => rfl, fun _ => Or.inl rfl⟩
  | stopped _ partly => exact partly.left keyed

/-- Whatever the number of transactions, the rows left are first or last ones. -/
theorem scan_prefix_left (run : ScanRun) (keyed : store.Keyed)
    (inTime : NoFuture daemon.scanner run.observedNs run.context) (steps : Nat) :
    ScanLeft daemon store run
      ((fun state => advanceScan daemon state.1 state.2)^[steps] (store, .walked run)).1 := by
  suffices held : ∀ state : StateStore × ScanPhase,
      state = (fun state => advanceScan daemon state.1 state.2)^[steps] (store, .walked run) →
      ScanProgress daemon store run state.1 state.2 ∧ state.2.Orderly ∧ state.1.Keyed by
    obtain ⟨progress, -, keyedLeft⟩ := held _ rfl
    exact progress.left keyedLeft
  induction steps with
  | zero =>
      rintro state rfl
      exact ⟨.started, trivial, keyed⟩
  | succ steps ih =>
      rintro state rfl
      obtain ⟨progress, orderly, keyedBefore⟩ := ih _ rfl
      rw [Function.iterate_succ_apply']
      have step := advanceScan_advanced daemon
        ((fun state => advanceScan daemon state.1 state.2)^[steps] (store, .walked run)).1
        ((fun state => advanceScan daemon state.1 state.2)^[steps] (store, .walked run)).2
      exact ⟨progress.advance keyed inTime, step.orderly orderly, step.keyed orderly keyedBefore⟩

end prefixes

section repeated
variable {daemon : Daemon} {store after : StateStore} {name localPath : String} {root : RootPath}
  {context : WalkContext} {counts : ScanSummary}

omit [Blake3] in
theorem completedRow_named (keyed : store.Keyed) (name : String) (root : RootPath)
    (path : ProtocolPath) :
    ∀ stored ∈ store.completedRow name root ⟨name, path⟩, stored.record.collection = name := by
  intro stored present
  have found : store.record ⟨name, path⟩ = some stored.record := by
    rw [← completedRow_record store name root, present]
    rfl
  exact congrArg RecordKey.collection (keyed _ _ found)

/-- A scan after an interrupted one ends where a scan alone ends. -/
theorem scanListing_resumed {left alone : StateStore} {aloneCounts : ScanSummary}
    {firstNs resumedNs aloneNs : I64} (keyed : store.Keyed)
    (stopped : ScanLeft daemon store ⟨name, localPath, root, firstNs, context⟩ left)
    (inTime : NoFuture daemon.scanner resumedNs context)
    (inTimeAlone : NoFuture daemon.scanner aloneNs context)
    (done : scanListing daemon.scanner left name localPath daemon.session.localEndpoint resumedNs
      root context = .ok (after, counts))
    (doneAlone : scanListing daemon.scanner store name localPath daemon.session.localEndpoint
      aloneNs root context = .ok (alone, aloneCounts)) (key : RecordKey) :
    UpToStamp name daemon.session.localEndpoint (store.record key) (after.recordState key)
      (alone.recordState key) := by
  by_cases here : key.collection = name
  · have named : key = ⟨name, key.path⟩ := by rw [← here]
    rw [named, scanListing_scannedRow stopped.keyed inTime done,
      scanListing_scannedRow keyed inTimeAlone doneAlone, ← completedRow_record store name root]
    have first := completedRow_named keyed name root key.path
    rcases stopped.rows key.path with same | same
    · rw [same]
      exact scannedRow_upToStamp first resumedNs aloneNs
    · rw [same, lastRow, firstRow, scannedRow_scannedRow first]
      exact scannedRow_upToStamp first firstNs aloneNs
  · have rows := (scanListing_ok stopped.keyed done).2 key here
    rw [rows, stopped.others key here, (scanListing_ok keyed doneAlone).2 key here]
    exact .same _

theorem scanListing_bound {observedNs : I64} (keyed : store.Keyed)
    (done : scanListing daemon.scanner store name localPath daemon.session.localEndpoint observedNs
      root context = .ok (after, counts)) :
    after.Keyed ∧ after.resolvedRoot name = some root := by
  have scanning : Always (fun result => Scanning store name root context result.1) _
      (scanListing daemon.scanner store name localPath daemon.session.localEndpoint observedNs root
        context) := scanListing_scanning keyed
  rw [done] at scanning
  exact ⟨scanning.keyed, scanning.bound⟩

/-- A second scan of the same disk changes nothing and counts nothing. -/
theorem scanListing_repeated {again : StateStore} {againCounts : ScanSummary}
    {firstNs secondNs : I64} (keyed : store.Keyed)
    (inTime : NoFuture daemon.scanner firstNs context)
    (inTimeAgain : NoFuture daemon.scanner secondNs context)
    (done : scanListing daemon.scanner store name localPath daemon.session.localEndpoint firstNs
      root context = .ok (after, counts))
    (doneAgain : scanListing daemon.scanner after name localPath daemon.session.localEndpoint
      secondNs root context = .ok (again, againCounts)) :
    (∀ key, again.recordState key = after.recordState key) ∧
      againCounts.accepted = 0 ∧ againCounts.tombstones = 0 := by
  obtain ⟨keyedAfter, bound⟩ := scanListing_bound keyed done
  have unchanged (key : RecordKey) :
      after.completedRow name root key = after.recordState key := if_pos bound
  have fixed (path : ProtocolPath) : scannedRow daemon.scanner name daemon.session.localEndpoint
      secondNs context path (after.completedRow name root ⟨name, path⟩) =
        after.completedRow name root ⟨name, path⟩ := by
    rw [unchanged, scanListing_scannedRow keyed inTime done]
    exact scannedRow_scannedRow (completedRow_named keyed name root path) firstNs secondNs
  refine ⟨fun key => ?_, scanListing_fixed keyedAfter inTimeAgain fixed doneAgain⟩
  by_cases here : key.collection = name
  · have named : key = ⟨name, key.path⟩ := by rw [← here]
    rw [named, scanListing_scannedRow keyedAfter inTimeAgain doneAgain, fixed, unchanged]
  · exact (scanListing_ok keyedAfter doneAgain).2 key here

/-- A known file under the scanned root that is gone ends as an accepted tombstone. -/
theorem scanListing_deletes {observedNs : I64} {path : ProtocolPath} {row : PathRecordState}
    (keyed : store.Keyed) (inTime : NoFuture daemon.scanner observedNs context)
    (done : scanListing daemon.scanner store name localPath daemon.session.localEndpoint
      observedNs root context = .ok (after, counts))
    (bound : store.resolvedRoot name = some root)
    (stored : store.recordState ⟨name, path⟩ = some row)
    (isFile : row.record.kind.isFile = true) (materialized : row.materialized = true)
    (missing : context.files[path]? = none)
    (notIgnored : isIgnored daemon.scanner.ignores path.text = false)
    (notExcluded : context.isExcluded path.text = false) (room : row.record.modifiedNs < I64.max) :
    ∃ tombstone, deletionRecord name daemon.session.localEndpoint observedNs row.record =
        .ok tombstone ∧ tombstone.compareWinner row.record = .gt ∧
      after.recordState ⟨name, path⟩ = some (mergedRow tombstone none) := by
  have key := keyed.row stored
  have located : row.record.path = path := congrArg RecordKey.path key
  have removes : ¬ keepsWinner daemon.scanner context row = true := by
    rw [Bool.not_eq_true, keepsWinner_eq_false, located]
    exact ⟨isFile, materialized, missing, notIgnored, notExcluded⟩
  have total : ∃ tombstone, deletionRecord name daemon.session.localEndpoint observedNs
      row.record = .ok tombstone := deletionRecord_total (congrArg RecordKey.collection key)
  obtain ⟨tombstone, built⟩ := total
  have beats := deletionRecord_beats room built
  refine ⟨tombstone, built, beats, ?_⟩
  rw [scanListing_scannedRow keyed inTime done, completedRow, if_pos bound, stored, scannedRow,
    missing, Option.map_some, deletedRow_removed removes built, if_pos beats]

end repeated

section collection
variable {daemon : Daemon} {store after : StateStore} {name localPath : String}
  {opened : Except RootError (RootPath × FileSystem)} {counts : ScanSummary}

omit [Blake3] in
theorem pauseScan_ok {scanner : Scanner} {observedNs : I64} {status : CollectionScanStatus}
    (done : pauseScan scanner name observedNs store status = .ok (after, counts)) :
    (∀ key, after.recordState key = store.recordState key) ∧ counts.accepted = 0 ∧
      counts.tombstones = 0 := by
  have rows : ∀ key, (leftStore (pauseScan scanner name observedNs store status)).recordState key =
      store.recordState key := pauseScan_left.2
  rw [done] at rows
  obtain ⟨logged, appended, done⟩ := Except.bind_ok done
  cases done
  exact ⟨rows, rfl, rfl⟩

/-- A scan that succeeds has paused the collection or walked its root. -/
theorem scanCollection_ok {observedNs : I64}
    (done : scanCollection daemon.scanner store name localPath daemon.session.localEndpoint
      observedNs opened = .ok (after, counts)) :
    (opened.isOk = false ∧ (∀ key, after.recordState key = store.recordState key) ∧
        counts.accepted = 0 ∧ counts.tombstones = 0) ∨
      ∃ root fileSystem context, opened = .ok (root, fileSystem) ∧
        walk fileSystem name daemon.scanner.ignores (daemon.scanner.comparisonKey root) =
          .ok context ∧
        scanListing daemon.scanner store name localPath daemon.session.localEndpoint observedNs
          root context = .ok (after, counts) := by
  unfold scanCollection at done
  split at done
  · exact Or.inl ⟨rfl, pauseScan_ok done⟩
  · exact Or.inl ⟨rfl, pauseScan_ok done⟩
  · cases done
  · cases done
  · rename_i root fileSystem
    obtain ⟨context, walked, done⟩ := Except.bind_ok done
    exact Or.inr ⟨root, fileSystem, context, rfl, Except.mapError_ok walked, done⟩

theorem scanCollection_closed {observedNs : I64} (closed : opened.isOk = false)
    (done : scanCollection daemon.scanner store name localPath daemon.session.localEndpoint
      observedNs opened = .ok (after, counts)) :
    (∀ key, after.recordState key = store.recordState key) ∧ counts.accepted = 0 ∧
      counts.tombstones = 0 := by
  rcases scanCollection_ok done with ⟨-, paused⟩ | ⟨root, fileSystem, context, isOpen, -⟩
  · exact paused
  · rw [isOpen] at closed
    cases closed

theorem scanCollection_walked {observedNs : I64} {root : RootPath} {fileSystem : FileSystem}
    {context : WalkContext}
    (walked : walk fileSystem name daemon.scanner.ignores (daemon.scanner.comparisonKey root) =
      .ok context)
    (done : scanCollection daemon.scanner store name localPath daemon.session.localEndpoint
      observedNs (.ok (root, fileSystem)) = .ok (after, counts)) :
    scanListing daemon.scanner store name localPath daemon.session.localEndpoint observedNs root
      context = .ok (after, counts) := by
  unfold scanCollection at done
  dsimp only at done
  rwa [walked] at done

/-- An interrupted scan of a root that cannot be opened changes no row. -/
theorem interrupted_paused {observedNs : I64} (closed : opened.isOk = false) (steps : Nat)
    (key : RecordKey) :
    (interrupted daemon store name localPath observedNs opened steps).recordState key =
      store.recordState key := by
  have paused (status : CollectionScanStatus) :
      (interruptedPause daemon.scanner name observedNs store status steps).recordState key =
        store.recordState key := by
    unfold interruptedPause
    split
    · rfl
    · exact setCollectionScanStatus_recordState status key
    · exact pauseScan_left.2 key
  unfold interrupted
  split
  · exact paused .notDirectory
  · exact paused .missing
  · rfl
  · rfl
  · cases closed

variable (daemon name opened) in
/-- No file of the opened root is future-dated when it is scanned. -/
def Undated (observedNs : I64) : Prop :=
  ∀ root fileSystem context, opened = .ok (root, fileSystem) →
    walk fileSystem name daemon.scanner.ignores (daemon.scanner.comparisonKey root) = .ok context →
    NoFuture daemon.scanner observedNs context

section both
variable {firstNs secondNs aloneNs : I64}

/-- A scan after an interrupted one of the same disk. -/
theorem scanCollection_resumed {alone : StateStore} {aloneCounts : ScanSummary}
    (keyed : store.Keyed) (steps : Nat) (firstInTime : Undated daemon name opened firstNs)
    (secondInTime : Undated daemon name opened secondNs)
    (aloneInTime : Undated daemon name opened aloneNs)
    (done : scanCollection daemon.scanner
      (interrupted daemon store name localPath firstNs opened steps) name localPath
      daemon.session.localEndpoint secondNs opened = .ok (after, counts))
    (doneAlone : scanCollection daemon.scanner store name localPath daemon.session.localEndpoint
      aloneNs opened = .ok (alone, aloneCounts)) (key : RecordKey) :
    UpToStamp name daemon.session.localEndpoint (store.record key) (after.recordState key)
      (alone.recordState key) := by
  rcases scanCollection_ok doneAlone with ⟨closed, rows, -⟩ |
    ⟨root, fileSystem, context, rfl, walked, listedAlone⟩
  · rw [(scanCollection_closed closed done).1, interrupted_paused closed, rows]
    exact .same _
  · have stopped : ScanLeft daemon store ⟨name, localPath, root, firstNs, context⟩
        (interrupted daemon store name localPath firstNs (.ok (root, fileSystem)) steps) := by
      have inTime : NoFuture daemon.scanner firstNs context := firstInTime _ _ _ rfl walked
      simp only [interrupted, walked]
      exact scan_prefix_left ⟨name, localPath, root, firstNs, context⟩ keyed inTime steps
    exact scanListing_resumed keyed stopped (secondInTime _ _ _ rfl walked)
      (aloneInTime _ _ _ rfl walked) (scanCollection_walked walked done) listedAlone key

/-- A second scan of the same disk. -/
theorem scanCollection_repeated {again : StateStore} {againCounts : ScanSummary}
    (keyed : store.Keyed) (firstInTime : Undated daemon name opened firstNs)
    (secondInTime : Undated daemon name opened secondNs)
    (done : scanCollection daemon.scanner store name localPath daemon.session.localEndpoint
      firstNs opened = .ok (after, counts))
    (doneAgain : scanCollection daemon.scanner after name localPath daemon.session.localEndpoint
      secondNs opened = .ok (again, againCounts)) :
    (∀ key, again.recordState key = after.recordState key) ∧ againCounts.accepted = 0 ∧
      againCounts.tombstones = 0 := by
  rcases scanCollection_ok done with ⟨closed, -⟩ |
    ⟨root, fileSystem, context, rfl, walked, listed⟩
  · exact scanCollection_closed closed doneAgain
  · exact scanListing_repeated keyed (firstInTime _ _ _ rfl walked)
      (secondInTime _ _ _ rfl walked) listed (scanCollection_walked walked doneAgain)

end both

end collection

/-- A scan may stop after any of its transactions: a complete scan afterwards leaves the rows of a
scan alone, up to the times stamped on new tombstones. A second scan changes nothing, and every
known file under the scanned root that is gone has an accepted tombstone. -/
theorem interrupted_scan_repeated (daemon : Daemon) (store : StateStore) (keyed : store.Keyed)
    (name localPath : String) (opened : Except RootError (RootPath × FileSystem))
    (firstNs secondNs aloneNs : I64) (firstInTime : Undated daemon name opened firstNs)
    (secondInTime : Undated daemon name opened secondNs)
    (aloneInTime : Undated daemon name opened aloneNs) :
    let scan (store : StateStore) (observedNs : I64) :=
      scanCollection daemon.scanner store name localPath daemon.session.localEndpoint observedNs
        opened
    (∀ steps resumed alone counts aloneCounts,
      scan (interrupted daemon store name localPath firstNs opened steps) secondNs =
        .ok (resumed, counts) →
      scan store aloneNs = .ok (alone, aloneCounts) →
      ∀ key, UpToStamp name daemon.session.localEndpoint (store.record key)
        (resumed.recordState key) (alone.recordState key)) ∧
    (∀ first second counts secondCounts, scan store firstNs = .ok (first, counts) →
      scan first secondNs = .ok (second, secondCounts) →
      (∀ key, second.recordState key = first.recordState key) ∧
        secondCounts.accepted = 0 ∧ secondCounts.tombstones = 0) ∧
    ∀ root fileSystem context alone counts path row, opened = .ok (root, fileSystem) →
      walk fileSystem name daemon.scanner.ignores (daemon.scanner.comparisonKey root) =
        .ok context →
      scan store aloneNs = .ok (alone, counts) →
      store.resolvedRoot name = some root → store.recordState ⟨name, path⟩ = some row →
      row.record.kind.isFile = true → row.materialized = true →
      context.files[path]? = none → isIgnored daemon.scanner.ignores path.text = false →
      context.isExcluded path.text = false → row.record.modifiedNs < I64.max →
      ∃ tombstone,
        deletionRecord name daemon.session.localEndpoint aloneNs row.record = .ok tombstone ∧
        tombstone.compareWinner row.record = .gt ∧
        alone.recordState ⟨name, path⟩ = some (mergedRow tombstone none) := by
  intro scan
  refine ⟨?_, ?_, ?_⟩
  · intro steps resumed alone counts aloneCounts done doneAlone key
    exact scanCollection_resumed keyed steps firstInTime secondInTime aloneInTime done doneAlone key
  · intro first second counts secondCounts done doneAgain
    exact scanCollection_repeated keyed firstInTime secondInTime done doneAgain
  · intro root fileSystem context alone counts path row isOpen walked done bound stored isFile
      materialized missing notIgnored notExcluded room
    subst isOpen
    exact scanListing_deletes keyed (aloneInTime _ _ _ rfl walked)
      (scanCollection_walked walked done) bound stored isFile materialized missing notIgnored
      notExcluded room

end

section
attribute [local instance] Blake3.checksum

theorem bare_undated (observedNs : I64) :
    Undated Daemon.sample "c" (.ok ("/c", bare)) observedNs := by
  intro root fileSystem context isOpen walked path disk listed
  cases isOpen
  have files : (walk bare "c" Daemon.sample.scanner.ignores
      (Daemon.sample.scanner.comparisonKey "/c")).toOption.map
        (fun found => found.files.toList) = some [] := by decide +kernel
  rw [walked] at files
  have member := Std.ExtTreeMap.mem_toList_iff_getElem?_eq_some.mpr listed
  rw [show context.files.toList = [] from Option.some.inj files] at member
  cases member

/-- A scan that stops before it has published the deletion, and the next one. -/
theorem stopped_scan_repeated :
    ∃ resumed alone counts aloneCounts tombstone,
      scanCollection Daemon.sample.scanner
        (interrupted Daemon.sample knownFile "c" "/c" 9 (.ok ("/c", bare)) 3) "c" "/c" (.fill 9) 10
        (.ok ("/c", bare)) = .ok (resumed, counts) ∧
      scanCollection Daemon.sample.scanner knownFile "c" "/c" (.fill 9) 11 (.ok ("/c", bare)) =
        .ok (alone, aloneCounts) ∧
      UpToStamp "c" (.fill 9) (knownFile.record ⟨"c", buildX⟩)
        (resumed.recordState ⟨"c", buildX⟩) (alone.recordState ⟨"c", buildX⟩) ∧
      alone.recordState ⟨"c", buildX⟩ = some (mergedRow tombstone none) := by
  obtain ⟨sameRows, -, deletes⟩ := interrupted_scan_repeated Daemon.sample knownFile
    knownFile_keyed "c" "/c" (.ok ("/c", bare)) 9 10 11 (bare_undated 9) (bare_undated 10)
    (bare_undated 11)
  have resumes : (scanCollection Daemon.sample.scanner
      (interrupted Daemon.sample knownFile "c" "/c" 9 (.ok ("/c", bare)) 3) "c" "/c" (.fill 9) 10
      (.ok ("/c", bare))).toOption.isSome = true := by decide +kernel
  have runs : (scanCollection Daemon.sample.scanner knownFile "c" "/c" (.fill 9) 11
      (.ok ("/c", bare))).toOption.isSome = true := by decide +kernel
  have walks : (walk bare "c" Daemon.sample.scanner.ignores
      (Daemon.sample.scanner.comparisonKey "/c")).toOption.any (fun context =>
        decide (context.files[buildX]? = none) && !context.isExcluded buildX.text) = true := by
    decide +kernel
  obtain ⟨⟨resumed, counts⟩, done⟩ := Option.isSome_iff_exists.mp resumes
  obtain ⟨⟨alone, aloneCounts⟩, doneAlone⟩ := Option.isSome_iff_exists.mp runs
  obtain ⟨context, walked, clear⟩ := Option.any_eq_true _ _ |>.mp walks
  rw [Bool.and_eq_true, decide_eq_true_eq, Bool.not_eq_true'] at clear
  have done := Except.toOption_eq_some.mp done
  have doneAlone := Except.toOption_eq_some.mp doneAlone
  have known : knownFile.recordState ⟨"c", buildX⟩ = some
      ⟨.sample buildX 5 (.fill 1) (.file 0 (Blake3.hash [])), true,
        some ⟨5, 0, Blake3.hash []⟩⟩ := by
    decide +kernel
  obtain ⟨tombstone, -, -, row⟩ := deletes "/c" bare context alone aloneCounts buildX _ rfl
    (Except.toOption_eq_some.mp walked) doneAlone (by decide +kernel) known (by decide +kernel) rfl
    clear.1 (by decide +kernel) clear.2 (by decide +kernel)
  have same := sameRows 3 resumed alone counts aloneCounts done doneAlone ⟨"c", buildX⟩
  exact ⟨resumed, alone, counts, aloneCounts, tombstone, done, doneAlone, same, row⟩

/-- The root has moved: the file is unmaterialized first, and nothing is deleted. -/
theorem moved_root_keeps_record :
    ∃ context alone counts row,
      walk bare "c" Daemon.sample.scanner.ignores (Daemon.sample.scanner.comparisonKey "/d") =
        .ok context ∧
      scanCollection Daemon.sample.scanner knownFile "c" "/c" (.fill 9) 11 (.ok ("/d", bare)) =
        .ok (alone, counts) ∧
      knownFile.recordState ⟨"c", buildX⟩ = some row ∧ row.record.kind.isFile = true ∧
      row.materialized = true ∧ context.files[buildX]? = none ∧
      isIgnored Daemon.sample.scanner.ignores buildX.text = false ∧
      context.isExcluded buildX.text = false ∧ row.record.modifiedNs < I64.max ∧
      alone.record ⟨"c", buildX⟩ = some row.record ∧ counts.tombstones = 0 := by
  have walks : (walk bare "c" Daemon.sample.scanner.ignores
      (Daemon.sample.scanner.comparisonKey "/d")).toOption.any (fun context =>
        decide (context.files[buildX]? = none) && !context.isExcluded buildX.text) = true := by
    decide +kernel
  have runs : (scanCollection Daemon.sample.scanner knownFile "c" "/c" (.fill 9) 11
      (.ok ("/d", bare))).toOption.any (fun result =>
        decide (result.1.record ⟨"c", buildX⟩ = knownFile.record ⟨"c", buildX⟩) &&
          decide (result.2.tombstones = 0)) = true := by
    decide +kernel
  have known : knownFile.recordState ⟨"c", buildX⟩ = some
      ⟨.sample buildX 5 (.fill 1) (.file 0 (Blake3.hash [])), true,
        some ⟨5, 0, Blake3.hash []⟩⟩ := by
    decide +kernel
  obtain ⟨context, walked, clear⟩ := Option.any_eq_true _ _ |>.mp walks
  obtain ⟨⟨alone, counts⟩, done, kept⟩ := Option.any_eq_true _ _ |>.mp runs
  rw [Bool.and_eq_true, decide_eq_true_eq, Bool.not_eq_true'] at clear
  rw [Bool.and_eq_true, decide_eq_true_eq, decide_eq_true_eq] at kept
  refine ⟨context, alone, counts, _, Except.toOption_eq_some.mp walked,
    Except.toOption_eq_some.mp done, known, by decide +kernel, rfl, clear.1, by decide +kernel,
    clear.2, by decide +kernel, ?_, kept.2⟩
  rw [kept.1, StateStore.record, known]
  rfl

end

end Skillsync
