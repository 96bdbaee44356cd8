import Skillsync.Places

set_option autoImplicit false

namespace Skillsync

open Fallible StateStore Runs

/-- The candidate that a session is about to merge. -/
def SessionPhase.mergesNext : SessionPhase → Option Record
  | .merging candidate => some candidate
  | _ => none

/-- A session offers only file records for a place, installs them under its root, and removes
no file there. -/
def SessionPhase.delivers (place : Place) : SessionPhase → SessionAction → Bool
  | .idle, .compare candidate _ =>
      decide (candidate.key = place.key → candidate.kind.isFile = true)
  | .removing candidate, .removeFile environment =>
      decide (candidate.path = place.path → environment.root.toOption ≠ some place.root)
  | .receiving record _, .install environment =>
      decide (record.key = place.key → ∀ root ∈ environment.root.toOption, root = place.root)
  | _, _ => true

section
variable [Blake3]

/-- Sessions deliver to a place, no user removes its file, and scans of its collection walk its
root without excluding it. -/
def Node.delivers (daemon : Daemon) (place : Place) (node : Node) : Label → Bool
  | .remove key => decide (key ≠ place.diskKey)
  | .session i action => (node.sessions i).delivers place action
  | label => place.reached daemon label

end

/-- No session marks the file of a place while a scan that has not listed it is still to read
the rows. -/
def Node.marksListed (place : Place) (node : Node) : Label → Bool
  | .session i (.markInstalled _) =>
      decide ((node.sessions i).marksNext = some place.key → ∀ run ∈ node.scan.unread,
        run.name = place.collection → (run.context.files[place.path]?).isSome = true)
  | _ => true

/-- No walk passes over the file of a place, below an ignored directory, while its row says that
it is there. -/
def Node.showsHeld (daemon : Daemon) (place : Place) (node : Node) : Label → Bool
  | .walk name _ _ _ fileSystem =>
      decide (name = place.collection →
        fileSystem.fateOf daemon.scanner.ignores place.path.components = .skipped →
        ¬ place.Held node.store)
  | _ => true

/-- A step of a run in which the file of a place is safe. -/
structure Node.Spares [Blake3] (daemon : Daemon) (place : Place) (node : Node) (label : Label) :
    Prop where
  sees : node.Sees label
  delivers : node.delivers daemon place label = true
  listed : node.marksListed place label = true
  shown : node.showsHeld daemon place label = true

/-- The next step of the scan publishes a deletion of the place. -/
def ScanPhase.deletes (scanner : Scanner) (place : Place) : ScanPhase → Bool
  | .deleting run (winner :: _) =>
      decide (run.name = place.collection ∧ winner.record.path = place.path) &&
        !keepsWinner scanner run.context winner
  | _ => false

theorem ScanPhase.deletes_iff {scanner : Scanner} {place : Place} {phase : ScanPhase} :
    phase.deletes scanner place = true ↔ ∃ run winner rest, phase = .deleting run (winner :: rest) ∧
      run.name = place.collection ∧ winner.record.path = place.path ∧
      keepsWinner scanner run.context winner = false := by
  constructor
  · intro deletes
    unfold ScanPhase.deletes at deletes
    split at deletes
    · rename_i run winner rest
      simp only [Bool.and_eq_true, decide_eq_true_eq, Bool.not_eq_true'] at deletes
      exact ⟨run, winner, rest, rfl, deletes.1.1, deletes.1.2, deletes.2⟩
    · cases deletes
  · intro ⟨run, winner, rest, standing, named, located, removes⟩
    simp only [standing, ScanPhase.deletes, named, located, and_self, decide_true, removes,
      Bool.not_false, Bool.and_self]

/-- What the threads know about a place that is delivered to. -/
structure Secure (place : Place) (node : Node) : Prop where
  wellFormed : node.WellFormed
  held : place.Held node.store → place.Present node.disk
  installed : ∀ i, (node.sessions i).marksNext = some place.key → place.Present node.disk
  files : ∀ i candidate, (node.sessions i).mergesNext = some candidate →
    candidate.key = place.key → candidate.kind.isFile = true
  rooted : ∀ run, node.scan.run? = some run → run.name = place.collection → run.root = place.root
  listed : ∀ run, node.scan.run? = some run → run.name = place.collection →
    (run.context.files[place.path]?).isSome = true → place.Present node.disk
  /-- A scan that has missed the file still unmarks a row of another root. -/
  walked : ∀ run, node.scan = .walked run → run.name = place.collection →
    run.context.files[place.path]? = none → ¬ place.Held node.store
  warned : ∀ run rest, node.scan = .warning run rest → run.name = place.collection →
    run.context.files[place.path]? = none → ¬ node.store.Marked place.key
  known : ∀ run, node.scan.run? = some run → run.name = place.collection →
    ∀ row ∈ node.scan.winners, row.record.path = place.path → row.record.kind.isFile = true →
      row.materialized = true → (run.context.files[place.path]?).isSome = true

theorem removeForTombstone_present {place : Place} {disk after : Disk} {record : Record}
    {environment : RemovalEnvironment} {result : Except InstallError Unit}
    (apart : record.path = place.path → environment.root.toOption ≠ some place.root)
    (done : removeForTombstone disk record environment = (result, after))
    (present : place.Present disk) : place.Present after := by
  unfold Place.Present at present ⊢
  rcases removeForTombstone_disk done place.diskKey with same | ⟨_, located, _, opened⟩
  · rwa [same]
  · exact absurd (by rw [opened]; rfl) (apart located)

section
variable [Blake3] {daemon : Daemon} {place : Place}

theorem Acted.present {i : Nat} {store after : StateStore} {disk diskAfter : Disk}
    {phase next : SessionPhase} {action : SessionAction}
    (step : Acted daemon i store disk phase action after diskAfter next)
    (delivers : phase.delivers place action = true) (present : place.Present disk) :
    place.Present diskAfter := by
  cases step with
  | removed candidate environment _ done =>
      exact removeForTombstone_present (of_decide_eq_true delivers) done present
  | notRemoved candidate environment reason _ done =>
      exact removeForTombstone_present (of_decide_eq_true delivers) done present
  | installed record stream environment file event _ => exact present.insert _ _
  | _ => exact present

/-- A file that a row shows after a step of the scan was shown before, or has been listed. -/
theorem Secure.present {node : Node} (holds : Secure place node) {store : StateStore}
    {scan : ScanPhase} (step : Advanced daemon node.store node.scan store scan)
    (held : place.Held store) : place.Present node.disk := by
  have marked := held.1
  have bound := held.2
  rcases step.root place.collection with same | ⟨run, standing, named, rebound⟩
  · unfold Place.Bound at bound
    rw [same] at bound
    have effect := step.effect holds.wellFormed.orderly place.key
    generalize changed : store.recordState place.key = written at effect
    cases effect with
    | same => exact holds.held ⟨marked_congr changed marked, bound⟩
    | completed run => exact holds.held ⟨(marked_of_completed changed marked).1, bound⟩
    | filed run row running named listed => exact holds.listed run running named listed
    | deleted run winner rest tombstone _ _ _ _ built _ =>
        obtain ⟨row, present, isFile, _⟩ := marked
        rw [changed] at present
        cases present
        rw [mergedRow, (deletionRecord_ok built).2.1] at isFile
        cases isFile
  · have rooted := holds.rooted run (by rw [standing]; rfl) named
    rw [standing] at step
    cases step with
    | stopped => exact holds.held held
    | completed _ _ rows _ =>
        obtain ⟨before, kept⟩ := marked_of_completed (rows place.key) marked
        refine holds.held ⟨before, fun root member => ?_⟩
        rw [← named, kept named.symm] at member
        cases member
        exact rooted

/-- A step of the scan. -/
theorem Secure.advanced {node : Node} (holds : Secure place node) {store : StateStore}
    {scan : ScanPhase} (step : Advanced daemon node.store node.scan store scan) :
    Secure place { node with store := store, scan := scan } := by
  refine ⟨holds.wellFormed.stepped (.advanced store scan step), holds.present step,
    holds.installed, holds.files, fun run running => holds.rooted run (step.run? running),
    fun run running => holds.listed run (step.run? running), fun run standing => ?_,
    fun run rest standing named missing marked => ?_, fun run running named row member => ?_⟩
  · have standing : scan = .walked run := standing
    subst standing
    generalize node.scan = before at step
    cases step
  · have standing : scan = .warning run rest := standing
    subst standing
    have rooted := holds.rooted run (step.run? rfl) named
    generalize phase : node.scan = before at step
    cases step with
    | completed _ _ rows _ =>
        have ⟨before, kept⟩ := marked_of_completed (rows place.key) marked
        refine holds.walked run phase named missing ⟨before, fun root member => ?_⟩
        rw [← named, kept named.symm] at member
        cases member
        exact rooted
    | warned _ event _ _ same =>
        exact holds.warned run _ phase named missing (marked_congr (same.rows place.key) marked)
  · intro located isFile materialized
    rcases step.winners member with old | ⟨other, reading, read⟩
    · exact holds.known run (step.run? running) named row old located isFile materialized
    · have running := step.run? running
      rw [reading] at running
      cases running
      by_contra unlisted
      have missing := Option.not_isSome_iff_eq_none.mp unlisted
      apply holds.warned run [] reading named missing
      have ⟨path, present⟩ := mem_recordStates.mp read
      have samePath : row.record.path = path :=
        congrArg RecordKey.path (holds.wellFormed.keyed.row present)
      rw [named, ← samePath, located] at present
      exact ⟨row, present, isFile, materialized⟩

/-- A step of a session. -/
theorem Secure.acted {node : Node} (holds : Secure place node) {i : Nat} {action : SessionAction}
    {store : StateStore} {disk : Disk} {phase : SessionPhase}
    (delivers : node.delivers daemon place (.session i action) = true)
    (listed : node.marksListed place (.session i action) = true)
    (step : Acted daemon i node.store node.disk (node.sessions i) action store disk phase) :
    Secure place { node with
      store := store, disk := disk, sessions := Function.update node.sessions i phase } := by
  have kept : place.Present node.disk → place.Present disk := step.present delivers
  have seen {now : I64} {run : ScanRun} (acts : action = .markInstalled now)
      (next : (node.sessions i).marksNext = some place.key) (waiting : node.scan.unread = some run)
      (named : run.name = place.collection) :
      (run.context.files[place.path]?).isSome = true := by
    subst acts
    exact of_decide_eq_true listed next run waiting named
  have installed (next : phase.marksNext = some place.key) : place.Present disk := by
    have delivers : (node.sessions i).delivers place action = true := delivers
    generalize node.sessions i = before at step delivers
    cases step with
    | installed record stream environment file event prepared =>
        have keyed : record.key = place.key := Option.some.inj next
        have ⟨samePath, opened, _⟩ := prepareInstall_ok prepared
        have rooted := of_decide_eq_true delivers keyed file.resolvedRoot
          (Except.toOption_eq_some.mpr opened)
        have located : record.path = place.path := congrArg RecordKey.path keyed
        have here : (⟨file.resolvedRoot, file.path⟩ : DiskKey) = place.diskKey := by
          rw [rooted, samePath, located]
          rfl
        rw [Place.Present, renamed, OrderedMap.getElem?_insert, if_pos here]
        rfl
    | notInstalled record stream environment phase idle =>
        rcases idle with rfl | rfl <;> cases next
    | _ => cases next
  have files (candidate : Record) (merges : phase.mergesNext = some candidate)
      (keyed : candidate.key = place.key) : candidate.kind.isFile = true := by
    have delivers : (node.sessions i).delivers place action = true := delivers
    generalize node.sessions i = before at step delivers
    cases step with
    | differed offered now =>
        cases merges
        exact of_decide_eq_true delivers keyed
    | notInstalled record stream environment phase idle =>
        rcases idle with rfl | rfl <;> cases merges
    | _ => cases merges
  exact {
    wellFormed := holds.wellFormed.stepped (.acted i action store disk phase step)
    held := fun after => kept <| by
      rcases step.held_cases after with before | ⟨now, _, next⟩
      · exact holds.held before
      · exact holds.installed i next
    installed := forall_update (p := fun phase => phase.marksNext = some place.key →
      place.Present disk) installed fun j next => kept (holds.installed j next)
    files := forall_update (p := fun phase => ∀ candidate, phase.mergesNext = some candidate →
      candidate.key = place.key → candidate.kind.isFile = true) files holds.files
    rooted := holds.rooted
    listed := fun run running named shown => kept (holds.listed run running named shown)
    walked := by
      intro run standing named missing after
      rcases step.held_cases after with before | ⟨now, acts, next⟩
      · exact holds.walked run standing named missing before
      · have shown := seen acts next (by rw [show node.scan = _ from standing]; rfl) named
        rw [missing] at shown
        cases shown
    warned := by
      intro run rest standing named missing after
      rcases step.marked_cases after with before | ⟨now, acts, next⟩
      · exact holds.warned run rest standing named missing before
      · have shown := seen acts next (by rw [show node.scan = _ from standing]; rfl) named
        rw [missing] at shown
        cases shown
    known := holds.known }

/-- The step lemma. -/
theorem Secure.step :
    Preserves (Node.step daemon) (Node.Spares daemon place) (Secure place) := by
  intro node label next holds allowed taken
  have ⟨sees, delivers, listed, shown⟩ := allowed
  have step := Node.step_cases taken
  have wellFormed := holds.wellFormed.stepped step
  cases step with
  | walked name localPath root observedNs fileSystem context idle walked =>
      have reached := fun named => Place.reached_walk sees delivers walked named
      refine ⟨wellFormed, holds.held, holds.installed, holds.files, ?_, ?_, ?_, ?_, ?_⟩
      · intro run running named
        cases running
        exact (reached named).1
      · intro run running named seen
        cases running
        exact Place.present_of_listed (reached named).2.2 walked seen
      · intro run standing named missing held
        cases standing
        have ⟨_, included, shows⟩ := reached named
        -- The row is right, so that only an ignored directory can hide the file.
        by_cases hidden : fileSystem.fateOf daemon.scanner.ignores place.path.components = .skipped
        · exact of_decide_eq_true shown named hidden held
        · have seen := Place.listed_of_present shows walked hidden included (holds.held held)
          rw [missing] at seen
          cases seen
      · intro run rest standing
        cases standing
      · intro run _ _ row member
        cases member
  | advanced store scan step => exact holds.advanced step
  | aborted =>
      refine ⟨wellFormed, holds.held, holds.installed, holds.files, ?_, ?_, ?_, ?_, ?_⟩
      · intro run running
        cases running
      · intro run running
        cases running
      · intro run standing
        cases standing
      · intro run rest standing
        cases standing
      · intro run running
        cases running
  | acted i action store disk phase step => exact holds.acted delivers listed step
  | wrote key file =>
      have kept : place.Present node.disk → place.Present (node.disk.insert key file) :=
        fun present => present.insert key file
      exact ⟨wellFormed, fun held => kept (holds.held held),
        fun i marks => kept (holds.installed i marks), holds.files, holds.rooted,
        fun run running named seen => kept (holds.listed run running named seen), holds.walked,
        holds.warned, holds.known⟩
  | removed key =>
      have other : key ≠ place.diskKey := by simpa [Node.delivers] using delivers
      have kept : place.Present node.disk → place.Present (node.disk.erase key) :=
        fun present => present.erase other
      exact ⟨wellFormed, fun held => kept (holds.held held),
        fun i marks => kept (holds.installed i marks), holds.files, holds.rooted,
        fun run running named seen => kept (holds.listed run running named seen), holds.walked,
        holds.warned, holds.known⟩
  | attached name localPath root store rows roots =>
      have before : place.Held store → place.Held node.store := by
        intro ⟨marked, bound⟩
        refine ⟨marked_congr (rows place.key) marked, fun root member => bound root ?_⟩
        rw [roots place.collection (by rw [member]; exact Option.some_ne_none root)]
        exact member
      exact ⟨wellFormed, fun held => holds.held (before held), holds.installed, holds.files,
        holds.rooted, holds.listed, fun run standing named missing held =>
          holds.walked run standing named missing (before held),
        fun run rest standing named missing marked =>
          holds.warned run rest standing named missing (marked_congr (rows place.key) marked),
        holds.known⟩

omit [Blake3] in
/-- The scan never deletes a place that is delivered to. -/
theorem Secure.not_deletes {node : Node} (holds : Secure place node) :
    node.scan.deletes daemon.scanner place = false := by
  apply Bool.eq_false_of_not_eq_true
  intro deletes
  have ⟨run, winner, rest, deleting, named, located, removes⟩ := ScanPhase.deletes_iff.mp deletes
  have ⟨isFile, materialized, unlisted, _, _⟩ := keepsWinner_eq_false.mp removes
  have listed := holds.known run (by rw [deleting]; rfl) named winner
    (by rw [deleting]; exact List.mem_cons_self) located isFile materialized
  rw [← located, unlisted] at listed
  cases listed

/-- The winner of a place is a file that the record does not beat. -/
def Kept (place : Place) (record : Record) (node : Node) : Prop :=
  ∃ winner, node.store.record place.key = some winner ∧ winner.kind.isFile = true ∧
    record.rank ≤ winner.rank

theorem Kept.congr {record : Record} {node next : Node} (kept : Kept place record node)
    (same : next.store.record place.key = node.store.record place.key) :
    Kept place record next := by
  have ⟨winner, stored, rest⟩ := kept
  exact ⟨winner, same.trans stored, rest⟩

/-- An accepted file record ranks above the winner. -/
theorem Kept.accepts {record candidate : Record} {node next : Node}
    (kept : Kept place record node) (isFile : candidate.kind.isFile = true)
    (beats : StateStore.accepts (node.store.record place.key) candidate = true)
    (stored : next.store.record place.key = some candidate) : Kept place record next := by
  have ⟨winner, found, _, ranked⟩ := kept
  rw [found] at beats
  have greater : candidate.compareWinner winner = .gt := by
    simpa [StateStore.accepts] using beats
  exact ⟨candidate, stored, isFile, ranked.trans (Record.compareWinner_eq_gt.mp greater).le⟩

theorem Kept.step (record : Record) :
    Preserves (Node.step daemon) (Node.Spares daemon place)
      (fun node => Secure place node ∧ Kept place record node) := by
  intro node label next holds allowed taken
  have ⟨secure, kept⟩ := holds
  refine ⟨Secure.step node label next secure allowed taken, ?_⟩
  cases Node.step_cases taken with
  | advanced store scan step =>
      have effect := step.effect secure.wellFormed.orderly place.key
      generalize changed : store.recordState place.key = written at effect
      cases effect with
      | same => exact kept.congr (record_congr changed)
      | completed run =>
          apply kept.congr
          show (store.recordState place.key).map PathRecordState.record = _
          rw [changed, completedRow_record]
      | filed run row _ _ _ isFile origin =>
          have stored : store.record place.key = some row.record :=
            record_eq_some.mpr ⟨row, changed, rfl⟩
          rcases origin with same | merged
          · exact kept.congr (stored.trans same.symm)
          · exact kept.accepts isFile merged.2 stored
      | deleted run winner rest tombstone deleting named located removes =>
          have deletes : node.scan.deletes daemon.scanner place = true :=
            ScanPhase.deletes_iff.mpr ⟨run, winner, rest, deleting, named, located, removes⟩
          rw [secure.not_deletes] at deletes
          cases deletes
  | acted i action store disk phase step =>
      have effect := step.effect place.key
      generalize changed : store.recordState place.key = written at effect
      have same {row old : PathRecordState} (now : written = some row)
          (before : node.store.recordState place.key = some old)
          (equal : row.record = old.record) :
          store.record place.key = node.store.record place.key := by
        rw [StateStore.record, StateStore.record, changed, now, before, Option.map_some,
          Option.map_some, equal]
      cases effect with
      | same => exact kept.congr (record_congr changed)
      | accepted candidate now standing _ keyed beats =>
          have isFile := secure.files i candidate (by rw [standing]; rfl) keyed
          exact kept.accepts isFile beats (record_eq_some.mpr ⟨_, changed, rfl⟩)
      | tombstoned candidate old _ _ before _ => exact kept.congr (same rfl before rfl)
      | marked record file event now old _ _ _ before _ => exact kept.congr (same rfl before rfl)
      | cleared old _ before _ => exact kept.congr (same rfl before rfl)
  | attached name localPath root store rows _ => exact kept.congr (record_congr (rows place.key))
  | _ => exact kept

/-- While no session marks a file that a running scan has missed, and no walk passes over a file
below an ignored directory that its row shows, the scan publishes no deletion of a place that
sessions deliver to, and its file stays the winner. -/
theorem installed_files_survive {store : StateStore} {disk : Disk} (keyed : store.Keyed)
    (agrees : place.Held store → place.Present disk) {labels : List Label} {node : Node}
    (along : Along (Node.step daemon) (Node.Spares daemon place) (Node.start store disk) labels)
    (reached : run (Node.step daemon) (Node.start store disk) labels = some node) :
    node.scan.deletes daemon.scanner place = false ∧
      ∀ front back middle record, labels = front ++ back →
        run (Node.step daemon) (Node.start store disk) front = some middle →
        middle.store.record place.key = some record → record.kind.isFile = true →
        ∃ winner, node.store.record place.key = some winner ∧ winner.kind.isFile = true ∧
          record.compareWinner winner ≠ .gt := by
  have start : Secure place (Node.start store disk) := by
    refine ⟨⟨keyed, trivial⟩, agrees, ?_, ?_, ?_, ?_, ?_, ?_, ?_⟩
    · intro i marks
      cases marks
    · intro i candidate merges
      cases merges
    · intro run running
      cases running
    · intro run running
      cases running
    · intro run standing
      cases standing
    · intro run rest standing
      cases standing
    · intro run running
      cases running
  refine ⟨(Secure.step.run start along reached).not_deletes, ?_⟩
  intro front back middle record split passed stored isFile
  subst split
  have secure := Secure.step.run start along.append_left passed
  have ⟨_, front_reached, back_reached⟩ := run_append.mp reached
  rw [passed] at front_reached
  cases front_reached
  have kept : Kept place record middle := ⟨record, stored, isFile, le_refl _⟩
  have ⟨_, winner, found, winnerFile, ranked⟩ :=
    (Kept.step record).run ⟨secure, kept⟩ (along.append_right passed) back_reached
  refine ⟨winner, found, winnerFile, fun beaten => ?_⟩
  exact absurd (Record.compareWinner_eq_gt.mp beaten) (not_lt.mpr ranked)

end

section
attribute [local instance] Blake3.checksum

theorem attached_not_marked (key : RecordKey) : ¬ attached.Marked key := by
  intro ⟨row, present, _⟩
  have stored : attached.record key = some row.record := record_eq_some.mpr ⟨row, present, rfl⟩
  rw [attached_record] at stored
  cases stored

/-- The session installs the file after the walk, and marks it before the scan reads the
rows. -/
def installedTooEarly : List Label :=
  walkBare :: (merges 0 (announced 5 []) ++ installs 0 (announced 5 []) [] ++
    [.advance, .advance, .advance])

/-- The scan then publishes the deletion of the file, which is on the disk. -/
theorem installed_file_deleted :
    Along (Node.step .sample) (fun node label => node.Sees label ∧
        node.delivers .sample placeF label = true) (Node.start attached ∅) installedTooEarly ∧
      ∃ node, run (Node.step .sample) (Node.start attached ∅) installedTooEarly = some node ∧
        node.scan.deletes Daemon.sample.scanner placeF = true ∧ placeF.Present node.disk ∧
        ((node.step .sample .advance).bind fun next =>
          (next.store.record placeF.key).map Record.kind) = some .tombstone := by
  have delivered : Along (Node.step .sample)
      (fun node label => node.delivers .sample placeF label = true) (Node.start attached ∅)
      installedTooEarly := by decide +kernel
  have sees : Along (Node.step .sample) Node.Sees (Node.start attached ∅) installedTooEarly :=
    @sees_walk _ [] _ rfl (by decide +kernel) rfl
  refine ⟨sees.and delivered, ?_⟩
  have outcome : ((run (Node.step .sample) (Node.start attached ∅) installedTooEarly).map
      fun node => decide (node.scan.deletes Daemon.sample.scanner placeF = true ∧
        placeF.Present node.disk ∧
        ((node.step .sample .advance).bind fun next =>
          (next.store.record placeF.key).map Record.kind) = some .tombstone)) = some true := by
    decide +kernel
  have ⟨node, reached, holds⟩ := Option.map_eq_some_iff.mp outcome
  exact ⟨node, reached, of_decide_eq_true holds⟩

/-- The session marks the file after the scan has read the rows. -/
def installedLater : List Label :=
  walkBare :: ([.advance, .advance] ++ merges 0 (announced 5 []) ++
    installs 0 (announced 5 []) [] ++ [.advance, .advance])

theorem later_install_survives :
    ∃ node, run (Node.step .sample) (Node.start attached ∅) installedLater = some node ∧
      node.scan.deletes Daemon.sample.scanner placeF = false ∧
      node.store.record placeF.key = some (announced 5 []) := by
  have outcome : ((run (Node.step .sample) (Node.start attached ∅) installedLater).map
      fun node => node.store.record placeF.key) = some (some (announced 5 [])) := by decide +kernel
  have ⟨node, reached, stored⟩ := Option.map_eq_some_iff.mp outcome
  have sees : Along (Node.step .sample) Node.Sees (Node.start attached ∅) installedLater :=
    @sees_walk _ [] _ rfl (by decide +kernel) rfl
  have allowed : Along (Node.step .sample) (fun node label =>
      node.delivers .sample placeF label = true ∧ node.marksListed placeF label = true ∧
        node.showsHeld .sample placeF label = true) (Node.start attached ∅) installedLater := by
    decide +kernel
  have spares : Along (Node.step .sample) (Node.Spares .sample placeF) (Node.start attached ∅)
      installedLater :=
    (sees.and allowed).imp fun _ _ all => ⟨all.1, all.2.1, all.2.2.1, all.2.2.2⟩
  have keyed : attached.Keyed := by
    intro key record found
    rw [attached_record] at found
    cases found
  have agrees : placeF.Held attached → placeF.Present ∅ :=
    fun held => absurd held.1 (attached_not_marked _)
  have survives := installed_files_survive keyed agrees spares reached
  exact ⟨node, reached, survives.1, stored⟩

end

end Skillsync
