import Skillsync.Health
import Skillsync.InterleavingSpec
import Skillsync.Runs

set_option autoImplicit false

namespace Skillsync

open Fallible StateStore Runs

structure Place where
  collection : String
  root : RootPath
  path : ProtocolPath
deriving DecidableEq

namespace Place

def key (place : Place) : RecordKey := ⟨place.collection, place.path⟩

def diskKey (place : Place) : DiskKey := ⟨place.root, place.path⟩

/-- The disk holds a regular file there. -/
def Present (place : Place) (disk : Disk) : Prop := (disk[place.diskKey]?).isSome = true

instance (place : Place) (disk : Disk) : Decidable (place.Present disk) :=
  inferInstanceAs (Decidable ((disk[place.diskKey]?).isSome = true))

theorem Present.insert {place : Place} {disk : Disk} (present : place.Present disk)
    (key : DiskKey) (file : RegularFile) : place.Present (disk.insert key file) := by
  unfold Present at present ⊢
  rw [OrderedMap.getElem?_insert]
  split
  · rfl
  · exact present

theorem Present.erase {place : Place} {disk : Disk} (present : place.Present disk)
    {key : DiskKey} (other : key ≠ place.diskKey) : place.Present (disk.erase key) := by
  unfold Present at present ⊢
  rwa [OrderedMap.getElem?_erase, if_neg other]

theorem Present.of_erase {place : Place} {disk : Disk} {key : DiskKey}
    (present : place.Present (disk.erase key)) : place.Present disk := by
  unfold Present at present ⊢
  rw [OrderedMap.getElem?_erase] at present
  split at present
  · cases present
  · exact present

section
variable [Blake3] {place : Place} {disk : Disk} {fileSystem : FileSystem} {collection : String}
  {ignores : String → Bool} {comparisonKey : String → String} {context : WalkContext}

/-- What the walk lists is on the disk. -/
theorem present_of_listed (shows : Node.Shows disk place.root fileSystem)
    (walked : walk fileSystem collection ignores comparisonKey = .ok context)
    (listed : (context.files[place.path]?).isSome = true) : place.Present disk := by
  have ⟨found, present⟩ := Option.isSome_iff_exists.mp listed
  have ⟨file, reached, _⟩ := (walk_sound walked).listed place.path found present
  unfold Present diskKey
  rw [shows.stable place.path file (fileAt_of_fate reached)]
  rfl

/-- The walk lists a file that it neither excludes nor passes over below an ignored directory. -/
theorem listed_of_present (shows : Node.Shows disk place.root fileSystem)
    (walked : walk fileSystem collection ignores comparisonKey = .ok context)
    (shown : fileSystem.fateOf ignores place.path.components ≠ .skipped)
    (included : context.isExcluded place.path.text = false) (present : place.Present disk) :
    (context.files[place.path]?).isSome = true := by
  have ⟨content, found⟩ := Option.isSome_iff_exists.mp (shows.present place.path present)
  rcases walk_covers walked found shown with ⟨other, text, listed⟩ | excluded
  · rwa [ProtocolPath.ext_text text] at listed
  · rw [included] at excluded
    cases excluded

end

end Place

section
variable [Blake3]

/-- A scan of the collection walks the root of a place, and does not exclude the place. -/
def Place.reached (daemon : Daemon) (place : Place) : Label → Bool
  | .walk name _ root _ fileSystem =>
      decide (name = place.collection → root = place.root ∧
        ∀ context ∈ (walk fileSystem name daemon.scanner.ignores
          (daemon.scanner.comparisonKey root)).toOption,
          context.isExcluded place.path.text = false)
  | _ => true

theorem Place.reached_walk {daemon : Daemon} {place : Place} {node : Node}
    {name localPath : String} {root : RootPath} {observedNs : I64} {fileSystem : FileSystem}
    {context : WalkContext}
    (sees : node.Sees (.walk name localPath root observedNs fileSystem))
    (reached : place.reached daemon (.walk name localPath root observedNs fileSystem) = true)
    (walked : walk fileSystem name daemon.scanner.ignores (daemon.scanner.comparisonKey root) =
      .ok context) (named : name = place.collection) :
    root = place.root ∧ context.isExcluded place.path.text = false ∧
      Node.Shows node.disk place.root fileSystem := by
  have ⟨rooted, all⟩ := of_decide_eq_true reached named
  have included := all context (Except.toOption_eq_some.mpr walked)
  have shows : Node.Shows node.disk root fileSystem := sees
  rw [rooted] at shows
  exact ⟨rooted, included, shows⟩

end

/-- The scan that a thread is in. -/
def ScanPhase.run? : ScanPhase → Option ScanRun
  | .idle => none
  | .walked run | .warning run _ | .filing run _ _ _ | .deleting run _ => some run

/-- The scan that has walked its root and has not yet read the rows. -/
def ScanPhase.unread : ScanPhase → Option ScanRun
  | .walked run | .warning run _ => some run
  | _ => none

/-- The rows that the scan has read and may still delete. -/
def ScanPhase.winners : ScanPhase → List PathRecordState
  | .filing _ current _ _ => current
  | .deleting _ rest => rest
  | _ => []

/-- The loop over the files goes over the listing, and merges what it has found. -/
def ScanPhase.Orderly : ScanPhase → Prop
  | .filing run _ rest task =>
      (∀ entry ∈ rest, run.context.files[entry.1]? = some entry.2) ∧
        match task with
        | .merge candidate _ => candidate.kind.isFile = true ∧
            ∀ entry ∈ rest.head?, candidate.key = ⟨run.name, entry.1⟩
        | _ => True
  | _ => True

section
variable [Blake3] {daemon : Daemon}

theorem Advanced.orderly {store after : StateStore} {phase next : ScanPhase}
    (step : Advanced daemon store phase after next) (orderly : phase.Orderly) : next.Orderly := by
  have tail {run : ScanRun} {first : ProtocolPath × DiskFile}
      {rest : List (ProtocolPath × DiskFile)}
      (listed : ∀ entry ∈ first :: rest, run.context.files[entry.1]? = some entry.2) :
      ∀ entry ∈ rest, run.context.files[entry.1]? = some entry.2 :=
    fun entry member => listed entry (List.mem_cons_of_mem _ member)
  cases step with
  | read run =>
      exact ⟨fun entry member => Std.ExtTreeMap.mem_toList_iff_getElem?_eq_some.mp member, trivial⟩
  | diverged => exact ⟨tail orderly.1, trivial⟩
  | passed => exact ⟨tail orderly.1, trivial⟩
  | chose => exact ⟨orderly.1, trivial⟩
  | differed run current path disk rest candidate built =>
      have ⟨named, located, _, _, kind⟩ := Record.new_ok built
      refine ⟨orderly.1, by rw [kind]; rfl, fun entry first => ?_⟩
      cases first
      rw [Record.key, named, located]
  | settled => exact ⟨tail orderly.1, trivial⟩
  | accepted => exact ⟨tail orderly.1, trivial⟩
  | rejected => exact ⟨orderly.1, trivial⟩
  | repaired => exact ⟨tail orderly.1, trivial⟩
  | _ => trivial

omit [Blake3] in
/-- A removal brings no file back. -/
theorem removeForTombstone_absent {place : Place} {disk after : Disk} {record : Record}
    {environment : RemovalEnvironment} {result : Except InstallError Unit}
    (done : removeForTombstone disk record environment = (result, after))
    (present : place.Present after) : place.Present disk := by
  unfold Place.Present at present ⊢
  rcases removeForTombstone_disk done place.diskKey with same | ⟨gone, _⟩
  · rwa [← same]
  · rw [gone] at present
    cases present

/-- A thread stays in its scan until it idles. -/
theorem Advanced.run? {store after : StateStore} {phase next : ScanPhase} {run : ScanRun}
    (step : Advanced daemon store phase after next) (running : next.run? = some run) :
    phase.run? = some run := by
  cases step with
  | stopped => cases running
  | finished => cases running
  | _ => exact running

theorem Advanced.unread {store after : StateStore} {phase next : ScanPhase} {run : ScanRun}
    (step : Advanced daemon store phase after next) (waiting : next.unread = some run) :
    phase.unread = some run := by
  cases step with
  | completed => exact waiting
  | warned => exact waiting
  | _ => cases waiting

omit [Blake3] in
theorem ScanPhase.run?_of_unread {phase : ScanPhase} {run : ScanRun}
    (waiting : phase.unread = some run) : phase.run? = some run := by
  cases phase with
  | walked => exact waiting
  | warning => exact waiting
  | _ => cases waiting

/-- The winners are read once, and then only dropped. -/
theorem Advanced.winners {store after : StateStore} {phase next : ScanPhase}
    {row : PathRecordState} (step : Advanced daemon store phase after next)
    (member : row ∈ next.winners) :
    row ∈ phase.winners ∨ ∃ run, phase = .warning run [] ∧ row ∈ store.recordStates run.name := by
  cases step with
  | read run => exact Or.inr ⟨run, rfl, member⟩
  | kept => exact Or.inl (List.mem_cons_of_mem _ member)
  | deleted => exact Or.inl (List.mem_cons_of_mem _ member)
  | outranked => exact Or.inl (List.mem_cons_of_mem _ member)
  | stopped => cases member
  | completed => cases member
  | warned => cases member
  | finished => cases member
  | _ => exact Or.inl member

/-- What a step of the scan does to the row of one key. -/
inductive ScanEffect (daemon : Daemon) (store : StateStore) (phase : ScanPhase) (key : RecordKey) :
    Option PathRecordState → Prop
  | same : ScanEffect daemon store phase key (store.recordState key)
  | completed (run : ScanRun) : phase = .walked run →
      ScanEffect daemon store phase key (store.completedRow run.name run.root key)
  /-- The row of a listed file. -/
  | filed (run : ScanRun) (row : PathRecordState) : phase.run? = some run →
      run.name = key.collection → (run.context.files[key.path]?).isSome = true →
      row.record.kind.isFile = true →
      (store.record key = some row.record ∨
        row.record.key = key ∧ accepts (store.record key) row.record = true) →
      ScanEffect daemon store phase key (some row)
  | deleted (run : ScanRun) (winner : PathRecordState) (rest : List PathRecordState)
      (tombstone : Record) : phase = .deleting run (winner :: rest) →
      run.name = key.collection → winner.record.path = key.path →
      keepsWinner daemon.scanner run.context winner = false →
      deletionRecord run.name daemon.session.localEndpoint run.observedNs winner.record =
        .ok tombstone →
      accepts (store.record key) tombstone = true →
      ScanEffect daemon store phase key (some (mergedRow tombstone none))

theorem Advanced.effect {store after : StateStore} {phase next : ScanPhase}
    (step : Advanced daemon store phase after next) (orderly : phase.Orderly) (key : RecordKey) :
    ScanEffect daemon store phase key (after.recordState key) := by
  have quiet (same : store.Unchanged after) :
      ScanEffect daemon store phase key (after.recordState key) := by
    rw [same.rows]
    exact .same
  have rewritten {run : ScanRun} {path : ProtocolPath} {disk : DiskFile} {row old : PathRecordState}
      (running : phase.run? = some run) (listed : run.context.files[path]? = some disk)
      (present : store.recordState ⟨run.name, path⟩ = some old)
      (isFile : old.record.kind.isFile = true)
      (written : store.Rewritten ⟨run.name, path⟩ row after) (same : row.record = old.record) :
      ScanEffect daemon store phase key (after.recordState key) := by
    by_cases here : (⟨run.name, path⟩ : RecordKey) = key
    · rw [← here, written.at]
      refine .filed run row running rfl ?_ (same ▸ isFile) (Or.inl ?_)
      · rw [listed]
        rfl
      · rw [same]
        exact record_eq_some.mpr ⟨old, present, rfl⟩
    · rw [written.of_ne here]
      exact .same
  cases step with
  | stopped => exact .same
  | completed run after rows =>
      rw [rows]
      exact .completed run rfl
  | warned run event rest after same => exact quiet same
  | read => exact .same
  | filed => exact .same
  | diverged run current path disk rest row after _ present isFile written =>
      exact rewritten rfl (orderly.1 (path, disk) List.mem_cons_self) present isFile written rfl
  | passed run current path disk rest task after _ same => exact quiet same
  | chose => exact .same
  | differed => exact .same
  | settled run current path disk rest basis row after present isFile written =>
      exact rewritten rfl (orderly.1 (path, disk) List.mem_cons_self) present isFile written rfl
  | accepted run current path disk rest candidate winner after beats written =>
      have keyed : candidate.key = ⟨run.name, path⟩ := orderly.2.2 (path, disk) rfl
      rw [keyed] at beats written
      by_cases here : (⟨run.name, path⟩ : RecordKey) = key
      · rw [← here, written.at]
        have listed := orderly.1 (path, disk) List.mem_cons_self
        exact .filed run _ rfl rfl (by rw [listed]; rfl) orderly.2.1 (Or.inr ⟨keyed, beats⟩)
      · rw [written.of_ne here]
        exact .same
  | rejected run current path disk rest candidate winner after _ same => exact quiet same
  | repaired run current path disk rest row after present isFile written =>
      exact rewritten rfl (orderly.1 (path, disk) List.mem_cons_self) present isFile written rfl
  | kept => exact .same
  | deleted run winner rest tombstone after removes built beats written =>
      have keyed : tombstone.key = ⟨run.name, winner.record.path⟩ := (deletionRecord_ok built).1
      rw [keyed] at beats written
      by_cases here : (⟨run.name, winner.record.path⟩ : RecordKey) = key
      · rw [← here, written.at]
        exact .deleted run winner rest tombstone rfl rfl rfl removes built beats
      · rw [written.of_ne here]
        exact .same
  | outranked run winner rest tombstone after _ _ _ same => exact quiet same
  | finished run after same => exact quiet same

/-- The step by which a session unmarks a materialized file. -/
inductive Clears (store : StateStore) (key : RecordKey) : SessionPhase → SessionAction → Prop
  | installFailed (record : Record) (now : I64) : record.key = key →
      Clears store key (.installFailed record) (.markInstallFailed now)
  | unavailable (now : I64) : Clears store key (.unavailable key) (.markUnavailable now)
  | rebound (record : Record) (file : InstalledFile) (event : OperationalEvent) (now : I64) :
      record.key ≠ key → record.collection = key.collection →
      store.resolvedRoot key.collection ≠ some file.resolvedRoot →
      Clears store key (.installed record file event) (.markInstalled now)

/-- What a step of a session does to the row of one key. -/
inductive SessionEffect (peer : EndpointId) (store : StateStore) (phase : SessionPhase)
    (action : SessionAction) (key : RecordKey) : Option PathRecordState → Prop
  | same : SessionEffect peer store phase action key (store.recordState key)
  | accepted (candidate : Record) (now : I64) : phase = .merging candidate →
      action = .merge now → candidate.key = key →
      accepts (store.record key) candidate = true →
      SessionEffect peer store phase action key (some (mergedRow candidate (some peer)))
  | tombstoned (candidate : Record) (row : PathRecordState) : phase = .removed candidate →
      candidate.key = key → store.recordState key = some row → row.record.kind = .tombstone →
      SessionEffect peer store phase action key
        (some ⟨row.record, true, row.materializedFingerprint⟩)
  | marked (record : Record) (file : InstalledFile) (event : OperationalEvent) (now : I64)
      (row : PathRecordState) : phase = .installed record file event →
      action = .markInstalled now → record.key = key →
      store.recordState key = some row → row.record.kind.isFile = true →
      SessionEffect peer store phase action key (some ⟨row.record, true, some file.fingerprint⟩)
  | cleared (row : PathRecordState) : Clears store key phase action →
      store.recordState key = some row → row.record.kind.isFile = true →
      SessionEffect peer store phase action key (some ⟨row.record, false, none⟩)

theorem Acted.effect {i : Nat} {store after : StateStore} {disk diskAfter : Disk}
    {phase next : SessionPhase} {action : SessionAction}
    (step : Acted daemon i store disk phase action after diskAfter next) (key : RecordKey) :
    SessionEffect (daemon.peer i) store phase action key (after.recordState key) := by
  have quiet (same : store.Unchanged after) :
      SessionEffect (daemon.peer i) store phase action key (after.recordState key) := by
    rw [same.rows]
    exact .same
  cases step with
  | ended phase action after same => exact quiet same
  | accepted candidate now after beats written =>
      by_cases here : candidate.key = key
      · subst here
        rw [written.at]
        exact .accepted candidate now rfl rfl rfl beats
      · rw [written.of_ne here]
        exact .same
  | rejected candidate now after _ same => exact quiet same
  | tombstoned candidate now row after present removed written =>
      by_cases here : candidate.key = key
      · subst here
        rw [written.at]
        exact .tombstoned candidate row rfl rfl present removed
      · rw [written.of_ne here]
        exact .same
  | marked record file event now row after present isFile _ rows =>
      rw [rows]
      by_cases here : record.key = key
      · subst here
        rw [if_pos rfl]
        exact .marked record file event now row rfl rfl rfl present isFile
      · rw [if_neg here]
        unfold reboundRow
        split
        · exact .same
        · rename_i other
          cases stored : store.recordState key with
          | none =>
              rw [Option.map_none, ← stored]
              exact .same
          | some old =>
              rw [Option.map_some]
              unfold unmaterialized
              split
              · rename_i cleared
                have same : record.collection = key.collection := cleared.1.symm
                have rebinds : store.resolvedRoot key.collection ≠ some file.resolvedRoot := by
                  rwa [← same]
                exact .cleared old (.rebound record file event now here same rebinds) stored
                  cleared.2.2
              · rw [← stored]
                exact .same
  | installFailed record now row after present isFile written =>
      by_cases here : record.key = key
      · subst here
        rw [written.at]
        exact .cleared row (.installFailed record now rfl) present isFile
      · rw [written.of_ne here]
        exact .same
  | unavailable marked now row after present isFile written =>
      by_cases here : marked = key
      · subst here
        rw [written.at]
        exact .cleared row (.unavailable now) present isFile
      · rw [written.of_ne here]
        exact .same
  | _ => exact .same

/-- Only the transaction that completes a walk binds a collection to a root. -/
theorem Advanced.root {store after : StateStore} {phase next : ScanPhase}
    (step : Advanced daemon store phase after next) (name : String) :
    after.resolvedRoot name = store.resolvedRoot name ∨
      ∃ run, phase = .walked run ∧ run.name = name ∧ after.resolvedRoot name = some run.root := by
  cases step with
  | completed run after _ roots =>
      by_cases here : name = run.name
      · exact Or.inr ⟨run, rfl, here.symm, by rw [roots, if_pos here]⟩
      · exact Or.inl (by rw [roots, if_neg here])
  | warned run event rest after same => exact Or.inl (same.roots name)
  | diverged run current path disk rest row after _ _ _ written => exact Or.inl (written.roots name)
  | passed run current path disk rest task after _ same => exact Or.inl (same.roots name)
  | settled run current path disk rest basis row after _ _ written =>
      exact Or.inl (written.roots name)
  | accepted run current path disk rest candidate winner after _ written =>
      exact Or.inl (written.roots name)
  | rejected run current path disk rest candidate winner after _ same =>
      exact Or.inl (same.roots name)
  | repaired run current path disk rest row after _ _ written => exact Or.inl (written.roots name)
  | deleted run winner rest tombstone after _ _ _ written => exact Or.inl (written.roots name)
  | outranked run winner rest tombstone after _ _ _ same => exact Or.inl (same.roots name)
  | finished run after same => exact Or.inl (same.roots name)
  | _ => exact Or.inl rfl

/-- A session binds a collection to the root that it has installed a file under. -/
theorem Acted.root {i : Nat} {store after : StateStore} {disk diskAfter : Disk}
    {phase next : SessionPhase} {action : SessionAction}
    (step : Acted daemon i store disk phase action after diskAfter next) (name : String) :
    after.resolvedRoot name = store.resolvedRoot name ∨
      ∃ record file event now, phase = .installed record file event ∧
        action = .markInstalled now ∧ record.collection = name ∧
        after.resolvedRoot name = some file.resolvedRoot := by
  cases step with
  | ended phase action after same => exact Or.inl (same.roots name)
  | accepted candidate now after _ written => exact Or.inl (written.roots name)
  | rejected candidate now after _ same => exact Or.inl (same.roots name)
  | tombstoned candidate now row after _ _ written => exact Or.inl (written.roots name)
  | marked record file event now row after _ _ roots _ =>
      by_cases here : name = record.key.collection
      · exact Or.inr ⟨record, file, event, now, rfl, rfl, here.symm, by rw [roots, if_pos here]⟩
      · exact Or.inl (by rw [roots, if_neg here])
  | installFailed record now row after _ _ written => exact Or.inl (written.roots name)
  | unavailable key now row after _ _ written => exact Or.inl (written.roots name)
  | _ => exact Or.inl rfl

end

/-- The row is one of a file that the node has installed or seen. -/
def StateStore.Marked (store : StateStore) (key : RecordKey) : Prop :=
  ∃ row, store.recordState key = some row ∧ row.record.kind.isFile = true ∧
    row.materialized = true

instance (store : StateStore) (key : RecordKey) : Decidable (store.Marked key) :=
  decidable_of_iff ((store.recordState key).any fun row =>
      row.record.kind.isFile && row.materialized) (by
    simp only [StateStore.Marked, Option.any_eq_true, Bool.and_eq_true])

/-- The collection of a place is bound to no other root. -/
def Place.Bound (place : Place) (store : StateStore) : Prop :=
  ∀ root ∈ store.resolvedRoot place.collection, root = place.root

instance (place : Place) (store : StateStore) : Decidable (place.Bound store) :=
  inferInstanceAs (Decidable (∀ root ∈ store.resolvedRoot place.collection, root = place.root))

/-- The row says that the file is below the root of the place. -/
def Place.Held (place : Place) (store : StateStore) : Prop :=
  store.Marked place.key ∧ place.Bound store

instance (place : Place) (store : StateStore) : Decidable (place.Held store) :=
  inferInstanceAs (Decidable (store.Marked place.key ∧ place.Bound store))

/-- The key of the file that a session has installed and is about to mark. -/
def SessionPhase.marksNext : SessionPhase → Option RecordKey
  | .installed record _ _ => some record.key
  | _ => none

theorem marked_congr {store after : StateStore} {key : RecordKey}
    (same : after.recordState key = store.recordState key) (marked : after.Marked key) :
    store.Marked key := by
  have ⟨row, present, rest⟩ := marked
  exact ⟨row, same ▸ present, rest⟩

/-- A row that is marked after a change of its collection's root was not of that collection. -/
theorem marked_of_unmaterialized {store after : StateStore} {collection : String}
    {spared : Option ProtocolPath} {key : RecordKey}
    (row : after.recordState key =
      (store.recordState key).map (unmaterialized collection spared key))
    (marked : after.Marked key) :
    store.Marked key ∧ ¬ (key.collection = collection ∧ spared ≠ some key.path) := by
  obtain ⟨found, present, isFile, materialized⟩ := marked
  rw [row] at present
  obtain ⟨old, stored, same⟩ := Option.map_eq_some_iff.mp present
  unfold unmaterialized at same
  split at same
  · rw [← same] at materialized
    cases materialized
  · rename_i apart
    subst same
    exact ⟨⟨old, stored, isFile, materialized⟩, fun both => apart ⟨both.1, both.2, isFile⟩⟩

/-- A mark that outlives the completion of a walk is one of a row under the walked root. -/
theorem marked_of_completed {store after : StateStore} {name : String} {root : RootPath}
    {key : RecordKey} (row : after.recordState key = store.completedRow name root key)
    (marked : after.Marked key) :
    store.Marked key ∧ (key.collection = name → store.resolvedRoot name = some root) := by
  unfold completedRow at row
  split at row
  · rename_i bound
    exact ⟨marked_congr row marked, fun _ => bound⟩
  · have ⟨before, apart⟩ := marked_of_unmaterialized row marked
    exact ⟨before, fun named => absurd ⟨named, fun none => by cases none⟩ apart⟩

/-- A mark that outlives the installation of another file is one of a row under its root. -/
theorem marked_of_rebound {store after : StateStore} {installed key : RecordKey} {root : RootPath}
    (other : installed ≠ key) (row : after.recordState key = store.reboundRow installed root key)
    (marked : after.Marked key) :
    store.Marked key ∧ (key.collection = installed.collection →
      store.resolvedRoot installed.collection = some root) := by
  unfold reboundRow at row
  split at row
  · rename_i bound
    exact ⟨marked_congr row marked, fun _ => bound⟩
  · have ⟨before, apart⟩ := marked_of_unmaterialized row marked
    refine ⟨before, fun named => absurd ⟨named, fun same => other ?_⟩ apart⟩
    cases installed
    cases key
    exact RecordKey.mk.injEq .. ▸ ⟨named.symm, Option.some.inj same⟩

section
variable [Blake3] {daemon : Daemon}

/-- A step of a session marks only the file that it has installed. -/
theorem Acted.marked_cases {i : Nat} {store after : StateStore} {disk diskAfter : Disk}
    {phase next : SessionPhase} {action : SessionAction} {key : RecordKey}
    (step : Acted daemon i store disk phase action after diskAfter next)
    (marked : after.Marked key) :
    store.Marked key ∨ ∃ now, action = .markInstalled now ∧ phase.marksNext = some key := by
  have effect := step.effect key
  generalize changed : after.recordState key = written at effect
  cases effect with
  | same => exact Or.inl (marked_congr changed marked)
  | marked record file event now row standing acts keyed _ _ =>
      refine Or.inr ⟨now, acts, ?_⟩
      rw [standing, ← keyed]
      rfl
  | accepted candidate now _ _ _ _ =>
      have ⟨row, present, _, materialized⟩ := marked
      rw [changed] at present
      cases present
      cases materialized
  | tombstoned candidate old _ _ _ removed =>
      have ⟨row, present, isFile, _⟩ := marked
      rw [changed] at present
      cases present
      rw [removed] at isFile
      cases isFile
  | cleared old _ _ _ =>
      have ⟨row, present, _, materialized⟩ := marked
      rw [changed] at present
      cases present
      cases materialized

theorem Acted.held_cases {place : Place} {i : Nat} {store after : StateStore}
    {disk diskAfter : Disk}
    {phase next : SessionPhase} {action : SessionAction}
    (step : Acted daemon i store disk phase action after diskAfter next)
    (held : place.Held after) :
    place.Held store ∨
      ∃ now, action = .markInstalled now ∧ phase.marksNext = some place.key := by
  have ⟨marks, bound⟩ := held
  rcases step.root place.collection with same | ⟨record, file, event, now, standing, acts, named, _⟩
  · unfold Place.Bound at bound
    rw [same] at bound
    exact (step.marked_cases marks).imp_left fun before => ⟨before, bound⟩
  · subst standing acts
    cases step with
    | ended _ _ _ same =>
        unfold Place.Bound at bound
        rw [same.roots] at bound
        exact Or.inl ⟨marked_congr (same.rows place.key) marks, bound⟩
    | marked _ _ _ _ row _ present isFile roots rows =>
        by_cases own : record.key = place.key
        · exact Or.inr ⟨now, rfl, congrArg some own⟩
        · have kept := rows place.key
          rw [if_neg own] at kept
          have ⟨before, same⟩ := marked_of_rebound own kept marks
          refine Or.inl ⟨before, fun root member => bound root ?_⟩
          have here : record.key.collection = place.collection := named
          rw [← here, same here.symm] at member
          rw [roots, if_pos here.symm]
          exact member

/-- Every stored record is stored under its key, and the scan is in order. -/
structure Node.WellFormed (node : Node) : Prop where
  keyed : node.store.Keyed
  orderly : node.scan.Orderly

theorem Advanced.keyed {store after : StateStore} {phase next : ScanPhase}
    (step : Advanced daemon store phase after next) (orderly : phase.Orderly)
    (keyed : store.Keyed) : after.Keyed := by
  intro key record found
  have ⟨row, present, same⟩ := record_eq_some.mp found
  have effect := step.effect orderly key
  rw [present] at effect
  rw [← same]
  generalize changed : some row = written at effect
  cases effect with
  | same => exact keyed.row changed.symm
  | completed run =>
      apply keyed key
      rw [← completedRow_record store run.name run.root key, ← changed]
      rfl
  | filed run new _ _ _ _ origin =>
      cases changed
      rcases origin with stored | merged
      · exact keyed key _ stored
      · exact merged.1
  | deleted run winner rest tombstone _ named located _ built _ =>
      cases changed
      have tombstoneKey := (deletionRecord_ok built).1
      rwa [named, located] at tombstoneKey

theorem Acted.keyed {i : Nat} {store after : StateStore} {disk diskAfter : Disk}
    {phase next : SessionPhase} {action : SessionAction}
    (step : Acted daemon i store disk phase action after diskAfter next)
    (keyed : store.Keyed) : after.Keyed := by
  intro key record found
  have ⟨row, present, same⟩ := record_eq_some.mp found
  have effect := step.effect key
  rw [present] at effect
  rw [← same]
  generalize changed : some row = written at effect
  cases effect with
  | same => exact keyed.row changed.symm
  | accepted candidate now _ _ here _ =>
      cases changed
      exact here
  | tombstoned candidate old _ _ stored _ =>
      cases changed
      exact keyed key _ (record_eq_some.mpr ⟨old, stored, rfl⟩)
  | marked record file event now old _ _ _ stored _ =>
      cases changed
      exact keyed key _ (record_eq_some.mpr ⟨old, stored, rfl⟩)
  | cleared old _ stored _ =>
      cases changed
      exact keyed key _ (record_eq_some.mpr ⟨old, stored, rfl⟩)

theorem Node.WellFormed.stepped {node next : Node} {label : Label} (holds : node.WellFormed)
    (step : Stepped daemon node label next) : next.WellFormed := by
  cases step with
  | walked => exact ⟨holds.keyed, trivial⟩
  | advanced store scan step =>
      exact ⟨step.keyed holds.orderly holds.keyed, step.orderly holds.orderly⟩
  | aborted => exact ⟨holds.keyed, trivial⟩
  | acted i action store disk phase step => exact ⟨step.keyed holds.keyed, holds.orderly⟩
  | wrote => exact ⟨holds.keyed, holds.orderly⟩
  | removed => exact ⟨holds.keyed, holds.orderly⟩
  | attached name localPath root store rows _ =>
      refine ⟨fun key record found => ?_, holds.orderly⟩
      rw [record_congr (rows key)] at found
      exact holds.keyed key record found

end

section
attribute [local instance] Blake3.checksum

/-- The file `f` of the collection `c`. -/
def placeF : Place := ⟨"c", "/c", .sample⟩

/-- A collection without a row. -/
def attached : StateStore :=
  { StateStore.empty with
    collections := (∅ : OrderedMap String CollectionState).insert "c"
      ⟨"/c", some "/c", .active, .active⟩ }

theorem attached_record (key : RecordKey) : attached.record key = none := by
  rw [StateStore.record, recordState, attached, StateStore.empty, Std.ExtTreeMap.getElem?_empty]
  rfl

/-- A scan walks the empty root. -/
def walkBare : Label := .walk "c" "/c" "/c" 9 bare

theorem shows_bare (root : RootPath) : Node.Shows ∅ root bare := by
  refine ⟨fun path file found => ?_, fun path present => ?_⟩
  · rw [bare_fileAt] at found
    cases found
  · rw [Std.ExtTreeMap.getElem?_empty] at present
    cases present

theorem sees_without_walk {node : Node} {labels : List Label}
    (others : labels.all fun label => !label.walks) :
    Along (Node.step .sample) Node.Sees node labels := by
  apply Along.of_forall
  intro label member s
  have other := List.all_eq_true.mp others label member
  exact Node.sees_of_not_walks (by simpa using other)

/-- A walk of the empty root between other steps. -/
theorem sees_walk {node : Node} {front back : List Label}
    (earlier : front.all fun label => !label.walks) (later : back.all fun label => !label.walks)
    (empty : (run (Node.step .sample) node front).map Node.disk = some ∅) :
    Along (Node.step .sample) Node.Sees node (front ++ walkBare :: back) := by
  apply (sees_without_walk earlier).append
  intro t reached
  rw [reached, Option.map_some, Option.some.injEq] at empty
  refine ⟨?_, fun u _ => sees_without_walk later⟩
  show Node.Shows t.disk "/c" bare
  rw [empty]
  exact shows_bare "/c"

end

end Skillsync
