import Skillsync.Places

set_option autoImplicit false

namespace Skillsync

open Fallible StateStore Runs

/-- The key of the record that a session is installing. -/
def SessionPhase.installs : SessionPhase → Option RecordKey
  | .receiving record _ | .installed record _ _ | .installFailed record => some record.key
  | _ => none

/-- A session offers no record that beats the one of a place, installs only other files, and
those under the same root. -/
def SessionPhase.leaves [Blake3] (place : Place) (store : StateStore) :
    SessionPhase → SessionAction → Bool
  | .merging candidate, .merge _ =>
      decide (candidate.key = place.key → accepts (store.record place.key) candidate = false)
  | .idle, .receive record _ => decide (record.key ≠ place.key)
  | .receiving record _, .install environment =>
      decide (record.path = place.path → environment.root.toOption ≠ some place.root)
  | .installed record file _, .markInstalled _ =>
      decide (record.collection = place.collection → file.resolvedRoot = place.root)
  | _, _ => true

/-- Sessions and users leave a place alone, and scans of its collection walk its root without
excluding it. -/
def Node.leaves [Blake3] (daemon : Daemon) (place : Place) (node : Node) : Label → Bool
  | .write key _ => decide (key ≠ place.diskKey)
  | .session i action => (node.sessions i).leaves place node.store action
  | label => place.reached daemon label

/-- A session is about to clear the mark of a file that it could not verify for a request. -/
def Node.clears (place : Place) (node : Node) : Label → Bool
  | .session i (.markUnavailable _) =>
      match node.sessions i with
      | .unavailable key => decide (key = place.key)
      | _ => false
  | _ => false

/-- The scan has just walked the root of a collection. -/
def ScanPhase.hasWalked (name : String) : ScanPhase → Bool
  | .walked run => decide (run.name = name)
  | _ => false

/-- The scan has gone through all its winners. -/
def ScanPhase.hasEnded : ScanPhase → Bool
  | .deleting _ [] => true
  | _ => false

/-- The tombstone of the removed file is the winner. -/
def Published (daemon : Daemon) (place : Place) (record : Record) (store : StateStore) : Prop :=
  ∃ observedNs tombstone, deletionRecord place.collection daemon.session.localEndpoint observedNs
    record = .ok tombstone ∧ store.record place.key = some tombstone

/-- The row still says that the node has held the file. -/
def Witnessed (place : Place) (record : Record) (store : StateStore) : Prop :=
  ∃ row, store.recordState place.key = some row ∧ row.record = record ∧ row.materialized = true

/-- A place whose file is gone, and is left alone. -/
structure Gone (daemon : Daemon) (place : Place) (record : Record) (node : Node) : Prop where
  wellFormed : node.WellFormed
  absent : ¬ place.Present node.disk
  bound : node.store.resolvedRoot place.collection = some place.root
  idle : ∀ i, (node.sessions i).installs ≠ some place.key
  stored : Published daemon place record node.store ∨ node.store.record place.key = some record
  walked : ∀ run, node.scan.run? = some run → run.name = place.collection →
    run.root = place.root ∧ run.context.files[place.path]? = none ∧
      run.context.isExcluded place.path.text = false
  winners : ∀ run, node.scan.run? = some run → run.name = place.collection →
    ∀ row ∈ node.scan.winners, row.record.path = place.path → row.record.kind.isFile = true →
      row.record = record

section
variable {daemon : Daemon} {place : Place} {record : Record}

theorem Published.congr {store after : StateStore} (published : Published daemon place record store)
    (same : after.record place.key = store.record place.key) :
    Published daemon place record after := by
  have ⟨observedNs, tombstone, built, stored⟩ := published
  exact ⟨observedNs, tombstone, built, same.trans stored⟩

theorem Witnessed.congr {store after : StateStore} (witnessed : Witnessed place record store)
    (same : after.recordState place.key = store.recordState place.key) :
    Witnessed place record after := by
  have ⟨row, present, rest⟩ := witnessed
  exact ⟨row, same.trans present, rest⟩

end

section
variable [Blake3] {daemon : Daemon} {place : Place} {record : Record}

/-- A step of the scan leaves the row of a place as it is, or publishes its deletion. -/
theorem Gone.scanned {node : Node} (gone : Gone daemon place record node) {store : StateStore}
    {scan : ScanPhase} (step : Advanced daemon node.store node.scan store scan) :
    store.recordState place.key = node.store.recordState place.key ∨
      Published daemon place record store := by
  have effect := step.effect gone.wellFormed.orderly place.key
  generalize changed : store.recordState place.key = written at effect
  cases effect with
  | same => exact Or.inl rfl
  | completed run standing =>
      by_cases named : run.name = place.collection
      · obtain ⟨rooted, _⟩ := gone.walked run (by rw [standing]; rfl) named
        rw [completedRow, named, rooted, if_pos gone.bound]
        exact Or.inl rfl
      · rw [completedRow_of_ne node.store run.root fun same => named same.symm]
        exact Or.inl rfl
  | filed run row running named listed =>
      obtain ⟨_, missing, _⟩ := gone.walked run running named
      rw [show run.context.files[place.key.path]? = none from missing] at listed
      cases listed
  | deleted run winner rest tombstone standing named located removes built _ =>
      have same : winner.record = record :=
        gone.winners run (by rw [standing]; rfl) named winner
          (by rw [standing]; exact List.mem_cons_self) located (keepsWinner_eq_false.mp removes).1
      rw [same, named] at built
      exact Or.inr ⟨run.observedNs, tombstone, built, record_eq_some.mpr ⟨_, changed, rfl⟩⟩

/-- A step of a session leaves the record of a place as it is, and its mark unless it clears
it. -/
theorem Gone.served {node : Node} (gone : Gone daemon place record node) {i : Nat}
    {action : SessionAction} {store : StateStore} {disk : Disk} {phase : SessionPhase}
    (leaves : node.leaves daemon place (.session i action) = true)
    (step : Acted daemon i node.store node.disk (node.sessions i) action store disk phase) :
    store.record place.key = node.store.record place.key ∧
      (node.clears place (.session i action) = false →
        Witnessed place record node.store → Witnessed place record store) := by
  have idle := gone.idle i
  have leaves : (node.sessions i).leaves place node.store action = true := leaves
  have effect := step.effect place.key
  generalize changed : store.recordState place.key = written at effect
  have same {row old : PathRecordState} (now : written = some row)
      (before : node.store.recordState place.key = some old) (equal : row.record = old.record) :
      store.record place.key = node.store.record place.key := by
    rw [StateStore.record, StateStore.record, changed, now, before, Option.map_some,
      Option.map_some, equal]
  cases effect with
  | same => exact ⟨record_congr changed, fun _ witnessed => witnessed.congr changed⟩
  | accepted candidate now standing acts keyed beats =>
      rw [standing, acts] at leaves
      rw [of_decide_eq_true leaves keyed] at beats
      cases beats
  | tombstoned candidate old _ _ before _ =>
      refine ⟨same rfl before rfl, fun _ witnessed => ?_⟩
      obtain ⟨row, present, equal, _⟩ := witnessed
      rw [before] at present
      cases present
      exact ⟨_, changed, equal, rfl⟩
  | marked installed file event now old standing _ keyed _ _ =>
      rw [standing, ← keyed] at idle
      exact absurd rfl idle
  | cleared old clears before _ =>
      refine ⟨same rfl before rfl, fun spared _ => ?_⟩
      exfalso
      generalize phaseIs : node.sessions i = standing at clears idle leaves
      cases clears with
      | installFailed failed now keyed =>
          rw [← keyed] at idle
          exact idle rfl
      | unavailable now =>
          rw [Node.clears, phaseIs] at spared
          exact of_decide_eq_false spared rfl
      | rebound installed file event now _ sameCollection differs =>
          have rooted := of_decide_eq_true leaves sameCollection
          rw [rooted] at differs
          exact differs gone.bound

omit [Blake3] in
/-- What is known of the record stays known while the record stays. -/
theorem Gone.kept {node : Node} (gone : Gone daemon place record node) {store : StateStore}
    (same : store.record place.key = node.store.record place.key) :
    Published daemon place record store ∨ store.record place.key = some record := by
  rcases gone.stored with ⟨observedNs, tombstone, built, stored⟩ | stored
  · exact Or.inl ⟨observedNs, tombstone, built, same.trans stored⟩
  · exact Or.inr (same.trans stored)

/-- A step of the scan. -/
theorem Gone.advanced {node : Node} (gone : Gone daemon place record node) {store : StateStore}
    {scan : ScanPhase} (step : Advanced daemon node.store node.scan store scan) :
    Gone daemon place record { node with store := store, scan := scan } := by
  refine ⟨gone.wellFormed.stepped (.advanced store scan step), gone.absent, ?_, gone.idle, ?_,
    fun run running => gone.walked run (step.run? running), fun run running named row member => ?_⟩
  · rcases step.root place.collection with same | ⟨run, standing, named, rooted⟩
    · exact same.trans gone.bound
    · have ⟨here, _⟩ := gone.walked run (by rw [standing]; rfl) named
      rw [← here]
      exact rooted
  · rcases gone.scanned step with same | published
    · exact gone.kept (record_congr same)
    · exact Or.inl published
  · intro located isFile
    rcases step.winners member with old | ⟨other, reading, read⟩
    · exact gone.winners run (step.run? running) named row old located isFile
    · have running := step.run? running
      rw [reading] at running
      cases running
      have ⟨path, present⟩ := mem_recordStates.mp read
      have samePath : row.record.path = path :=
        congrArg RecordKey.path (gone.wellFormed.keyed.row present)
      rw [named, ← samePath, located] at present
      have found : node.store.record place.key = some row.record :=
        record_eq_some.mpr ⟨row, present, rfl⟩
      rcases gone.stored with ⟨observedNs, tombstone, built, stored⟩ | stored
      · rw [found] at stored
        cases stored
        rw [(deletionRecord_ok built).2.1] at isFile
        cases isFile
      · rw [found] at stored
        exact Option.some.inj stored

/-- A step of a session. -/
theorem Gone.acted {node : Node} (gone : Gone daemon place record node) {i : Nat}
    {action : SessionAction} {store : StateStore} {disk : Disk} {phase : SessionPhase}
    (leaves : node.leaves daemon place (.session i action) = true)
    (step : Acted daemon i node.store node.disk (node.sessions i) action store disk phase) :
    Gone daemon place record { node with
      store := store, disk := disk, sessions := Function.update node.sessions i phase } := by
  have apart : (node.sessions i).leaves place node.store action = true := leaves
  have stays := gone.idle i
  have absent : ¬ place.Present disk := by
    intro present
    apply gone.absent
    generalize node.sessions i = before at step apart
    cases step with
    | removed candidate environment _ done => exact removeForTombstone_absent done present
    | notRemoved candidate environment reason _ done =>
        exact removeForTombstone_absent done present
    | installed received stream environment file event prepared =>
        obtain ⟨samePath, opened, _⟩ := prepareInstall_ok prepared
        rw [Place.Present, renamed, OrderedMap.getElem?_insert] at present
        split at present
        · rename_i here
          obtain ⟨sameRoot, sameFile⟩ := DiskKey.mk.inj here
          have located : received.path = place.path := samePath.symm.trans sameFile
          apply absurd _ (of_decide_eq_true apart located)
          rw [opened, ← sameRoot]
          rfl
        · exact present
    | _ => exact present
  have bound : store.resolvedRoot place.collection = some place.root := by
    rcases step.root place.collection with same |
      ⟨marked, file, event, now, standing, acts, named, rooted⟩
    · exact same.trans gone.bound
    · rw [standing, acts] at apart
      rw [rooted, of_decide_eq_true apart named]
  have idle : phase.installs ≠ some place.key := by
    generalize node.sessions i = before at step apart stays
    cases step with
    | received received stream _ _ =>
        exact fun same => of_decide_eq_true apart (Option.some.inj same)
    | installed => exact stays
    | notInstalled received stream environment phase ends =>
        rcases ends with rfl | rfl
        · exact fun none => by cases none
        · exact stays
    | _ => exact fun none => by cases none
  exact {
    wellFormed := gone.wellFormed.stepped (.acted i action store disk phase step)
    absent := absent
    bound := bound
    idle := forall_update (p := fun phase => phase.installs ≠ some place.key) idle gone.idle
    stored := gone.kept (gone.served leaves step).1
    walked := gone.walked
    winners := gone.winners }

/-- The step lemma. -/
theorem Gone.step :
    Preserves (Node.step daemon)
      (fun node label => node.Sees label ∧ node.leaves daemon place label = true)
      (Gone daemon place record) := by
  intro node label next gone allowed taken
  have ⟨sees, leaves⟩ := allowed
  have step := Node.step_cases taken
  have wellFormed := gone.wellFormed.stepped step
  cases step with
  | walked name localPath root observedNs fileSystem context idle walked =>
      refine ⟨wellFormed, gone.absent, gone.bound, gone.idle, gone.stored, ?_, ?_⟩
      · intro run running named
        cases running
        have ⟨rooted, included, shows⟩ := Place.reached_walk sees leaves walked named
        refine ⟨rooted, ?_, included⟩
        apply Option.not_isSome_iff_eq_none.mp
        exact fun listed => gone.absent (Place.present_of_listed shows walked listed)
      · intro run _ _ row member
        cases member
  | advanced store scan step => exact gone.advanced step
  | aborted =>
      refine ⟨wellFormed, gone.absent, gone.bound, gone.idle, gone.stored, ?_, ?_⟩
      · intro run running
        cases running
      · intro run running
        cases running
  | acted i action store disk phase step => exact gone.acted leaves step
  | wrote key file =>
      have other : key ≠ place.diskKey := of_decide_eq_true leaves
      refine ⟨wellFormed, ?_, gone.bound, gone.idle, gone.stored, gone.walked, gone.winners⟩
      show ¬ place.Present (node.disk.insert key file)
      rw [Place.Present, OrderedMap.getElem?_insert, if_neg other]
      exact gone.absent
  | removed key =>
      refine ⟨wellFormed, ?_, gone.bound, gone.idle, gone.stored, gone.walked, gone.winners⟩
      exact fun present => gone.absent present.of_erase
  | attached name localPath root store rows roots =>
      refine ⟨wellFormed, gone.absent, ?_, gone.idle, gone.kept (record_congr (rows place.key)),
        gone.walked, gone.winners⟩
      show store.resolvedRoot place.collection = some place.root
      rw [roots place.collection (by rw [gone.bound]; exact Option.some_ne_none _), gone.bound]

/-- A published deletion stays published. -/
theorem Gone.published {node next : Node} (gone : Gone daemon place record node) {label : Label}
    (leaves : node.leaves daemon place label = true) (step : Stepped daemon node label next)
    (published : Published daemon place record node.store) :
    Published daemon place record next.store := by
  cases step with
  | advanced store scan step =>
      rcases gone.scanned step with same | again
      · exact published.congr (record_congr same)
      · exact again
  | acted i action store disk phase step => exact published.congr (gone.served leaves step).1
  | attached name localPath root store rows _ =>
      exact published.congr (record_congr (rows place.key))
  | _ => exact published

/-- A step that does not clear the mark keeps it, or publishes the deletion. -/
theorem Gone.witnessed {node next : Node} (gone : Gone daemon place record node) {label : Label}
    (leaves : node.leaves daemon place label = true) (spares : node.clears place label = false)
    (step : Stepped daemon node label next) (witnessed : Witnessed place record node.store) :
    Published daemon place record next.store ∨ Witnessed place record next.store := by
  cases step with
  | advanced store scan step =>
      rcases gone.scanned step with same | published
      · exact Or.inr (witnessed.congr same)
      · exact Or.inl published
  | acted i action store disk phase step =>
      exact Or.inr ((gone.served leaves step).2 spares witnessed)
  | attached name localPath root store rows _ => exact Or.inr (witnessed.congr (rows place.key))
  | _ => exact Or.inr witnessed

/-- Before the scan: the evidence of the file is kept. -/
theorem Witnessed.step :
    Preserves (Node.step daemon)
      (fun node label => (node.Sees label ∧ node.leaves daemon place label = true) ∧
        node.clears place label = false)
      (fun node => Gone daemon place record node ∧
        (Published daemon place record node.store ∨ Witnessed place record node.store)) := by
  intro node label next holds allowed taken
  have ⟨gone, evidence⟩ := holds
  have step := Node.step_cases taken
  refine ⟨Gone.step node label next gone allowed.1 taken, ?_⟩
  rcases evidence with published | witnessed
  · exact Or.inl (gone.published allowed.1.2 step published)
  · exact gone.witnessed allowed.1.2 allowed.2 step witnessed

/-- What the scan of the collection still has to go on: the row before it reads the rows, and
the winner that it has read after that. -/
def Pending (daemon : Daemon) (place : Place) (record : Record) (node : Node) : Prop :=
  ∀ run, node.scan.run? = some run → run.name = place.collection ∧
    (Published daemon place record node.store ∨
      (node.scan.unread = some run ∧ Witnessed place record node.store) ∨
      ∃ row ∈ node.scan.winners, row.record = record ∧ row.materialized = true)

/-- The scan goes on with its evidence, or publishes the deletion. -/
theorem Gone.pending (visible : isIgnored daemon.scanner.ignores place.path.text = false)
    (isFile : record.kind.isFile = true) (room : record.modifiedNs < I64.max) {node : Node}
    (gone : Gone daemon place record node) (pending : Pending daemon place record node)
    {store : StateStore} {scan : ScanPhase}
    (step : Advanced daemon node.store node.scan store scan) :
    Pending daemon place record { node with store := store, scan := scan } := by
  intro run running
  have before := step.run? running
  have ⟨named, evidence⟩ := pending run before
  have ⟨_, missing, included⟩ := gone.walked run before named
  refine ⟨named, ?_⟩
  rcases gone.scanned step with same | published
  · rcases evidence with published | ⟨waiting, witnessed⟩ | ⟨row, member, equal, materialized⟩
    · exact Or.inl (published.congr (record_congr same))
    · generalize node.scan = phase at step before waiting
      cases step with
      | stopped => cases running
      | completed => exact Or.inr (Or.inl ⟨waiting, witnessed.congr same⟩)
      | warned => exact Or.inr (Or.inl ⟨waiting, witnessed.congr same⟩)
      | read other =>
          have ⟨row, present, equal, materialized⟩ := witnessed
          have here : other.name = place.collection := by
            cases waiting
            exact named
          refine Or.inr (Or.inr ⟨row, mem_recordStates.mpr ⟨place.path, ?_⟩, equal, materialized⟩)
          rw [here]
          exact present
      | _ => cases waiting
    · rcases gone.stored with published | stored
      · exact Or.inl (published.congr (record_congr same))
      have key : record.key = place.key := gone.wellFormed.keyed place.key record stored
      have located : record.path = place.path := congrArg RecordKey.path key
      have removes : keepsWinner daemon.scanner run.context row = false := by
        rw [keepsWinner_eq_false, equal, located]
        exact ⟨isFile, materialized, missing, visible, included⟩
      have tombstoneKey {tombstone : Record} (built : deletionRecord run.name
          daemon.session.localEndpoint run.observedNs record = .ok tombstone) :
          tombstone.key = place.key := by
        rw [(deletionRecord_ok built).1, named, located]
        rfl
      generalize node.scan = phase at step before member
      cases step with
      | stopped => cases running
      | completed => cases member
      | warned => cases member
      | read => cases member
      | finished => cases running
      | kept other winner rest keeps =>
          cases before
          rcases List.mem_cons.mp member with rfl | later
          · rw [keeps] at removes
            cases removes
          · exact Or.inr (Or.inr ⟨row, later, equal, materialized⟩)
      | deleted other winner rest tombstone after _ built _ written =>
          cases before
          rcases List.mem_cons.mp member with rfl | later
          · rw [equal] at built
            rw [tombstoneKey built] at written
            rw [named] at built
            exact Or.inl ⟨run.observedNs, tombstone, built,
              record_eq_some.mpr ⟨_, written.at, rfl⟩⟩
          · exact Or.inr (Or.inr ⟨row, later, equal, materialized⟩)
      | outranked other winner rest tombstone after _ built loses _ =>
          cases before
          rcases List.mem_cons.mp member with rfl | later
          · rw [equal] at built
            have beats := deletionRecord_beats room built
            rw [tombstoneKey built, stored, accepts, beats] at loses
            cases loses
          · exact Or.inr (Or.inr ⟨row, later, equal, materialized⟩)
      | _ => exact Or.inr (Or.inr ⟨row, member, equal, materialized⟩)
  · exact Or.inl published

/-- During the scan: its evidence is kept until the deletion is published. -/
theorem Pending.step (visible : isIgnored daemon.scanner.ignores place.path.text = false)
    (isFile : record.kind.isFile = true) (room : record.modifiedNs < I64.max) :
    Preserves (Node.step daemon)
      (fun node label => (node.Sees label ∧ node.leaves daemon place label = true) ∧
        label.walks = false ∧ (node.clears place label = true → node.scan.unread = none))
      (fun node => Gone daemon place record node ∧ Pending daemon place record node) := by
  intro node label next holds allowed taken
  have ⟨gone, pending⟩ := holds
  have ⟨still, single, spares⟩ := allowed
  have step := Node.step_cases taken
  refine ⟨Gone.step node label next gone still taken, ?_⟩
  cases step with
  | walked => cases single
  | advanced store scan step => exact gone.pending visible isFile room pending step
  | aborted =>
      intro run running
      cases running
  | acted i action store disk phase step =>
      intro run running
      have ⟨named, evidence⟩ := pending run running
      refine ⟨named, ?_⟩
      rcases evidence with published | ⟨waiting, witnessed⟩ | read
      · exact Or.inl (published.congr (gone.served still.2 step).1)
      · have spared : node.clears place (.session i action) = false := by
          apply Bool.eq_false_of_not_eq_true
          intro clears
          rw [spares clears] at waiting
          cases waiting
        exact Or.inr (Or.inl ⟨waiting, (gone.served still.2 step).2 spared witnessed⟩)
      · exact Or.inr (Or.inr read)
  | wrote => exact pending
  | removed => exact pending
  | attached name localPath root store rows _ =>
      intro run running
      have ⟨named, evidence⟩ := pending run running
      refine ⟨named, ?_⟩
      rcases evidence with published | ⟨waiting, witnessed⟩ | read
      · exact Or.inl (published.congr (record_congr (rows place.key)))
      · exact Or.inr (Or.inl ⟨waiting, witnessed.congr (rows place.key)⟩)
      · exact Or.inr (Or.inr read)

/-- A file that the user removes is published as deleted by the next scan that ends, as long as
no session clears its mark before the scan has read the rows. -/
theorem removal_published (visible : isIgnored daemon.scanner.ignores place.path.text = false)
    (isFile : record.kind.isFile = true) (room : record.modifiedNs < I64.max)
    {node middle final : Node} {front back : List Label}
    (keyed : node.store.Keyed) (standing : node.scan = .idle)
    (idle : ∀ i, (node.sessions i).installs ≠ some place.key)
    (bound : node.store.resolvedRoot place.collection = some place.root)
    (known : Witnessed place record node.store)
    (before : Along (Node.step daemon)
      (fun node label => (node.Sees label ∧ node.leaves daemon place label = true) ∧
        node.clears place label = false) node (.remove place.diskKey :: front))
    (reached : run (Node.step daemon) node (.remove place.diskKey :: front) = some middle)
    (walked : middle.scan.hasWalked place.collection = true)
    (during : Along (Node.step daemon)
      (fun node label => (node.Sees label ∧ node.leaves daemon place label = true) ∧
        label.walks = false ∧ (node.clears place label = true → node.scan.unread = none))
      middle back)
    (ends : run (Node.step daemon) middle back = some final)
    (ended : final.scan.hasEnded = true) :
    Published daemon place record final.store ∧ ¬ place.Present final.disk := by
  have ⟨removed, taken, rest⟩ := run_cons.mp reached
  cases taken
  have ⟨row, present, equal, _⟩ := known
  have start : Gone daemon place record
      { node with disk := node.disk.erase place.diskKey } := by
    refine ⟨⟨keyed, by rw [standing]; trivial⟩, ?_, bound, idle,
      Or.inr (record_eq_some.mpr ⟨row, present, equal⟩), ?_, ?_⟩
    · rw [Place.Present, OrderedMap.getElem?_erase, if_pos rfl]
      exact Bool.false_ne_true
    · intro run running
      rw [standing] at running
      cases running
    · intro run running
      rw [standing] at running
      cases running
  have ⟨gone, evidence⟩ := (Witnessed.step).run ⟨start, Or.inr known⟩
    (before.2 _ rfl) rest
  have pending : Pending daemon place record middle := by
    intro run running
    generalize phase : middle.scan = standing at walked running
    cases standing with
    | walked scan =>
        cases running
        refine ⟨of_decide_eq_true walked, ?_⟩
        rcases evidence with published | witnessed
        · exact Or.inl published
        · exact Or.inr (Or.inl ⟨rfl, witnessed⟩)
    | _ => cases walked
  have ⟨still, last⟩ := (Pending.step visible isFile room).run ⟨gone, pending⟩ during ends
  refine ⟨?_, still.absent⟩
  unfold ScanPhase.hasEnded at ended
  split at ended
  · rename_i finished phase
    rcases (last finished (by rw [phase]; rfl)).2 with published | ⟨waiting, _⟩ | ⟨row, member, _⟩
    · exact published
    · rw [phase] at waiting
      cases waiting
    · rw [phase] at member
      cases member
  · cases ended

end

section
attribute [local instance] Blake3.checksum

/-- The file `f` is on the disk, with a materialized row. -/
def holding : Node :=
  .start
    { attached with
      pathRecords := (∅ : OrderedMap RecordKey PathRecordState).insert placeF.key
        ⟨announced 5 [], true, some ⟨5, 0, Blake3.hash []⟩⟩ }
    ((∅ : Disk).insert placeF.diskKey ⟨[], 5⟩)

theorem holding_keyed : holding.store.Keyed := by
  intro key record found
  have ⟨row, present, same⟩ := record_eq_some.mp found
  rw [recordState, holding, Node.start, OrderedMap.getElem?_insert] at present
  split at present
  · rename_i here
    cases present
    rw [← same, ← here]
    decide +kernel
  · rw [Std.ExtTreeMap.getElem?_empty] at present
    cases present

/-- A peer's request for the file. -/
def requestF : FileRequest := ⟨"c", "f", (announced 5 []).canonicalHash⟩

/-- A session that serves a request, finds no file, and logs it as unavailable. -/
def failsRequest (i : Nat) : List Label :=
  [.session i (.request requestF), .session i .checkServed,
    .session i (.verify ⟨.ok "/c", .ok true, .ok ()⟩), .session i (.markUnavailable 0)]

/-- The steps of a scan after its walk, up to its last log entry. -/
def advances : List Label := List.replicate 4 .advance

/-- A peer asks for the file between its removal and the scan: the mark is cleared, no deletion
is published, and the file is requested from the peers that have it. -/
theorem requested_removal_lost :
    Along (Node.step .sample)
        (fun node label => node.Sees label ∧ node.leaves .sample placeF label = true) holding
        (.remove placeF.diskKey :: failsRequest 0 ++ walkBare :: advances) ∧
      ∃ final, run (Node.step .sample) holding
          (.remove placeF.diskKey :: failsRequest 0 ++ walkBare :: advances) = some final ∧
        final.scan.hasEnded = true ∧ final.store.record placeF.key = some (announced 5 []) ∧
        isRequested final.store 9 "c" (announced 5 []) = true := by
  have sees : Along (Node.step .sample) Node.Sees holding
      (.remove placeF.diskKey :: failsRequest 0 ++ walkBare :: advances) :=
    sees_walk (by decide +kernel) (by decide +kernel) (by decide +kernel)
  have leaves : Along (Node.step .sample)
      (fun node label => node.leaves .sample placeF label = true) holding
      (.remove placeF.diskKey :: failsRequest 0 ++ walkBare :: advances) := by decide +kernel
  refine ⟨sees.and leaves, ?_⟩
  have outcome : ((run (Node.step .sample) holding
      (.remove placeF.diskKey :: failsRequest 0 ++ walkBare :: advances)).map fun final =>
        decide (final.scan.hasEnded = true ∧
          final.store.record placeF.key = some (announced 5 []) ∧
          isRequested final.store 9 "c" (announced 5 []) = true)) = some true := by
    decide +kernel
  have ⟨final, reached, holds⟩ := Option.map_eq_some_iff.mp outcome
  exact ⟨final, reached, of_decide_eq_true holds⟩

/-- The request comes after the scan has read the rows. -/
def requestedLater : List Label :=
  .advance :: .advance :: failsRequest 0 ++ [.advance, .advance]

theorem later_request_published :
    ∃ middle final,
      run (Node.step .sample) holding [.remove placeF.diskKey, walkBare] = some middle ∧
      run (Node.step .sample) middle
        requestedLater = some final ∧
      Published .sample placeF (announced 5 []) final.store := by
  have outcome : ((run (Node.step .sample) holding [.remove placeF.diskKey, walkBare]).bind
      fun middle => (run (Node.step .sample) middle
        requestedLater).map fun final =>
          decide (middle.scan.hasWalked "c" = true ∧ final.scan.hasEnded = true)) =
      some true := by decide +kernel
  have ⟨middle, first, rest⟩ := Option.bind_eq_some_iff.mp outcome
  have ⟨final, second, phases⟩ := Option.map_eq_some_iff.mp rest
  have ⟨walked, ended⟩ := of_decide_eq_true phases
  refine ⟨middle, final, first, second, ?_⟩
  have sees : Along (Node.step .sample) Node.Sees holding [.remove placeF.diskKey, walkBare] :=
    @sees_walk _ [.remove placeF.diskKey] [] (by decide +kernel) rfl (by decide +kernel)
  have leaves : Along (Node.step .sample) (fun node label =>
    node.leaves .sample placeF label = true)
      holding [.remove placeF.diskKey, walkBare] := by decide +kernel
  have spares : Along (Node.step .sample) (fun node label => node.clears placeF label = false)
      holding [.remove placeF.diskKey, walkBare] := by decide +kernel
  have allowed : Along (Node.step .sample) (fun node label =>
      node.leaves .sample placeF label = true ∧
        (node.clears placeF label = true → node.scan.unread = none)) holding
      ([.remove placeF.diskKey, walkBare] ++
        requestedLater) := by decide +kernel
  have single : Along (Node.step .sample) (fun node label => node.Sees label ∧ label.walks = false)
      middle requestedLater := by
    apply (sees_without_walk (by decide +kernel)).and
    apply Along.of_forall
    intro label member _
    have none : requestedLater.all (fun label => !label.walks) = true := by decide +kernel
    simpa using List.all_eq_true.mp none label member
  have during := ((allowed.append_right first).and single).imp (q := fun node label =>
    (node.Sees label ∧ node.leaves .sample placeF label = true) ∧ label.walks = false ∧
      (node.clears placeF label = true → node.scan.unread = none))
    fun node label all => ⟨⟨all.2.1, all.1.1⟩, all.2.2, all.1.2⟩
  have visible : isIgnored Daemon.sample.scanner.ignores placeF.path.text = false := by
    decide +kernel
  have known : Witnessed placeF (announced 5 []) holding.store :=
    ⟨⟨announced 5 [], true, some ⟨5, 0, Blake3.hash []⟩⟩, by decide +kernel, rfl, rfl⟩
  exact (removal_published visible (by decide +kernel) (by decide +kernel) holding_keyed rfl
    (fun i same => by cases same) (by decide +kernel) known ((sees.and leaves).and spares) first
    walked during second ended).1

end

end Skillsync
