import Skillsync.RosterSelection

set_option autoImplicit false

namespace Skillsync

open Fallible

section
variable [Blake3] [Ed25519]

/-- No revision, or the branches of one group. -/
def RosterStore.Grounded (store : RosterStore) : Prop :=
  store.rosterRevisions = ∅ ∨ ∃ genesis, RosterTree genesis store

variable {store stored next : RosterStore} {revisions rest existing : List RosterRevision}
  {endpoint : EndpointId} {localName : Option String} {name : String} {allowResume : Bool}
  {peerHints : List (EndpointId × String)} {genesis : RosterRevision}

theorem checkJoined_of_checked
    (checked : JoinChecked store revisions endpoint localName peerHints allowResume genesis rest
      existing) :
    store.checkJoined revisions endpoint localName peerHints allowResume = .ok () := by
  obtain ⟨rfl, valid, linked, active, named, selects, fresh, group, resumed, hints⟩ := checked
  have ends : (genesis :: rest).getLast? =
      some ((genesis :: rest).getLast (List.cons_ne_nil _ _)) :=
    List.getLast?_eq_some_getLast _
  have tipActive := active _ ends
  have tipNamed := named _ ends
  generalize (genesis :: rest).getLast (List.cons_ne_nil _ _) = tip at ends tipActive tipNamed
  have present : ¬ (tip.members[endpoint]?).isNone = true := by
    rw [← Option.not_isSome, tipActive]
    simp
  have rightName : ¬ (localName.isSome = true ∧
      RosterStore.resumes tip endpoint localName = false) := by
    cases localName with
    | none => simp
    | some name =>
        rw [resumes_iff.mpr (tipNamed name rfl)]
        simp
  have mayJoin : ¬ (allowResume = false ∧ existing ≠ []) :=
    fun both => both.2 (fresh both.1)
  have sameGroup : ¬ (existing.head?.any fun held =>
      decide (held.canonicalHash ≠ genesis.canonicalHash)) = true := by
    cases head : existing.head? with
    | none => simp
    | some held =>
        rw [Option.any_some, decide_eq_true_eq, not_not]
        exact group held head
  have mayResume : ¬ (allowResume = true ∧ (existing.getLast?.any fun last =>
      decide (RosterStore.resumes last endpoint localName = false)) = true) := by
    rintro ⟨allowed, refused⟩
    cases last : existing.getLast? with
    | none =>
        rw [last] at refused
        cases refused
    | some held =>
        obtain ⟨name, given, lists⟩ := resumed allowed held last
        rw [last, given, Option.any_some, resumes_iff.mpr lists] at refused
        cases refused
  unfold RosterStore.checkJoined
  split
  · rename_i first others last shape lastEnds
    obtain ⟨rfl, rfl⟩ := List.cons.inj shape
    rw [ends, Option.some.injEq] at lastEnds
    subst lastEnds
    rw [valid, RosterTree.validateLinks_ok.mpr linked]
    simp only [Except.mapError, Except.ok_bind]
    rw [if_neg present, if_neg rightName, selects, Except.ok_bind, if_neg mayJoin,
      if_neg sameGroup, if_neg mayResume]
    exact forM_eq_ok.mpr hints
  · rename_i impossible
    exact absurd ends (impossible _ _ _ rfl)

omit [Ed25519] in
/-- Storing one revision never fails on a table of revisions. -/
theorem storeRevision_eq (encoded : store.Encoded) (revision : RosterRevision) :
    ∃ next, store.storeRevision revision none = .ok next := by
  unfold RosterStore.storeRevision
  rcases RosterStore.rosterRevision_cases encoded revision.canonicalHash with
    ⟨absent, loaded⟩ | ⟨held, -, -, loaded⟩
  · rw [loaded, Except.ok_bind]
    dsimp only
    rw [RosterStore.insertRosterRevisionRow_of_absent encoded absent, Except.ok_bind]
    exact ⟨_, rfl⟩
  · rw [loaded]
    exact ⟨store, rfl⟩

namespace RosterTree

/-- A chain below a stored revision is stored completely. -/
theorem storeChain_eq {seen : RosterRevision → Prop} (tree : RosterTree genesis store)
    (distinguished : Distinguished seen) {parent : RosterRevision}
    (parentStored : store.Stored parent) (linked : Linked (parent :: rest))
    (within : ∀ other, store.Stored other → seen other)
    (listed : ∀ revision ∈ rest, seen revision) :
    ∃ next, rest.foldlM (fun store revision => store.storeRevision revision none) store =
        .ok next ∧ RosterTree genesis next ∧
      ∀ other, next.Stored other ↔ store.Stored other ∨ other ∈ rest := by
  induction rest generalizing store parent with
  | nil => exact ⟨store, rfl, tree, by simp⟩
  | cons revision rest ih =>
      obtain ⟨valid, others⟩ := List.isChain_cons_cons.mp linked
      obtain ⟨seenRevision, seenRest⟩ := List.forall_mem_cons.mp listed
      obtain ⟨middle, first⟩ := storeRevision_eq tree.encoded revision
      obtain ⟨grown, only, inside⟩ := tree.grown_storeRevision parentStored valid first
      have own := inside fun other held same =>
        distinguished other revision (within other held) seenRevision same
      have within' : ∀ other, middle.Stored other → seen other := by
        intro other held
        rcases only other held with before | same
        · exact within other before
        · rw [same]
          exact seenRevision
      obtain ⟨next, tail, after, stored⟩ := ih grown.tree own others within' seenRest
      refine ⟨next, ?_, after, fun other => ?_⟩
      · rw [List.foldlM_cons, first, Except.ok_bind, tail]
      · rw [stored other, List.mem_cons, ← or_assoc]
        apply or_congr_left
        constructor
        · exact only other
        · intro either
          rcases either with before | same
          · exact grown.kept other before
          · rw [same]
            exact own

/-- The first revision in an empty table. -/
theorem storeGenesis_eq (empty : store.rosterRevisions = ∅)
    (valid : genesis.validateGenesis = .ok ()) :
    ∃ next, store.storeRevision genesis none = .ok next ∧ RosterTree genesis next ∧
      ∀ other, next.Stored other ↔ other = genesis := by
  have encoded : store.Encoded := by
    intro hash canonical row
    rw [empty] at row
    cases row
  have absent : store.rosterRevisions[genesis.canonicalHash]? = none := by
    rw [empty]
    rfl
  have nothing : ∀ other, ¬ store.Stored other := by
    intro other held
    unfold RosterStore.Stored at held
    rw [empty] at held
    cases held
  have row : ∀ other, RosterStore.Stored ⟨store.rosterRevisions.insert genesis.canonicalHash
      genesis.canonicalBytes, store.peerHints⟩ other ↔ other = genesis := by
    intro other
    rw [RosterStore.stored_insert absent]
    exact or_iff_right (nothing other)
  refine ⟨_, ?_, ⟨RosterStore.encoded_insert encoded, valid, (row genesis).mpr rfl, ?_⟩, row⟩
  · unfold RosterStore.storeRevision
    rw [(RosterStore.rosterRevision_eq_none encoded).mpr absent, Except.ok_bind]
    dsimp only
    rw [RosterStore.insertRosterRevisionRow_of_absent encoded absent]
    rfl
  · intro revision held other
    exact absurd ((row revision).mp held) other

/-- A table of a genesis alone selects it. -/
theorem selected_genesis (tree : RosterTree genesis store)
    (alone : ∀ other, store.Stored other ↔ other = genesis) :
    store.selectedRosterChain = .ok [genesis] := by
  obtain ⟨rest, selects, linked, inside⟩ := tree.exists_selected
  cases rest with
  | nil => exact selects
  | cons child rest =>
      have same := (alone child).mp (inside child (by simp))
      have valid := (List.isChain_cons_cons.mp linked).1
      rw [same] at valid
      exact absurd (RosterRevision.validateGenesis_ok tree.valid).1 (number_pos valid)

end RosterTree

/-- The last hint of a list for an endpoint. -/
def lastHint (endpoint : EndpointId) : List (EndpointId × String) → Option String
  | [] => none
  | hint :: rest =>
      (lastHint endpoint rest).or (if hint.1 = endpoint then some hint.2 else none)

omit [Blake3] [Ed25519] in
/-- The hints are stored one after the other, so that the last one for an endpoint stays. -/
theorem storeHints_eq (valid : ∀ hint ∈ peerHints, validatePeerHint hint.2 = .ok ()) :
    ∃ next, peerHints.foldlM (fun store hint => store.replacePeerHint hint.1 hint.2) store =
        .ok next ∧ next.rosterRevisions = store.rosterRevisions ∧
      ∀ other, next.peerHints[other]? = (lastHint other peerHints).or store.peerHints[other]? := by
  induction peerHints generalizing store with
  | nil => exact ⟨store, rfl, rfl, fun _ => rfl⟩
  | cons hint rest ih =>
      obtain ⟨first, others⟩ := List.forall_mem_cons.mp valid
      obtain ⟨next, tail, same, hints⟩ :=
        @ih { store with peerHints := store.peerHints.insert hint.1 hint.2 } others
      refine ⟨next, ?_, same, fun other => ?_⟩
      · rw [List.foldlM_cons, RosterStore.replacePeerHint_eq first, Except.ok_bind, tail]
      · rw [hints other, OrderedMap.getElem?_insert, lastHint, Option.or_assoc]
        split
        · rw [Option.some_or]
        · rw [Option.none_or]

/-- The revisions below the empty table or below the stored genesis. -/
theorem storeRevisions_eq (grounded : store.Grounded)
    (distinguished : Distinguished fun revision => store.Stored revision ∨ revision ∈ revisions)
    (checked : JoinChecked store revisions endpoint localName peerHints allowResume genesis rest
      existing) :
    ∃ next selected,
      revisions.foldlM (fun store revision => store.storeRevision revision none) store =
        .ok next ∧ RosterTree genesis next ∧ (∀ revision ∈ revisions, next.Stored revision) ∧
      next.selectedRosterChain = .ok selected ∧
      (selected = revisions ∨ (existing ≠ [] ∧ selected = existing)) := by
  obtain ⟨rfl, valid, linked, -, -, selects, -, group, -, -⟩ := checked
  have seenRest : ∀ revision ∈ rest, store.Stored revision ∨ revision ∈ genesis :: rest :=
    fun revision member => Or.inr (List.mem_cons_of_mem _ member)
  -- The first row leads to a tree of the genesis that holds nothing new besides it.
  obtain ⟨first, previous, storing, tree, stored, chosen, before⟩ : ∃ first previous,
      store.storeRevision genesis none = .ok first ∧ RosterTree genesis first ∧
      (∀ other, first.Stored other → store.Stored other ∨ other ∈ genesis :: rest) ∧
      first.selectedRosterChain = .ok (genesis :: previous) ∧
      (previous = [] ∨ (existing ≠ [] ∧ genesis :: previous = existing)) := by
    rcases grounded with empty | ⟨root, tree⟩
    · obtain ⟨first, storing, tree, alone⟩ := RosterTree.storeGenesis_eq empty valid
      refine ⟨first, [], storing, tree, fun other held => Or.inr ?_,
        tree.selected_genesis alone, Or.inl rfl⟩
      rw [(alone other).mp held]
      exact List.mem_cons_self
    · obtain ⟨previous, rfl, -, -⟩ := tree.selected selects
      have same : root = genesis := by
        apply distinguished root genesis (Or.inl tree.genesis_stored) (Or.inr List.mem_cons_self)
        exact group root rfl
      subst same
      refine ⟨store, previous, ?_, tree, fun other => Or.inl, selects,
        Or.inr ⟨List.cons_ne_nil _ _, rfl⟩⟩
      unfold RosterStore.storeRevision
      rw [RosterStore.rosterRevision_of_stored tree.encoded tree.genesis_stored]
      rfl
  obtain ⟨next, remaining, grown, exactly'⟩ :=
    tree.storeChain_eq distinguished tree.genesis_stored linked stored seenRest
  obtain ⟨selected, chosenNext, either, -, above⟩ :=
    tree.selected_union distinguished linked stored seenRest chosen grown exactly'
  refine ⟨next, selected, ?_, grown, ?_, chosenNext, ?_⟩
  · rw [List.foldlM_cons, storing, Except.ok_bind, remaining]
  · apply List.forall_mem_cons.mpr ⟨grown.genesis_stored, ?_⟩
    exact fun revision member => (exactly' revision).mpr (Or.inr member)
  · rcases either with old | new
    · rcases before with single | ⟨held, same⟩
      · -- The selected chain is the genesis alone: no revision follows it in the list.
        left
        rw [old, single]
        rw [old, single] at above
        have only : chainKey [genesis] = chainKey (genesis :: rest) :=
          le_antisymm ( chainKey_le_of_prefix ⟨rest, rfl⟩) above
        apply chainKey_eq distinguished _ _ only
        · intro revision member
          rw [List.mem_singleton.mp member]
          exact Or.inr List.mem_cons_self
        · exact fun revision member => Or.inr member
      · exact Or.inr ⟨held, old.trans same⟩
    · exact Or.inl new

/-- The transaction succeeds after the checks, and leaves the chain selected before or the
joined one selected. -/
theorem storeJoined_eq (grounded : store.Grounded)
    (distinguished : Distinguished fun revision => store.Stored revision ∨ revision ∈ revisions)
    (checked : JoinChecked store revisions endpoint localName peerHints allowResume genesis rest
      existing) :
    ∃ stored selected, store.storeJoined revisions peerHints = .ok stored ∧
      RosterTree genesis stored ∧ (∀ revision ∈ revisions, stored.Stored revision) ∧
      stored.selectedRosterChain = .ok selected ∧
      (selected = revisions ∨ (existing ≠ [] ∧ selected = existing)) ∧
      ∀ other hint, lastHint other peerHints = some hint →
        stored.peerHints[other]? = some hint := by
  obtain ⟨middle, selected, rows, tree, inside, chosen, either⟩ :=
    storeRevisions_eq grounded distinguished checked
  obtain ⟨stored, hinted, same, hints⟩ := @storeHints_eq middle _ checked.hints
  refine ⟨stored, selected, ?_, (tree.grown_hints same).tree, fun revision member => ?_, ?_,
    either, fun other hint last => ?_⟩
  · unfold RosterStore.storeJoined
    rw [rows, Except.ok_bind, hinted]
  · exact (RosterTree.stored_hints same).mpr (inside revision member)
  · rw [RosterTree.selected_congr same, chosen]
  · rw [hints other, last, Option.some_or]

/-- `install_or_resume_joined_state` after its checks. -/
theorem installOrResume_eq (grounded : store.Grounded)
    (distinguished : Distinguished fun revision => store.Stored revision ∨ revision ∈ revisions)
    (checked : JoinChecked store revisions endpoint (some name) peerHints true genesis rest
      existing) :
    ∃ stored selected tip,
      store.installOrResumeJoinedState revisions endpoint name peerHints = (stored, .ok ()) ∧
      stored.selectedRosterChain = .ok selected ∧ selected.getLast? = some tip ∧
      Lists tip endpoint name ∧
      (selected = revisions ∨ (existing ≠ [] ∧ selected = existing)) ∧
      (∀ revision ∈ revisions, stored.Stored revision) ∧
      ∀ other hint, lastHint other peerHints = some hint →
        stored.peerHints[other]? = some hint := by
  obtain ⟨stored, selected, storing, -, inside, chosen, either, hints⟩ :=
    storeJoined_eq grounded distinguished checked
  have nonempty : selected ≠ [] := by
    rcases either with joined | ⟨held, old⟩
    · rw [joined, checked.shape]
      exact List.cons_ne_nil _ _
    · rw [old]
      exact held
  obtain ⟨tip, ends⟩ : ∃ tip, selected.getLast? = some tip :=
    ⟨_, List.getLast?_eq_some_getLast nonempty⟩
  have tipLists : Lists tip endpoint name := by
    rcases either with joined | ⟨-, old⟩
    · rw [joined] at ends
      exact checked.named tip ends name rfl
    · rw [old] at ends
      obtain ⟨_, given, lists⟩ := checked.resumed rfl tip ends
      cases given
      exact lists
  refine ⟨stored, selected, tip, ?_, chosen, ends, tipLists, either, inside, hints⟩
  have resumed : ¬ (selected.getLast?.all fun tip =>
      decide (RosterStore.resumes tip endpoint (some name) = false)) = true := by
    rw [ends, Option.all_some, resumes_iff.mpr tipLists]
    simp
  unfold RosterStore.installOrResumeJoinedState RosterStore.installJoinedStateInner
  rw [checkJoined_of_checked checked]
  dsimp only
  rw [storing]
  dsimp only
  rw [if_pos rfl, chosen]
  dsimp only
  rw [if_neg resumed]

theorem RosterStore.Grounded.selected_nil (empty : store.rosterRevisions = ∅) :
    store.selectedRosterChain = .ok [] := by
  unfold RosterStore.selectedRosterChain
  rw [empty]
  rfl

/-- Nothing is merged into a table without a group. -/
theorem RosterStore.checkMerge_unfounded (nothing : store.selectedRosterChain = .ok [])
    (revisions : List RosterRevision) :
    ∃ reason, store.checkMerge revisions = .error reason := by
  unfold RosterStore.checkMerge
  cases revisions with
  | nil => exact ⟨_, rfl⟩
  | cons genesis rest =>
      dsimp only
      cases genesis.validateGenesis with
      | error reason => exact ⟨_, rfl⟩
      | ok done =>
          cases validateLinks (genesis :: rest) with
          | error reason => exact ⟨_, rfl⟩
          | ok done =>
              rw [nothing]
              exact ⟨_, rfl⟩

theorem grounded_install (grounded : store.Grounded)
    (distinguished : Distinguished fun revision => store.Stored revision ∨ revision ∈ revisions) :
    (store.installJoinedStateInner revisions endpoint localName peerHints
      allowResume).1.Grounded := by
  unfold RosterStore.installJoinedStateInner
  split
  · exact grounded
  rename_i passed
  obtain ⟨first, others, previous, checked⟩ := RosterTree.checkJoined_ok passed
  obtain ⟨stored, -, storing, tree, -⟩ := storeJoined_eq grounded distinguished checked
  rw [storing]
  dsimp only
  split
  · split
    · exact Or.inr ⟨first, tree⟩
    · split
      · exact Or.inr ⟨first, tree⟩
      · exact Or.inr ⟨first, tree⟩
  · exact Or.inr ⟨first, tree⟩

theorem grounded_insert {revision : RosterRevision} (empty : store.rosterRevisions = ∅)
    (inserted : store.insertRosterRevision revision = .ok next) : next.Grounded := by
  unfold RosterStore.insertRosterRevision at inserted
  split at inserted
  · split at inserted
    · cases inserted
    obtain ⟨⟨⟩, valid, storing⟩ := Except.bind_ok inserted
    obtain ⟨genesisNext, written, tree, -⟩ :=
      RosterTree.storeGenesis_eq empty (Except.mapError_ok valid)
    have encoded : store.Encoded := by
      intro hash canonical row
      rw [empty] at row
      cases row
    have absent : store.rosterRevisions[revision.canonicalHash]? = none := by
      rw [empty]
      rfl
    unfold RosterStore.storeRevision at written
    rw [(RosterStore.rosterRevision_eq_none encoded).mpr absent, Except.ok_bind] at written
    dsimp only at written
    rw [storing] at written
    cases written
    exact Or.inr ⟨revision, tree⟩
  split at inserted
  · cases inserted
  · rename_i parentHash _
    unfold RosterStore.rosterRevision at inserted
    rw [empty] at inserted
    cases inserted

theorem grounded_perform (grounded : store.Grounded) (operation : RosterOperation)
    (distinct : ∀ a b, store.Stored a ∨ a ∈ operation.presented →
      store.Stored b ∨ b ∈ operation.presented → a.canonicalHash = b.canonicalHash → a = b) :
    (operation.perform store).Grounded := by
  rcases grounded with empty | ⟨genesis, tree⟩
  swap
  · exact Or.inr ⟨genesis, (tree.grown_perform operation distinct).tree⟩
  have nothing := RosterStore.Grounded.selected_nil empty
  have noTip : store.selectedTip = .error (.topology "roster genesis is missing") := by
    unfold RosterStore.selectedTip
    rw [nothing]
    rfl
  cases operation with
  | insertRosterRevision revision =>
      show ((store.insertRosterRevision revision).toOption.getD store).Grounded
      cases inserted : store.insertRosterRevision revision with
      | error reason => exact Or.inl empty
      | ok next => exact grounded_insert empty inserted
  | mergeSelectedRosterChain revisions =>
      show (store.mergeSelectedRosterChain revisions).1.Grounded
      obtain ⟨reason, refused⟩ := RosterStore.checkMerge_unfounded nothing revisions
      unfold RosterStore.mergeSelectedRosterChain
      rw [refused]
      exact Or.inl empty
  | applyRosterChange identity change =>
      show (RosterStore.applyRosterChangeLoop identity change none _ store).1.Grounded
      unfold RosterStore.applyRosterChangeLoop
      rw [noTip]
      exact Or.inl empty
  | applyRosterChangeWithPeerHint identity change hintEndpoint hint =>
      show (store.applyRosterChangeWithPeerHint identity change hintEndpoint hint).1.Grounded
      unfold RosterStore.applyRosterChangeWithPeerHint
      split
      · exact Or.inl empty
      · unfold RosterStore.applyRosterChangeInner RosterStore.applyRosterChangeLoop
        rw [noTip]
        exact Or.inl empty
  | installJoinedState revisions localEndpoint peerHints =>
      exact grounded_install (Or.inl empty) distinct
  | installOrResumeJoinedState revisions localEndpoint localName peerHints =>
      exact grounded_install (Or.inl empty) distinct

theorem grounded_run {operations : List RosterOperation} (grounded : store.Grounded)
    (collisionFree : CollisionFree store operations) :
    (operations.foldl RosterOperation.perform store).Grounded := by
  induction operations generalizing store with
  | nil => exact grounded
  | cons operation rest ih =>
      exact ih (grounded_perform grounded operation collisionFree.1) collisionFree.2

theorem grounded_empty : RosterStore.empty.Grounded := Or.inl rfl

/-- From any reachable revisions and any hints, `install_or_resume_joined_state` fails without a
change, or the device is in the selected tip under its name, the joined chain is stored, and of
the hints given for an endpoint the last one. -/
theorem joined_install_all_or_nothing {operations : List RosterOperation} {store : RosterStore}
    {revisions : List RosterRevision}
    (collisionFree : CollisionFree RosterStore.empty operations)
    (reached : store.rosterRevisions =
      (operations.foldl RosterOperation.perform RosterStore.empty).rosterRevisions)
    (distinguished : Distinguished fun revision => store.Stored revision ∨ revision ∈ revisions) :
    ∀ localEndpoint localName peerHints next outcome,
      store.installOrResumeJoinedState revisions localEndpoint localName peerHints =
        (next, outcome) →
      (∀ reason, outcome = .error reason → next = store) ∧
      (outcome = .ok () →
        (∃ tip, next.selectedTip = .ok tip ∧ Lists tip localEndpoint localName) ∧
        (∀ revision ∈ revisions, next.Stored revision) ∧
        ∀ endpoint hint, lastHint endpoint peerHints = some hint →
          next.peerHints[endpoint]? = some hint) := by
  intro localEndpoint localName peerHints next outcome performed
  have grounded : store.Grounded := by
    rcases grounded_run grounded_empty collisionFree with empty | ⟨genesis, tree⟩
    · exact Or.inl (reached.trans empty)
    · exact Or.inr ⟨genesis, (tree.grown_hints reached).tree⟩
  cases checked : store.checkJoined revisions localEndpoint (some localName) peerHints true with
  | error reason =>
      have refused : store.installOrResumeJoinedState revisions localEndpoint localName
          peerHints = (store, .error reason) := by
        unfold RosterStore.installOrResumeJoinedState RosterStore.installJoinedStateInner
        rw [checked]
      rw [refused] at performed
      cases performed
      refine ⟨fun _ _ => rfl, fun success => ?_⟩
      cases success
  | ok done =>
      obtain ⟨genesis, rest, existing, passed⟩ := RosterTree.checkJoined_ok checked
      obtain ⟨stored, selected, tip, success, chosen, ends, lists, -, inside, hints⟩ :=
        installOrResume_eq grounded distinguished passed
      rw [success] at performed
      cases performed
      refine ⟨fun reason failed => ?_, fun _ => ⟨⟨tip, ?_, lists⟩, inside, hints⟩⟩
      · cases failed
      · unfold RosterStore.selectedTip
        rw [chosen, Except.ok_bind, ends]
        rfl

end

section
attribute [local instance] Blake3.checksum Ed25519.checksum

open RosterSample

/-- The second device joins with two hints for the first one. -/
theorem joined_install_of_two :
    ∃ next tip, RosterStore.empty.installOrResumeJoinedState [genesis, admitted 2]
        (device 2).endpointId "d" [((device 1).endpointId, "a"), ((device 1).endpointId, "b")] =
          (next, .ok ()) ∧
      next.selectedTip = .ok tip ∧ Lists tip (device 2).endpointId "d" ∧
      next.peerHints[(device 1).endpointId]? = some "b" := by
  have apart : ∀ a ∈ [genesis, admitted 2], ∀ b ∈ [genesis, admitted 2],
      a.canonicalHash = b.canonicalHash → a = b := by decide +kernel
  have nothing : ∀ revision, ¬ RosterStore.empty.Stored revision := by
    intro revision held
    cases held
  have distinguished : Distinguished fun revision =>
      RosterStore.empty.Stored revision ∨ revision ∈ [genesis, admitted 2] :=
    fun a b heldA heldB same => apart a (heldA.resolve_left (nothing a)) b
      (heldB.resolve_left (nothing b)) same
  have outcome : (RosterStore.empty.installOrResumeJoinedState [genesis, admitted 2]
      (device 2).endpointId "d"
      [((device 1).endpointId, "a"), ((device 1).endpointId, "b")]).2 = .ok () := by
    decide +kernel
  cases performed : RosterStore.empty.installOrResumeJoinedState [genesis, admitted 2]
      (device 2).endpointId "d"
      [((device 1).endpointId, "a"), ((device 1).endpointId, "b")] with
  | mk next result =>
      rw [performed] at outcome
      obtain ⟨-, success⟩ := @joined_install_all_or_nothing _ _ [] _ _ trivial rfl
        distinguished _ _ _ _ _ performed
      obtain ⟨⟨tip, selects, lists⟩, -, hints⟩ := success outcome
      refine ⟨next, tip, Prod.ext rfl outcome, selects, lists, hints _ "b" ?_⟩
      decide +kernel

/-- Of two hints for one endpoint the first one is not stored, although the installation
succeeds. -/
theorem first_hint_replaced :
    ¬ ∀ (revisions : List RosterRevision) (localEndpoint : EndpointId) (localName : String)
      (peerHints : List (EndpointId × String)) (next : RosterStore),
      RosterStore.empty.installOrResumeJoinedState revisions localEndpoint localName peerHints =
        (next, .ok ()) →
      ∀ hint ∈ peerHints, next.peerHints[hint.1]? = some hint.2 := by
  intro claimed
  have outcome : (RosterStore.empty.installOrResumeJoinedState [genesis] (device 1).endpointId "d"
      [(.fill 5, "a"), (.fill 5, "b")]).2 = .ok () := by decide +kernel
  have stored : (RosterStore.empty.installOrResumeJoinedState [genesis] (device 1).endpointId "d"
      [(.fill 5, "a"), (.fill 5, "b")]).1.peerHints[(Bytes32.fill 5 : EndpointId)]? =
        some "b" := by decide +kernel
  cases performed : RosterStore.empty.installOrResumeJoinedState [genesis] (device 1).endpointId
      "d" [(.fill 5, "a"), (.fill 5, "b")] with
  | mk next result =>
      rw [performed] at outcome stored
      have kept := claimed _ _ _ _ _ (performed.trans (Prod.ext rfl outcome)) (.fill 5, "a")
        List.mem_cons_self
      rw [stored] at kept
      exact absurd kept (by decide)

end

end Skillsync
