import Skillsync.RosterTree

set_option autoImplicit false

namespace Skillsync

open Fallible

/-- The operations on the roster tables, with any arguments. -/
inductive RosterOperation
  | insertRosterRevision (revision : RosterRevision)
  | mergeSelectedRosterChain (revisions : List RosterRevision)
  | applyRosterChange (identity : DeviceIdentity) (change : RosterChange)
  | applyRosterChangeWithPeerHint (identity : DeviceIdentity) (change : RosterChange)
      (hintEndpoint : EndpointId) (hint : String)
  | installJoinedState (revisions : List RosterRevision) (localEndpoint : EndpointId)
      (peerHints : List (EndpointId × String))
  | installOrResumeJoinedState (revisions : List RosterRevision) (localEndpoint : EndpointId)
      (localName : String) (peerHints : List (EndpointId × String))

namespace RosterOperation

/-- The revisions an operation is called with. -/
def presented : RosterOperation → List RosterRevision
  | insertRosterRevision revision => [revision]
  | mergeSelectedRosterChain revisions => revisions
  | applyRosterChange _ _ => []
  | applyRosterChangeWithPeerHint _ _ _ _ => []
  | installJoinedState revisions _ _ => revisions
  | installOrResumeJoinedState revisions _ _ _ => revisions

section
variable [Blake3] [Ed25519]

/-- The tables an operation leaves behind, in success or failure. -/
def perform (store : RosterStore) : RosterOperation → RosterStore
  | insertRosterRevision revision => (store.insertRosterRevision revision).toOption.getD store
  | mergeSelectedRosterChain revisions => (store.mergeSelectedRosterChain revisions).1
  | applyRosterChange identity change => (store.applyRosterChange identity change).1
  | applyRosterChangeWithPeerHint identity change hintEndpoint hint =>
      (store.applyRosterChangeWithPeerHint identity change hintEndpoint hint).1
  | installJoinedState revisions localEndpoint peerHints =>
      (store.installJoinedState revisions localEndpoint peerHints).1
  | installOrResumeJoinedState revisions localEndpoint localName peerHints =>
      (store.installOrResumeJoinedState revisions localEndpoint localName peerHints).1

end

end RosterOperation

section
variable [Blake3] [Ed25519]

/-- At every step, no two different revisions among the stored ones and those the operation is
called with have the same hash. -/
def CollisionFree : RosterStore → List RosterOperation → Prop
  | _, [] => True
  | store, operation :: rest =>
      (∀ a b, store.Stored a ∨ a ∈ operation.presented →
        store.Stored b ∨ b ∈ operation.presented → a.canonicalHash = b.canonicalHash → a = b) ∧
      CollisionFree (operation.perform store) rest

/-- The revision lists the device under the name. -/
def Lists (revision : RosterRevision) (endpoint : EndpointId) (name : String) : Prop :=
  (revision.members[endpoint]?).map DeviceName.text = some name

omit [Blake3] [Ed25519] in
theorem resumes_iff {tip : RosterRevision} {endpoint : EndpointId} {name : String} :
    RosterStore.resumes tip endpoint (some name) = true ↔ Lists tip endpoint name :=
  beq_iff_eq

/-- What `install_joined_state_inner` checks before its transaction. -/
structure JoinChecked (store : RosterStore) (revisions : List RosterRevision)
    (localEndpoint : EndpointId) (localName : Option String)
    (peerHints : List (EndpointId × String)) (allowResume : Bool)
    (genesis : RosterRevision) (rest existing : List RosterRevision) : Prop where
  shape : revisions = genesis :: rest
  valid : genesis.validateGenesis = .ok ()
  linked : Linked revisions
  active : ∀ tip, revisions.getLast? = some tip → (tip.members[localEndpoint]?).isSome = true
  named : ∀ tip, revisions.getLast? = some tip → ∀ name, localName = some name →
    Lists tip localEndpoint name
  selects : store.selectedRosterChain = .ok existing
  fresh : allowResume = false → existing = []
  group : ∀ held, existing.head? = some held → held.canonicalHash = genesis.canonicalHash
  resumed : allowResume = true → ∀ tip, existing.getLast? = some tip →
    ∃ name, localName = some name ∧ Lists tip localEndpoint name
  hints : ∀ hint ∈ peerHints, validatePeerHint hint.2 = .ok ()

namespace RosterTree

variable {genesis : RosterRevision} {store next : RosterStore}

theorem grown_foldlM_replacePeerHint {hints : List (EndpointId × String)}
    (tree : RosterTree genesis store)
    (hinted : hints.foldlM (fun store hint => store.replacePeerHint hint.1 hint.2) store =
      .ok next) : Grown genesis store next := by
  apply tree.grown_hints
  apply foldlM_keeps RosterStore.rosterRevisions _ hinted
  intro middle hint after _ replaced
  exact replaceHint_ok (show middle.replaceHint (some hint) = .ok after from replaced)

theorem checkJoined_ok {revisions : List RosterRevision} {localEndpoint : EndpointId}
    {localName : Option String} {peerHints : List (EndpointId × String)} {allowResume : Bool}
    (checked : store.checkJoined revisions localEndpoint localName peerHints allowResume =
      .ok ()) :
    ∃ first rest existing, JoinChecked store revisions localEndpoint localName peerHints
      allowResume first rest existing := by
  unfold RosterStore.checkJoined at checked
  split at checked
  swap
  · cases checked
  rename_i first rest tip ends
  obtain ⟨⟨⟩, valid, checked⟩ := Except.bind_ok checked
  obtain ⟨⟨⟩, linked, checked⟩ := Except.bind_ok checked
  split at checked
  · cases checked
  rename_i active
  split at checked
  · cases checked
  rename_i named
  obtain ⟨existing, selects, checked⟩ := Except.bind_ok checked
  split at checked
  · cases checked
  rename_i fresh
  split at checked
  · cases checked
  rename_i sameGroup
  split at checked
  · cases checked
  rename_i resumed
  refine ⟨first, rest, existing, rfl, Except.mapError_ok valid,
    validateLinks_ok.mp (Except.mapError_ok linked), ?_, ?_, selects, ?_, ?_, ?_,
    forM_eq_ok.mp checked⟩
  · intro last same
    rw [ends, Option.some.injEq] at same
    rw [← same, ← Option.not_isNone, Bool.not_eq_true']
    exact Bool.not_eq_true _ ▸ active
  · intro last same name given
    rw [ends, Option.some.injEq] at same
    rw [← same, ← resumes_iff, ← given]
    simpa [given] using named
  · intro forbidden
    simpa [forbidden] using fresh
  · intro held head
    by_contra differs
    apply sameGroup
    rw [head, Option.any_some]
    exact decide_eq_true differs
  · intro allowed last same
    rw [same, allowed] at resumed
    cases localName with
    | none => exact absurd ⟨rfl, rfl⟩ resumed
    | some name =>
        refine ⟨name, rfl, resumes_iff.mp ?_⟩
        simpa using resumed

/-- `install_joined_state` and `install_or_resume_joined_state`. -/
theorem grown_installJoinedStateInner {seen : RosterRevision → Prop}
    (tree : RosterTree genesis store) (revisions : List RosterRevision)
    (localEndpoint : EndpointId) (localName : Option String)
    (peerHints : List (EndpointId × String)) (allowResume : Bool)
    (within : ∀ other, store.Stored other → seen other)
    (listed : ∀ revision ∈ revisions, seen revision)
    (distinct : ∀ a b, seen a → seen b → a.canonicalHash = b.canonicalHash → a = b) :
    Grown genesis store
      (store.installJoinedStateInner revisions localEndpoint localName peerHints
        allowResume).1 := by
  unfold RosterStore.installJoinedStateInner
  split
  · exact grown_refl tree
  rename_i checked
  split
  · exact grown_refl tree
  rename_i stored storing
  have grown : Grown genesis store stored := by
    obtain ⟨first, rest, existing, rfl, -, linked, -, -, selects, -, sameHash, -, -⟩ :=
      checkJoined_ok checked
    obtain ⟨others, rfl, -, -⟩ := tree.selected selects
    obtain ⟨seenFirst, seenRest⟩ := List.forall_mem_cons.mp listed
    -- The chain starts with the stored genesis, as their hashes agree.
    have same : first = genesis := by
      apply distinct first genesis seenFirst (within genesis tree.genesis_stored)
      exact (sameHash genesis rfl).symm
    subst same
    obtain ⟨middle, rows, hinted⟩ := Except.bind_ok storing
    obtain ⟨afterFirst, own, remaining⟩ := foldlM_cons_ok rows
    have unchanged : afterFirst = store := by
      obtain ⟨found, loaded, choosing⟩ := Except.bind_ok own
      rw [RosterStore.rosterRevision_of_stored tree.encoded tree.genesis_stored] at loaded
      cases loaded
      cases choosing
      rfl
    subst unchanged
    have chained := tree.grown_storeChain tree.genesis_stored linked within seenRest distinct
      remaining
    exact chained.trans (chained.tree.grown_foldlM_replacePeerHint hinted)
  split
  · split
    · exact grown
    · split
      · exact grown
      · exact grown
  · exact grown

/-- The step lemma: every operation keeps the tree and its revisions. -/
theorem grown_perform (tree : RosterTree genesis store) (operation : RosterOperation)
    (distinct : ∀ a b, store.Stored a ∨ a ∈ operation.presented →
      store.Stored b ∨ b ∈ operation.presented → a.canonicalHash = b.canonicalHash → a = b) :
    Grown genesis store (operation.perform store) := by
  cases operation with
  | insertRosterRevision revision =>
      show Grown genesis store ((store.insertRosterRevision revision).toOption.getD store)
      cases inserted : store.insertRosterRevision revision with
      | error reason => exact grown_refl tree
      | ok next => exact (tree.grown_insertRosterRevision inserted).1
  | mergeSelectedRosterChain revisions => exact tree.grown_mergeSelectedRosterChain revisions
  | applyRosterChange identity change =>
      exact tree.grown_applyRosterChangeLoop identity change none _
  | applyRosterChangeWithPeerHint identity change hintEndpoint hint =>
      show Grown genesis store
        (store.applyRosterChangeWithPeerHint identity change hintEndpoint hint).1
      unfold RosterStore.applyRosterChangeWithPeerHint
      split
      · exact grown_refl tree
      · exact tree.grown_applyRosterChangeLoop identity change _ _
  | installJoinedState revisions localEndpoint peerHints =>
      exact tree.grown_installJoinedStateInner revisions localEndpoint none peerHints false
        (fun other => Or.inl) (fun revision => Or.inr) distinct
  | installOrResumeJoinedState revisions localEndpoint localName peerHints =>
      exact tree.grown_installJoinedStateInner revisions localEndpoint (some localName) peerHints
        true (fun other => Or.inl) (fun revision => Or.inr) distinct

/-- The run lemma. -/
theorem grown_run {operations : List RosterOperation} (tree : RosterTree genesis store)
    (collisionFree : CollisionFree store operations) :
    Grown genesis store (operations.foldl RosterOperation.perform store) := by
  induction operations generalizing store with
  | nil => exact grown_refl tree
  | cons operation rest ih =>
      have first := tree.grown_perform operation collisionFree.1
      exact first.trans (ih first.tree collisionFree.2)

theorem insert_empty_ok
    (inserted : RosterStore.empty.insertRosterRevision genesis = .ok store) :
    genesis.validateGenesis = .ok () ∧
      RosterStore.empty.insertRosterRevisionRow genesis = .ok store := by
  have encoded : RosterStore.empty.Encoded := by
    intro hash canonical row
    cases row
  unfold RosterStore.insertRosterRevision at inserted
  split at inserted
  · split at inserted
    · cases inserted
    obtain ⟨⟨⟩, valid, storing⟩ := Except.bind_ok inserted
    exact ⟨Except.mapError_ok valid, storing⟩
  split at inserted
  · cases inserted
  rename_i parentHash _
  obtain ⟨found, loaded, checking⟩ := Except.bind_ok inserted
  rw [(RosterStore.rosterRevision_eq_none encoded).mpr rfl] at loaded
  cases loaded
  cases checking

theorem stored_start {revision : RosterRevision}
    (inserted : RosterStore.empty.insertRosterRevision genesis = .ok store) :
    store.Stored revision ↔ revision = genesis := by
  obtain ⟨absent, rfl⟩ := RosterStore.insertRosterRevisionRow_ok (insert_empty_ok inserted).2
  rw [RosterStore.stored_insert absent]
  constructor
  · rintro (impossible | same)
    · cases impossible
    · exact same
  · exact Or.inr

/-- A genesis in an empty table. -/
theorem of_genesis
    (inserted : RosterStore.empty.insertRosterRevision genesis = .ok store) :
    RosterTree genesis store := by
  obtain ⟨valid, storing⟩ := insert_empty_ok inserted
  refine ⟨?_, valid, (stored_start inserted).mpr rfl, fun revision stored other => ?_⟩
  · obtain ⟨-, rfl⟩ := RosterStore.insertRosterRevisionRow_ok storing
    apply RosterStore.encoded_insert
    intro hash canonical row
    cases row
  · exact absurd ((stored_start inserted).mp stored) other

end RosterTree

/-- The members after a sequence of changes, from the creation of the group on. -/
def membersAfter : List RosterChange → Except RosterError Members
  | .initial creator :: changes =>
      changes.foldlM applyChange (Std.ExtTreeMap.ofList [(creator.endpointId, creator.deviceName)])
  | _ => .error .invalidChange

omit [Blake3] in
theorem members_of_genesis {genesis : RosterRevision} (valid : genesis.validateGenesis = .ok ()) :
    membersAfter [genesis.change] = .ok genesis.members := by
  obtain ⟨-, -, creator, change, -, single, listed, -⟩ := RosterRevision.validateGenesis_ok valid
  have length : genesis.members.toList.length = 1 := by
    rw [Std.ExtTreeMap.length_toList, single]
  obtain ⟨entry, entries⟩ := List.length_eq_one_iff.mp length
  have member := Std.ExtTreeMap.mem_toList_iff_getElem?_eq_some.mpr listed
  rw [entries, List.mem_singleton] at member
  rw [change]
  show Except.ok _ = _
  rw [member, ← entries, OrderedMap.ofList_toList]

omit [Blake3] [Ed25519] in
theorem membersAfter_snoc {changes : List RosterChange} {change : RosterChange}
    {members : Members} (before : membersAfter changes = .ok members) :
    membersAfter (changes ++ [change]) = applyChange members change := by
  cases changes with
  | nil => cases before
  | cons first rest =>
      cases first with
      | initial creator =>
          change rest.foldlM applyChange _ = .ok members at before
          show (rest ++ [change]).foldlM applyChange _ = applyChange members change
          rw [List.foldlM_append, before, Except.ok_bind, List.foldlM_cons]
          cases applyChange members change with
          | error reason => rfl
          | ok next => rfl
      | admitMember member => cases before
      | remove endpointId => cases before

/-- The members of a revision are those its chain of changes leaves. -/
theorem members_of_chain {genesis tip : RosterRevision} {front : List RosterRevision}
    (valid : genesis.validateGenesis = .ok ()) (linked : Linked (front ++ [tip]))
    (start : (front ++ [tip]).head? = some genesis) :
    membersAfter ((front ++ [tip]).map fun revision => revision.change) = .ok tip.members := by
  induction front using List.reverseRecOn generalizing tip with
  | nil =>
      have same : tip = genesis := by simpa using start
      rw [same]
      exact members_of_genesis valid
  | append_singleton front parent ih =>
      obtain ⟨upper, -, joint⟩ := List.isChain_append.mp linked
      have valid' : tip.validateChild parent = .ok () := by
        apply joint parent _ tip rfl
        simp
      have root : (front ++ [parent]).head? = some genesis := by
        rwa [List.head?_append_of_ne_nil _ (by simp)] at start
      rw [List.map_append, List.map_singleton, membersAfter_snoc (ih upper root)]
      exact (RosterRevision.validateChild_ok valid').members

/-- In every state that operations with arbitrary arguments reach from tables with a selected
chain, such as those of a stored genesis, the revisions are a tree below the genesis, and the
selected chain is one of its derivations. -/
theorem roster_store_well_formed {genesis : RosterRevision} {selected : List RosterRevision}
    {store : RosterStore} {operations : List RosterOperation}
    (selects : store.selectedRosterChain = .ok (genesis :: selected))
    (collisionFree : CollisionFree store operations) :
    let reached := operations.foldl RosterOperation.perform store
    (∀ hash canonical, reached.rosterRevisions[hash]? = some canonical →
      ∃ revision : RosterRevision, hash = revision.canonicalHash ∧
        canonical = revision.canonicalBytes ∧ reached.Stored revision) ∧
    reached.Stored genesis ∧ genesis.validateGenesis = .ok () ∧
    (∀ revision, reached.Stored revision →
      ((revision.number = 0 ∧ revision.parentHash = none) ↔ revision = genesis) ∧
      (revision ≠ genesis → revision.groupId = genesis.groupId ∧
        ∃ parent, reached.Stored parent ∧ revision.parentHash = some parent.canonicalHash ∧
          revision.validateChild parent = .ok ())) ∧
    ∃ chain, reached.selectedRosterChain = .ok (genesis :: chain) ∧
      (∀ revision ∈ chain, reached.Stored revision) ∧
      List.IsChain (fun parent child => child.Extends parent) (genesis :: chain) ∧
      ∀ front tip, front ++ [tip] <+: genesis :: chain →
        membersAfter ((front ++ [tip]).map fun revision => revision.change) = .ok tip.members := by
  intro reached
  have tree : RosterTree genesis reached :=
    ((RosterTree.of_selected selects).grown_run collisionFree).tree
  obtain ⟨chain, selects, linked, stored⟩ := tree.exists_selected
  refine ⟨?_, tree.genesis_stored, tree.valid, fun revision held =>
    ⟨tree.genesis_unique held, fun other => ⟨tree.group held, ?_⟩⟩, chain, selects, ?_, ?_, ?_⟩
  · intro hash canonical row
    obtain ⟨revision, rfl, rfl⟩ := tree.encoded hash canonical row
    exact ⟨revision, rfl, rfl, row⟩
  · obtain ⟨parent, parentStored, valid⟩ := tree.linked revision held other
    exact ⟨parent, parentStored, (RosterRevision.validateChild_ok valid).parentHash, valid⟩
  · exact fun revision listed => stored revision (List.mem_cons_of_mem _ listed)
  · exact List.IsChain.imp (fun parent child => RosterRevision.validateChild_ok) linked
  · intro front tip starts
    apply members_of_chain tree.valid ( List.IsChain.prefix linked starts)
    obtain ⟨back, whole⟩ := starts
    have head := congrArg List.head? whole
    rwa [List.head?_append_of_ne_nil _ (by simp)] at head

end

section
attribute [local instance] Blake3.checksum Ed25519.checksum

open RosterSample

/-- The table after an admission. -/
theorem admission_well_formed :
    ∃ chain, (RosterOperation.perform start
        (.applyRosterChange (device 1) (.admitMember (member 2)))).selectedRosterChain =
          .ok (genesis :: chain) ∧
      List.IsChain (fun parent child => child.Extends parent) (genesis :: chain) := by
  have selects : start.selectedRosterChain = .ok [genesis] := by decide +kernel
  have collisionFree : CollisionFree start
      [.applyRosterChange (device 1) (.admitMember (member 2))] := by
    refine ⟨fun a b storedA storedB same => ?_, trivial⟩
    have heldA : start.Stored a := storedA.resolve_right List.not_mem_nil
    have heldB : start.Stored b := storedB.resolve_right List.not_mem_nil
    exact heldA.unique heldB same
  obtain ⟨-, -, -, -, chain, longer, -, linked, -⟩ :=
    roster_store_well_formed selects collisionFree
  exact ⟨chain, longer, linked⟩

end

end Skillsync
