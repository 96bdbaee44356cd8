import Skillsync.RosterReplay

set_option autoImplicit false

namespace Skillsync

open Fallible

variable [Blake3] [Ed25519]

/-- The changes of a chain. -/
def changes (chain : List RosterRevision) : List RosterChange :=
  chain.map fun revision => revision.change

omit [Ed25519] in
theorem stored_distinguished (store : RosterStore) : Distinguished store.Stored :=
  fun _ _ storedA storedB same => storedA.unique storedB same

omit [Ed25519] in
theorem not_chainKey_le (chain : List RosterRevision) (child : RosterRevision) :
    ¬ chainKey (chain ++ [child]) ≤ chainKey chain := by
  intro below
  have above : chainKey chain ≤ chainKey (chain ++ [child]) :=
    chainKey_le_of_prefix (List.prefix_append chain [child])
  have size := congrArg List.length (le_antisymm below above)
  simp only [chainKey, List.map_append, List.length_append, List.length_map, List.map_cons,
    List.map_nil, List.length_singleton] at size
  omega

omit [Blake3] [Ed25519] in
theorem changes_append (front back : List RosterRevision) :
    changes (front ++ back) = changes front ++ changes back := List.map_append

/-- A chain and a valid child of its last revision. -/
theorem linked_concat {chain : List RosterRevision} {parent child : RosterRevision}
    (linked : Linked chain) (last : chain.getLast? = some parent)
    (valid : child.validateChild parent = .ok ()) : Linked (chain ++ [child]) := by
  apply List.isChain_append.mpr ⟨linked, List.isChain_singleton _, ?_⟩
  intro tip ends next starts
  rw [Option.mem_def, last, Option.some.injEq] at ends
  rw [List.head?_cons, Option.mem_def, Option.some.injEq] at starts
  rw [← ends, ← starts]
  exact valid

theorem child_change {parent child : RosterRevision} {change : RosterChange}
    {author : DeviceIdentity} (built : parent.child change author = .ok child) :
    child.change = change ∧ child.author = author.endpointId := by
  unfold RosterRevision.child at built
  split at built
  · cases built
  split at built
  · cases built
  obtain ⟨members, -, built⟩ := Except.bind_ok built
  split at built
  · cases built
  split at built
  · obtain ⟨⟨⟩, -, built⟩ := Except.bind_ok built
    cases built
    exact ⟨rfl, rfl⟩
  · cases built

omit [Blake3] [Ed25519] in
/-- A change is satisfied after it was applied. -/
theorem satisfied_after {members after : Members} {change : RosterChange}
    {revision : RosterRevision} (applied : applyChange members change = .ok after)
    (same : revision.members = after) : rosterChangeIsSatisfied revision change = true := by
  cases change with
  | initial creator => cases applied
  | admitMember member =>
      simp only [applyChange] at applied
      split at applied
      · cases applied
      · cases applied
        simp [rosterChangeIsSatisfied, same]
  | remove endpointId =>
      simp only [applyChange] at applied
      split at applied
      · cases applied
        simp [rosterChangeIsSatisfied, same]
      · cases applied

/-- The endpoint that a change is about. -/
def RosterChange.subject : RosterChange → EndpointId
  | .initial member => member.endpointId
  | .admitMember member => member.endpointId
  | .remove endpointId => endpointId

omit [Blake3] [Ed25519] in
theorem applyChange_other {members after : Members} {change : RosterChange}
    {endpoint : EndpointId} (applied : applyChange members change = .ok after)
    (other : change.subject ≠ endpoint) : after[endpoint]? = members[endpoint]? := by
  cases change with
  | initial creator => cases applied
  | admitMember member =>
      simp only [applyChange] at applied
      split at applied
      · cases applied
      · cases applied
        rw [OrderedMap.getElem?_insert]
        exact if_neg other
  | remove endpointId =>
      simp only [applyChange] at applied
      split at applied
      · cases applied
        rw [OrderedMap.getElem?_erase]
        exact if_neg other
      · cases applied

/-- Changes of other endpoints keep the membership of an endpoint. -/
theorem members_kept {tip last : RosterRevision} {added : List RosterRevision}
    {endpoint : EndpointId} (linked : Linked (tip :: added))
    (ends : (tip :: added).getLast? = some last)
    (others : ∀ change ∈ changes added, change.subject ≠ endpoint) :
    last.members[endpoint]? = tip.members[endpoint]? := by
  induction added generalizing tip with
  | nil =>
      rw [List.getLast?_singleton, Option.some.injEq] at ends
      rw [ends]
  | cons revision rest ih =>
      obtain ⟨valid, remaining⟩ := List.isChain_cons_cons.mp linked
      rw [changes, List.map_cons, List.forall_mem_cons] at others
      rw [List.getLast?_cons_cons] at ends
      rw [ih remaining ends others.2]
      exact applyChange_other (RosterRevision.validateChild_ok valid).members others.1

omit [Blake3] [Ed25519] in
theorem satisfied_congr {before after : RosterRevision} {change : RosterChange}
    (same : after.members[change.subject]? = before.members[change.subject]?)
    (satisfied : rosterChangeIsSatisfied before change = true) :
    rosterChangeIsSatisfied after change = true := by
  cases change <;>
    (simp only [RosterChange.subject] at same
     rw [rosterChangeIsSatisfied] at satisfied ⊢
     rwa [same])

/-- What `merge_and_authorize_remote_roster` does after the merge. -/
theorem RosterStore.replayDisplaced_cases (store : RosterStore)
    (previous selected : List RosterRevision) (localEndpoint : EndpointId)
    (loaded : Option DeviceIdentity) :
    ((∀ last, previous.getLast? = some last →
        last.canonicalHash ∈ selected.map RosterRevision.canonicalHash) ∧
      store.replayDisplaced previous selected localEndpoint loaded = (store, .ok ())) ∨
    (loaded = none ∧ store.replayDisplaced previous selected localEndpoint loaded =
      (store, .error .missingRoster)) ∨
    ∃ identity, loaded = some identity ∧
      store.replayDisplaced previous selected localEndpoint loaded =
        store.replayChanges localEndpoint identity (displaced localEndpoint previous selected) := by
  unfold RosterStore.replayDisplaced
  split
  · cases loaded with
    | none => exact Or.inr (Or.inl ⟨rfl, rfl⟩)
    | some identity => exact Or.inr (Or.inr ⟨identity, rfl, rfl⟩)
  · rename_i kept
    refine Or.inl ⟨fun last ends => ?_, rfl⟩
    rw [ends, Option.any_some, decide_eq_true_eq, not_not] at kept
    exact kept

namespace RosterTree

variable {genesis parent child : RosterRevision} {store next : RosterStore}
  {chain : List RosterRevision}

theorem selectedTip_last (selects : store.selectedRosterChain = .ok chain)
    (tip : store.selectedTip = .ok parent) : chain.getLast? = some parent := by
  unfold RosterStore.selectedTip at tip
  rw [selects, Except.ok_bind] at tip
  split at tip
  · cases tip
  · rename_i last
    cases tip
    exact last

/-- `apply_roster_change_inner` returns the selected tip, where the change is satisfied. -/
theorem applyRosterChangeLoop_ok {identity : DeviceIdentity} {change : RosterChange}
    {tip : RosterRevision} {peerHint : Option (EndpointId × String)} {attempts : Nat}
    (applied : RosterStore.applyRosterChangeLoop identity change peerHint attempts store =
      (next, .ok tip)) :
    next.selectedTip = .ok tip ∧ rosterChangeIsSatisfied tip change = true := by
  induction attempts generalizing store with
  | zero => cases applied
  | succ attempts ih =>
      unfold RosterStore.applyRosterChangeLoop at applied
      split at applied
      · cases applied
      rename_i parent selects
      split at applied
      · rename_i satisfied
        split at applied
        · cases applied
        · rename_i hinted hinting
          cases applied
          refine ⟨?_, satisfied⟩
          unfold RosterStore.selectedTip at selects ⊢
          rw [selected_congr (replaceHint_ok hinting)]
          exact selects
      split at applied
      · cases applied
      split at applied
      · cases applied
      split at applied
      · cases applied
      rename_i selectedTip ends
      split at applied
      · rename_i satisfied
        cases applied
        exact ⟨ends, satisfied⟩
      · exact ih applied

/-- Changes that a chain grew by keep the membership of other endpoints. -/
theorem members_after {added : List RosterRevision} {tip last : RosterRevision}
    {endpoint : EndpointId}
    (linked : Linked (chain ++ added)) (tipLast : chain.getLast? = some tip)
    (ends : (chain ++ added).getLast? = some last)
    (others : ∀ change ∈ changes added, change.subject ≠ endpoint) :
    last.members[endpoint]? = tip.members[endpoint]? := by
  obtain ⟨front, rfl⟩ := List.getLast?_eq_some_iff.mp tipLast
  rw [List.append_assoc] at linked ends
  apply members_kept linked.right_of_append _ others
  rw [List.getLast?_append_of_ne_nil _ (by simp)] at ends
  exact ends

/-- A child of the last revision extends the selected chain. -/
theorem selected_extended (tree : RosterTree genesis store)
    (selects : store.selectedRosterChain = .ok chain) (last : chain.getLast? = some parent)
    (valid : child.validateChild parent = .ok ()) (grown : RosterTree genesis next)
    (stored : ∀ other, next.Stored other ↔ store.Stored other ∨ other = child) :
    next.selectedRosterChain = .ok (chain ++ [child]) := by
  obtain ⟨rest, rfl, linked, inside⟩ := tree.selected selects
  have longer : Linked (genesis :: (rest ++ [child])) := linked_concat linked last valid
  have within : ∀ other, store.Stored other → next.Stored other :=
    fun other held => (stored other).mpr (Or.inl held)
  have listed : ∀ revision ∈ rest ++ [child], next.Stored revision := by
    intro revision member
    apply (stored revision).mpr
    rcases List.mem_append.mp member with before | own
    · exact Or.inl (inside revision (List.mem_cons_of_mem _ before))
    · exact Or.inr (List.mem_singleton.mp own)
  have exactly' : ∀ other, next.Stored other ↔ store.Stored other ∨ other ∈ rest ++ [child] := by
    intro other
    constructor
    · intro held
      rcases (stored other).mp held with before | own
      · exact Or.inl before
      · exact Or.inr (List.mem_append_right _ (List.mem_singleton.mpr own))
    · intro either
      exact either.elim (within other) (listed other)
  obtain ⟨selected, chosen, either, -, above⟩ :=
    tree.selected_union (stored_distinguished next) longer within listed selects grown exactly'
  rw [chosen]
  rcases either with old | new
  · rw [old] at above
    exact absurd above (not_chainKey_le (genesis :: rest) child)
  · rw [new]
    rfl

/-- A change that is not satisfied is applied at once when its revision has a hash of its own: the
transaction fails with its hint, or the revision is the new tip. -/
theorem applyRosterChangeLoop_extends (tree : RosterTree genesis store)
    (selects : store.selectedRosterChain = .ok chain) (last : chain.getLast? = some parent)
    {change : RosterChange} {identity : DeviceIdentity}
    (unsatisfied : rosterChangeIsSatisfied parent change = false)
    (built : parent.child change identity = .ok child)
    (fresh : ∀ other, store.Stored other → other.canonicalHash ≠ child.canonicalHash)
    (peerHint : Option (EndpointId × String)) :
    ∃ stored, RosterTree genesis stored ∧ stored.selectedRosterChain = .ok (chain ++ [child]) ∧
      (∀ other, stored.Stored other ↔ store.Stored other ∨ other = child) ∧
      stored.peerHints = store.peerHints ∧
      (∀ reason, stored.replaceHint peerHint = .error reason → ∀ attempts,
        RosterStore.applyRosterChangeLoop identity change peerHint (attempts + 1) store =
          (store, .error reason)) ∧
      ∀ hinted, stored.replaceHint peerHint = .ok hinted → ∀ attempts,
        RosterStore.applyRosterChangeLoop identity change peerHint (attempts + 1) store =
          (hinted, .ok child) := by
  have valid := RosterRevision.child_ok built
  have tip : store.selectedTip = .ok parent := by
    unfold RosterStore.selectedTip
    rw [selects, Except.ok_bind, last]
    rfl
  have parentStored := tree.selectedTip_ok tip
  have absent : store.rosterRevisions[child.canonicalHash]? = none ∧
      store.rosterRevision child.canonicalHash = .ok none := by
    rcases RosterStore.rosterRevision_cases tree.encoded child.canonicalHash with
      none | ⟨held, stored, same, -⟩
    · exact none
    · exact absurd same (fresh held stored)
  obtain ⟨stored, inserted⟩ : ∃ stored, store.insertRosterRevisionRow child = .ok stored :=
    ⟨_, RosterStore.insertRosterRevisionRow_of_absent tree.encoded absent.1⟩
  obtain ⟨grown, exactly'⟩ := tree.grown_insertRow parentStored valid inserted
  have extended := tree.selected_extended selects last valid grown.tree exactly'
  have storing : store.storeRevision child peerHint = stored.replaceHint peerHint := by
    unfold RosterStore.storeRevision
    rw [absent.2, Except.ok_bind]
    dsimp only
    rw [inserted, Except.ok_bind]
  have hints : stored.peerHints = store.peerHints := by
    rw [(RosterStore.insertRosterRevisionRow_ok inserted).2]
  refine ⟨stored, grown.tree, extended, exactly', hints, fun reason refused attempts => ?_,
    fun hinted hinting attempts => ?_⟩
  · rw [RosterStore.applyRosterChangeLoop, tip]
    dsimp only
    rw [if_neg (by rw [unsatisfied]; simp), built]
    dsimp only
    rw [storing, refused]
  · have ends : hinted.selectedTip = .ok child := by
      unfold RosterStore.selectedTip
      rw [selected_congr (replaceHint_ok hinting), extended, Except.ok_bind, List.getLast?_append,
        List.getLast?_singleton]
      rfl
    have members := (RosterRevision.validateChild_ok valid).members
    rw [(child_change built).1] at members
    rw [RosterStore.applyRosterChangeLoop, tip]
    dsimp only
    rw [if_neg (by rw [unsatisfied]; simp), built]
    dsimp only
    rw [storing, hinting]
    dsimp only
    rw [ends]
    dsimp only
    rw [if_pos (satisfied_after members rfl)]

theorem applyRosterChange_extends (tree : RosterTree genesis store)
    (selects : store.selectedRosterChain = .ok chain) (last : chain.getLast? = some parent)
    {change : RosterChange} {identity : DeviceIdentity}
    (unsatisfied : rosterChangeIsSatisfied parent change = false)
    (built : parent.child change identity = .ok child)
    (fresh : ∀ other, store.Stored other → other.canonicalHash ≠ child.canonicalHash) :
    ∃ next, store.applyRosterChange identity change = (next, .ok child) ∧
      RosterTree genesis next ∧ next.selectedRosterChain = .ok (chain ++ [child]) ∧
      ∀ other, next.Stored other ↔ store.Stored other ∨ other = child := by
  obtain ⟨next, grown, extended, exactly', -, -, applied⟩ :=
    tree.applyRosterChangeLoop_extends selects last unsatisfied built fresh none
  exact ⟨next, applied next rfl maxRosterRetryDepth, grown, extended, exactly'⟩

/-- What an own change adds to the selected chain: at most one revision with the change. -/
structure Applied (genesis : RosterRevision) (chain : List RosterRevision)
    (allowed : List RosterChange) (next : RosterStore) : Prop where
  tree : RosterTree genesis next
  selected : ∃ added, next.selectedRosterChain = .ok (chain ++ added) ∧
    (changes added).Sublist allowed

theorem Applied.none (tree : RosterTree genesis next)
    (selects : next.selectedRosterChain = .ok chain) (allowed : List RosterChange) :
    Applied genesis chain allowed next :=
  ⟨tree, [], by rw [selects, List.append_nil], List.nil_sublist _⟩

theorem applied_loop (tree : RosterTree genesis store)
    (selects : store.selectedRosterChain = .ok chain) (identity : DeviceIdentity)
    (change : RosterChange) (peerHint : Option (EndpointId × String)) (attempts : Nat) :
    Applied genesis chain [change]
      (RosterStore.applyRosterChangeLoop identity change peerHint attempts store).1 := by
  induction attempts generalizing store with
  | zero => exact Applied.none tree selects _
  | succ attempts ih =>
      unfold RosterStore.applyRosterChangeLoop
      split
      · exact Applied.none tree selects _
      rename_i parent tip
      split
      · split
        · exact Applied.none tree selects _
        · rename_i hinting
          have same := replaceHint_ok hinting
          exact Applied.none (tree.grown_hints same).tree ((selected_congr same).trans selects) _
      split
      · exact Applied.none tree selects _
      rename_i revision built
      split
      · exact Applied.none tree selects _
      rename_i stored storing
      have last := selectedTip_last selects tip
      have valid := RosterRevision.child_ok built
      obtain ⟨grown, only, -⟩ := tree.grown_storeRevision (tree.selectedTip_ok tip) valid storing
      by_cases inside : stored.Stored revision
      · have exactly : ∀ other, stored.Stored other ↔ store.Stored other ∨ other = revision := by
          intro other
          constructor
          · exact only other
          · intro either
            rcases either with held | own
            · exact grown.kept other held
            · rw [own]
              exact inside
        have extended := tree.selected_extended selects last valid grown.tree exactly
        have applied : Applied genesis chain [change] stored := by
          refine ⟨grown.tree, [revision], extended, ?_⟩
          rw [changes, List.map_singleton, (child_change built).1]
        have ends : stored.selectedTip = .ok revision := by
          unfold RosterStore.selectedTip
          rw [extended, Except.ok_bind, List.getLast?_append, List.getLast?_singleton]
          rfl
        have members := (RosterRevision.validateChild_ok valid).members
        rw [(child_change built).1] at members
        rw [ends]
        dsimp only
        rw [if_pos (satisfied_after members rfl)]
        exact applied
      · -- Another revision has the hash of the new one, which is not stored.
        have same := RosterStore.table_eq grown.tree.encoded tree.encoded fun other => by
          constructor
          · intro held
            rcases only other held with before | own
            · exact before
            · rw [own] at held
              exact absurd held inside
          · exact grown.kept other
        have unchanged := (selected_congr same).trans selects
        split
        · exact Applied.none grown.tree unchanged _
        split
        · exact Applied.none grown.tree unchanged _
        · exact ih grown.tree unchanged

theorem Applied.trans {first second : List RosterChange}
    (middle : Applied genesis chain first store)
    (continued : ∀ longer, store.selectedRosterChain = .ok longer →
      Applied genesis longer second next) : Applied genesis chain (first ++ second) next := by
  obtain ⟨added, selects, within⟩ := middle.selected
  obtain ⟨tree, more, last, moreWithin⟩ := continued _ selects
  refine ⟨tree, added ++ more, ?_, ?_⟩
  · rw [← List.append_assoc]
    exact last
  · rw [changes_append]
    exact within.append moreWithin

theorem Applied.mono {fewer allowed : List RosterChange}
    (applied : Applied genesis chain fewer next)
    (sublist : fewer.Sublist allowed) : Applied genesis chain allowed next := by
  obtain ⟨tree, added, selects, within⟩ := applied
  exact ⟨tree, added, selects, within.trans sublist⟩

/-- The replay appends some of the changes, in their order. -/
theorem replayed (tree : RosterTree genesis store)
    (selects : store.selectedRosterChain = .ok chain) (localEndpoint : EndpointId)
    (identity : DeviceIdentity) (revisions : List RosterRevision) :
    Applied genesis chain (changes revisions)
      (store.replayChanges localEndpoint identity revisions).1 := by
  induction revisions generalizing store chain with
  | nil => exact Applied.none tree selects _
  | cons revision rest ih =>
      unfold RosterStore.replayChanges
      rw [selects]
      dsimp only
      split
      · have first : Applied genesis chain [revision.change]
            (store.applyRosterChange identity revision.change).1 :=
          tree.applied_loop selects identity revision.change none _
        split
        · rename_i after reason outcome
          rw [outcome] at first
          exact first.mono ((List.nil_sublist (changes rest)).cons_cons revision.change)
        · rename_i after done outcome
          rw [outcome] at first
          exact first.trans fun longer selected => ih first.tree selected
      · exact Applied.none tree selects _

theorem removed (tree : RosterTree genesis store)
    (selects : store.selectedRosterChain = .ok chain) (identity : DeviceIdentity)
    (peer : EndpointId) :
    Applied genesis chain [.remove peer] (store.removePeer identity peer).1 := by
  unfold RosterStore.removePeer
  split
  · exact Applied.none tree selects _
  rw [selects]
  dsimp only
  split
  · exact Applied.none tree selects _
  split
  · exact Applied.none tree selects _
  have applied : Applied genesis chain [.remove peer]
      (store.applyRosterChange identity (.remove peer)).1 :=
    tree.applied_loop selects identity (.remove peer) none _
  split
  · rename_i outcome
    rw [outcome] at applied
    exact applied
  · rename_i outcome
    rw [outcome] at applied
    exact applied

/-- A merge keeps the selected chain, or selects the peer's chain and replays own changes. -/
theorem reconcile_cases (tree : RosterTree genesis store)
    (selects : store.selectedRosterChain = .ok chain) {rest : List RosterRevision}
    (linked : Linked (genesis :: rest))
    (distinguished : Distinguished fun revision => store.Stored revision ∨ revision ∈ rest)
    (localEndpoint remoteEndpoint : EndpointId) (loaded : Option DeviceIdentity) :
    (chainKey (genesis :: rest) ≤ chainKey chain ∧ ∃ merged, RosterTree genesis merged ∧
      merged.selectedRosterChain = .ok chain ∧
      store.mergeAndAuthorizeRemoteRoster (genesis :: rest) localEndpoint remoteEndpoint loaded =
        (merged, merged.authorize chain localEndpoint remoteEndpoint)) ∨
    (chainKey chain < chainKey (genesis :: rest) ∧ ∃ merged, RosterTree genesis merged ∧
      (∀ revision, store.Stored revision → merged.Stored revision) ∧
      merged.selectedRosterChain = .ok (genesis :: rest) ∧
      store.mergeAndAuthorizeRemoteRoster (genesis :: rest) localEndpoint remoteEndpoint loaded =
        match merged.replayDisplaced chain (genesis :: rest) localEndpoint loaded with
        | (store, .error reason) => (store, .error reason)
        | (store, .ok ()) => (store, store.authorize chain localEndpoint remoteEndpoint)) := by
  obtain ⟨previous, rfl, -, inside⟩ := tree.selected selects
  obtain ⟨success, mergedTree, mergedStored⟩ := tree.mergeSelectedRosterChain_eq
    distinguished linked
    (fun _ => Or.inl) (fun _ => Or.inr)
  obtain ⟨selected, chosen, either, above, aboveRest⟩ := tree.merged_with distinguished linked
    (fun _ => Or.inl) (fun _ => Or.inr) selects
  generalize outcome : store.mergeSelectedRosterChain (genesis :: rest) = merged at *
  obtain ⟨merged, result⟩ := merged
  dsimp only at success mergedTree mergedStored chosen
  unfold RosterStore.mergeAndAuthorizeRemoteRoster
  rw [selects]
  dsimp only
  rw [outcome, success]
  dsimp only
  rw [chosen]
  dsimp only
  by_cases kept : selected = genesis :: previous
  · -- The tip selected before is still selected, and nothing is replayed.
    left
    rw [kept] at aboveRest chosen ⊢
    have still : ¬ ((genesis :: previous).getLast?.any fun tip => decide (tip.canonicalHash ∉
        (genesis :: previous).map RosterRevision.canonicalHash)) = true := by
      rw [List.getLast?_eq_some_getLast (List.cons_ne_nil genesis previous), Option.any_some,
        decide_eq_true_eq, not_not]
      exact List.mem_map_of_mem (List.getLast_mem _)
    have nothing : merged.replayDisplaced (genesis :: previous) (genesis :: previous) localEndpoint
        loaded = (merged, .ok ()) := if_neg still
    rw [nothing]
    exact ⟨aboveRest, merged, mergedTree, chosen, rfl⟩
  · right
    have new := either.resolve_left kept
    rw [new] at above chosen kept ⊢
    have seen : ∀ revision ∈ genesis :: rest, store.Stored revision ∨ revision ∈ rest := by
      intro revision listed
      rcases List.mem_cons.mp listed with root | later
      · rw [root]
        exact Or.inl tree.genesis_stored
      · exact Or.inr later
    have differs : chainKey (genesis :: previous) ≠ chainKey (genesis :: rest) := by
      intro same
      exact kept (chainKey_eq distinguished seen
        (fun revision listed => Or.inl (inside revision listed)) same.symm)
    exact ⟨lt_of_le_of_ne above differs, merged, mergedTree,
      fun revision held => (mergedStored revision).mpr (Or.inl held), chosen, rfl⟩

end RosterTree

end Skillsync
