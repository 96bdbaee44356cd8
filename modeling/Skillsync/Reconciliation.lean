import Skillsync.RosterReplaySpec

set_option autoImplicit false

namespace Skillsync

open Fallible

section
variable [Blake3] [Ed25519]

namespace RosterStore

variable {store next : RosterStore}

/-- What a successful reconciliation went through. -/
structure Reconciled (store next : RosterStore) (revisions : List RosterRevision)
    (localEndpoint remoteEndpoint : EndpointId) (previous merged : List RosterRevision)
    (tip : RosterRevision) : Prop where
  before : store.selectedRosterChain = .ok previous
  merging : ∃ stored, store.mergeSelectedRosterChain revisions = (stored, .ok ()) ∧
    stored.selectedRosterChain = .ok merged ∧
    ((∀ last, previous.getLast? = some last →
        last.canonicalHash ∈ merged.map RosterRevision.canonicalHash) ∧ next = stored ∨
      ∃ identity, stored.replayChanges localEndpoint identity
        (displaced localEndpoint previous merged) = (next, .ok ()))
  after : next.selectedTip = .ok tip
  localMember : (tip.members[localEndpoint]?).isSome
  remoteMember : (tip.members[remoteEndpoint]?).isSome

theorem authorize_ok {previous : List RosterRevision} {localEndpoint remoteEndpoint : EndpointId}
    {changed : Bool}
    (authorized : store.authorize previous localEndpoint remoteEndpoint = .ok changed) :
    ∃ tip, store.selectedTip = .ok tip ∧ (tip.members[localEndpoint]?).isSome ∧
      (tip.members[remoteEndpoint]?).isSome := by
  unfold authorize at authorized
  split at authorized
  · cases authorized
  rename_i selected selects
  split at authorized
  · cases authorized
  rename_i tip last
  split at authorized
  · cases authorized
  rename_i members
  rw [not_or, Option.isNone_iff_eq_none, Option.isNone_iff_eq_none, ← ne_eq, ← ne_eq,
    ← Option.isSome_iff_ne_none, ← Option.isSome_iff_ne_none] at members
  refine ⟨tip, ?_, members⟩
  unfold selectedTip
  rw [selects, Except.ok_bind, last]
  rfl

theorem mergeAndAuthorizeRemoteRoster_ok {revisions : List RosterRevision}
    {localEndpoint remoteEndpoint : EndpointId} {loaded : Option DeviceIdentity} {changed : Bool}
    (reconciled :
      store.mergeAndAuthorizeRemoteRoster revisions localEndpoint remoteEndpoint loaded =
      (next, .ok changed)) :
    ∃ previous merged tip,
      Reconciled store next revisions localEndpoint remoteEndpoint previous merged tip := by
  unfold mergeAndAuthorizeRemoteRoster at reconciled
  split at reconciled
  · cases reconciled
  rename_i previous before
  split at reconciled
  · cases reconciled
  rename_i stored merging
  split at reconciled
  · cases reconciled
  rename_i merged selects
  split at reconciled
  · cases reconciled
  rename_i finished replayed
  obtain ⟨same, authorized⟩ := Prod.mk.inj reconciled
  subst same
  obtain ⟨tip, after, localMember, remoteMember⟩ := authorize_ok authorized
  refine ⟨previous, merged, tip, before, ⟨stored, merging, selects, ?_⟩, after, localMember,
    remoteMember⟩
  rcases replayDisplaced_cases stored previous merged localEndpoint loaded with
    ⟨kept, none⟩ | ⟨-, failed⟩ | ⟨identity, -, replays⟩
  · rw [none] at replayed
    cases replayed
    exact Or.inl ⟨kept, rfl⟩
  · rw [failed] at replayed
    cases replayed
  · rw [replays] at replayed
    exact Or.inr ⟨identity, replayed⟩

end RosterStore

namespace RosterTree

variable {genesis revision tip : RosterRevision} {store next : RosterStore}
  {chain : List RosterRevision} {localEndpoint : EndpointId} {identity : DeviceIdentity}

/-- A finished replay comes to each revision, as it ends with the device in the roster: there its
change is satisfied, and only later changes follow. -/
theorem replayed_through (tree : RosterTree genesis store)
    (selects : store.selectedRosterChain = .ok chain)
    {revisions front back : List RosterRevision}
    (replayed : store.replayChanges localEndpoint identity revisions = (next, .ok ()))
    (after : next.selectedTip = .ok tip) (localMember : (tip.members[localEndpoint]?).isSome)
    (listed : revisions = front ++ revision :: back) :
    ∃ early late turn, RosterTree genesis next ∧
      next.selectedRosterChain = .ok (chain ++ (early ++ late)) ∧
      (chain ++ early).getLast? = some turn ∧
      rosterChangeIsSatisfied turn revision.change = true ∧
      (changes late).Sublist (changes back) := by
  induction revisions generalizing store chain front with
  | nil => simp at listed
  | cons first rest ih =>
      unfold RosterStore.replayChanges at replayed
      rw [selects] at replayed
      dsimp only at replayed
      split at replayed
      · split at replayed
        · cases replayed
        rename_i middle own outcome
        have applied : Applied genesis chain [first.change]
            (store.applyRosterChange identity first.change).1 :=
          tree.applied_loop selects identity first.change none _
        rw [outcome] at applied
        obtain ⟨added, longer, -⟩ := applied.selected
        cases front with
        | cons other front =>
            obtain ⟨early, late, turn, grown, chosen, last, satisfied, within⟩ :=
              ih applied.tree longer replayed (List.cons.inj listed).2
            refine ⟨added ++ early, late, turn, grown, ?_, ?_, satisfied, within⟩
            · rw [chosen, List.append_assoc, List.append_assoc]
            · rw [← List.append_assoc]
              exact last
        | nil =>
            obtain ⟨rfl, rfl⟩ := List.cons.inj listed
            obtain ⟨ends, satisfied⟩ := RosterTree.applyRosterChangeLoop_ok outcome
            have remaining := applied.tree.replayed longer localEndpoint identity rest
            rw [replayed] at remaining
            obtain ⟨more, chosen, within⟩ := remaining.selected
            refine ⟨added, more, own, remaining.tree, ?_, selectedTip_last longer ends, satisfied,
              within⟩
            rw [chosen, List.append_assoc]
      · rename_i gone
        cases replayed
        rw [selectedTip_last selects after, Option.any_some] at gone
        exact absurd localMember gone

/-- A finished replay satisfies the last change of each endpoint. -/
theorem replayed_satisfies (tree : RosterTree genesis store)
    (selects : store.selectedRosterChain = .ok chain)
    {revisions front back : List RosterRevision}
    (replayed : store.replayChanges localEndpoint identity revisions = (next, .ok ()))
    (after : next.selectedTip = .ok tip) (localMember : (tip.members[localEndpoint]?).isSome)
    (listed : revisions = front ++ revision :: back)
    (final : ∀ later ∈ back, later.change.subject ≠ revision.change.subject) :
    rosterChangeIsSatisfied tip revision.change = true := by
  obtain ⟨early, late, turn, grown, chosen, turnLast, satisfied, within⟩ :=
    tree.replayed_through selects replayed after localMember listed
  obtain ⟨-, -, linked, -⟩ := grown.selected chosen
  rw [← List.append_assoc] at linked chosen
  apply satisfied_congr _ satisfied
  apply members_after linked turnLast (selectedTip_last chosen after)
  intro change made
  obtain ⟨later, inside, rfl⟩ := List.mem_map.mp (within.subset made)
  exact final later inside

theorem grown_replayChanges (tree : RosterTree genesis store) (localEndpoint : EndpointId)
    (identity : DeviceIdentity) (revisions : List RosterRevision) :
    Grown genesis store (store.replayChanges localEndpoint identity revisions).1 := by
  induction revisions generalizing store with
  | nil => exact grown_refl tree
  | cons revision rest ih =>
      unfold RosterStore.replayChanges
      split
      · exact grown_refl tree
      split
      · have first : Grown genesis store (store.applyRosterChange identity revision.change).1 :=
          tree.grown_applyRosterChangeLoop identity revision.change none _
        split
        · rename_i outcome
          rw [outcome] at first
          exact first
        · rename_i outcome
          rw [outcome] at first
          exact first.trans (ih first.tree)
      · exact grown_refl tree

/-- Chains that share a revision agree up to it. -/
theorem shared_start {seen : RosterRevision → Prop} (distinguished : Distinguished seen)
    (zero : genesis.number = 0) {front back inner outer : List RosterRevision}
    (head : (front ++ revision :: back).head? = some genesis)
    (linked : Linked (front ++ revision :: back)) (seenFront : ∀ other ∈ front, seen other)
    (headOther : (inner ++ revision :: outer).head? = some genesis)
    (linkedOther : Linked (inner ++ revision :: outer)) (seenInner : ∀ other ∈ inner, seen other) :
    front = inner := by
  have start : ∀ whole rest : List RosterRevision,
      (whole ++ revision :: rest).head? = some genesis → Linked (whole ++ revision :: rest) →
      (whole ++ [revision]).head? = some genesis ∧ Linked (whole ++ [revision]) := by
    intro whole rest head linked
    rw [List.append_cons] at head linked
    rw [List.head?_append_of_ne_nil _ (by simp)] at head
    exact ⟨head, linked.left_of_append⟩
  obtain ⟨headFront, linkedFront⟩ := start front back head linked
  obtain ⟨headInner, linkedInner⟩ := start inner outer headOther linkedOther
  exact derivation_unique distinguished zero headFront linkedFront seenFront headInner linkedInner
    seenInner

/-- A chain whose last revision is in another chain is the start of that chain. -/
theorem subset_of_last {seen : RosterRevision → Prop} (distinguished : Distinguished seen)
    (zero : genesis.number = 0) {other : List RosterRevision} (head : chain.head? = some genesis)
    (linked : Linked chain) (seenChain : ∀ member ∈ chain, seen member)
    (headOther : other.head? = some genesis) (linkedOther : Linked other)
    (seenOther : ∀ member ∈ other, seen member) (last : chain.getLast? = some tip)
    (inside : tip ∈ other) : chain ⊆ other := by
  obtain ⟨front, rfl⟩ := List.getLast?_eq_some_iff.mp last
  obtain ⟨inner, outer, rfl⟩ := List.append_of_mem inside
  have same := shared_start distinguished zero head linked
    (fun member listed => seenChain member (List.mem_append_left _ listed)) headOther linkedOther
    fun member listed => seenOther member (List.mem_append_left _ listed)
  rw [same, List.append_cons inner tip outer]
  exact List.subset_append_left _ _

/-- What grows above the selected chain was not stored. -/
theorem mem_selected_of_stored (tree : RosterTree genesis store)
    (selects : store.selectedRosterChain = .ok chain) {previous added : List RosterRevision}
    (linked : Linked (genesis :: previous))
    (stored : ∀ other ∈ genesis :: previous, store.Stored other)
    (grown : RosterTree genesis next) (kept : ∀ other, store.Stored other → next.Stored other)
    (longer : next.selectedRosterChain = .ok (chain ++ added))
    (inside : revision ∈ genesis :: previous) (listed : revision ∈ chain ++ added) :
    revision ∈ chain := by
  by_contra outside
  obtain ⟨rest, spelled, longerLinked, longerStored⟩ := grown.selected longer
  obtain ⟨front, back, whole⟩ := List.append_of_mem inside
  obtain ⟨inner, outer, new⟩ := List.append_of_mem
    ((List.mem_append.mp listed).resolve_left outside)
  have head : (front ++ revision :: back).head? = some genesis := by rw [← whole]; rfl
  have headOther : (chain ++ inner ++ revision :: outer).head? = some genesis := by
    rw [List.append_assoc, ← new, spelled]
    rfl
  have linkedOther : Linked (chain ++ inner ++ revision :: outer) := by
    rw [List.append_assoc, ← new]
    exact longerLinked
  have same : front = chain ++ inner := by
    apply shared_start (stored_distinguished next) (RosterRevision.validateGenesis_ok tree.valid).1
      head (whole ▸ linked) _ headOther linkedOther
    · intro other member
      apply longerStored
      rw [new, ← List.append_assoc]
      exact List.mem_append_left _ member
    · intro other member
      apply kept other (stored other _)
      rw [whole]
      exact List.mem_append_left _ member
  -- The selected chain would be a proper start of a stored one.
  have above := tree.selected_greatest (stored_distinguished store) selects linked
    fun other member => stored other (List.mem_cons_of_mem _ member)
  have below : chain <+: genesis :: previous := by
    rw [whole, same, List.append_assoc]
    exact List.prefix_append _ _
  have size := congrArg List.length (le_antisymm above ( chainKey_le_of_prefix below))
  rw [whole, same] at size
  simp only [chainKey, List.length_map, List.length_append, List.length_cons] at size
  omega

end RosterTree

omit [Ed25519] in
theorem mem_displaced {revision : RosterRevision} {localEndpoint : EndpointId}
    {previous selected : List RosterRevision} :
    revision ∈ displaced localEndpoint previous selected ↔ revision ∈ previous ∧
      revision.canonicalHash ∉ selected.map RosterRevision.canonicalHash ∧
      revision.author = localEndpoint := by
  simp only [displaced, List.mem_filter, decide_eq_true_eq, and_assoc]

omit [Ed25519] in
theorem displaced_at {revision : RosterRevision} {localEndpoint : EndpointId}
    {front back selected : List RosterRevision}
    (gone : revision.canonicalHash ∉ selected.map RosterRevision.canonicalHash)
    (own : revision.author = localEndpoint) :
    displaced localEndpoint (front ++ revision :: back) selected =
      displaced localEndpoint front selected ++
        revision :: displaced localEndpoint back selected := by
  rw [displaced, List.filter_append, List.filter_append, List.filter_cons,
    if_pos (decide_eq_true gone), List.filter_cons, if_pos (decide_eq_true own)]
  rfl

/-- An own revision of the device that is not selected. -/
structure Lost (localEndpoint : EndpointId) (selected : List RosterRevision)
    (revision : RosterRevision) : Prop where
  own : revision.author = localEndpoint
  gone : revision ∉ selected

theorem RosterStore.merge_ok {store next : RosterStore} {revisions : List RosterRevision}
    (merged : store.mergeSelectedRosterChain revisions = (next, .ok ())) :
    ∃ genesis previous, store.selectedRosterChain = .ok (genesis :: previous) := by
  unfold RosterStore.mergeSelectedRosterChain at merged
  split at merged
  · cases merged
  rename_i checked
  unfold RosterStore.checkMerge at checked
  split at checked
  · cases checked
  obtain ⟨⟨⟩, -, checked⟩ := Except.bind_ok checked
  obtain ⟨⟨⟩, -, checked⟩ := Except.bind_ok checked
  obtain ⟨previous, selects, checked⟩ := Except.bind_ok checked
  split at checked
  · cases checked
  · exact ⟨_, _, selects⟩

/-- After a successful reconciliation the selected chain starts with the chain that was selected
after the merge, and its tip satisfies the last lost change of each endpoint. -/
theorem no_local_change_lost {store next : RosterStore} {revisions : List RosterRevision}
    {localEndpoint remoteEndpoint : EndpointId} {loaded : Option DeviceIdentity} {changed : Bool}
    (reconciled :
      store.mergeAndAuthorizeRemoteRoster revisions localEndpoint remoteEndpoint loaded =
      (next, .ok changed)) :
    ∃ previous merged added tip, store.selectedRosterChain = .ok previous ∧
      (store.mergeSelectedRosterChain revisions).1.selectedRosterChain = .ok merged ∧
      next.selectedRosterChain = .ok (merged ++ added) ∧
      (merged ++ added).getLast? = some tip ∧
      ∀ front revision back, previous = front ++ revision :: back →
        Lost localEndpoint (merged ++ added) revision →
        (∀ later ∈ back, Lost localEndpoint (merged ++ added) later →
          later.change.subject ≠ revision.change.subject) →
        (∀ member, revision.change = .admitMember member →
          (tip.members[member.endpointId]?).isSome) ∧
        ∀ endpoint, revision.change = .remove endpoint → tip.members[endpoint]? = none := by
  obtain ⟨previous, merged, tip, before, ⟨stored, merging, selects, outcome⟩, after,
      localMember, -⟩ :=
    RosterStore.mergeAndAuthorizeRemoteRoster_ok reconciled
  obtain ⟨genesis, rest, same⟩ := RosterStore.merge_ok merging
  rw [before] at same
  cases same
  have tree := RosterTree.of_selected before
  obtain ⟨-, -, linked, inside⟩ := tree.selected before
  have grown := tree.grown_mergeSelectedRosterChain revisions
  rw [merging] at grown ⊢
  have held : ∀ revision ∈ genesis :: rest, stored.Stored revision :=
    fun revision listed => grown.kept revision (inside revision listed)
  obtain ⟨mergedRest, headed, mergedLinked, mergedStored⟩ := grown.tree.selected selects
  have unmerged : ∀ revision ∈ genesis :: rest,
      revision.canonicalHash ∈ merged.map RosterRevision.canonicalHash → revision ∈ merged := by
    intro revision listed member
    obtain ⟨other, chosen, same⟩ := List.mem_map.mp member
    rw [← (mergedStored other chosen).unique (held revision listed) same]
    exact chosen
  have applied : RosterTree.Applied genesis merged
        (changes (displaced localEndpoint (genesis :: rest) merged)) next ∧
      RosterTree.Grown genesis stored next := by
    rcases outcome with ⟨-, rfl⟩ | ⟨identity, replayed⟩
    · exact ⟨RosterTree.Applied.none grown.tree selects _, RosterTree.grown_refl grown.tree⟩
    · have applied := grown.tree.replayed selects localEndpoint identity
        (displaced localEndpoint (genesis :: rest) merged)
      have kept := grown.tree.grown_replayChanges localEndpoint identity
        (displaced localEndpoint (genesis :: rest) merged)
      rw [replayed] at applied kept
      exact ⟨applied, kept⟩
  obtain ⟨⟨nextTree, added, longer, -⟩, kept⟩ := applied
  refine ⟨genesis :: rest, merged, added, tip, before, selects, longer,
    RosterTree.selectedTip_last longer after, ?_⟩
  intro front revision back listed lost final
  have member : revision ∈ genesis :: rest := by
    rw [listed]
    exact List.mem_append_right _ List.mem_cons_self
  have outside : revision ∉ merged := fun inside => lost.gone (List.mem_append_left _ inside)
  have satisfied : rosterChangeIsSatisfied tip revision.change = true := by
    rcases outcome with ⟨present, -⟩ | ⟨identity, replayed⟩
    · -- Nothing was lost: the tip selected before is still selected.
      obtain ⟨last, ends⟩ := List.getLast?_isSome.mpr (List.cons_ne_nil genesis rest) |>
        Option.isSome_iff_exists.mp
      have reached := unmerged last (List.mem_of_getLast? ends) (present last ends)
      have head : merged.head? = some genesis := by rw [headed]; rfl
      exact absurd (RosterTree.subset_of_last (stored_distinguished stored)
        (RosterRevision.validateGenesis_ok tree.valid).1 rfl linked held head mergedLinked
        mergedStored ends reached member) outside
    · have gone : revision.canonicalHash ∉ merged.map RosterRevision.canonicalHash :=
        fun inside => outside (unmerged revision member inside)
      apply grown.tree.replayed_satisfies selects replayed after localMember
        (listed ▸ displaced_at gone lost.own)
      intro later inside
      obtain ⟨inBack, laterGone, own⟩ := mem_displaced.mp inside
      have laterMember : later ∈ genesis :: rest := by
        rw [listed]
        exact List.mem_append_right _ (List.mem_cons_of_mem _ inBack)
      refine final later inBack ⟨own, fun chosen => laterGone (List.mem_map_of_mem ?_)⟩
      exact grown.tree.mem_selected_of_stored selects linked held nextTree kept.kept longer
        laterMember chosen
  constructor
  · intro joined admitted
    rw [admitted] at satisfied
    exact satisfied
  · intro endpoint removed
    rw [removed, rosterChangeIsSatisfied, Option.isNone_iff_eq_none] at satisfied
    exact satisfied

end

section
attribute [local instance] Blake3.checksum Ed25519.checksum

open RosterSample

/-- The first device admits the third one while the second device admits the eighth one. -/
def mine : RosterRevision := child (admitted 2) (.admitMember (member 3)) 1

def theirs : RosterRevision := child (admitted 2) (.admitMember (member 8)) 2

/-- The table of the first device. -/
def forked : RosterStore := (start.mergeSelectedRosterChain [genesis, admitted 2, mine]).1

/-- The branch of the second device is selected, and the first device admits again. -/
theorem displaced_admission_replayed :
    ∃ next tip, forked.mergeAndAuthorizeRemoteRoster [genesis, admitted 2, theirs]
        (device 1).endpointId (device 2).endpointId (some (device 1)) = (next, .ok true) ∧
      next.selectedTip = .ok tip ∧ (tip.members[(device 3).endpointId]?).isSome := by
  have before : forked.selectedRosterChain = .ok ([genesis, admitted 2] ++ mine :: []) := by
    decide +kernel
  have computed : (forked.mergeAndAuthorizeRemoteRoster [genesis, admitted 2, theirs]
        (device 1).endpointId (device 2).endpointId (some (device 1))).2 = .ok true ∧
      ((forked.mergeAndAuthorizeRemoteRoster [genesis, admitted 2, theirs]
        (device 1).endpointId (device 2).endpointId
        (some (device 1))).1.selectedRosterChain.toOption.getD [mine]).contains mine = false := by
    decide +kernel
  have own : mine.author = (device 1).endpointId := by decide +kernel
  have admits : mine.change = .admitMember (member 3) := by decide +kernel
  cases performed : forked.mergeAndAuthorizeRemoteRoster [genesis, admitted 2, theirs]
      (device 1).endpointId (device 2).endpointId (some (device 1)) with
  | mk next result =>
      rw [performed] at computed
      obtain ⟨outcome, gone⟩ := computed
      obtain ⟨previous, merged, added, tip, selects, -, longer, last, kept⟩ :=
        no_local_change_lost (performed.trans (Prod.ext rfl outcome))
      rw [before] at selects
      rw [longer, List.contains_eq_mem] at gone
      refine ⟨next, tip, Prod.ext rfl outcome, ?_, ?_⟩
      · unfold RosterStore.selectedTip
        rw [longer, Except.ok_bind, last]
        rfl
      · exact (kept [genesis, admitted 2] mine [] (Except.ok.inj selects).symm
          ⟨own, of_decide_eq_false gone⟩ (by simp)).1 (member 3) admits

end

end Skillsync
