import Skillsync.HintAcceptance
import Skillsync.Readmission

set_option autoImplicit false

namespace Skillsync

open Fallible

/-- A call of `merge_and_authorize_remote_roster`. -/
structure RosterCall where
  revisions : List RosterRevision
  localEndpoint : EndpointId
  remoteEndpoint : EndpointId
  loaded : Option DeviceIdentity

section
variable [Blake3] [Ed25519]

namespace RosterCall

def perform (store : RosterStore) (call : RosterCall) :
    RosterStore × Except RosterSessionError Bool :=
  store.mergeAndAuthorizeRemoteRoster call.revisions call.localEndpoint call.remoteEndpoint
    call.loaded

/-- The tables after a call, in success or failure. -/
def step (store : RosterStore) (call : RosterCall) : Option RosterStore :=
  some (call.perform store).1

/-- BLAKE3 distinguishes the stored revisions and the presented ones. -/
def Distinguishes (store : RosterStore) (call : RosterCall) : Prop :=
  Distinguished fun revision => store.Stored revision ∨ revision ∈ call.revisions

end RosterCall

/-- The chain admits the device after the removal. -/
structure ReadmittedAfter (removal : RosterRevision) (endpoint : EndpointId)
    (selected : List RosterRevision) : Prop where
  after : ∃ above below, selected = above ++ removal :: below ∧
    ∃ member, .admitMember member ∈ changes below ∧ member.endpointId = endpoint

/-- The chain starts with a presented one, which leaves the earlier chain at the removal or before
it, at a child that `select_child` prefers. -/
structure Overtaken (removal : RosterRevision) (before : List RosterRevision)
    (presented : List (List RosterRevision)) (selected : List RosterRevision) : Prop where
  gone : removal ∉ selected
  fork : ∃ shared old later new newer, before = shared ++ old :: later ∧
    removal ∈ old :: later ∧ shared ++ new :: newer ∈ presented ∧
    shared ++ new :: newer <+: selected ∧ selectionKey old < selectionKey new

omit [Ed25519] in
/-- Where a chain leaves a smaller one. -/
theorem fork_of_chainKey_lt {seen : RosterRevision → Prop} (distinguished : Distinguished seen)
    {before after : List RosterRevision} {removal : RosterRevision}
    (seenBefore : ∀ revision ∈ before, seen revision)
    (seenAfter : ∀ revision ∈ after, seen revision) (below : chainKey before < chainKey after)
    (inside : removal ∈ before) (gone : removal ∉ after) :
    ∃ shared old later new newer, before = shared ++ old :: later ∧
      removal ∈ old :: later ∧ after = shared ++ new :: newer ∧
      selectionKey old < selectionKey new := by
  induction before generalizing after with
  | nil => simp at inside
  | cons old later ih =>
      cases after with
      | nil => exact absurd below (List.not_lt_nil _)
      | cons new newer =>
          obtain ⟨seenOld, seenLater⟩ := List.forall_mem_cons.mp seenBefore
          obtain ⟨seenNew, seenNewer⟩ := List.forall_mem_cons.mp seenAfter
          rcases List.cons_lt_cons_iff.mp below with less | ⟨equal, rest⟩
          · exact ⟨[], old, later, new, newer, rfl, inside, rfl, less⟩
          · have same := selectionKey_eq distinguished seenOld seenNew equal
            rw [List.mem_cons, not_or] at gone
            have further := (List.mem_cons.mp inside).resolve_left fun first =>
              gone.1 (first.trans same)
            obtain ⟨shared, first, more, other, others, rfl, member, rfl, less⟩ :=
              ih seenLater seenNewer rest further gone.2
            exact ⟨old :: shared, first, more, other, others, rfl, member, by rw [same]; rfl, less⟩

/-- The selected chain is the earlier one, or starts with a presented chain that is greater. -/
structure Descended (genesis : RosterRevision) (before : List RosterRevision)
    (presented : List (List RosterRevision)) (store : RosterStore) : Prop where
  tree : RosterTree genesis store
  stored : ∀ revision ∈ before, store.Stored revision
  selected : ∃ selected, store.selectedRosterChain = .ok selected ∧
    (selected = before ∨ ∃ chain ∈ presented, chainKey before < chainKey chain ∧
      chain <+: selected)

namespace Descended

variable {genesis : RosterRevision} {before : List RosterRevision}
  {presented : List (List RosterRevision)} {store final : RosterStore}

/-- The step lemma. -/
theorem perform (holds : Descended genesis before presented store) (call : RosterCall)
    (distinguished : call.Distinguishes store) :
    Descended genesis before (presented ++ [call.revisions]) (call.perform store).1 := by
  obtain ⟨tree, stored, selected, selects, either⟩ := holds
  have later : selected = before ∨ ∃ chain ∈ presented ++ [call.revisions],
      chainKey before < chainKey chain ∧ chain <+: selected := by
    refine either.imp_right ?_
    rintro ⟨chain, listed, above⟩
    exact ⟨chain, List.mem_append_left _ listed, above⟩
  have grew : GrewBy (MayAdd call.revisions call.loaded) store (call.perform store).1 :=
    RosterStore.reconciliation_grew
  have kept : ∀ revision ∈ before, (call.perform store).1.Stored revision :=
    fun revision listed => grew.kept _ _ (stored revision listed)
  by_cases acceptable : RosterStore.Acceptable store call.revisions
  swap
  · have unchanged : (call.perform store).1 = store :=
      RosterStore.reconciliation_refused _ _ _ acceptable
    rw [unchanged]
    exact ⟨tree, stored, selected, selects, later⟩
  obtain ⟨linked, root, head, previous, starts, -, chosen, sameHash⟩ := acceptable
  obtain ⟨rest, shape⟩ : ∃ rest, call.revisions = root :: rest := List.head?_eq_some_iff.mp starts
  obtain ⟨others, spelled, -, -⟩ := tree.selected chosen
  obtain ⟨rfl, -⟩ := List.cons.inj spelled
  have same : root = head := distinguished root head
    (Or.inr (shape ▸ List.mem_cons_self)) (Or.inl tree.genesis_stored) sameHash
  subst same
  have among : Distinguished fun revision => store.Stored revision ∨ revision ∈ rest :=
    fun a b heldA heldB => distinguished a b
      (heldA.imp_right fun inside => shape ▸ List.mem_cons_of_mem _ inside)
      (heldB.imp_right fun inside => shape ▸ List.mem_cons_of_mem _ inside)
  have outcome := tree.reconcile_cases selects (shape ▸ linked) among call.localEndpoint
    call.remoteEndpoint call.loaded
  rw [← shape] at outcome
  rcases outcome with ⟨-, merged, mergedTree, stays, result⟩ |
    ⟨above, merged, mergedTree, -, taken, result⟩
  · rw [show call.perform store = _ from result] at kept ⊢
    exact ⟨mergedTree, kept, selected, stays, later⟩
  · have greater : chainKey before < chainKey call.revisions := by
      refine lt_of_le_of_lt ?_ above
      rcases either with equal | ⟨chain, -, less, starts⟩
      · rw [equal]
      · exact less.le.trans ( chainKey_le_of_prefix starts)
    have listed : call.revisions ∈ presented ++ [call.revisions] := by simp
    -- Own changes are only added after the presented chain.
    have extended : ∀ next : RosterStore, RosterTree root next →
        (∃ added, next.selectedRosterChain = .ok (call.revisions ++ added)) →
        (∀ revision ∈ before, next.Stored revision) →
        Descended root before (presented ++ [call.revisions]) next := by
      rintro next nextTree ⟨added, longer⟩ held
      exact ⟨nextTree, held, _, longer, Or.inr ⟨_, listed, greater, List.prefix_append _ _⟩⟩
    have single : ∃ added, merged.selectedRosterChain = .ok (call.revisions ++ added) :=
      ⟨[], by rw [taken, List.append_nil]⟩
    rw [show call.perform store = _ from result] at kept ⊢
    rcases RosterStore.replayDisplaced_cases merged selected call.revisions call.localEndpoint
        call.loaded with ⟨-, nothing⟩ | ⟨-, failed⟩ | ⟨identity, -, replays⟩
    · rw [nothing] at kept ⊢
      exact extended merged mergedTree single kept
    · rw [failed] at kept ⊢
      exact extended merged mergedTree single kept
    · rw [replays] at kept ⊢
      have applied := mergedTree.replayed taken call.localEndpoint identity
        (displaced call.localEndpoint selected call.revisions)
      cases performed : merged.replayChanges call.localEndpoint identity
          (displaced call.localEndpoint selected call.revisions) with
      | mk next outcome =>
          rw [performed] at applied kept
          obtain ⟨nextTree, added, longer, -⟩ := applied
          cases outcome with
          | error reason => exact extended next nextTree ⟨added, longer⟩ kept
          | ok done => exact extended next nextTree ⟨added, longer⟩ kept

/-- The run lemma. -/
theorem run {calls : List RosterCall} (holds : Descended genesis before presented store)
    (distinguished : Runs.Along RosterCall.step
      (fun store call => call.Distinguishes store) store calls)
    (reached : Runs.run RosterCall.step store calls = some final) :
    Descended genesis before (presented ++ calls.map RosterCall.revisions) final := by
  induction calls generalizing store presented with
  | nil =>
      rw [Runs.run_nil, Option.some.injEq] at reached
      rw [List.map_nil, List.append_nil, ← reached]
      exact holds
  | cons call rest ih =>
      obtain ⟨apart, others⟩ := distinguished
      obtain ⟨middle, taken, ends⟩ := Runs.run_cons.mp reached
      have first := holds.perform call apart
      rw [show (call.perform store).1 = middle from Option.some.inj taken] at first
      rw [List.map_cons, List.append_cons]
      exact ih first (others middle taken) ends

end Descended

theorem readmitted_of_listed {genesis removal tip : RosterRevision} {endpoint : EndpointId}
    {selected : List RosterRevision} (linked : Linked selected)
    (starts : selected.head? = some genesis) (valid : genesis.validateGenesis = .ok ())
    (inside : removal ∈ selected) (removes : removal.change = .remove endpoint)
    (ends : selected.getLast? = some tip) (active : (tip.members[endpoint]?).isSome) :
    ReadmittedAfter removal endpoint selected := by
  obtain ⟨rest, rfl⟩ := List.head?_eq_some_iff.mp starts
  rcases List.mem_cons.mp inside with same | below
  · obtain ⟨-, -, creator, change, -⟩ := RosterRevision.validateGenesis_ok valid
    rw [same, change] at removes
    cases removes
  obtain ⟨front, back, rfl⟩ := List.append_of_mem below
  refine ⟨genesis :: front, back, rfl, ?_⟩
  by_contra never
  have absent : tip.members[endpoint]? = none := by
    apply absent_after_removal linked rfl removes ends
    intro later made
    by_contra readmits
    rw [Bool.not_eq_false] at readmits
    obtain ⟨member, admits, same⟩ := readmits_iff.mp readmits
    rw [RosterChange.remove.injEq] at same
    exact never ⟨member, admits ▸ made, same.symm⟩
  rw [absent] at active
  cases active

/-- What brings a removed device back into the selected tip. -/
def Returns (removal : RosterRevision) (endpoint : EndpointId) (before : List RosterRevision)
    (calls : List RosterCall) (store : RosterStore) : Prop :=
  ∃ selected, store.selectedRosterChain = .ok selected ∧
    (ReadmittedAfter removal endpoint selected ∨
      Overtaken removal before (calls.map RosterCall.revisions) selected)

theorem returns_of_listed {genesis removal tip : RosterRevision} {endpoint : EndpointId}
    {before : List RosterRevision} {calls : List RosterCall} {store : RosterStore}
    (descended : Descended genesis before (calls.map RosterCall.revisions) store)
    (listed : removal ∈ before) (removes : removal.change = .remove endpoint)
    (ends : store.selectedTip = .ok tip) (active : (tip.members[endpoint]?).isSome) :
    Returns removal endpoint before calls store := by
  obtain ⟨tree, stored, selected, selects, either⟩ := descended
  obtain ⟨rest, shape, linked, held⟩ := tree.selected selects
  refine ⟨selected, selects, ?_⟩
  by_cases inside : removal ∈ selected
  · exact Or.inl (readmitted_of_listed linked (shape ▸ rfl) tree.valid inside removes
      (RosterTree.selectedTip_last selects ends) active)
  · rcases either with same | ⟨chain, presented, less, starts⟩
    · rw [same] at inside
      exact absurd listed inside
    obtain ⟨shared, old, later, new, newer, spelled, member, rfl, preferred⟩ :=
      fork_of_chainKey_lt (stored_distinguished store) stored
        (fun revision inside => held revision (starts.subset inside)) less listed
        fun within => inside (starts.subset within)
    exact Or.inr ⟨inside, shared, old, later, new, newer, spelled, member, presented, starts,
      preferred⟩

/-- After any calls a removed device is in the selected tip only when the selected chain admits it
after the removal, or starts with a presented chain that leaves the chain selected before at the
removal or before it, and a session with the device succeeds only then. -/
theorem learned_removal_sticks {store final : RosterStore} {before : List RosterRevision}
    {removal : RosterRevision} {endpoint : EndpointId} {calls : List RosterCall}
    (selects : store.selectedRosterChain = .ok before) (listed : removal ∈ before)
    (removes : removal.change = .remove endpoint)
    (distinguished : Runs.Along RosterCall.step
      (fun store call => call.Distinguishes store) store calls)
    (reached : Runs.run RosterCall.step store calls = some final) :
    (∀ tip, final.selectedTip = .ok tip → (tip.members[endpoint]?).isSome →
      Returns removal endpoint before calls final) ∧
    ∀ (call : RosterCall) (changed : Bool), call.Distinguishes final →
      call.remoteEndpoint = endpoint → (call.perform final).2 = .ok changed →
      Returns removal endpoint before (calls ++ [call]) (call.perform final).1 := by
  obtain ⟨genesis, rest, rfl⟩ := List.exists_cons_of_ne_nil (List.ne_nil_of_mem listed)
  have tree := RosterTree.of_selected selects
  obtain ⟨-, -, -, stored⟩ := tree.selected selects
  have start : Descended genesis (genesis :: rest) [] store :=
    ⟨tree, stored, _, selects, Or.inl rfl⟩
  have ends := start.run distinguished reached
  rw [List.nil_append] at ends
  refine ⟨fun tip last active => returns_of_listed ends listed removes last active, ?_⟩
  intro call changed apart remote success
  have after := ends.perform call apart
  cases performed : call.perform final with
  | mk next result =>
      rw [performed] at after success
      obtain ⟨-, -, tip, -, -, last, -, remoteMember⟩ :=
        RosterStore.mergeAndAuthorizeRemoteRoster_ok (performed.trans (Prod.ext rfl success))
      rw [remote] at remoteMember
      have extended : Descended genesis (genesis :: rest)
          ((calls ++ [call]).map RosterCall.revisions) next := by
        rw [List.map_append]
        exact after
      exact returns_of_listed extended listed removes last remoteMember

end

section
attribute [local instance] Blake3.checksum Ed25519.checksum

open RosterSample

namespace RosterSample

/-- The third device removes the second one. -/
def eviction : RosterRevision := child mine (.remove (device 2).endpointId) 3

def evicted : List RosterRevision := [genesis, admitted 2, mine, eviction]

/-- The table of the first device after the removal. -/
def evicting : RosterStore := (start.mergeSelectedRosterChain evicted).1

/-- The removed device presents a branch beside the admission of the third one. -/
def beside : RosterCall :=
  ⟨[genesis, admitted 2, theirs], (device 1).endpointId, (device 2).endpointId, some (device 1)⟩

/-- The chain of the first device after that. -/
def returned : List RosterRevision :=
  [genesis, admitted 2, theirs, child theirs (.admitMember (member 3)) 1]

theorem evicting_selects : evicting.selectedRosterChain = .ok evicted :=
  selects_of_bytes (by decide +kernel)

theorem beside_distinguishes : beside.Distinguishes evicting := by
  apply distinguished_among [genesis, admitted 2, mine, eviction, theirs]
  · rintro revision (held | inside)
    · have among : revision ∈ evicted := stored_among (by decide +kernel) held
      exact List.mem_append_left [theirs] among
    · have sublist : [genesis, admitted 2, theirs].Sublist
          [genesis, admitted 2, mine, eviction, theirs] := by
        exact (((List.Sublist.refl [theirs]).cons eviction).cons mine).cons_cons _ |>.cons_cons _
      exact sublist.subset inside
  · decide +kernel

theorem beside_returns : (beside.perform evicting).1.selectedRosterChain = .ok returned :=
  selects_of_bytes (by decide +kernel)

end RosterSample

/-- The removed device is back, and its branch is why. -/
theorem evicted_device_returns :
    ∃ final, Runs.run RosterCall.step evicting [beside] = some final ∧
      (beside.perform evicting).2 = .ok true ∧
      Returns eviction (device 2).endpointId evicted [beside] final := by
  have success : (beside.perform evicting).2 = .ok true := by decide +kernel
  have removes : eviction.change = .remove (device 2).endpointId := by decide +kernel
  have listed : eviction ∈ evicted := by simp [evicted]
  have reached : Runs.run RosterCall.step evicting [beside] =
      some (beside.perform evicting).1 := Runs.run_cons.mpr ⟨_, rfl, rfl⟩
  have apart : Runs.Along RosterCall.step (fun store call => call.Distinguishes store) evicting
      [beside] := ⟨beside_distinguishes, fun _ _ => trivial⟩
  obtain ⟨returns, -⟩ := learned_removal_sticks evicting_selects listed removes apart reached
  have ends : (beside.perform evicting).1.selectedTip =
      .ok (child theirs (.admitMember (member 3)) 1) := by
    unfold RosterStore.selectedTip
    rw [beside_returns]
    rfl
  exact ⟨_, reached, success, returns _ ends (by decide +kernel)⟩

/-- A removed device returns without an admission after its removal. -/
theorem learned_removal_undone :
    ∃ tip, evicting.selectedRosterChain = .ok evicted ∧
      eviction.change = .remove (device 2).endpointId ∧ evicted.getLast? = some eviction ∧
      eviction.members[(device 2).endpointId]? = none ∧ beside.Distinguishes evicting ∧
      (beside.perform evicting).1.selectedRosterChain = .ok returned ∧
      returned.getLast? = some tip ∧ (tip.members[(device 2).endpointId]?).isSome ∧
      ¬ ReadmittedAfter eviction (device 2).endpointId returned := by
  refine ⟨_, evicting_selects, by decide +kernel, rfl, by decide +kernel, beside_distinguishes,
    beside_returns, rfl, by decide +kernel, ?_⟩
  rintro ⟨above, below, spelled, -⟩
  have inside : eviction ∈ returned := spelled ▸ List.mem_append_right _ List.mem_cons_self
  have hashes : eviction.canonicalHash ∉ returned.map RosterRevision.canonicalHash := by
    decide +kernel
  exact hashes (List.mem_map_of_mem inside)

end

end Skillsync
