import Skillsync.JoinedInstall
import Skillsync.RosterReplaySpec

set_option autoImplicit false

namespace Skillsync

open Fallible

section
variable [Blake3] [Ed25519]

/-- The revision that a change adds to the selected chain. -/
def RosterStore.Proposes (store : RosterStore) (identity : DeviceIdentity) (change : RosterChange)
    (child : RosterRevision) : Prop :=
  ∃ tip, store.selectedTip = .ok tip ∧ tip.child change identity = .ok child

/-- What the outcome of a change leaves in the tables: the old chain, or one revision more that
the device signed, and in both cases a tip where the change holds; an error leaves everything. -/
structure AtOnce (store : RosterStore) (identity : DeviceIdentity) (change : RosterChange)
    (outcome : RosterOutcome RosterRevision) : Prop where
  refused : ∀ reason, outcome.2 = .error reason →
    outcome.1 = store ∧ reason ≠ .state .rosterRetryLimit
  satisfied : ∀ tip, outcome.2 = .ok tip →
    rosterChangeIsSatisfied tip change = true ∧ outcome.1.selectedTip = .ok tip
  chain : ∀ tip, outcome.2 = .ok tip → ∃ chain, store.selectedRosterChain = .ok chain ∧
    ((outcome.1.rosterRevisions = store.rosterRevisions ∧ chain.getLast? = some tip) ∨
      (outcome.1.selectedRosterChain = .ok (chain ++ [tip]) ∧ tip.author = identity.endpointId ∧
        tip.change = change ∧
        ∀ revision, outcome.1.Stored revision ↔ store.Stored revision ∨ revision = tip))

namespace RosterTree

variable {genesis parent child : RosterRevision} {store : RosterStore}
  {chain : List RosterRevision} {identity : DeviceIdentity} {change : RosterChange}

theorem selectedTip_of_last (selects : store.selectedRosterChain = .ok chain)
    (last : chain.getLast? = some parent) : store.selectedTip = .ok parent := by
  unfold RosterStore.selectedTip
  rw [selects, Except.ok_bind, last]
  rfl

/-- A child of the selected tip is not stored, or the tip would not be the last selected one. -/
theorem child_not_stored (tree : RosterTree genesis store)
    (selects : store.selectedRosterChain = .ok chain) (last : chain.getLast? = some parent)
    (valid : child.validateChild parent = .ok ()) : ¬ store.Stored child := by
  intro held
  obtain ⟨rest, rfl, linked, stored⟩ := tree.selected selects
  have longer : Linked (genesis :: (rest ++ [child])) := linked_concat linked last valid
  have inside : ∀ revision ∈ rest ++ [child], store.Stored revision := by
    intro revision listed
    rcases List.mem_append.mp listed with before | own
    · exact stored revision (List.mem_cons_of_mem _ before)
    · rw [List.mem_singleton.mp own]
      exact held
  have below := tree.selected_greatest (stored_distinguished store) selects longer inside
  exact absurd below (not_chainKey_le (genesis :: rest) child)

/-- The new revision has a hash of its own. -/
theorem child_fresh (tree : RosterTree genesis store)
    (selects : store.selectedRosterChain = .ok chain) (last : chain.getLast? = some parent)
    (built : parent.child change identity = .ok child)
    (distinguished : Distinguished fun revision =>
      store.Stored revision ∨ store.Proposes identity change revision) :
    ∀ other, store.Stored other → other.canonicalHash ≠ child.canonicalHash := by
  intro other held same
  have proposed : store.Proposes identity change child :=
    ⟨parent, selectedTip_of_last selects last, built⟩
  have equal := distinguished other child (Or.inl held) (Or.inr proposed) same
  rw [equal] at held
  exact tree.child_not_stored selects last (RosterRevision.child_ok built) held

omit [Blake3] [Ed25519] in
theorem replaceHint_error {peerHint : Option (EndpointId × String)} {reason : RosterStoreError}
    (refused : store.replaceHint peerHint = .error reason) :
    reason ≠ .state .rosterRetryLimit := by
  unfold RosterStore.replaceHint at refused
  split at refused
  · cases refused
  · unfold RosterStore.replacePeerHint at refused
    split at refused
    · cases refused
      simp
    · cases refused

theorem atOnce_refused {reason : RosterStoreError} (other : reason ≠ .state .rosterRetryLimit) :
    AtOnce store identity change (store, .error reason) := by
  refine ⟨fun found same => ?_, fun tip success => ?_, fun tip success => ?_⟩
  · cases same
    exact ⟨rfl, other⟩
  · cases success
  · cases success

/-- The change holds at the tip, and only a hint is stored. -/
theorem atOnce_held {next : RosterStore} (selects : store.selectedRosterChain = .ok chain)
    (last : chain.getLast? = some parent) (satisfied : rosterChangeIsSatisfied parent change = true)
    (same : next.rosterRevisions = store.rosterRevisions) :
    AtOnce store identity change (next, .ok parent) := by
  refine ⟨fun reason refused => ?_, fun tip success => ?_, fun tip success => ?_⟩
  · cases refused
  · cases success
    exact ⟨satisfied, selectedTip_of_last ((selected_congr same).trans selects) last⟩
  · cases success
    exact ⟨chain, selects, Or.inl ⟨same, last⟩⟩

/-- One revision extends the selected chain. -/
theorem atOnce_extended {stored next : RosterStore}
    (selects : store.selectedRosterChain = .ok chain)
    (built : parent.child change identity = .ok child)
    (extended : stored.selectedRosterChain = .ok (chain ++ [child]))
    (exactly : ∀ other, stored.Stored other ↔ store.Stored other ∨ other = child)
    (same : next.rosterRevisions = stored.rosterRevisions) :
    AtOnce store identity change (next, .ok child) := by
  have changed := child_change built
  have members := (RosterRevision.validateChild_ok (RosterRevision.child_ok built)).members
  rw [changed.1] at members
  have longer : next.selectedRosterChain = .ok (chain ++ [child]) :=
    (selected_congr same).trans extended
  refine ⟨fun reason refused => ?_, fun tip success => ?_, fun tip success => ?_⟩
  · cases refused
  · cases success
    refine ⟨satisfied_after members rfl, selectedTip_of_last longer ?_⟩
    rw [List.getLast?_append, List.getLast?_singleton]
    rfl
  · cases success
    refine ⟨chain, selects, Or.inr ⟨longer, changed.2, changed.1, fun other => ?_⟩⟩
    rw [stored_hints same]
    exact exactly other

/-- The first round of the loop is the last one. -/
theorem atOnce_loop (tree : RosterTree genesis store)
    (distinguished : Distinguished fun revision =>
      store.Stored revision ∨ store.Proposes identity change revision)
    (peerHint : Option (EndpointId × String)) :
    ∃ outcome, AtOnce store identity change outcome ∧ ∀ attempts,
      RosterStore.applyRosterChangeLoop identity change peerHint (attempts + 1) store =
        outcome := by
  obtain ⟨rest, selects, -, -⟩ := tree.exists_selected
  obtain ⟨tip, last⟩ : ∃ tip, (genesis :: rest).getLast? = some tip :=
    ⟨_, List.getLast?_eq_some_getLast (List.cons_ne_nil genesis rest)⟩
  have ends := selectedTip_of_last selects last
  by_cases satisfied : rosterChangeIsSatisfied tip change = true
  · cases hinting : store.replaceHint peerHint with
    | error reason =>
        refine ⟨(store, .error reason), atOnce_refused (replaceHint_error hinting),
          fun attempts => ?_⟩
        rw [RosterStore.applyRosterChangeLoop, ends]
        dsimp only
        rw [if_pos satisfied, hinting]
    | ok hinted =>
        refine ⟨(hinted, .ok tip), atOnce_held selects last satisfied (replaceHint_ok hinting),
          fun attempts => ?_⟩
        rw [RosterStore.applyRosterChangeLoop, ends]
        dsimp only
        rw [if_pos satisfied, hinting]
  · cases built : tip.child change identity with
    | error reason =>
        refine ⟨(store, .error (.roster reason)), atOnce_refused (by simp), fun attempts => ?_⟩
        rw [RosterStore.applyRosterChangeLoop, ends]
        dsimp only
        rw [if_neg satisfied, built]
    | ok child =>
        have fresh := tree.child_fresh selects last built distinguished
        obtain ⟨stored, -, extended, exactly, -, failing, storing⟩ :=
          tree.applyRosterChangeLoop_extends selects last (Bool.not_eq_true _ ▸ satisfied) built
            fresh peerHint
        cases hinting : stored.replaceHint peerHint with
        | error reason =>
            exact ⟨(store, .error reason), atOnce_refused (replaceHint_error hinting),
              failing reason hinting⟩
        | ok hinted =>
            exact ⟨(hinted, .ok child),
              atOnce_extended selects built extended exactly (replaceHint_ok hinting),
              storing hinted hinting⟩

end RosterTree

/-- Every change ends in the first round of its loop. -/
theorem RosterStore.Grounded.atOnce {store : RosterStore} (grounded : store.Grounded)
    {identity : DeviceIdentity} {change : RosterChange}
    (distinguished : Distinguished fun revision =>
      store.Stored revision ∨ store.Proposes identity change revision)
    (peerHint : Option (EndpointId × String)) :
    ∃ outcome, AtOnce store identity change outcome ∧ ∀ attempts,
      applyRosterChangeLoop identity change peerHint (attempts + 1) store = outcome := by
  rcases grounded with empty | ⟨genesis, tree⟩
  · have missing : store.selectedTip = .error (.topology "roster genesis is missing") := by
      unfold selectedTip
      rw [Grounded.selected_nil empty, Except.ok_bind]
      rfl
    have other : RosterStoreError.topology "roster genesis is missing" ≠
        .state .rosterRetryLimit := by simp [RosterStoreError.topology]
    refine ⟨_, RosterTree.atOnce_refused other, fun attempts => ?_⟩
    rw [applyRosterChangeLoop, missing]
  · exact tree.atOnce_loop distinguished peerHint

/-- A change without a hint, and one that is made with a checked hint. -/
theorem RosterStore.Grounded.changed {store : RosterStore} (grounded : store.Grounded)
    {identity : DeviceIdentity} {change : RosterChange}
    (distinguished : Distinguished fun revision =>
      store.Stored revision ∨ store.Proposes identity change revision) :
    AtOnce store identity change (store.applyRosterChange identity change) ∧
    ∀ hintEndpoint hint, AtOnce store identity change
      (store.applyRosterChangeWithPeerHint identity change hintEndpoint hint) := by
  have once : ∀ peerHint, AtOnce store identity change
      (store.applyRosterChangeInner identity change peerHint) := by
    intro peerHint
    obtain ⟨outcome, atOnce, rounds⟩ := grounded.atOnce distinguished peerHint
    rw [applyRosterChangeInner, rounds]
    exact atOnce
  constructor
  · exact once none
  intro hintEndpoint hint
  unfold applyRosterChangeWithPeerHint
  split
  · rename_i reason refused
    apply RosterTree.atOnce_refused
    unfold validatePeerHint at refused
    split at refused
    · cases refused
      simp
    · cases refused
  · exact once _

/-- A change of the roster ends in the first round of its loop: it holds at the tip that it
returns, and the selected chain is the old one or one revision longer, or nothing is changed. -/
theorem roster_change_at_once {store : RosterStore} (grounded : store.Grounded)
    (identity : DeviceIdentity) (change : RosterChange)
    (distinguished : Distinguished fun revision =>
      store.Stored revision ∨ store.Proposes identity change revision) :
    AtOnce store identity change (store.applyRosterChange identity change) ∧
    (∀ hintEndpoint hint, AtOnce store identity change
      (store.applyRosterChangeWithPeerHint identity change hintEndpoint hint)) ∧
    ∀ peerHint attempts,
      RosterStore.applyRosterChangeLoop identity change peerHint (attempts + 1) store =
        RosterStore.applyRosterChangeLoop identity change peerHint 1 store := by
  obtain ⟨plain, hinted⟩ := grounded.changed distinguished
  refine ⟨plain, hinted, fun peerHint attempts => ?_⟩
  obtain ⟨outcome, -, rounds⟩ := grounded.atOnce distinguished peerHint
  rw [rounds attempts, rounds 0]

end

section
attribute [local instance] Blake3.checksum Ed25519.checksum

open RosterSample

/-- The first device admits the second one in the first round. -/
theorem first_admission_at_once :
    (start.applyRosterChange (device 1) (.admitMember (member 2))).1.selectedRosterChain =
      .ok [genesis, admitted 2] := by
  have inserted : RosterStore.empty.insertRosterRevision genesis = .ok start := by decide +kernel
  have selects : start.selectedRosterChain = .ok [genesis] := by decide +kernel
  have ends : start.selectedTip = .ok genesis := RosterTree.selectedTip_of_last selects rfl
  have built : genesis.child (.admitMember (member 2)) (device 1) = .ok (admitted 2) := by
    decide +kernel
  have apart : ∀ a ∈ [genesis, admitted 2], ∀ b ∈ [genesis, admitted 2],
      a.canonicalHash = b.canonicalHash → a = b := by decide +kernel
  have known : ∀ revision, start.Stored revision ∨
      start.Proposes (device 1) (.admitMember (member 2)) revision →
      revision ∈ [genesis, admitted 2] := by
    intro revision either
    rcases either with held | ⟨tip, last, proposed⟩
    · rw [(RosterTree.stored_start inserted).mp held]
      exact List.mem_cons_self
    · rw [ends, Except.ok.injEq] at last
      rw [← last, built, Except.ok.injEq] at proposed
      rw [← proposed]
      exact List.mem_cons_of_mem _ List.mem_cons_self
  have made := (roster_change_at_once (Or.inr ⟨genesis, RosterTree.of_genesis inserted⟩) (device 1)
    (.admitMember (member 2))
    fun a b heldA heldB same => apart a (known a heldA) b (known b heldB) same).1
  have success : (start.applyRosterChange (device 1) (.admitMember (member 2))).2 =
      .ok (admitted 2) := by decide +kernel
  obtain ⟨chain, before, either⟩ := made.chain (admitted 2) success
  rw [selects, Except.ok.injEq] at before
  rcases either with ⟨-, last⟩ | ⟨longer, -⟩
  · rw [← before, List.getLast?_singleton, Option.some.injEq] at last
    exact absurd last (by decide +kernel)
  · rw [← before] at longer
    exact longer

end

end Skillsync
