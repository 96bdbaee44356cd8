import Skillsync.JoinApprovalSpec
import Skillsync.RosterCommit

set_option autoImplicit false

namespace Skillsync

open Fallible

section
variable [JoinEncodings] [AddrJson] [Blake3] [Ed25519]

/-- The revision that an approval would add for a pending join. -/
def RosterStore.Admission (store : RosterStore) (identity : DeviceIdentity)
    (pending : PendingJoinInfo) (child : RosterRevision) : Prop :=
  ∃ member, RosterMember.new pending.endpointId pending.deviceName = .ok member ∧
    store.Proposes identity (.admitMember member) child

namespace RosterStore

variable {store next : RosterStore} {pending : PendingJoinInfo} {identity : DeviceIdentity}
  {localAddrJson joinerAddr : String} {chain : List RosterRevision}
  {tip candidate : RosterRevision} {member : RosterMember} {peerHints : OrderedMap String String}

omit [JoinEncodings] [Blake3] in
/-- The hint of the joiner itself is never shared. -/
theorem sharedHint_congr
    (same : next.peerHints = store.peerHints.insert pending.endpointId joinerAddr) :
    next.sharedHint pending identity localAddrJson =
      store.sharedHint pending identity localAddrJson := by
  funext endpoint
  unfold sharedHint
  by_cases own : endpoint = pending.endpointId
  · rw [if_pos own, if_pos own]
  · rw [if_neg own, if_neg own, approvalHint, approvalHint, same, OrderedMap.getElem?_insert,
      if_neg (Ne.symm own)]

omit [JoinEncodings] [Blake3] in
theorem sharedHint_other {endpoint : EndpointId} {hint : String}
    (shared : store.sharedHint pending identity localAddrJson endpoint = some hint) :
    endpoint ≠ pending.endpointId := by
  intro joiner
  rw [sharedHint, if_pos joiner] at shared
  cases shared

omit [JoinEncodings] [AddrJson] [Blake3] [Ed25519] in
theorem endpoint_of_new
    (parsed : RosterMember.new pending.endpointId pending.deviceName = .ok member) :
    member.endpointId = pending.endpointId ∧ member.deviceName.text = pending.deviceName := by
  obtain ⟨name, named, built⟩ := Except.bind_ok parsed
  cases built
  exact ⟨rfl, DeviceName.parse_ok named⟩

omit [JoinEncodings] in
/-- The hints of the members before the admission are those after it. -/
theorem approvalPeerHints_admitted
    (parsed : RosterMember.new pending.endpointId pending.deviceName = .ok member)
    (ends : store.selectedTip = .ok tip)
    (selects : next.selectedRosterChain = .ok (chain ++ [candidate]))
    (members : applyChange tip.members (.admitMember member) = .ok candidate.members)
    (same : next.peerHints = store.peerHints.insert pending.endpointId joinerAddr)
    (shared : store.approvalPeerHints pending identity localAddrJson = .ok peerHints) :
    next.approvalPeerHints pending identity localAddrJson = .ok peerHints := by
  have last : (chain ++ [candidate]).getLast? = some candidate := by simp
  have nextEnds := RosterTree.selectedTip_of_last selects last
  obtain ⟨after, computed⟩ : ∃ after,
      next.approvalPeerHints pending identity localAddrJson = .ok after := by
    unfold approvalPeerHints
    rw [selects]
    dsimp only
    rw [last]
    exact ⟨_, rfl⟩
  obtain ⟨held, heldTip, before⟩ := approvalPeerHints_ok shared
  obtain ⟨found, foundTip, added⟩ := approvalPeerHints_ok computed
  rw [ends, Except.ok.injEq] at heldTip
  rw [nextEnds, Except.ok.injEq] at foundTip
  rw [← heldTip] at before
  rw [← foundTip, sharedHint_congr same] at added
  have listed : ∀ endpoint, endpoint ≠ pending.endpointId →
      candidate.members[endpoint]? = tip.members[endpoint]? := by
    intro endpoint other
    apply applyChange_other members
    show member.endpointId ≠ endpoint
    rw [(endpoint_of_new parsed).1]
    exact Ne.symm other
  rw [computed]
  congr 1
  apply Std.ExtTreeMap.ext_getElem?
  intro text
  apply Option.ext
  intro hint
  rw [added, before]
  constructor
  · rintro ⟨endpoint, active, spelled, own⟩
    rw [listed endpoint (sharedHint_other own)] at active
    exact ⟨endpoint, active, spelled, own⟩
  · rintro ⟨endpoint, active, spelled, own⟩
    rw [← listed endpoint (sharedHint_other own)] at active
    exact ⟨endpoint, active, spelled, own⟩

/-- After an admission was stored, the checks of the approval are those made before it. -/
theorem concludeApproval_admitted {genesis found : RosterRevision} (tree : RosterTree genesis store)
    (selects : store.selectedRosterChain = .ok chain) (last : chain.getLast? = some tip)
    (absent : tip.members[pending.endpointId]? = none)
    (parsed : RosterMember.new pending.endpointId pending.deviceName = .ok member)
    (built : tip.child (.admitMember member) identity = .ok candidate)
    (distinguished : Distinguished fun revision =>
      store.Stored revision ∨ store.Admission identity pending revision)
    (shared : store.approvalPeerHints pending identity localAddrJson = .ok peerHints)
    (applied : store.applyRosterChangeWithPeerHint identity (.admitMember member)
      pending.endpointId joinerAddr = (next, .ok found)) :
    next.concludeApproval identity localAddrJson pending =
      (JoinDecision.approve (chain ++ [candidate]) peerHints).mapError .join := by
  obtain ⟨joiner, named⟩ := endpoint_of_new parsed
  have ends := RosterTree.selectedTip_of_last selects last
  have unsatisfied : rosterChangeIsSatisfied tip (.admitMember member) = false := by
    simp only [rosterChangeIsSatisfied, joiner, absent, Option.isSome_none]
  have fresh := tree.child_fresh selects last built fun a b heldA heldB same =>
    distinguished a b (heldA.imp_right fun proposed => ⟨member, parsed, proposed⟩)
      (heldB.imp_right fun proposed => ⟨member, parsed, proposed⟩) same
  have members := (RosterRevision.validateChild_ok (RosterRevision.child_ok built)).members
  rw [(child_change built).1] at members
  obtain ⟨stored, -, extended, -, hints, failing, storing⟩ :=
    tree.applyRosterChangeLoop_extends selects last unsatisfied built fresh
      (some (pending.endpointId, joinerAddr))
  unfold applyRosterChangeWithPeerHint at applied
  split at applied
  · cases applied
  rename_i valid
  have hinting := @replacePeerHint_eq stored pending.endpointId joinerAddr valid
  rw [applyRosterChangeInner, storing _ hinting] at applied
  obtain ⟨rfl, -⟩ := Prod.mk.inj applied
  have longer : RosterStore.selectedRosterChain
      { stored with peerHints := stored.peerHints.insert pending.endpointId joinerAddr } =
        .ok (chain ++ [candidate]) := extended
  have inserted : stored.peerHints.insert pending.endpointId joinerAddr =
      store.peerHints.insert pending.endpointId joinerAddr := by rw [hints]
  have same := approvalPeerHints_admitted parsed ends longer members inserted shared
  have lists : Lists candidate pending.endpointId pending.deviceName := by
    simp only [applyChange] at members
    rw [if_neg (by rw [joiner, absent]; simp), Except.ok.injEq] at members
    rw [Lists, ← members, OrderedMap.getElem?_insert, if_pos joiner, Option.map_some, named]
  have listed : ¬ ((chain ++ [candidate]).getLast?.bind fun tip =>
      tip.members[pending.endpointId]?).map DeviceName.text ≠ some pending.deviceName := by
    rw [not_not, List.getLast?_append, List.getLast?_singleton]
    exact lists
  unfold concludeApproval
  rw [longer, Except.mapError, Except.ok_bind, if_neg listed, same, Except.ok_bind]

/-- An admission is refused before it is stored, or the approval succeeds. -/
theorem admitPending_checked {genesis : RosterRevision} (tree : RosterTree genesis store)
    (selects : store.selectedRosterChain = .ok chain) (last : chain.getLast? = some tip)
    (absent : tip.members[pending.endpointId]? = none)
    (distinguished : Distinguished fun revision =>
      store.Stored revision ∨ store.Admission identity pending revision)
    (shared : store.approvalPeerHints pending identity localAddrJson = .ok peerHints) :
    (∃ reason, store.admitPending identity pending joinerAddr chain tip peerHints =
      (store, .error reason)) ∨
    ∃ next decision, store.admitPending identity pending joinerAddr chain tip peerHints =
        (next, .ok ()) ∧
      next.concludeApproval identity localAddrJson pending = .ok decision := by
  unfold admitPending
  split
  · exact Or.inl ⟨_, rfl⟩
  rename_i member parsed
  split
  · exact Or.inl ⟨_, rfl⟩
  rename_i candidate built
  split
  · exact Or.inl ⟨_, rfl⟩
  rename_i decision approved
  have once := (Grounded.changed (Or.inr ⟨genesis, tree⟩) fun a b heldA heldB same =>
    distinguished a b (heldA.imp_right fun proposed => ⟨member, parsed, proposed⟩)
      (heldB.imp_right fun proposed => ⟨member, parsed, proposed⟩) same).2
    pending.endpointId joinerAddr
  split
  · rename_i next reason applied
    rw [applied] at once
    obtain ⟨unchanged, -⟩ := once.refused reason rfl
    dsimp only at unchanged
    rw [unchanged]
    exact Or.inl ⟨_, rfl⟩
  · rename_i next found applied
    have concluded := concludeApproval_admitted tree selects last absent parsed built distinguished
      shared applied
    rw [approved] at concluded
    exact Or.inr ⟨next, decision, rfl, concluded⟩

/-- How an approval goes on: nothing is stored, the joiner is admitted, or only its hint is
replaced. -/
theorem buildJoinApproval_cases (store : RosterStore) (identity : DeviceIdentity)
    (localAddrJson : String) (pending : PendingJoinInfo) (joinerAddr : String) :
    (∃ reason, store.buildJoinApproval identity localAddrJson pending joinerAddr =
      (store, .error reason)) ∨
    (∃ chain tip peerHints next result, store.selectedRosterChain = .ok chain ∧
      chain.getLast? = some tip ∧ tip.members[pending.endpointId]? = none ∧
      store.approvalPeerHints pending identity localAddrJson = .ok peerHints ∧
      store.admitPending identity pending joinerAddr chain tip peerHints = (next, result) ∧
      store.buildJoinApproval identity localAddrJson pending joinerAddr =
        (next, result.bind fun _ => next.concludeApproval identity localAddrJson pending)) ∨
    ∃ next, store.replacePeerHintChecked pending.endpointId joinerAddr = .ok next ∧
      store.buildJoinApproval identity localAddrJson pending joinerAddr =
        (next, next.concludeApproval identity localAddrJson pending) := by
  unfold buildJoinApproval
  split
  · exact Or.inl ⟨_, rfl⟩
  rename_i chain selects
  split
  · exact Or.inl ⟨_, rfl⟩
  rename_i tip last
  dsimp only
  split
  · exact Or.inl ⟨_, rfl⟩
  split
  · exact Or.inl ⟨_, rfl⟩
  split
  · exact Or.inl ⟨_, rfl⟩
  rename_i peerHints shared
  split
  · rename_i absent
    have unlisted := Option.isNone_iff_eq_none.mp absent
    right
    left
    split
    · rename_i next reason outcome
      exact ⟨chain, tip, peerHints, next, .error reason, selects, last, unlisted, shared,
        outcome, rfl⟩
    · rename_i next outcome
      exact ⟨chain, tip, peerHints, next, .ok (), selects, last, unlisted, shared, outcome, rfl⟩
  · split
    · exact Or.inl ⟨_, rfl⟩
    · rename_i next hinted
      exact Or.inr (Or.inr ⟨next, hinted, rfl⟩)

end RosterStore

/-- A refused approval leaves the stored revisions and the selected chain, and what the check of
an admission accepts before it is stored is what the checks accept afterwards. -/
theorem refused_approval_admits_nobody {store : RosterStore} {pending : PendingJoinInfo}
    {identity : DeviceIdentity} {localAddrJson joinerAddr : String} (grounded : store.Grounded)
    (distinguished : Distinguished fun revision =>
      store.Stored revision ∨ store.Admission identity pending revision) :
    (∀ reason, (store.buildJoinApproval identity localAddrJson pending joinerAddr).2 =
        .error reason →
      (store.buildJoinApproval identity localAddrJson pending joinerAddr).1.rosterRevisions =
          store.rosterRevisions ∧
        (store.buildJoinApproval identity localAddrJson pending
          joinerAddr).1.selectedRosterChain = store.selectedRosterChain) ∧
    ∀ chain tip member candidate peerHints next found,
      store.selectedRosterChain = .ok chain → chain.getLast? = some tip →
      tip.members[pending.endpointId]? = none →
      RosterMember.new pending.endpointId pending.deviceName = .ok member →
      tip.child (.admitMember member) identity = .ok candidate →
      store.approvalPeerHints pending identity localAddrJson = .ok peerHints →
      store.applyRosterChangeWithPeerHint identity (.admitMember member) pending.endpointId
        joinerAddr = (next, .ok found) →
      next.concludeApproval identity localAddrJson pending =
        (JoinDecision.approve (chain ++ [candidate]) peerHints).mapError .join := by
  have rooted : ∀ chain tip, store.selectedRosterChain = .ok chain → chain.getLast? = some tip →
      ∃ genesis, RosterTree genesis store := by
    intro chain tip selects last
    rcases grounded with empty | rooted
    · rw [RosterStore.Grounded.selected_nil empty, Except.ok.injEq] at selects
      rw [← selects] at last
      cases last
    · exact rooted
  constructor
  · intro reason refused
    have same : (store.buildJoinApproval identity localAddrJson pending
          joinerAddr).1.rosterRevisions =
        store.rosterRevisions := by
      rcases RosterStore.buildJoinApproval_cases store identity localAddrJson pending
          joinerAddr with
        ⟨early, built⟩ | ⟨chain, tip, peerHints, next, result, selects, last, absent, shared,
          admitted, built⟩ | ⟨next, hinted, built⟩
      · rw [built]
      · obtain ⟨genesis, tree⟩ := rooted chain tip selects last
        rcases @RosterStore.admitPending_checked _ _ _ _ store pending identity localAddrJson
          joinerAddr chain tip
          peerHints genesis tree selects last absent distinguished shared with
          ⟨early, outcome⟩ | ⟨after, decision, outcome, concluded⟩
        · rw [admitted] at outcome
          rw [built, (Prod.mk.inj outcome).1]
        · rw [admitted] at outcome
          obtain ⟨rfl, rfl⟩ := Prod.mk.inj outcome
          rw [built] at refused
          rw [Except.bind, concluded] at refused
          cases refused
      · obtain ⟨⟨⟩, -, hinting⟩ := Except.bind_ok hinted
        rw [built]
        exact RosterTree.replaceHint_ok (show store.replaceHint (some (_, _)) = .ok _ from hinting)
    exact ⟨same, RosterTree.selected_congr same⟩
  · intro chain tip member candidate peerHints next found selects last absent parsed built
      shared applied
    obtain ⟨genesis, tree⟩ := rooted chain tip selects last
    exact RosterStore.concludeApproval_admitted tree selects last absent parsed built distinguished
      shared applied

end

section
attribute [local instance] Blake3.checksum Ed25519.checksum AddrJson.bare JoinEncodings.alone

open RosterSample

/-- The first device has no address, and the second one is not admitted. -/
theorem unaddressed_approval_refused :
    (start.buildJoinApproval (device 1) "" ⟨"r", (device 2).endpointId, "d"⟩
      (bareAddr (device 2).endpointId)).1.selectedRosterChain = .ok [genesis] := by
  have inserted : RosterStore.empty.insertRosterRevision genesis = .ok start := by decide +kernel
  have selects : start.selectedRosterChain = .ok [genesis] := by decide +kernel
  have ends : start.selectedTip = .ok genesis := RosterTree.selectedTip_of_last selects rfl
  have parsed : RosterMember.new (device 2).endpointId "d" = .ok (member 2) := by decide +kernel
  have built : genesis.child (.admitMember (member 2)) (device 1) = .ok (admitted 2) := by
    decide +kernel
  have apart : ∀ a ∈ [genesis, admitted 2], ∀ b ∈ [genesis, admitted 2],
      a.canonicalHash = b.canonicalHash → a = b := by decide +kernel
  have known : ∀ revision, start.Stored revision ∨
      start.Admission (device 1) ⟨"r", (device 2).endpointId, "d"⟩ revision →
      revision ∈ [genesis, admitted 2] := by
    intro revision either
    rcases either with held | ⟨joiner, named, tip, last, proposed⟩
    · rw [(RosterTree.stored_start inserted).mp held]
      exact List.mem_cons_self
    · rw [ends, Except.ok.injEq] at last
      dsimp only at named
      rw [parsed, Except.ok.injEq] at named
      rw [← last, ← named, built, Except.ok.injEq] at proposed
      rw [← proposed]
      exact List.mem_cons_of_mem _ List.mem_cons_self
  have refused : (start.buildJoinApproval (device 1) "" ⟨"r", (device 2).endpointId, "d"⟩
      (bareAddr (device 2).endpointId)).2 = .error (.join .invalidAddress) := by decide +kernel
  have kept := (refused_approval_admits_nobody
    (Or.inr ⟨genesis, RosterTree.of_genesis inserted⟩)
    fun a b heldA heldB same => apart a (known a heldA) b (known b heldB) same).1 _ refused
  exact kept.2.trans selects

end

end Skillsync
