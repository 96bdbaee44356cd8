import Skillsync.JoinApprovalSpec
import Skillsync.Reconciliation

set_option autoImplicit false

namespace Skillsync

open Fallible RosterFormat

/-- The bytes of a child revision in a bundle. -/
def childBytes (members : Members) (change : RosterChange) : Nat :=
  197 + (members.toList.flatMap encodeEntry).length + (encodeChange change).length

/-- Whether the revisions of the changes that alter the members fit in a bundle, after the given
number of revisions and bytes. -/
def changesFit : List RosterChange → Nat → Nat → Members → Bool
  | [], _, _, _ => true
  | change :: rest, revisions, bytes, members =>
      match applyChange members change with
      | .error _ => changesFit rest revisions bytes members
      | .ok after =>
          decide (revisions < maxRosterRevisions ∧ after.size ≤ maxRosterMembers ∧
            bytes + childBytes after change ≤ maxRosterBytes) &&
          changesFit rest (revisions + 1) (bytes + childBytes after change) after

/-- Whether changes fit after a chain. -/
def RoomFor (chain : List RosterRevision) (changes : List RosterChange) : Prop :=
  ∀ tip, chain.getLast? = some tip → changesFit changes chain.length
    (RosterBundle.encodedLength chain) tip.members = true

section
variable {parent child tip genesis : RosterRevision} {chain : List RosterRevision}
  {store next : RosterStore} {change : RosterChange} {rest : List RosterChange}

namespace RosterBundle

theorem encodedLength_concat (chain : List RosterRevision) (child : RosterRevision) :
    encodedLength (chain ++ [child]) =
      encodedLength chain + (4 + child.canonicalBytes.length) := by
  simp only [encodedLength, List.map_append, List.map_cons, List.map_nil, List.sum_append,
    List.sum_singleton]
  omega

theorem Transmittable.left_of_append {front back : List RosterRevision}
    (allowed : Transmittable (front ++ back)) (nonempty : front ≠ []) : Transmittable front := by
  obtain ⟨-, few, members, short⟩ := allowed
  refine ⟨nonempty, ?_, fun revision listed => members revision (List.mem_append_left _ listed), ?_⟩
  · rw [List.length_append] at few
    omega
  · simp only [encodedLength, List.map_append, List.sum_append] at short ⊢
    omega

end RosterBundle

open RosterBundle

theorem roomFor_nil (chain : List RosterRevision) : RoomFor chain [] := fun _ _ => rfl

/-- A change that is refused asks for no room. -/
theorem roomFor_refused {reason : RosterError} (last : chain.getLast? = some tip)
    (refused : applyChange tip.members change = .error reason) :
    RoomFor chain (change :: rest) ↔ RoomFor chain rest := by
  unfold RoomFor
  rw [last]
  simp only [Option.some.injEq, forall_eq', changesFit, refused]

theorem satisfied_refused (satisfied : rosterChangeIsSatisfied tip change = true) :
    ∃ reason, applyChange tip.members change = .error reason := by
  cases change with
  | initial creator => exact ⟨_, rfl⟩
  | admitMember member => exact ⟨_, if_pos satisfied⟩
  | remove endpointId =>
      rw [rosterChangeIsSatisfied, Option.isNone_iff_eq_none] at satisfied
      refine ⟨.notActive, if_neg ?_⟩
      rw [satisfied]
      decide

section
variable [Blake3] [Ed25519]

theorem length_child (extends' : child.Extends parent) :
    4 + child.canonicalBytes.length = childBytes child.members child.change := by
  have domain : RosterFormat.domain.length = 20 := by decide
  simp only [RosterRevision.canonicalBytes, UnsignedRevision.unsignedCanonicalBytes,
    List.length_append, domain, Bytes32.length_eq, Signature.length_eq, Encoder.u64, Encoder.u32,
    length_bigEndian, extends'.parentHash, encodeParent, Encoder.u8, childBytes,
    List.length_singleton]
  omega

/-- What one more revision asks of the limits. -/
theorem transmittable_concat (allowed : Transmittable chain) (extends' : child.Extends parent) :
    Transmittable (chain ++ [child]) ↔ chain.length < maxRosterRevisions ∧
      child.members.size ≤ maxRosterMembers ∧
      encodedLength chain + childBytes child.members child.change ≤ maxRosterBytes := by
  constructor
  · rintro ⟨-, few, members, short⟩
    rw [List.length_append, List.length_singleton] at few
    rw [encodedLength_concat, length_child extends'] at short
    exact ⟨few, members child (List.mem_append_right _ List.mem_cons_self), short⟩
  · rintro ⟨few, members, short⟩
    refine ⟨by simp, ?_, ?_, ?_⟩
    · rw [List.length_append, List.length_singleton]
      exact few
    · intro revision listed
      rcases List.mem_append.mp listed with before | own
      · exact allowed.members revision before
      · rw [List.mem_singleton.mp own]
        exact members
    · rw [encodedLength_concat, length_child extends']
      exact short

theorem roomFor_applied (allowed : Transmittable chain)
    (last : chain.getLast? = some tip) (extends' : child.Extends tip)
    (same : child.change = change) :
    RoomFor chain (change :: rest) ↔
      Transmittable (chain ++ [child]) ∧ RoomFor (chain ++ [child]) rest := by
  have applied : applyChange tip.members change = .ok child.members := same ▸ extends'.members
  rw [transmittable_concat allowed extends', same]
  unfold RoomFor
  rw [last, List.getLast?_append, List.getLast?_singleton, Option.some_or, List.length_append,
    List.length_singleton, encodedLength_concat, length_child extends', same]
  simp only [Option.some.injEq, forall_eq', changesFit, applied, Bool.and_eq_true,
    decide_eq_true_eq]

namespace RosterTree

/-- A change is applied with one more revision, or with none. -/
theorem Applied.cases (applied : Applied genesis chain [change] next)
    (last : chain.getLast? = some tip) :
    next.selectedRosterChain = .ok chain ∨
      ∃ child, child.Extends tip ∧ child.change = change ∧
        next.selectedRosterChain = .ok (chain ++ [child]) := by
  obtain ⟨tree, added, longer, within⟩ := applied
  cases added with
  | nil =>
      rw [List.append_nil] at longer
      exact Or.inl longer
  | cons child more =>
      obtain ⟨-, -, linked, -⟩ := tree.selected longer
      have size := within.length_le
      rw [changes, List.length_map, List.length_cons, List.length_singleton] at size
      have single : more = [] := List.eq_nil_of_length_eq_zero (by omega)
      subst single
      have same := List.sublist_singleton.mp within
      refine Or.inr ⟨child, ?_, ?_, longer⟩
      · exact RosterRevision.validateChild_ok
          ((List.isChain_append.mp linked).2.2 tip last child rfl)
      · rcases same with impossible | equal
        · cases impossible
        · exact (List.cons.inj equal).1

/-- The replay keeps a chain within the limits when there is room for it, and when it succeeds,
only then. -/
theorem replayed_fits (tree : RosterTree genesis store)
    (selects : store.selectedRosterChain = .ok chain) (allowed : Transmittable chain)
    {localEndpoint : EndpointId} {identity : DeviceIdentity} {revisions after : List RosterRevision}
    (longer : (store.replayChanges localEndpoint identity revisions).1.selectedRosterChain =
      .ok after) :
    (RoomFor chain (changes revisions) → Transmittable after) ∧
    ((store.replayChanges localEndpoint identity revisions).2 = .ok () →
      (∀ last, after.getLast? = some last → (last.members[localEndpoint]?).isSome) →
      Transmittable after → RoomFor chain (changes revisions)) := by
  induction revisions generalizing store chain with
  | nil =>
      rw [RosterStore.replayChanges, selects, Except.ok.injEq] at longer
      rw [← longer]
      exact ⟨fun _ => allowed, fun _ _ _ => roomFor_nil chain⟩
  | cons revision rest ih =>
      obtain ⟨tip, last⟩ := Option.isSome_iff_exists.mp (List.getLast?_isSome.mpr allowed.nonempty)
      have applied : Applied genesis chain [revision.change]
          (store.applyRosterChange identity revision.change).1 :=
        tree.applied_loop selects identity revision.change none _
      unfold RosterStore.replayChanges at longer ⊢
      rw [selects] at longer ⊢
      dsimp only at longer ⊢
      rw [last, Option.any_some] at longer ⊢
      show (RoomFor chain (revision.change :: changes rest) → _) ∧
        (_ → _ → _ → RoomFor chain (revision.change :: changes rest))
      split at longer
      · rename_i active
        rw [if_pos active]
        cases outcome : store.applyRosterChange identity revision.change with
        | mk middle result =>
            rw [outcome] at applied longer
            have either := applied.cases last
            cases result with
            | error reason =>
                refine ⟨fun room => ?_, fun success => by cases success⟩
                rcases either with same | ⟨child, extends', made, grown⟩
                · rw [show middle.selectedRosterChain = .ok after from longer,
                    Except.ok.injEq] at same
                  rw [same]
                  exact allowed
                · rw [show middle.selectedRosterChain = .ok after from longer,
                    Except.ok.injEq] at grown
                  rw [grown]
                  exact ((roomFor_applied allowed last extends' made).mp room).1
            | ok held =>
                dsimp only at longer ⊢
                rcases either with same | ⟨child, extends', made, grown⟩
                · obtain ⟨ends, satisfied⟩ := applyRosterChangeLoop_ok outcome
                  have equal := selectedTip_last same ends
                  rw [last, Option.some.injEq] at equal
                  rw [← equal] at satisfied
                  obtain ⟨reason, refused⟩ := satisfied_refused satisfied
                  rw [roomFor_refused last refused]
                  exact ih applied.tree same allowed longer
                · have remaining := applied.tree.replayed grown localEndpoint identity rest
                  obtain ⟨more, spelled, -⟩ := remaining.selected
                  rw [longer, Except.ok.injEq] at spelled
                  rw [roomFor_applied allowed last extends' made]
                  constructor
                  · rintro ⟨fits, room⟩
                    exact (ih applied.tree grown fits longer).1 room
                  · intro success member fits
                    have front : Transmittable (chain ++ [child]) :=
                      Transmittable.left_of_append (spelled ▸ fits) (by simp)
                    exact ⟨front, (ih applied.tree grown front longer).2 success member fits⟩
      · rename_i gone
        rw [if_neg gone]
        rw [selects, Except.ok.injEq] at longer
        rw [← longer]
        refine ⟨fun _ => allowed, fun _ member => ?_⟩
        exact absurd (member tip last) gone

theorem applied_fits (applied : Applied genesis chain [change] next)
    (allowed : Transmittable chain) {after : List RosterRevision}
    (longer : next.selectedRosterChain = .ok after) :
    (RoomFor chain [change] → Transmittable after) ∧
    ((∀ tip, next.selectedTip = .ok tip → rosterChangeIsSatisfied tip change = true) →
      Transmittable after → RoomFor chain [change]) := by
  obtain ⟨tip, last⟩ := Option.isSome_iff_exists.mp (List.getLast?_isSome.mpr allowed.nonempty)
  rcases applied.cases last with same | ⟨child, extends', made, grown⟩
  · rw [longer, Except.ok.injEq] at same
    rw [same]
    refine ⟨fun _ => allowed, fun satisfied _ => ?_⟩
    have ends : next.selectedTip = .ok tip := by
      unfold RosterStore.selectedTip
      rw [longer, same, Except.ok_bind, last]
      rfl
    obtain ⟨reason, refused⟩ := satisfied_refused (satisfied tip ends)
    rw [roomFor_refused last refused]
    exact roomFor_nil chain
  · rw [longer, Except.ok.injEq] at grown
    rw [grown, roomFor_applied allowed last extends' made]
    exact ⟨And.left, fun _ fits => ⟨fits, roomFor_nil _⟩⟩

theorem removed_fits (tree : RosterTree genesis store)
    (selects : store.selectedRosterChain = .ok chain) (allowed : Transmittable chain)
    {identity : DeviceIdentity} {peer : EndpointId} {after : List RosterRevision}
    (longer : (store.removePeer identity peer).1.selectedRosterChain = .ok after) :
    (RoomFor chain [.remove peer] → Transmittable after) ∧
    (∀ removed, (store.removePeer identity peer).2 = .ok removed →
      Transmittable after → RoomFor chain [.remove peer]) := by
  have applied := tree.removed selects identity peer
  obtain ⟨enough, exactly'⟩ := applied_fits applied allowed longer
  refine ⟨enough, fun removed success => exactly' fun tip ends => ?_⟩
  unfold RosterStore.removePeer at success ends
  split at success
  · cases success
  rename_i other
  rw [if_neg other, selects] at ends
  rw [selects] at success
  dsimp only at success ends
  split at success
  · cases success
  rename_i parent last
  rw [last] at ends
  dsimp only at ends
  split at success
  · rename_i absent
    rw [if_pos absent] at ends
    have same := selectedTip_last selects ends
    rw [last, Option.some.injEq] at same
    rw [← same]
    exact absent
  rename_i present
  rw [if_neg present] at ends
  cases outcome : store.applyRosterChange identity (.remove peer) with
  | mk stored result =>
      rw [outcome] at success ends
      cases result with
      | error reason => cases success
      | ok held =>
          dsimp only at ends
          obtain ⟨tipHeld, satisfied⟩ := applyRosterChangeLoop_ok outcome
          rw [ends, Except.ok.injEq] at tipHeld
          rw [tipHeld]
          exact satisfied

/-- An approval checks the limits before it admits the joiner. -/
theorem admitted_fits [JoinEncodings] [AddrJson] (tree : RosterTree genesis store)
    (selects : store.selectedRosterChain = .ok chain) (allowed : Transmittable chain)
    (last : chain.getLast? = some tip) {identity : DeviceIdentity} {pending : PendingJoinInfo}
    {joinerAddr : String} {peerHints : OrderedMap String String} {after : List RosterRevision}
    (longer : (store.admitPending identity pending joinerAddr chain tip
      peerHints).1.selectedRosterChain = .ok after) : Transmittable after := by
  have unchanged : store.selectedRosterChain = .ok after → Transmittable after := by
    intro same
    rw [selects, Except.ok.injEq] at same
    rw [← same]
    exact allowed
  unfold RosterStore.admitPending at longer
  split at longer
  · exact unchanged longer
  rename_i member parsed
  split at longer
  · exact unchanged longer
  rename_i candidate built
  split at longer
  · exact unchanged longer
  rename_i decision approved
  obtain ⟨encoded, -, approval⟩ := approve_ok approved
  obtain ⟨canonical, spelled, -⟩ := encodeRoster_ok approval.encoding
  have extends' := RosterRevision.validateChild_ok (RosterRevision.child_ok built)
  have room : RoomFor chain [.admitMember member] :=
    (roomFor_applied allowed last extends' (child_change built).1).mpr
      ⟨(RosterBundle.encode_iff.mp spelled).1, roomFor_nil _⟩
  have applied : Applied genesis chain [.admitMember member]
      (store.applyRosterChangeWithPeerHint identity (.admitMember member) pending.endpointId
        joinerAddr).1 := by
    unfold RosterStore.applyRosterChangeWithPeerHint
    split
    · exact Applied.none tree selects _
    · exact tree.applied_loop selects identity (.admitMember member) _ _
  have final : (store.applyRosterChangeWithPeerHint identity (.admitMember member)
      pending.endpointId joinerAddr).1.selectedRosterChain = .ok after := by
    split at longer
    · rename_i outcome
      rw [outcome]
      exact longer
    · rename_i outcome
      rw [outcome]
      exact longer
  exact (applied_fits applied allowed final).1 room

theorem approved_fits [JoinEncodings] [AddrJson] (tree : RosterTree genesis store)
    (selects : store.selectedRosterChain = .ok chain) (allowed : Transmittable chain)
    {identity : DeviceIdentity} {localAddrJson : String} {pending : PendingJoinInfo}
    {joinerAddr : String} {after : List RosterRevision}
    (longer : (store.buildJoinApproval identity localAddrJson pending
      joinerAddr).1.selectedRosterChain = .ok after) : Transmittable after := by
  have unchanged : store.selectedRosterChain = .ok after → Transmittable after := by
    intro same
    rw [selects, Except.ok.injEq] at same
    rw [← same]
    exact allowed
  unfold RosterStore.buildJoinApproval at longer
  rw [selects] at longer
  dsimp only at longer
  split at longer
  · exact unchanged longer
  rename_i tip last
  split at longer
  · exact unchanged longer
  split at longer
  · exact unchanged longer
  split at longer
  · exact unchanged longer
  split at longer
  · split at longer
    · rename_i outcome
      apply tree.admitted_fits selects allowed last
      rw [outcome]
      exact longer
    · rename_i outcome
      apply tree.admitted_fits selects allowed last
      rw [outcome]
      exact longer
  · split at longer
    · exact unchanged longer
    · rename_i hinted
      obtain ⟨⟨⟩, -, hinting⟩ := Except.bind_ok hinted
      have same := replaceHint_ok (show store.replaceHint (some (_, _)) = .ok _ from hinting)
      exact unchanged ((selected_congr same).symm.trans longer)

/-- The roster of another group is refused. -/
theorem reconcile_other (tree : RosterTree genesis store)
    (selects : store.selectedRosterChain = .ok chain) {head : RosterRevision}
    {rest : List RosterRevision} (valid : validateRosterChain (head :: rest) = .ok ())
    (differs : head.canonicalHash ≠ genesis.canonicalHash)
    (localEndpoint remoteEndpoint : EndpointId)
    (loaded : Option DeviceIdentity) :
    ∃ reason, store.mergeAndAuthorizeRemoteRoster (head :: rest) localEndpoint
        remoteEndpoint loaded =
      (store, .error reason) := by
  obtain ⟨previous, rfl, -, -⟩ := tree.selected selects
  obtain ⟨⟨⟩, root, links⟩ := Except.bind_ok valid
  have checked : store.checkMerge (head :: rest) =
      .error (.topology "remote roster genesis differs") := by
    simp only [RosterStore.checkMerge, Except.mapError_ok root, Except.mapError_ok links, selects,
      Except.mapError, Except.ok_bind, if_pos differs]
    rfl
  refine ⟨.state (.topology "remote roster genesis differs"), ?_⟩
  unfold RosterStore.mergeAndAuthorizeRemoteRoster RosterStore.mergeSelectedRosterChain
  rw [selects]
  dsimp only
  rw [checked]

/-- A chain whose tip is selected after the merge loses no revision. -/
theorem displaced_nil {merged : RosterStore} (tree : RosterTree genesis store)
    (selects : store.selectedRosterChain = .ok chain) (mergedTree : RosterTree genesis merged)
    (kept : ∀ revision, store.Stored revision → merged.Stored revision)
    {selected : List RosterRevision} (chosen : merged.selectedRosterChain = .ok selected)
    (present : ∀ last, chain.getLast? = some last →
      last.canonicalHash ∈ selected.map RosterRevision.canonicalHash) (localEndpoint : EndpointId) :
    displaced localEndpoint chain selected = [] := by
  obtain ⟨previous, rfl, linked, inside⟩ := tree.selected selects
  obtain ⟨rest, rfl, selectedLinked, stored⟩ := mergedTree.selected chosen
  obtain ⟨last, ends⟩ := Option.isSome_iff_exists.mp
    (List.getLast?_isSome.mpr (List.cons_ne_nil genesis previous))
  have held := fun revision listed => kept revision (inside revision listed)
  obtain ⟨other, reached, same⟩ := List.mem_map.mp (present last ends)
  rw [(stored other reached).unique (held last (List.mem_of_getLast? ends)) same] at reached
  have subset := subset_of_last (stored_distinguished merged)
    (RosterRevision.validateGenesis_ok tree.valid).1 rfl linked held rfl selectedLinked stored ends
    reached
  apply List.eq_nil_iff_forall_not_mem.mpr
  intro revision lost
  obtain ⟨listed, gone, -⟩ := mem_displaced.mp lost
  exact gone (List.mem_map_of_mem (subset listed))

/-- A merge keeps a chain within the limits when there is room for the replay, and when it
succeeds, only then. -/
theorem reconciled_fits (tree : RosterTree genesis store)
    (selects : store.selectedRosterChain = .ok chain) (allowed : Transmittable chain)
    {revisions : List RosterRevision} (presented : Transmittable revisions)
    (valid : validateRosterChain revisions = .ok ())
    (distinguished : Distinguished fun revision => store.Stored revision ∨ revision ∈ revisions)
    (localEndpoint remoteEndpoint : EndpointId) (loaded : Option DeviceIdentity) :
    ∃ after, (store.mergeAndAuthorizeRemoteRoster revisions localEndpoint remoteEndpoint
        loaded).1.selectedRosterChain = .ok after ∧
      ((chainKey chain < chainKey revisions →
        RoomFor revisions (changes (displaced localEndpoint chain revisions))) →
          Transmittable after) ∧
      (∀ changed, (store.mergeAndAuthorizeRemoteRoster revisions localEndpoint remoteEndpoint
          loaded).2 = .ok changed →
        Transmittable after → chainKey chain < chainKey revisions →
          RoomFor revisions (changes (displaced localEndpoint chain revisions))) := by
  cases revisions with
  | nil => exact absurd rfl presented.nonempty
  | cons head rest =>
      by_cases differs : head.canonicalHash ≠ genesis.canonicalHash
      · obtain ⟨reason, refused⟩ :=
          tree.reconcile_other selects valid differs localEndpoint remoteEndpoint loaded
        rw [refused]
        exact ⟨chain, selects, fun _ => allowed, fun _ impossible => by cases impossible⟩
      have same : head = genesis := distinguished head genesis (Or.inr List.mem_cons_self)
        (Or.inl tree.genesis_stored) (not_not.mp differs)
      subst same
      obtain ⟨⟨⟩, -, links⟩ := Except.bind_ok valid
      have linked := validateLinks_ok.mp (Except.mapError_ok links)
      have among : Distinguished fun revision => store.Stored revision ∨ revision ∈ rest :=
        fun a b heldA heldB => distinguished a b
          (heldA.imp_right (List.mem_cons_of_mem _)) (heldB.imp_right (List.mem_cons_of_mem _))
      rcases tree.reconcile_cases selects linked among localEndpoint remoteEndpoint loaded with
        ⟨below, merged, -, chosen, outcome⟩ | ⟨above, merged, mergedTree, kept, chosen, outcome⟩
      · rw [outcome]
        exact ⟨chain, chosen, fun _ => allowed,
          fun _ _ _ impossible => absurd below (not_le.mpr impossible)⟩
      rw [outcome]
      rcases RosterStore.replayDisplaced_cases merged chain (head :: rest) localEndpoint loaded with
        ⟨present, nothing⟩ | ⟨-, failed⟩ | ⟨identity, -, replays⟩
      · rw [nothing, tree.displaced_nil selects mergedTree kept chosen present]
        exact ⟨_, chosen, fun _ => presented, fun _ _ _ _ => roomFor_nil _⟩
      · rw [failed]
        exact ⟨_, chosen, fun _ => presented, fun _ impossible => by cases impossible⟩
      · rw [replays]
        obtain ⟨added, longer, -⟩ := (mergedTree.replayed chosen localEndpoint identity
          (displaced localEndpoint chain (head :: rest))).selected
        have fits := @replayed_fits _ _ _ _ _ mergedTree chosen presented localEndpoint identity
          (displaced localEndpoint chain (head :: rest)) _ longer
        cases performed : merged.replayChanges localEndpoint identity
            (displaced localEndpoint chain (head :: rest)) with
        | mk finished result =>
            rw [performed] at longer fits
            cases result with
            | error reason =>
                refine ⟨_, longer, fun room => fits.1 (room above), fun _ impossible => ?_⟩
                cases impossible
            | ok =>
                refine ⟨_, longer, fun room => fits.1 (room above),
                  fun changed success short _ => ?_⟩
                obtain ⟨tip, ends, member, -⟩ := RosterStore.authorize_ok success
                refine fits.2 rfl (fun last final => ?_) short
                have same := selectedTip_last longer ends
                rw [final, Option.some.injEq] at same
                rw [same]
                exact member

end RosterTree

/-- The selected chain can be sent, and is taken by its receiver. -/
def RosterStore.Sendable (store : RosterStore) : Prop :=
  ∃ chain bytes, store.selectedRosterChain = .ok chain ∧
    RosterBundle.encode ⟨chain⟩ = .ok bytes ∧ RosterBundle.decode bytes = .ok ⟨chain⟩

theorem RosterStore.sendable_iff (selects : store.selectedRosterChain = .ok chain) :
    store.Sendable ↔ Transmittable chain := by
  constructor
  · rintro ⟨other, bytes, chosen, spelled, -⟩
    rw [selects, Except.ok.injEq] at chosen
    rw [chosen]
    exact (RosterBundle.encode_iff.mp spelled).1
  · intro allowed
    obtain ⟨genesis, rest, rfl⟩ := List.exists_cons_of_ne_nil allowed.nonempty
    have tree := RosterTree.of_selected selects
    obtain ⟨-, -, linked, -⟩ := tree.selected selects
    have valid := validateRosterChain_of_linked tree.valid linked
    have spelled := RosterBundle.encode_iff.mpr
      (show Transmittable (RosterBundle.mk (genesis :: rest)).revisions ∧ _ from ⟨allowed, rfl⟩)
    exact ⟨_, _, selects, spelled, RosterBundle.decode_iff.mpr ⟨spelled, valid⟩⟩

/-- The operations of a device that make its roster longer. -/
inductive MembershipCommand
  | removePeer (identity : DeviceIdentity) (peer : EndpointId)
  | approve (identity : DeviceIdentity) (localAddrJson : String) (pending : PendingJoinInfo)
      (joinerAddr : String)
  | reconcile (revisions : List RosterRevision) (localEndpoint remoteEndpoint : EndpointId)
      (loaded : Option DeviceIdentity)

namespace MembershipCommand

/-- The state after a command, and whether it succeeded. -/
def perform [JoinEncodings] [AddrJson] (store : RosterStore) :
    MembershipCommand → RosterStore × Bool
  | removePeer identity peer => (store.removePeer identity peer).map id Except.isOk
  | approve identity localAddrJson pending joinerAddr =>
      (store.buildJoinApproval identity localAddrJson pending joinerAddr).map id Except.isOk
  | reconcile revisions localEndpoint remoteEndpoint loaded =>
      (store.mergeAndAuthorizeRemoteRoster revisions localEndpoint remoteEndpoint loaded).map id
        Except.isOk

/-- A merge takes a chain that was decoded, and BLAKE3 distinguishes its revisions and the stored
ones. -/
def Accepted (store : RosterStore) : MembershipCommand → Prop
  | removePeer _ _ => True
  | approve _ _ _ _ => True
  | reconcile revisions _ _ _ =>
      (∃ bytes, RosterBundle.decode bytes = .ok ⟨revisions⟩) ∧
        Distinguished fun revision => store.Stored revision ∨ revision ∈ revisions

/-- Whether the revisions that a command adds fit after the chain they are added to. -/
def Room (chain : List RosterRevision) : MembershipCommand → Prop
  | removePeer _ peer => RoomFor chain [.remove peer]
  | approve _ _ _ _ => True
  | reconcile revisions localEndpoint _ _ =>
      chainKey chain < chainKey revisions →
        RoomFor revisions (changes (displaced localEndpoint chain revisions))

variable [JoinEncodings] [AddrJson]

omit [Blake3] [Ed25519] [JoinEncodings] [AddrJson] in
theorem isOk_iff {ε α : Type} {result : Except ε α} :
    result.isOk = true ↔ ∃ value, result = .ok value := by
  cases result with
  | error reason => simp [Except.isOk, Except.toBool]
  | ok value => simp [Except.isOk, Except.toBool]

/-- A command keeps the limits when there is room for it, and when it succeeds, only then. -/
theorem perform_fits (command : MembershipCommand)
    (selects : store.selectedRosterChain = .ok chain) (allowed : Transmittable chain)
    (accepted : command.Accepted store) :
    (command.Room chain → (command.perform store).1.Sendable) ∧
    ((command.perform store).2 = true → (command.perform store).1.Sendable →
      command.Room chain) := by
  obtain ⟨genesis, rest, rfl⟩ := List.exists_cons_of_ne_nil allowed.nonempty
  have tree := RosterTree.of_selected selects
  cases command with
  | removePeer identity peer =>
      obtain ⟨added, longer, -⟩ := (tree.removed selects identity peer).selected
      obtain ⟨enough, exactly'⟩ := tree.removed_fits selects allowed longer
      show (RoomFor _ _ → (store.removePeer identity peer).1.Sendable) ∧
        (_ → (store.removePeer identity peer).1.Sendable → RoomFor _ _)
      rw [RosterStore.sendable_iff longer]
      refine ⟨enough, fun success => ?_⟩
      obtain ⟨removed, success⟩ := isOk_iff.mp success
      exact exactly' removed success
  | approve identity localAddrJson pending joinerAddr =>
      obtain ⟨allowedChanges, ⟨-, added, longer, -⟩, -⟩ :=
        tree.approved selects identity localAddrJson pending joinerAddr
      refine ⟨fun _ => ?_, fun _ _ => trivial⟩
      exact (RosterStore.sendable_iff longer).mpr (tree.approved_fits selects allowed longer)
  | reconcile revisions localEndpoint remoteEndpoint loaded =>
      obtain ⟨⟨bytes, decoded⟩, distinguished⟩ := accepted
      obtain ⟨spelled, valid⟩ := RosterBundle.decode_iff.mp decoded
      obtain ⟨after, longer, enough, exactly'⟩ := tree.reconciled_fits selects allowed
        (RosterBundle.encode_iff.mp spelled).1 valid distinguished localEndpoint
          remoteEndpoint loaded
      show (_ → (store.mergeAndAuthorizeRemoteRoster revisions localEndpoint remoteEndpoint
        loaded).1.Sendable) ∧ (_ → (store.mergeAndAuthorizeRemoteRoster revisions localEndpoint
          remoteEndpoint loaded).1.Sendable → _)
      rw [RosterStore.sendable_iff longer]
      refine ⟨enough, fun success => ?_⟩
      obtain ⟨changed, success⟩ := isOk_iff.mp success
      exact exactly' changed success

end MembershipCommand

variable [JoinEncodings] [AddrJson] {Node : Type} [DecidableEq Node]

/-- The states of all nodes after commands of some of them. -/
def groupAfter (group : Node → RosterStore) (steps : List (Node × MembershipCommand)) :
    Node → RosterStore :=
  steps.foldl
    (fun group step => Function.update group step.1 (step.2.perform (group step.1)).1) group

/-- Commands of which each one has room where it is performed. -/
def RoomForEach (group : Node → RosterStore) : List (Node × MembershipCommand) → Prop
  | [] => True
  | (node, command) :: rest =>
      command.Accepted (group node) ∧
      (∀ chain, (group node).selectedRosterChain = .ok chain → command.Room chain) ∧
      RoomForEach (Function.update group node (command.perform (group node)).1) rest

theorem groupAfter_sendable {group : Node → RosterStore} {steps : List (Node × MembershipCommand)}
    (sendable : ∀ node, (group node).Sendable) (room : RoomForEach group steps) (node : Node) :
    (groupAfter group steps node).Sendable := by
  induction steps generalizing group with
  | nil => exact sendable node
  | cons step rest ih =>
      obtain ⟨actor, command⟩ := step
      obtain ⟨accepted, fits, others⟩ := room
      refine ih (fun other => ?_) others
      dsimp only
      by_cases same : other = actor
      · rw [same, Function.update_self]
        obtain ⟨chain, bytes, selects, spelled, -⟩ := sendable actor
        exact (command.perform_fits selects (RosterBundle.encode_iff.mp spelled).1 accepted).1
          (fits chain selects)
      · rw [Function.update_of_ne same]
        exact sendable other

/-- In a run whose commands have room every node can send its roster, and there a command that
succeeds keeps it so exactly when it has room. -/
theorem rosters_stay_sendable {group : Node → RosterStore}
    {steps : List (Node × MembershipCommand)} (sendable : ∀ node, (group node).Sendable)
    (room : RoomForEach group steps) :
    (∀ node, (groupAfter group steps node).Sendable) ∧
    ∀ (node : Node) (command : MembershipCommand) (chain : List RosterRevision),
      (groupAfter group steps node).selectedRosterChain = .ok chain →
      command.Accepted (groupAfter group steps node) →
      (command.perform (groupAfter group steps node)).2 = true →
      ((command.perform (groupAfter group steps node)).1.Sendable ↔ command.Room chain) := by
  have all := groupAfter_sendable sendable room
  refine ⟨all, fun node command chain selects accepted success => ?_⟩
  have allowed := (RosterStore.sendable_iff selects).mp (all node)
  obtain ⟨enough, exactly'⟩ := command.perform_fits selects allowed accepted
  exact ⟨exactly' success, enough⟩

end

end

section
attribute [local instance] Blake3.checksum Ed25519.checksum AddrJson.bare JoinEncodings.pair

open RosterSample

/-- The first device removes the second one, and its roster can still be sent. -/
theorem removal_stays_sendable :
    (MembershipCommand.perform pair (.removePeer (device 1) (device 2).endpointId)).2 = true ∧
    (groupAfter (fun _ : Unit => pair)
      [((), .removePeer (device 1) (device 2).endpointId)] ()).Sendable := by
  have selects : pair.selectedRosterChain = .ok [genesis, admitted 2] := by decide +kernel
  have allowed : RosterBundle.Transmittable [genesis, admitted 2] := by
    refine ⟨by simp, by decide, ?_, ?_⟩
    · decide +kernel
    · decide +kernel
  have room : changesFit [.remove (device 2).endpointId] [genesis, admitted 2].length
      (RosterBundle.encodedLength [genesis, admitted 2]) (admitted 2).members = true := by
    decide +kernel
  have removal : ∀ chain, pair.selectedRosterChain = .ok chain →
      MembershipCommand.Room chain (.removePeer (device 1) (device 2).endpointId) := by
    intro chain chosen
    rw [selects, Except.ok.injEq] at chosen
    rw [← chosen]
    intro tip last
    simp only [List.getLast?_cons_cons, List.getLast?_singleton, Option.some.injEq] at last
    rw [← last]
    exact room
  have kept := @rosters_stay_sendable _ _ _ _ Unit _ (fun _ => pair)
    [((), .removePeer (device 1) (device 2).endpointId)]
    (fun _ => (RosterStore.sendable_iff selects).mpr allowed) ⟨trivial, removal, trivial⟩
  exact ⟨by decide +kernel, kept.1 ()⟩

end

/-- A hash that is the number of a revision, to evaluate the model on long chains. -/
@[reducible] def Blake3.numbered : Blake3 where
  hash bytes := ⟨((bytes.drop 52).take 8 ++ List.replicate 32 0).take 32, by
    rw [List.length_take_of_le]
    rw [List.length_append, List.length_replicate]
    omega⟩

section
attribute [local instance] Blake3.numbered Ed25519.checksum

open RosterSample

theorem number_of_hash {a b : RosterRevision} (same : a.canonicalHash = b.canonicalHash) :
    a.number.toNat = b.number.toNat := by
  have domain : RosterFormat.domain.length = 20 := by decide
  have field : ∀ revision : RosterRevision,
      revision.canonicalHash.bytes.take 8 = Encoder.u64 revision.number.toNat := by
    intro revision
    have front : (RosterFormat.domain ++ revision.groupId.bytes).length = 52 := by
      rw [List.length_append, domain, Bytes32.length_eq]
    obtain ⟨back, spelled⟩ : ∃ back, revision.canonicalBytes = (RosterFormat.domain ++
        revision.groupId.bytes) ++ (Encoder.u64 revision.number.toNat ++ back) := by
      simp only [RosterRevision.canonicalBytes, UnsignedRevision.unsignedCanonicalBytes,
        List.append_assoc]
      exact ⟨_, rfl⟩
    have size : (Encoder.u64 revision.number.toNat).length = 8 := length_bigEndian 8 _
    show (((revision.canonicalBytes.drop 52).take 8 ++ List.replicate 32 0).take 32).take 8 = _
    rw [spelled, List.drop_left' front, List.take_left' size, List.take_take]
    exact List.take_left' size
  have equal : Encoder.u64 a.number.toNat = Encoder.u64 b.number.toNat := by
    rw [← field a, ← field b, same]
  have read := congrArg fromBigEndian equal
  rw [Encoder.u64, Encoder.u64, fromBigEndian_bigEndian, fromBigEndian_bigEndian] at read
  have width : 256 ^ 8 = 2 ^ 64 := by decide
  rwa [width, Nat.mod_eq_of_lt a.number.toNat_lt, Nat.mod_eq_of_lt b.number.toNat_lt] at read

/-- A device that is in the roster signs valid children. -/
theorem child_signed {parent : RosterRevision} {change : RosterChange} {author : DeviceIdentity}
    {after : Members} (active : (parent.members[author.endpointId]?).isSome)
    (applied : applyChange parent.members change = .ok after)
    (early : parent.number.toNat + 1 < 2 ^ 64)
    (few : after.size < 2 ^ 32) :
    ∃ child, parent.child change author = .ok child ∧ child.members = after := by
  have changing : change.isInitial = false := by
    cases change with
    | initial creator => cases applied
    | admitMember member => rfl
    | remove endpoint => rfl
  have absent : ¬ (parent.members[author.endpointId]?).isNone = true := by
    rw [Option.isNone_iff_eq_none, ← ne_eq, ← Option.isSome_iff_ne_none]
    exact active
  have next : ¬ 2 ^ 64 ≤ parent.number.toNat + 1 := not_le.mpr early
  obtain ⟨child, spelled⟩ : ∃ child, child = RosterRevision.signed ⟨parent.groupId,
    parent.number + 1, some parent.canonicalHash, after, change, author.endpointId, few⟩ author :=
    ⟨_, rfl⟩
  have signature : child.verifySignature author.endpointId = .ok () := by
    rw [spelled]
    unfold RosterRevision.verifySignature
    rw [if_pos (show Ed25519.isVerifyingKey author.endpointId = true from rfl)]
    exact if_pos (beq_self_eq_true _)
  have valid : child.validateChild parent = .ok () := by
    have linked : ¬ (child.number ≠ parent.number + 1 ∨
        child.parentHash ≠ some parent.canonicalHash) := by
      rw [spelled]
      simp [RosterRevision.signed]
    have fields : child.groupId = parent.groupId ∧ child.author = author.endpointId ∧
        child.change = change ∧ child.members = after := by
      rw [spelled]
      exact ⟨rfl, rfl, rfl, rfl⟩
    unfold RosterRevision.validateChild
    rw [fields.1, if_neg (not_not.mpr rfl), if_neg next, if_neg linked, fields.2.1, if_neg absent,
      fields.2.2.1, if_neg (by rw [changing]; simp), applied, Except.ok_bind, fields.2.2.2,
      if_neg (not_not.mpr rfl)]
    exact signature
  refine ⟨child, ?_, by rw [spelled]; rfl⟩
  unfold RosterRevision.child
  rw [if_neg absent, if_neg (by rw [changing]; simp), applied, Except.ok_bind, if_neg next,
    dif_pos few, ← spelled]
  dsimp only
  rw [valid]
  rfl

/-- A device that is admitted once. -/
def visitor (index : Nat) : EndpointId :=
  ⟨Encoder.u64 index ++ List.replicate 24 7, by
    rw [List.length_append, Encoder.u64, length_bigEndian, List.length_replicate]⟩

theorem visitor_injective {a b : Nat} (same : visitor a = visitor b) (small : a < 2 ^ 64)
    (other : b < 2 ^ 64) : a = b := by
  have read := congrArg (fun id : EndpointId => fromBigEndian (id.bytes.take 8)) same
  have front : ∀ index, (visitor index).bytes.take 8 = Encoder.u64 index := fun index =>
    List.take_left' (length_bigEndian 8 index)
  simp only [front, Encoder.u64, fromBigEndian_bigEndian] at read
  have width : 256 ^ 8 = 2 ^ 64 := by decide
  rwa [width, Nat.mod_eq_of_lt small, Nat.mod_eq_of_lt other] at read

theorem device_ne_visitor (index : Nat) : (device 1).endpointId ≠ visitor index := by
  intro same
  have front : (Encoder.u64 index).length = 8 := length_bigEndian 8 index
  have ends : (visitor index).bytes.drop 8 = List.replicate 24 7 := List.drop_left' front
  rw [← same] at ends
  exact absurd ends (by decide +kernel)

/-- Members before any visitor: the first device alone. -/
structure Founders (members : Members) : Prop where
  device : (members[(device 1).endpointId]?).isSome
  unvisited : ∀ index, members[visitor index]? = none
  one : members.size = 1
  named : ∀ entry ∈ members.toList, entry.2 = DeviceName.sample

theorem genesis_founders : Founders genesis.members := by
  have alone : genesis.members = (∅ : Members).insert (device 1).endpointId .sample := by
    decide +kernel
  refine ⟨by decide +kernel, fun index => ?_, by decide +kernel, by decide +kernel⟩
  rw [alone, OrderedMap.getElem?_insert, if_neg (device_ne_visitor index)]
  rfl

/-- The members before a change of the given number, and the change: the next visitor is admitted,
or the last one is removed. -/
def alternation (founders : Members) (number : Nat) : Members × RosterChange :=
  if number % 2 = 0 then (founders, .admitMember ⟨visitor (number / 2), .sample⟩)
  else (founders.insert (visitor (number / 2)) .sample, .remove (visitor (number / 2)))

section alternation
variable {founders : Members}

theorem alternation_start (founders : Members) : (alternation founders 0).1 = founders := rfl

theorem alternation_applied (alone : Founders founders) (number : Nat) :
    applyChange (alternation founders number).1 (alternation founders number).2 =
      .ok (alternation founders (number + 1)).1 := by
  unfold alternation
  by_cases even : number % 2 = 0
  · have odd : ¬ (number + 1) % 2 = 0 := by omega
    have half : (number + 1) / 2 = number / 2 := by omega
    rw [if_pos even, if_neg odd, half, applyChange, alone.unvisited]
    rfl
  · have next : (number + 1) % 2 = 0 := by omega
    rw [if_neg even, if_pos next, applyChange, OrderedMap.getElem?_insert, if_pos rfl]
    apply congrArg Except.ok
    apply Std.ExtTreeMap.ext_getElem?
    intro id
    rw [OrderedMap.getElem?_erase, OrderedMap.getElem?_insert]
    split
    · rename_i same
      rw [← same, alone.unvisited]
    · rfl

theorem alternation_device (alone : Founders founders) (number : Nat) :
    ((alternation founders number).1[(device 1).endpointId]?).isSome := by
  unfold alternation
  split
  · exact alone.device
  · rw [OrderedMap.getElem?_insert, if_neg (device_ne_visitor _).symm]
    exact alone.device

theorem alternation_size (alone : Founders founders) (number : Nat) :
    (alternation founders number).1.size ≤ 2 := by
  have one := alone.one
  unfold alternation
  split
  · dsimp only
    omega
  · exact Std.ExtTreeMap.size_insert_le.trans (by omega)

theorem alternation_entry (alone : Founders founders) (number : Nat)
    (entry : EndpointId × DeviceName) (listed : entry ∈ (alternation founders number).1.toList) :
    (encodeEntry entry).length = 37 := by
  have named : entry.2 = DeviceName.sample := by
    unfold alternation at listed
    split at listed
    · exact alone.named entry listed
    · obtain ⟨id, name⟩ := entry
      rw [Std.ExtTreeMap.mem_toList_iff_getElem?_eq_some, OrderedMap.getElem?_insert] at listed
      split at listed
      · exact (Option.some.inj listed).symm
      · exact alone.named (id, name) (Std.ExtTreeMap.mem_toList_iff_getElem?_eq_some.mpr listed)
  have size : (Encoder.string DeviceName.sample.text).length = 5 := by decide
  rw [encodeEntry, encodeMember, List.length_append, Bytes32.length_eq, named, size]

theorem alternation_bytes (alone : Founders founders) (number : Nat) :
    childBytes (alternation founders (number + 1)).1 (alternation founders number).2 ≤ 400 := by
  have entries : ((alternation founders (number + 1)).1.toList.flatMap encodeEntry).length ≤
      37 * 2 := by
    rw [List.length_flatMap, List.map_congr_left (alternation_entry alone (number + 1)),
      List.map_const', List.sum_replicate, Std.ExtTreeMap.length_toList, smul_eq_mul, Nat.mul_comm]
    exact Nat.mul_le_mul_left 37 (alternation_size alone (number + 1))
  have change : (encodeChange (alternation founders number).2).length ≤ 38 := by
    have size : (Encoder.string DeviceName.sample.text).length = 5 := by decide
    unfold alternation
    split
    · simp [encodeChange, encodeMember, Bytes32.length_eq, size, Encoder.u8]
    · simp [encodeChange, Bytes32.length_eq, Encoder.u8]
  unfold childBytes
  omega

/-- A visitor is no member before it is admitted. -/
theorem alternation_visitor (alone : Founders founders) {number index : Nat}
    (later : number ≤ 2 * index) (small : index < 2 ^ 64) :
    (alternation founders number).1[visitor index]? = none := by
  unfold alternation
  split
  · exact alone.unvisited index
  · rename_i odd
    rw [OrderedMap.getElem?_insert, if_neg, alone.unvisited]
    intro same
    have equal := visitor_injective same (by omega) small
    omega

end alternation

/-- A table whose chain has one revision more than the number. -/
structure Alternated (number : Nat) (store : RosterStore) (chain : List RosterRevision)
    (tip : RosterRevision) : Prop where
  tree : RosterTree genesis store
  selects : store.selectedRosterChain = .ok chain
  last : chain.getLast? = some tip
  size : chain.length = number + 1
  number_eq : tip.number.toNat = number
  members : tip.members = (alternation genesis.members number).1
  few : ∀ revision ∈ chain, revision.members.size ≤ 2
  /-- The visitors that come are new, as an approval asks. -/
  unseen : ∀ revision ∈ chain, ∀ index, number ≤ 2 * index → index < 2 ^ 64 →
    revision.members[visitor index]? = none
  short : RosterBundle.encodedLength chain ≤ 400 * (number + 1)
  numbers : ∀ revision, store.Stored revision → revision.number.toNat ≤ number

theorem alternated_step {number : Nat} {store : RosterStore} {chain : List RosterRevision}
    {tip : RosterRevision} (small : number < 2 ^ 32) (before : Alternated number store chain tip) :
    ∃ next child, store.applyRosterChange (device 1) (alternation genesis.members number).2 =
        (next, .ok child) ∧
      Alternated (number + 1) next (chain ++ [child]) child := by
  have applied := alternation_applied genesis_founders number
  have active := alternation_device genesis_founders number
  have bytes := alternation_bytes genesis_founders number
  have few := alternation_size genesis_founders (number + 1)
  rw [← before.members] at applied active
  obtain ⟨child, built, members⟩ := child_signed active applied
    (by rw [before.number_eq]; omega) (by omega)
  have extends' := RosterRevision.validateChild_ok (RosterRevision.child_ok built)
  have later : child.number.toNat = number + 1 := by rw [extends'.number, before.number_eq]
  have unsatisfied : rosterChangeIsSatisfied tip (alternation genesis.members number).2 =
      false := by
    by_contra satisfied
    obtain ⟨reason, refused⟩ := satisfied_refused (Bool.not_eq_false _ ▸ satisfied)
    rw [refused] at applied
    cases applied
  have fresh : ∀ other, store.Stored other → other.canonicalHash ≠ child.canonicalHash := by
    intro other stored same
    have bound := before.numbers other stored
    have equal := number_of_hash same
    omega
  obtain ⟨next, performed, tree, selects, stored⟩ := before.tree.applyRosterChange_extends
    before.selects before.last unsatisfied built fresh
  refine ⟨next, child, performed, tree, selects, ?_, ?_, later, members, ?_, ?_, ?_, ?_⟩
  · rw [List.getLast?_append, List.getLast?_singleton]
    rfl
  · rw [List.length_append, before.size]
    rfl
  · intro revision listed
    rcases List.mem_append.mp listed with earlier | own
    · exact before.few revision earlier
    · rw [List.mem_singleton.mp own, members]
      exact few
  · intro revision listed index after small
    rcases List.mem_append.mp listed with earlier | own
    · exact before.unseen revision earlier index (by omega) small
    · rw [List.mem_singleton.mp own, members]
      exact alternation_visitor genesis_founders after small
  · rw [RosterBundle.encodedLength_concat, length_child extends', members, (child_change built).1]
    have short := before.short
    omega
  · intro revision held
    rcases (stored revision).mp held with earlier | own
    · have bound := before.numbers revision earlier
      omega
    · rw [own, later]

/-- A table for each number of revisions. -/
theorem alternated (number : Nat) (small : number < 2 ^ 32) :
    ∃ store chain tip, Alternated number store chain tip := by
  induction number with
  | zero =>
      have selected : (do
          let store ← RosterStore.empty.insertRosterRevision genesis
          store.selectedRosterChain) = .ok [genesis] := by decide +kernel
      obtain ⟨store, inserted, selects⟩ := Except.bind_ok selected
      refine ⟨store, [genesis], genesis, RosterTree.of_genesis inserted, selects, rfl, rfl, ?_, ?_,
        ?_, ?_, ?_, fun revision stored => ?_⟩
      · decide +kernel
      · exact (alternation_start genesis.members).symm
      · decide +kernel
      · intro revision listed index _ _
        rw [List.mem_singleton.mp listed]
        exact genesis_founders.unvisited index
      · decide +kernel
      · rw [(RosterTree.stored_start inserted).mp stored]
        decide +kernel
  | succ number ih =>
      obtain ⟨store, chain, tip, before⟩ := ih (by omega)
      obtain ⟨next, child, -, after⟩ := alternated_step (by omega) before
      exact ⟨next, _, child, after⟩

/-- A removal after 1024 revisions succeeds, and the roster cannot be sent any more. -/
theorem removal_outgrows_limit :
    ¬ ∀ (store next : RosterStore) (identity : DeviceIdentity) (peer : EndpointId),
      store.Sendable → store.removePeer identity peer = (next, .ok true) → next.Sendable := by
  intro claimed
  obtain ⟨store, chain, tip, full⟩ := alternated 1023 (by decide)
  have allowed : RosterBundle.Transmittable chain := by
    refine ⟨fun empty => ?_, ?_, fun revision listed => ?_, ?_⟩
    · have size := full.size
      rw [empty] at size
      cases size
    · rw [full.size]
      exact le_refl _
    · exact (full.few revision listed).trans (by decide)
    · exact full.short.trans (by unfold maxRosterBytes; omega)
  obtain ⟨next, child, performed, after⟩ := alternated_step (by decide) full
  have other : visitor 511 ≠ (device 1).endpointId := (device_ne_visitor 511).symm
  have listed : ¬ (tip.members[visitor 511]?).isNone = true := by
    rw [full.members]
    decide +kernel
  have removed : store.removePeer (device 1) (visitor 511) = (next, .ok true) := by
    unfold RosterStore.removePeer
    rw [if_neg other, full.selects]
    dsimp only
    rw [full.last]
    dsimp only
    rw [if_neg listed, show store.applyRosterChange (device 1) (.remove (visitor 511)) = _
      from performed]
  have sendable := claimed store next _ _
    ((RosterStore.sendable_iff full.selects).mpr allowed) removed
  have few := ((RosterStore.sendable_iff after.selects).mp sendable).few
  rw [after.size] at few
  exact absurd few (by decide)

end

end Skillsync
