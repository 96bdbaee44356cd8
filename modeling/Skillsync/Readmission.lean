import Skillsync.JoinedInstall
import Skillsync.RosterLimits
import Skillsync.Runs

set_option autoImplicit false

namespace Skillsync

open Fallible

/-- Whether the later change admits the device that the earlier one removed. -/
def RosterChange.readmits (earlier later : RosterChange) : Bool :=
  match earlier, later with
  | .remove endpoint, .admitMember member => decide (member.endpointId = endpoint)
  | _, _ => false

/-- No change of the chain admits a device that an earlier one removed. -/
def RemovalsHold (chain : List RosterRevision) : Prop :=
  (changes chain).Pairwise fun earlier later => earlier.readmits later = false

theorem readmits_iff {earlier later : RosterChange} :
    earlier.readmits later = true ↔
      ∃ member, later = .admitMember member ∧ earlier = .remove member.endpointId := by
  cases earlier <;> cases later <;> simp [RosterChange.readmits, eq_comm]

section
variable [Blake3] [Ed25519] {genesis parent revision tip : RosterRevision}
  {chain rest : List RosterRevision} {endpoint : EndpointId}

/-- A device stays outside until a change admits it. -/
theorem absent_kept (linked : Linked (parent :: rest))
    (ends : (parent :: rest).getLast? = some tip) (absent : parent.members[endpoint]? = none)
    (never : ∀ later ∈ changes rest, (RosterChange.remove endpoint).readmits later = false) :
    tip.members[endpoint]? = none := by
  induction rest generalizing parent with
  | nil =>
      rw [List.getLast?_singleton, Option.some.injEq] at ends
      rw [← ends, absent]
  | cons child rest ih =>
      obtain ⟨valid, remaining⟩ := List.isChain_cons_cons.mp linked
      rw [changes, List.map_cons, List.forall_mem_cons] at never
      rw [List.getLast?_cons_cons] at ends
      refine ih remaining ends ?_ never.2
      have members := (RosterRevision.validateChild_ok valid).members
      by_cases other : child.change.subject = endpoint
      · -- Only an admission changes this membership.
        cases made : child.change with
        | initial creator =>
            rw [made] at members
            cases members
        | admitMember member =>
            rw [made] at other never
            exact absurd (readmits_iff.mpr ⟨member, rfl, congrArg _ other.symm⟩)
              (by rw [never.1]; simp)
        | remove gone =>
            rw [made, applyChange] at members
            rw [made, RosterChange.subject] at other
            rw [other, absent] at members
            cases members
      · rw [applyChange_other members other, absent]

theorem absent_after_removal (linked : Linked (parent :: rest)) {front back : List RosterRevision}
    (listed : rest = front ++ revision :: back) (removes : revision.change = .remove endpoint)
    (ends : (parent :: rest).getLast? = some tip)
    (never : ∀ later ∈ changes back, (RosterChange.remove endpoint).readmits later = false) :
    tip.members[endpoint]? = none := by
  rw [listed, ← List.cons_append] at linked ends
  obtain ⟨-, below, joint⟩ := List.isChain_append.mp linked
  rw [List.getLast?_append_of_ne_nil _ (List.cons_ne_nil _ _)] at ends
  obtain ⟨last, spelled⟩ := Option.isSome_iff_exists.mp
    (List.getLast?_isSome.mpr (List.cons_ne_nil parent front))
  have members := (RosterRevision.validateChild_ok (joint last spelled revision rfl)).members
  have satisfied := satisfied_after members rfl
  rw [removes, rosterChangeIsSatisfied, Option.isNone_iff_eq_none] at satisfied
  exact absent_kept below ends satisfied never

omit [Blake3] [Ed25519] in
/-- Changes added after a chain keep its removals when they admit no removed device. -/
theorem RemovalsHold.extended {added : List RosterRevision} {allowed : List RosterChange}
    (holds : RemovalsHold chain) (within : (changes added).Sublist allowed)
    (among : allowed.Pairwise fun earlier later => earlier.readmits later = false)
    (after : ∀ earlier ∈ changes chain, ∀ later ∈ allowed, earlier.readmits later = false) :
    RemovalsHold (chain ++ added) := by
  rw [RemovalsHold, changes_append, List.pairwise_append]
  exact ⟨holds, among.sublist within, fun earlier made later inside =>
    after earlier made later (within.subset inside)⟩

/-- No own change that the presented chain displaces admits a device that this chain removes. -/
def ReplayHolds (localEndpoint : EndpointId) (previous presented : List RosterRevision) : Prop :=
  ∀ earlier ∈ changes presented, ∀ later ∈ changes (displaced localEndpoint previous presented),
    earlier.readmits later = false

/-- The selected chain keeps its removals. -/
def RosterStore.KeepsRemovals (store : RosterStore) : Prop :=
  ∀ chain, store.selectedRosterChain = .ok chain → RemovalsHold chain

variable {store next : RosterStore}

namespace RosterTree

end RosterTree

namespace MembershipCommand

/-- The chain that a command is given. -/
def presented : MembershipCommand → Option (List RosterRevision)
  | removePeer _ _ => none
  | approve _ _ _ _ => none
  | reconcile revisions _ _ _ => some revisions

/-- Whether a command on a device that selects the chain keeps the removals: the presented chain
is not selected, or the replay after it admits no device that it removes. -/
def Upholds (chain : List RosterRevision) : MembershipCommand → Prop
  | removePeer _ _ => True
  | approve _ _ _ _ => True
  | reconcile revisions localEndpoint _ _ =>
      chainKey chain < chainKey revisions → ReplayHolds localEndpoint chain revisions

variable [JoinEncodings] [AddrJson]

end MembershipCommand

end

/-- The tables of the nodes, and the selected chains that they sent. A sent chain can arrive at any
node, at any time and any number of times. -/
structure RosterNetwork (Node : Type) where
  stores : Node → RosterStore
  sent : List (List RosterRevision)

inductive RosterEvent (Node : Type)
  | send (node : Node)
  | perform (node : Node) (command : MembershipCommand)
  | join (node : Node) (revisions : List RosterRevision) (localEndpoint : EndpointId)
      (localName : String) (peerHints : List (EndpointId × String))

variable {Node : Type}

/-- The chain that arrives with an event. -/
def RosterEvent.arriving : RosterEvent Node → Option (List RosterRevision)
  | send _ => none
  | perform _ command => command.presented
  | join _ revisions _ _ _ => some revisions

namespace RosterNetwork

section
variable [Blake3] [Ed25519] [JoinEncodings] [AddrJson]

/-- One event: only sent chains arrive, and a command leaves its tables behind in success or
failure. -/
def step [DecidableEq Node] (net : RosterNetwork Node) (event : RosterEvent Node) :
    Option (RosterNetwork Node) :=
  if event.arriving.all fun revisions => decide (revisions ∈ net.sent) then
    match event with
    | .send node =>
        match (net.stores node).selectedRosterChain with
        | .error _ => none
        | .ok chain => if chain = [] then none else some { net with sent := chain :: net.sent }
    | .perform node command =>
        some { net with stores :=
          Function.update net.stores node (command.perform (net.stores node)).1 }
    | .join node revisions localEndpoint localName peerHints =>
        some { net with stores :=
          Function.update net.stores node ((net.stores node).installOrResumeJoinedState revisions
            localEndpoint localName peerHints).1 }
  else none

/-- BLAKE3 distinguishes the stored revisions and the arriving ones. -/
def Distinguishes (net : RosterNetwork Node) : RosterEvent Node → Prop
  | .send _ => True
  | .perform node command => Distinguished fun revision => (net.stores node).Stored revision ∨
      ∃ revisions ∈ command.presented, revision ∈ revisions
  | .join node revisions _ _ _ => Distinguished fun revision =>
      (net.stores node).Stored revision ∨ revision ∈ revisions

/-- No replay admits a device that the chain it follows removes. -/
def Upholds (net : RosterNetwork Node) : RosterEvent Node → Prop
  | .send _ => True
  | .perform node command =>
      ∀ chain, (net.stores node).selectedRosterChain = .ok chain → command.Upholds chain
  | .join _ _ _ _ _ => True

/-- What every event keeps: no selected chain and no sent one admits a removed device. -/
structure Upright (net : RosterNetwork Node) : Prop where
  grounded : ∀ node, (net.stores node).Grounded
  keeps : ∀ node, (net.stores node).KeepsRemovals
  sent : ∀ chain ∈ net.sent, validateRosterChain chain = .ok () ∧ RemovalsHold chain

variable {net final : RosterNetwork Node}

omit [JoinEncodings] [AddrJson] in
theorem Upright.updated [DecidableEq Node] {node : Node} {store : RosterStore}
    (upright : net.Upright) (grounded : store.Grounded) (keeps : store.KeepsRemovals) :
    Upright { net with stores := Function.update net.stores node store } := by
  refine ⟨fun other => ?_, fun other => ?_, upright.sent⟩
  · show (Function.update net.stores node store other).Grounded
    by_cases same : other = node
    · rw [same, Function.update_self]
      exact grounded
    · rw [Function.update_of_ne same]
      exact upright.grounded other
  · show (Function.update net.stores node store other).KeepsRemovals
    by_cases same : other = node
    · rw [same, Function.update_self]
      exact keeps
    · rw [Function.update_of_ne same]
      exact upright.keeps other

end

end RosterNetwork

section
attribute [local instance] Blake3.checksum Ed25519.checksum AddrJson.bare JoinEncodings.written

open RosterSample

namespace RosterSample

def address (byte : UInt8) : String := bareAddr (device byte).endpointId

/-- One device approves another one. -/
def approval (own joining : UInt8) : MembershipCommand :=
  .approve (device own) (address own) ⟨"r", (device joining).endpointId, "d"⟩ (address joining)

/-- The table after an admission. -/
def admitting (store : RosterStore) (own joining : UInt8) : RosterStore :=
  (store.applyRosterChangeWithPeerHint (device own) (.admitMember (member joining))
    (device joining).endpointId (address joining)).1

theorem approval_admits {store : RosterStore} {own joining : UInt8} {chain : List RosterRevision}
    {tip : RosterRevision} {peerHints : OrderedMap String String} {total : Nat}
    (selects : store.selectedRosterChain = .ok chain) (last : chain.getLast? = some tip)
    (unknown : (chain.all fun revision =>
      (revision.members[(device joining).endpointId]?).isNone) = true)
    (shared : store.approvalPeerHints ⟨"r", (device joining).endpointId, "d"⟩ (device own)
      (address own) = .ok peerHints)
    (built : tip.child (.admitMember (member joining)) (device own) =
      .ok (child tip (.admitMember (member joining)) own))
    (allowed : RosterBundle.Transmittable
      (chain ++ [child tip (.admitMember (member joining)) own]))
    (summed : peerHints.toList.foldlM
      (addHint (child tip (.admitMember (member joining)) own)) 0 = .ok total)
    (few : total ≤ maxJoinHintTextBytes)
    (fits : ((approvalText (chain ++ [child tip (.admitMember (member joining)) own])
      peerHints).toList.map Char.utf8Size).sum ≤ joinResponseLimit) :
    ((approval own joining).perform store).1 = admitting store own joining := by
  have absent : tip.members[(device joining).endpointId]? = none :=
    Option.isNone_iff_eq_none.mp (List.all_eq_true.mp unknown tip (List.mem_of_getLast? last))
  have unlisted : ¬ (chain.any fun revision =>
      (revision.members[(device joining).endpointId]?).isSome) = true := by
    rw [Bool.not_eq_true, List.any_eq_false]
    intro revision listed
    rw [← Option.not_isNone, List.all_eq_true.mp unknown revision listed]
    simp
  have parsed : RosterMember.new (device joining).endpointId "d" = .ok (member joining) := rfl
  have approved := approve_written allowed List.getLast?_concat summed few fits
  show (store.buildJoinApproval (device own) (address own)
    ⟨"r", (device joining).endpointId, "d"⟩ (address joining)).1 = _
  unfold RosterStore.buildJoinApproval RosterStore.admitPending admitting
  rw [selects]
  dsimp only
  rw [last]
  dsimp only
  rw [absent, if_neg (by simp), if_neg (fun both => unlisted both.2), shared]
  dsimp only
  rw [if_pos Option.isNone_none, parsed]
  dsimp only
  rw [built]
  dsimp only
  rw [approved]
  dsimp only
  cases store.applyRosterChangeWithPeerHint (device own) (.admitMember (member joining))
      (device joining).endpointId (address joining) with
  | mk next result =>
      cases result with
      | error reason => rfl
      | ok found => rfl

/-- The stored revisions are among those of the rows. -/
theorem stored_among {store : RosterStore} {revisions : List RosterRevision}
    (rows : ∀ row ∈ store.rosterRevisions.toList, row ∈ revisions.map RosterRevision.row)
    {revision : RosterRevision} (held : store.Stored revision) : revision ∈ revisions := by
  rw [RosterStore.Stored, ← Std.ExtTreeMap.mem_toList_iff_getElem?_eq_some] at held
  exact (List.mem_map_of_injective RosterRevision.row_injective).mp (rows _ held)

/-- The third device is admitted and removed by the first one. -/
def visit : List RosterRevision :=
  [genesis, admitted 2, mine, child mine (.remove (device 3).endpointId) 1]

/-- The table of the first device after it admitted the second one. -/
def founder : RosterStore := admitting start 1 2

/-- The table of the second device after it joined. -/
def second : RosterStore :=
  (RosterStore.empty.installOrResumeJoinedState [genesis, admitted 2] (device 2).endpointId "d"
    [((device 1).endpointId, address 1)]).1

/-- The table of the first device after the visit. -/
def visited : RosterStore :=
  ((admitting founder 1 3).removePeer (device 1) (device 3).endpointId).1

/-- Two devices. -/
def between (first second : RosterStore) (sent : List (List RosterRevision)) :
    RosterNetwork Bool :=
  ⟨fun node => cond node second first, sent⟩

section
variable (first second : RosterStore) (sent : List (List RosterRevision))

@[simp] theorem between_false : (between first second sent).stores false = first := rfl
@[simp] theorem between_sent : (between first second sent).sent = sent := rfl

end

/-- The first device admits the second one, which joins, and has a visit of the third one. -/
def hosting : List (RosterEvent Bool) :=
  [.perform false (approval 1 2), .send false,
    .join true [genesis, admitted 2] (device 2).endpointId "d" [((device 1).endpointId, address 1)],
    .perform false (approval 1 3),
    .perform false (.removePeer (device 1) (device 3).endpointId), .send false]

theorem selects_of_bytes {store : RosterStore} {chain : List RosterRevision}
    (same : store.selectedRosterChain.map (List.map RosterRevision.canonicalBytes) =
      .ok (chain.map RosterRevision.canonicalBytes)) : store.selectedRosterChain = .ok chain := by
  cases selected : store.selectedRosterChain with
  | error reason =>
      rw [selected] at same
      cases same
  | ok other =>
      rw [selected] at same
      have bytes := Except.ok.inj same
      rw [(List.map_injective_iff.mpr RosterRevision.canonicalBytes_injective) bytes]

/-- The hints of both devices. -/
def bothHints : OrderedMap String String :=
  firstHint.insert (endpointText (device 2).endpointId) (address 2)

theorem first_approval : ((approval 1 2).perform start).1 = founder := by
  have selects : start.selectedRosterChain = .ok [genesis] := by decide +kernel
  have allowed : RosterBundle.Transmittable [genesis, admitted 2] := by
    refine ⟨by simp, by decide, ?_, ?_⟩
    · decide +kernel
    · decide +kernel
  have fits : ((approvalText [genesis, admitted 2] firstHint).toList.map Char.utf8Size).sum ≤
      joinResponseLimit := by
    rw [approvalText, String.toList_ofList]
    decide +kernel
  have shared : start.approvalPeerHints ⟨"r", (device 2).endpointId, "d"⟩ (device 1)
      (address 1) = .ok firstHint := by decide +kernel
  have summed : firstHint.toList.foldlM (addHint (admitted 2)) 0 = .ok 148 := by decide +kernel
  refine approval_admits selects rfl ?_ shared ?_ allowed summed ?_ fits
  · decide +kernel
  · decide +kernel
  · unfold maxJoinHintTextBytes
    omega

theorem guest_approval (own : UInt8) {store : RosterStore}
    (selects : store.selectedRosterChain = .ok [genesis, admitted 2])
    (shared : store.approvalPeerHints ⟨"r", (device 3).endpointId, "d"⟩ (device own)
      (address own) = .ok bothHints)
    (author : own = 1 ∨ own = 2) : ((approval own 3).perform store).1 = admitting store own 3 := by
  have allowed : RosterBundle.Transmittable
      [genesis, admitted 2, child (admitted 2) (.admitMember (member 3)) own] := by
    refine ⟨by simp, by show 3 ≤ maxRosterRevisions; decide, ?_, ?_⟩
    · rcases author with rfl | rfl <;> decide +kernel
    · rcases author with rfl | rfl <;> decide +kernel
  have fits : ((approvalText [genesis, admitted 2, child (admitted 2) (.admitMember (member 3)) own]
      bothHints).toList.map Char.utf8Size).sum ≤ joinResponseLimit := by
    rw [approvalText, String.toList_ofList]
    rcases author with rfl | rfl <;> decide +kernel
  have summed : bothHints.toList.foldlM
      (addHint (child (admitted 2) (.admitMember (member 3)) own)) 0 = .ok 296 := by
    rcases author with rfl | rfl <;> decide +kernel
  refine approval_admits selects rfl ?_ shared ?_ allowed summed ?_ fits
  · decide +kernel
  · rcases author with rfl | rfl <;> decide +kernel
  · unfold maxJoinHintTextBytes
    omega

theorem founder_selects : founder.selectedRosterChain = .ok [genesis, admitted 2] := by
  decide +kernel

theorem visited_selects : visited.selectedRosterChain = .ok visit :=
  selects_of_bytes (by decide +kernel)

theorem between_first (first second other : RosterStore) (sent : List (List RosterRevision)) :
    RosterNetwork.mk (Function.update (between first second sent).stores false other) sent =
      between other second sent := by
  apply congrArg fun stores => RosterNetwork.mk stores sent
  funext node
  cases node <;> rfl

theorem between_second (first second other : RosterStore) (sent : List (List RosterRevision)) :
    RosterNetwork.mk (Function.update (between first second sent).stores true other) sent =
      between first other sent := by
  apply congrArg fun stores => RosterNetwork.mk stores sent
  funext node
  cases node <;> rfl

theorem performed_first {first second next : RosterStore} {sent : List (List RosterRevision)}
    {command : MembershipCommand} (alone : command.presented = none)
    (after : (command.perform first).1 = next) :
    (between first second sent).step (.perform false command) =
    some (between next second sent) := by
  unfold RosterNetwork.step
  rw [if_pos (by rw [RosterEvent.arriving, alone]; rfl)]
  dsimp only
  rw [between_false, after]
  exact congrArg some (between_first first second next sent)

theorem sent_first {first second : RosterStore} {sent : List (List RosterRevision)}
    {chain : List RosterRevision} (selects : first.selectedRosterChain = .ok chain)
    (nonempty : chain ≠ []) :
    (between first second sent).step (.send false) =
      some (between first second (chain :: sent)) := by
  unfold RosterNetwork.step
  rw [if_pos (by rfl)]
  dsimp only
  rw [between_false, selects]
  dsimp only
  rw [if_neg nonempty]
  rfl

/-- A command that is given no chain. -/
theorem distinguishes_own {net : RosterNetwork Bool} {node : Bool} {command : MembershipCommand}
    (alone : command.presented = none) : net.Distinguishes (.perform node command) := by
  have own : ∀ revision, ((net.stores node).Stored revision ∨
      ∃ revisions ∈ command.presented, revision ∈ revisions) →
      (net.stores node).Stored revision := by
    intro revision held
    refine held.resolve_right ?_
    rw [alone]
    simp
  exact fun a b heldA heldB same => (own a heldA).unique (own b heldB) same

/-- A few revisions have hashes of their own. -/
theorem distinguished_among {seen : RosterRevision → Prop} (revisions : List RosterRevision)
    (among : ∀ revision, seen revision → revision ∈ revisions)
    (apart : (revisions.map RosterRevision.canonicalHash).Nodup) : Distinguished seen :=
  fun a b seenA seenB same => List.inj_on_of_nodup_map apart (among a seenA) (among b seenB) same

theorem opened :
    Runs.Along RosterNetwork.step (fun net event => net.Distinguishes event ∧ net.Upholds event)
      (between start .empty []) hosting ∧
    Runs.run RosterNetwork.step (between start .empty []) hosting =
      some (between visited second [visit, [genesis, admitted 2]]) := by
  have nothing : ∀ revision, ¬ RosterStore.empty.Stored revision := by
    intro revision held
    cases held
  have joined : (between founder .empty [[genesis, admitted 2]]).step (.join true
      [genesis, admitted 2] (device 2).endpointId "d" [((device 1).endpointId, address 1)]) =
        some (between founder second [[genesis, admitted 2]]) := by
    unfold RosterNetwork.step
    rw [if_pos (by simp [RosterEvent.arriving, between])]
    exact congrArg some (between_second founder .empty second [[genesis, admitted 2]])
  have removes : ((MembershipCommand.removePeer (device 1) (device 3).endpointId).perform
      (admitting founder 1 3)).1 = visited := by
    unfold visited
    generalize admitting founder 1 3 = store
    rfl
  have guest := guest_approval 1 founder_selects (by decide +kernel) (Or.inl rfl)
  refine Runs.Along.cons_run ⟨distinguishes_own rfl, fun _ _ => trivial⟩
    (performed_first rfl first_approval) ?_
  refine Runs.Along.cons_run ⟨trivial, trivial⟩ (sent_first founder_selects (by simp)) ?_
  refine Runs.Along.cons_run ⟨?_, trivial⟩ joined ?_
  · apply distinguished_among [genesis, admitted 2]
    · intro revision held
      exact held.resolve_left (nothing revision)
    · decide +kernel
  refine Runs.Along.cons_run ⟨distinguishes_own rfl, fun _ _ => trivial⟩
    (performed_first rfl guest) ?_
  refine Runs.Along.cons_run ⟨distinguishes_own rfl, fun _ _ => trivial⟩
    (performed_first rfl removes) ?_
  exact Runs.Along.cons_run ⟨trivial, trivial⟩ (sent_first visited_selects (by simp [visit]))
    ⟨trivial, rfl⟩

end RosterSample

end

end Skillsync
