import Skillsync.HintAcceptance
import Skillsync.JoinRefusal

set_option autoImplicit false

namespace Skillsync

open Fallible

/-- Every stored revision stays. -/
def RosterStore.Retains [Blake3] (store next : RosterStore) : Prop :=
  ∀ revision, store.Stored revision → next.Stored revision

namespace RosterStore

section
variable [Blake3] {store middle next : RosterStore}

theorem Retains.refl (store : RosterStore) : store.Retains store := fun _ => id

theorem Retains.trans (first : store.Retains middle) (second : middle.Retains next) :
    store.Retains next :=
  fun revision stored => second revision (first revision stored)

theorem Retains.of_rows (same : next.rosterRevisions = store.rosterRevisions) :
    store.Retains next :=
  fun _ => (RosterTree.stored_hints same).mpr

theorem Retains.of_grew {allowed : RosterRevision → Prop} (grew : GrewBy allowed store next) :
    store.Retains next :=
  fun revision stored => grew.kept revision.canonicalHash revision.canonicalBytes stored

theorem retains_replaceHint {peerHint : Option (EndpointId × String)}
    (hinted : store.replaceHint peerHint = .ok next) : store.Retains next :=
  .of_rows (RosterTree.replaceHint_ok hinted)

theorem retains_storeRevision {revision : RosterRevision}
    {peerHint : Option (EndpointId × String)}
    (stored : store.storeRevision revision peerHint = .ok next) : store.Retains next := by
  obtain ⟨found, -, storing⟩ := Except.bind_ok stored
  obtain ⟨inserted, inserting, hinting⟩ := Except.bind_ok storing
  have first : store.Retains inserted := by
    cases found with
    | none =>
        have grew : GrewBy (fun _ => True) store inserted := .insertRow trivial inserting
        exact .of_grew grew
    | some held =>
        cases inserting
        exact .refl store
  exact first.trans (retains_replaceHint hinting)

theorem retains_foldlM {Item : Type}
    {each : RosterStore → Item → Except RosterStoreError RosterStore}
    (keeps : ∀ store item next, each store item = .ok next → store.Retains next)
    (items : List Item) (folded : items.foldlM each store = .ok next) : store.Retains next := by
  induction items generalizing store with
  | nil =>
      cases folded
      exact .refl _
  | cons item rest ih =>
      obtain ⟨middle, taken, folded⟩ := Except.bind_ok folded
      exact (keeps store item middle taken).trans (ih folded)

variable [Ed25519]

theorem retains_applyRosterChangeLoop (identity : DeviceIdentity) (change : RosterChange)
    (peerHint : Option (EndpointId × String)) (attempts : Nat) :
    store.Retains (applyRosterChangeLoop identity change peerHint attempts store).1 := by
  induction attempts generalizing store with
  | zero => exact .refl store
  | succ attempts ih =>
      unfold applyRosterChangeLoop
      split
      · exact .refl store
      split
      · split
        · exact .refl store
        · rename_i hinted
          exact retains_replaceHint hinted
      split
      · exact .refl store
      split
      · exact .refl store
      rename_i stored storing
      have first := retains_storeRevision storing
      split
      · exact first
      split
      · exact first
      · exact first.trans ih

theorem retains_installJoined (revisions : List RosterRevision) (localEndpoint : EndpointId)
    (localName : Option String) (peerHints : List (EndpointId × String)) (allowResume : Bool) :
    store.Retains
      (store.installJoinedStateInner revisions localEndpoint localName peerHints
        allowResume).1 := by
  unfold installJoinedStateInner
  split
  · exact .refl store
  split
  · exact .refl store
  rename_i stored storing
  have kept : store.Retains stored := by
    obtain ⟨middle, rows, hints⟩ := Except.bind_ok storing
    have first := retains_foldlM (fun _ _ _ taken => retains_storeRevision taken) revisions rows
    refine first.trans (retains_foldlM (fun store hint next taken => ?_) peerHints hints)
    have hinted : store.replaceHint (some (hint.1, hint.2)) = .ok next := taken
    exact retains_replaceHint hinted
  split
  · split
    · exact kept
    · split <;> exact kept
  · exact kept

theorem retains_perform (operation : RosterOperation) :
    store.Retains (operation.perform store) := by
  cases operation with
  | insertRosterRevision revision =>
      simp only [RosterOperation.perform]
      cases inserting : store.insertRosterRevision revision with
      | error reason => exact .refl store
      | ok next =>
          have grew : GrewBy (fun _ => True) store next := .insertRevision trivial inserting
          exact .of_grew grew
  | mergeSelectedRosterChain revisions => exact .of_grew (GrewBy.mergeSelectedRosterChain revisions)
  | applyRosterChange identity change => exact retains_applyRosterChangeLoop identity change none _
  | applyRosterChangeWithPeerHint identity change hintEndpoint hint =>
      unfold RosterOperation.perform applyRosterChangeWithPeerHint
      dsimp only
      split
      · exact .refl store
      · exact retains_applyRosterChangeLoop identity change _ _
  | installJoinedState revisions localEndpoint peerHints =>
      exact retains_installJoined revisions localEndpoint none peerHints false
  | installOrResumeJoinedState revisions localEndpoint localName peerHints =>
      exact retains_installJoined revisions localEndpoint (some localName) peerHints true

variable [JoinEncodings] [AddrJson]

theorem retains_buildJoinApproval (identity : DeviceIdentity) (localAddrJson : String)
    (pending : PendingJoinInfo) (joinerAddr : String) :
    store.Retains (store.buildJoinApproval identity localAddrJson pending joinerAddr).1 := by
  rcases store.buildJoinApproval_cases identity localAddrJson pending joinerAddr with
    ⟨reason, refused⟩ | ⟨chain, tip, peerHints, next, result, -, -, -, -, admitted, built⟩ |
      ⟨next, hinted, built⟩
  · rw [refused]
    exact .refl store
  · rw [built]
    unfold admitPending at admitted
    split at admitted
    · cases admitted
      exact .refl store
    split at admitted
    · cases admitted
      exact .refl store
    split at admitted
    · cases admitted
      exact .refl store
    rename_i member _ _ _ _ _ _ _
    have kept : store.Retains (store.applyRosterChangeWithPeerHint identity (.admitMember member)
        pending.endpointId joinerAddr).1 :=
      retains_perform (.applyRosterChangeWithPeerHint identity (.admitMember member)
        pending.endpointId joinerAddr)
    split at admitted <;>
      (rename_i outcome
       rw [outcome] at kept
       cases admitted
       exact kept)
  · rw [built]
    obtain ⟨⟨⟩, -, hinting⟩ := Except.bind_ok hinted
    have replaced : store.replaceHint (some (pending.endpointId, joinerAddr)) = .ok next := hinting
    exact retains_replaceHint replaced

/-- The roster of an approval is a valid chain of stored revisions, and its text says it. -/
theorem buildJoinApproval_chain {identity : DeviceIdentity} {localAddrJson : String}
    {pending : PendingJoinInfo} {joinerAddr : String} {decision : JoinDecision}
    (built : store.buildJoinApproval identity localAddrJson pending joinerAddr =
      (next, .ok decision)) :
    ∃ chain text peerHints, decision = .approved text peerHints ∧ encodeRoster chain = .ok text ∧
      validateRosterChain chain = .ok () ∧ ∀ revision ∈ chain, next.Stored revision := by
  obtain ⟨chain, tip, peerHints, text, selects, last, -, -, same, approved⟩ :=
    concludeApproval_ok (buildJoinApproval_ok built)
  obtain ⟨genesis, rest, rfl⟩ := List.exists_cons_of_ne_nil (List.ne_nil_of_mem
    (List.mem_of_getLast? last))
  have tree := RosterTree.of_selected selects
  obtain ⟨later, shape, linked, stored⟩ := tree.selected selects
  exact ⟨genesis :: rest, text, peerHints, same, approved.encoding,
    validateRosterChain_of_linked tree.valid linked, stored⟩

end

end RosterStore

end Skillsync
