import Skillsync.Reconciliation

set_option autoImplicit false

namespace Skillsync

open Fallible

section
variable [Blake3] [Ed25519]

/-- The rows of the revisions only grow, by revisions that are allowed, and the hints stay. -/
structure GrewBy (allowed : RosterRevision → Prop) (store next : RosterStore) : Prop where
  kept : ∀ (hash : RosterHash) (canonical : List UInt8),
      store.rosterRevisions[hash]? = some canonical →
    next.rosterRevisions[hash]? = some canonical
  rows : ∀ (hash : RosterHash) (canonical : List UInt8),
      next.rosterRevisions[hash]? = some canonical →
    store.rosterRevisions[hash]? = some canonical ∨
      ∃ revision, allowed revision ∧ hash = revision.canonicalHash ∧
        canonical = revision.canonicalBytes
  hints : next.peerHints = store.peerHints

namespace GrewBy

variable {allowed other : RosterRevision → Prop} {store middle next : RosterStore}

omit [Ed25519] in
theorem refl (store : RosterStore) : GrewBy allowed store store :=
  ⟨fun _ _ => id, fun _ _ => Or.inl, rfl⟩

omit [Ed25519] in
theorem trans (first : GrewBy allowed store middle) (second : GrewBy allowed middle next) :
    GrewBy allowed store next := by
  refine ⟨fun hash canonical row => second.kept hash canonical (first.kept hash canonical row),
    fun hash canonical row => ?_, second.hints.trans first.hints⟩
  rcases second.rows hash canonical row with before | new
  · exact first.rows hash canonical before
  · exact Or.inr new

omit [Ed25519] in
theorem mono (grew : GrewBy allowed store next)
    (within : ∀ revision, allowed revision → other revision) :
    GrewBy other store next := by
  refine ⟨grew.kept, fun hash canonical row => ?_, grew.hints⟩
  rcases grew.rows hash canonical row with before | ⟨revision, may, spelled⟩
  · exact Or.inl before
  · exact Or.inr ⟨revision, within revision may, spelled⟩

omit [Ed25519] in
theorem insertRow {revision : RosterRevision} (may : allowed revision)
    (inserted : store.insertRosterRevisionRow revision = .ok next) : GrewBy allowed store next := by
  obtain ⟨absent, rfl⟩ := RosterStore.insertRosterRevisionRow_ok inserted
  refine ⟨fun hash canonical row => ?_, fun hash canonical row => ?_, rfl⟩
  · rw [OrderedMap.getElem?_insert, if_neg]
    · exact row
    · rintro rfl
      rw [absent] at row
      cases row
  · rw [OrderedMap.getElem?_insert] at row
    split at row
    · rename_i same
      exact Or.inr ⟨revision, may, same.symm, (Option.some.inj row).symm⟩
    · exact Or.inl row

theorem insertRevision {revision : RosterRevision} (may : allowed revision)
    (inserted : store.insertRosterRevision revision = .ok next) : GrewBy allowed store next := by
  unfold RosterStore.insertRosterRevision at inserted
  split at inserted
  · split at inserted
    · cases inserted
    · obtain ⟨⟨⟩, -, storing⟩ := Except.bind_ok inserted
      exact insertRow may storing
  · split at inserted
    · cases inserted
    · obtain ⟨found, -, checking⟩ := Except.bind_ok inserted
      cases found with
      | none => cases checking
      | some parent =>
          obtain ⟨⟨⟩, -, storing⟩ := Except.bind_ok checking
          exact insertRow may storing

theorem mergeRevisions {revisions : List RosterRevision}
    (may : ∀ revision ∈ revisions, allowed revision) :
    GrewBy allowed store (store.mergeRevisions revisions).1 := by
  induction revisions generalizing store with
  | nil => exact refl store
  | cons revision rest ih =>
      rw [List.forall_mem_cons] at may
      unfold RosterStore.mergeRevisions
      split
      · exact refl store
      · exact ih may.2
      · split
        · exact refl store
        · rename_i inserting
          exact (insertRevision may.1 inserting).trans (ih may.2)

theorem mergeSelectedRosterChain (revisions : List RosterRevision) :
    GrewBy (· ∈ revisions) store (store.mergeSelectedRosterChain revisions).1 := by
  unfold RosterStore.mergeSelectedRosterChain
  split
  · exact refl store
  · exact mergeRevisions fun revision listed => List.mem_of_mem_tail listed

/-- An own change adds revisions of the device. -/
theorem applyRosterChange (identity : DeviceIdentity) (change : RosterChange) (attempts : Nat) :
    GrewBy (·.author = identity.endpointId) store
      (RosterStore.applyRosterChangeLoop identity change none attempts store).1 := by
  induction attempts generalizing store with
  | zero => exact refl store
  | succ attempts ih =>
      unfold RosterStore.applyRosterChangeLoop
      split
      · exact refl store
      split
      · exact refl store
      split
      · exact refl store
      rename_i revision built
      split
      · exact refl store
      rename_i stored storing
      have first : GrewBy (·.author = identity.endpointId) store stored := by
        obtain ⟨found, -, choosing⟩ := Except.bind_ok storing
        obtain ⟨inserted, inserting, hinting⟩ := Except.bind_ok choosing
        cases hinting
        cases found with
        | none => exact insertRow (child_change built).2 inserting
        | some held =>
            cases inserting
            exact refl store
      split
      · exact first
      split
      · exact first
      · exact first.trans ih

theorem replayChanges (localEndpoint : EndpointId) (identity : DeviceIdentity)
    (revisions : List RosterRevision) :
    GrewBy (·.author = identity.endpointId) store
      (store.replayChanges localEndpoint identity revisions).1 := by
  induction revisions generalizing store with
  | nil => exact refl store
  | cons revision rest ih =>
      unfold RosterStore.replayChanges
      split
      · exact refl store
      split
      · have first : GrewBy (·.author = identity.endpointId) store
            (store.applyRosterChange identity revision.change).1 :=
          applyRosterChange identity revision.change _
        split
        · rename_i outcome
          rw [outcome] at first
          exact first
        · rename_i outcome
          rw [outcome] at first
          exact first.trans ih
      · exact refl store

end GrewBy

/-- The revisions that a peer's chain may bring into the table: its own ones, and those that the
device signs. -/
def MayAdd (revisions : List RosterRevision) (loaded : Option DeviceIdentity)
    (revision : RosterRevision) : Prop :=
  revision ∈ revisions ∨ ∃ identity, loaded = some identity ∧ revision.author = identity.endpointId

namespace RosterStore

variable {store : RosterStore} {revisions : List RosterRevision}
  {localEndpoint remoteEndpoint : EndpointId} {loaded : Option DeviceIdentity}

theorem replayDisplaced_grew (previous selected : List RosterRevision) :
    GrewBy (MayAdd revisions loaded) store
      (store.replayDisplaced previous selected localEndpoint loaded).1 := by
  rcases store.replayDisplaced_cases previous selected localEndpoint loaded with
    ⟨-, none⟩ | ⟨-, failed⟩ | ⟨identity, found, replays⟩
  · rw [none]
    exact GrewBy.refl store
  · rw [failed]
    exact GrewBy.refl store
  · rw [replays]
    exact (GrewBy.replayChanges localEndpoint identity _).mono
      fun revision own => Or.inr ⟨identity, found, own⟩

/-- A reconciliation adds revisions of the peer's chain and of the device. -/
theorem reconciliation_grew :
    GrewBy (MayAdd revisions loaded) store
      (store.mergeAndAuthorizeRemoteRoster revisions localEndpoint remoteEndpoint loaded).1 := by
  have merge : GrewBy (MayAdd revisions loaded) store
      (store.mergeSelectedRosterChain revisions).1 :=
    (GrewBy.mergeSelectedRosterChain revisions).mono fun _ => Or.inl
  unfold mergeAndAuthorizeRemoteRoster
  split
  · exact GrewBy.refl store
  rename_i previous selects
  split
  · rename_i outcome
    rw [outcome] at merge
    exact merge
  rename_i merged outcome
  rw [outcome] at merge
  split
  · exact merge
  rename_i selected chosen
  have replay : GrewBy (MayAdd revisions loaded) merged
      (merged.replayDisplaced previous selected localEndpoint loaded).1 :=
    replayDisplaced_grew previous selected
  split
  · rename_i replayed
    rw [replayed] at replay
    exact merge.trans replay
  · rename_i replayed
    rw [replayed] at replay
    exact merge.trans replay

/-- A chain that a store takes: valid, and of the group of its selected chain. -/
structure Acceptable (store : RosterStore) (revisions : List RosterRevision) : Prop where
  linked : Linked revisions
  rooted : ∃ root genesis previous, revisions.head? = some root ∧ root.validateGenesis = .ok () ∧
    store.selectedRosterChain = .ok (genesis :: previous) ∧
    root.canonicalHash = genesis.canonicalHash

theorem checkMerge_ok (checked : store.checkMerge revisions = .ok ()) :
    Acceptable store revisions := by
  unfold checkMerge at checked
  split at checked
  · cases checked
  rename_i root rest
  obtain ⟨⟨⟩, valid, checked⟩ := Except.bind_ok checked
  obtain ⟨⟨⟩, links, checked⟩ := Except.bind_ok checked
  obtain ⟨previous, selects, checked⟩ := Except.bind_ok checked
  split at checked
  · cases checked
  rename_i genesis previous
  split at checked
  · cases checked
  rename_i same
  exact ⟨RosterTree.validateLinks_ok.mp (Except.mapError_ok links), root, genesis, previous, rfl,
    Except.mapError_ok valid, selects, not_not.mp same⟩

theorem merge_acceptable {stored : RosterStore}
    (merged : store.mergeSelectedRosterChain revisions = (stored, .ok ())) :
    Acceptable store revisions := by
  unfold mergeSelectedRosterChain at merged
  split at merged
  · cases merged
  · rename_i checked
    exact checkMerge_ok checked

/-- A chain that is not valid or not of the group of the store changes nothing. -/
theorem reconciliation_refused (localEndpoint remoteEndpoint : EndpointId)
    (loaded : Option DeviceIdentity) (refused : ¬ Acceptable store revisions) :
    (store.mergeAndAuthorizeRemoteRoster revisions localEndpoint remoteEndpoint loaded).1 =
      store := by
  unfold mergeAndAuthorizeRemoteRoster
  split
  · rfl
  unfold mergeSelectedRosterChain
  cases checked : store.checkMerge revisions with
  | error reason => rfl
  | ok done => exact absurd (checkMerge_ok checked) refused

section
variable [AddrJson] {localGenesisHash : RosterHash} {encoded : String}

/-- The cases of `accept_remote_roster_and_hint`: it refuses at once, or reconciles and stores
the hint when that succeeds. -/
theorem acceptRemoteRosterAndHint_cases :
    ((store.acceptRemoteRosterAndHint revisions localGenesisHash localEndpoint remoteEndpoint
        encoded loaded).1 = store ∧
      ∃ reason, (store.acceptRemoteRosterAndHint revisions localGenesisHash localEndpoint
        remoteEndpoint encoded loaded).2 = .error reason) ∨
    ((∃ root, revisions.head? = some root ∧ root.canonicalHash = localGenesisHash) ∧
      AddressOf encoded remoteEndpoint ∧
      ∃ next result, store.mergeAndAuthorizeRemoteRoster revisions localEndpoint remoteEndpoint
          loaded = (next, result) ∧
        store.acceptRemoteRosterAndHint revisions localGenesisHash localEndpoint remoteEndpoint
            encoded loaded =
          match result with
          | .error reason => (next, .error reason)
          | .ok changed =>
              ({ next with peerHints := next.peerHints.insert remoteEndpoint encoded },
                .ok changed)) := by
  unfold acceptRemoteRosterAndHint
  cases revisions with
  | nil => exact Or.inl ⟨rfl, _, rfl⟩
  | cons root rest =>
      by_cases known : root.canonicalHash = localGenesisHash
      · rw [List.head?_cons, Option.all_some, if_neg (by simp [known])]
        split
        · exact Or.inl ⟨rfl, _, rfl⟩
        rename_i addr read
        have address := readAddr_ok.mp ⟨addr, read⟩
        have valid : validatePeerHint encoded = .ok () :=
          if_neg (not_or.mpr ⟨address.nonempty, not_lt.mpr address.short⟩)
        cases store.mergeAndAuthorizeRemoteRoster (root :: rest) localEndpoint remoteEndpoint
          loaded with
        | mk next result =>
            refine Or.inr ⟨⟨root, rfl, known⟩, address, next, result, rfl, ?_⟩
            cases result with
            | error reason => rfl
            | ok changed =>
                dsimp only
                rw [replacePeerHintChecked, valid, Except.ok_bind,
                  replacePeerHint_eq valid]
      · rw [List.head?_cons, Option.all_some, if_pos (decide_eq_true known)]
        exact Or.inl ⟨rfl, _, rfl⟩

/-- What a peer's roster and hint change: nothing when they are refused, and never a hint of
another endpoint. -/
theorem accepted_roster_and_hint (store : RosterStore) (revisions : List RosterRevision)
    (localGenesisHash : RosterHash) (localEndpoint remoteEndpoint : EndpointId) (encoded : String)
    (loaded : Option DeviceIdentity) :
    let outcome := store.acceptRemoteRosterAndHint revisions localGenesisHash localEndpoint
      remoteEndpoint encoded loaded
    (∀ changed, outcome.2 = .ok changed → ∃ tip, outcome.1.selectedTip = .ok tip ∧
      (tip.members[localEndpoint]?).isSome ∧ (tip.members[remoteEndpoint]?).isSome) ∧
    (∀ endpoint, endpoint ≠ remoteEndpoint →
      outcome.1.peerHints[endpoint]? = store.peerHints[endpoint]?) ∧
    (outcome.1.peerHints[remoteEndpoint]? ≠ store.peerHints[remoteEndpoint]? →
      (∃ changed, outcome.2 = .ok changed) ∧ AddressOf encoded remoteEndpoint ∧
        outcome.1.peerHints[remoteEndpoint]? = some encoded) ∧
    ((¬ ∃ root, revisions.head? = some root ∧ root.canonicalHash = localGenesisHash) ∨
      ¬ Acceptable store revisions ∨ ¬ AddressOf encoded remoteEndpoint →
      outcome.1 = store ∧ ∃ reason, outcome.2 = .error reason) ∧
    (∀ (hash : RosterHash) (canonical : List UInt8),
      store.rosterRevisions[hash]? = some canonical →
      outcome.1.rosterRevisions[hash]? = some canonical) ∧
    ∀ (hash : RosterHash) (canonical : List UInt8),
      outcome.1.rosterRevisions[hash]? = some canonical →
      store.rosterRevisions[hash]? = some canonical ∨ ∃ revision, MayAdd revisions loaded revision ∧
        hash = revision.canonicalHash ∧ canonical = revision.canonicalBytes := by
  intro outcome
  have grew : GrewBy (MayAdd revisions loaded) store
      (store.mergeAndAuthorizeRemoteRoster revisions localEndpoint remoteEndpoint loaded).1 :=
    reconciliation_grew
  rcases store.acceptRemoteRosterAndHint_cases with
    ⟨same, reason, refused⟩ | ⟨known, address, next, result, performed, whole⟩
  · have unchanged : outcome.1 = store := same
    rw [unchanged]
    refine ⟨fun changed success => ?_, fun _ _ => rfl, fun differs => absurd rfl differs,
      fun _ => ⟨rfl, reason, refused⟩, fun _ _ => id, fun _ _ => Or.inl⟩
    rw [refused] at success
    cases success
  rw [performed] at grew
  cases result with
  | error reason =>
      have left : outcome = (next, .error reason) := whole
      rw [left]
      refine ⟨fun changed success => ?_, fun endpoint _ => by rw [grew.hints],
        fun differs => absurd (by rw [grew.hints]) differs, fun refused => ⟨?_, reason, rfl⟩,
        grew.kept, grew.rows⟩
      · cases success
      · rcases refused with unknown | refused | unreadable
        · exact absurd known unknown
        · have same := reconciliation_refused localEndpoint remoteEndpoint loaded refused
          rw [performed] at same
          exact same
        · exact absurd address unreadable
  | ok changed =>
      obtain ⟨previous, merged, tip, -, ⟨stored, merging, -⟩, after, localMember, remoteMember⟩ :=
        mergeAndAuthorizeRemoteRoster_ok performed
      have left : outcome =
          ({ next with peerHints := next.peerHints.insert remoteEndpoint encoded }, .ok changed) :=
        whole
      rw [left]
      refine ⟨fun _ _ => ⟨tip, ?_, localMember, remoteMember⟩, fun endpoint other => ?_,
        fun _ => ⟨⟨changed, rfl⟩, address, ?_⟩, fun refused => ?_, grew.kept, grew.rows⟩
      · unfold selectedTip at after ⊢
        rw [← after]
        rfl
      · dsimp only
        rw [OrderedMap.getElem?_insert, if_neg (Ne.symm other), grew.hints]
      · dsimp only
        rw [OrderedMap.getElem?_insert, if_pos rfl]
      · rcases refused with unknown | refused | unreadable
        · exact absurd known unknown
        · exact absurd (merge_acceptable merging) refused
        · exact absurd address unreadable

end

end RosterStore

end

end Skillsync
