import Skillsync.RosterStoreSpec

set_option autoImplicit false

namespace Skillsync

open Fallible

variable [Blake3] [Ed25519]

/-- The stored revisions are a tree of valid children below a genesis. -/
structure RosterTree (genesis : RosterRevision) (store : RosterStore) : Prop where
  encoded : store.Encoded
  valid : genesis.validateGenesis = .ok ()
  genesis_stored : store.Stored genesis
  linked : ∀ revision, store.Stored revision → revision ≠ genesis →
    ∃ parent, store.Stored parent ∧ revision.validateChild parent = .ok ()

/-- Each revision extends the one before. -/
def Linked (chain : List RosterRevision) : Prop :=
  List.IsChain (fun parent child => child.validateChild parent = .ok ()) chain

namespace RosterTree

variable {genesis revision parent : RosterRevision} {store next : RosterStore}

theorem number_pos (valid : revision.validateChild parent = .ok ()) : revision.number ≠ 0 := by
  intro zero
  have above := (RosterRevision.validateChild_ok valid).number
  rw [zero] at above
  exact absurd above (by simp)

/-- The genesis is the only revision with the number zero, and the only one without a
parent. -/
theorem genesis_unique (tree : RosterTree genesis store) (stored : store.Stored revision) :
    (revision.number = 0 ∧ revision.parentHash = none) ↔ revision = genesis := by
  constructor
  · rintro ⟨zero, -⟩
    by_contra other
    obtain ⟨parent, -, valid⟩ := tree.linked revision stored other
    exact number_pos valid zero
  · rintro rfl
    obtain ⟨number, parentHash, -⟩ := RosterRevision.validateGenesis_ok tree.valid
    exact ⟨number, parentHash⟩

/-- All stored revisions belong to the group of the genesis: induction on the number. -/
theorem group (tree : RosterTree genesis store) (stored : store.Stored revision) :
    revision.groupId = genesis.groupId := by
  induction level : revision.number.toNat generalizing revision with
  | zero =>
      by_contra other
      obtain ⟨parent, -, valid⟩ := tree.linked revision stored (fun same => other (same ▸ rfl))
      have above := (RosterRevision.validateChild_ok valid).number
      omega
  | succ level ih =>
      by_cases same : revision = genesis
      · rw [same]
      · obtain ⟨parent, parentStored, valid⟩ := tree.linked revision stored same
        have extension := RosterRevision.validateChild_ok valid
        have above := extension.number
        rw [extension.group]
        exact ih parentStored (by omega)

theorem checkTopology_ok (tree : RosterTree genesis store)
    {table : OrderedMap RosterHash RosterRevision}
    (lookup : ∀ revision, store.Stored revision → table[revision.canonicalHash]? = some revision)
    (stored : store.Stored revision) : checkTopology table genesis revision = .ok () := by
  unfold checkTopology
  by_cases same : revision.canonicalHash = genesis.canonicalHash
  · rw [if_pos same]
  · have other : revision ≠ genesis := fun equal => same (equal ▸ rfl)
    obtain ⟨parent, parentStored, valid⟩ := tree.linked revision stored other
    have parentHash := (RosterRevision.validateChild_ok valid).parentHash
    rw [if_neg same, if_neg (not_not.mpr (tree.group stored)), parentHash]
    dsimp only
    rw [lookup parent parentStored]
    dsimp only
    rw [valid]
    rfl

/-- `selected_roster_chain` of a tree: the greedy descent from its genesis. -/
theorem selectedRosterChain_eq (tree : RosterTree genesis store) :
    ∃ candidates : List RosterRevision,
      (∀ revision, revision ∈ candidates ↔ store.Stored revision ∧ revision ≠ genesis) ∧
      store.selectedRosterChain =
        .ok (genesis :: selectFrom candidates candidates.length genesis) := by
  obtain ⟨revisions, member, distinct, table, decoded, values, lookup⟩ :=
    RosterStore.decode_rows tree.encoded
  have inside := (member genesis).mpr tree.genesis_stored
  have nonempty : revisions ≠ [] := List.ne_nil_of_mem inside
  have roots : (revisions.filter fun revision =>
      decide (revision.number = 0 ∧ revision.parentHash = none)) = [genesis] := by
    rw [List.filter_congr fun revision listed =>
      decide_eq_decide.mpr (tree.genesis_unique ((member revision).mp listed)), List.filter_eq,
      List.count_eq_one_of_mem (List.Nodup.of_map _ distinct) inside]
    rfl
  have checked : revisions.forM (checkTopology table genesis) = .ok () :=
    forM_eq_ok.mpr fun revision listed =>
      tree.checkTopology_ok lookup ((member revision).mp listed)
  refine ⟨revisions.filter fun revision =>
    decide (revision.canonicalHash ≠ genesis.canonicalHash), ?_, ?_⟩
  · intro revision
    rw [List.mem_filter, member, decide_eq_true_eq]
    constructor
    · rintro ⟨stored, differs⟩
      exact ⟨stored, fun same => differs (same ▸ rfl)⟩
    · rintro ⟨stored, differs⟩
      exact ⟨stored, fun same => differs (stored.unique tree.genesis_stored same)⟩
  · simp only [RosterStore.selectedRosterChain, RosterStore.selectFromRows, decoded, Except.ok_bind,
      values, nonempty, ↓reduceIte, roots, tree.valid, Except.mapError, checked, selectChain]
    rfl

/-- A tree with more revisions than before. -/
structure Grown (genesis : RosterRevision) (store next : RosterStore) : Prop where
  tree : RosterTree genesis next
  kept : ∀ revision, store.Stored revision → next.Stored revision

theorem Grown.trans {last : RosterStore} (first : Grown genesis store next)
    (second : Grown genesis next last) : Grown genesis store last :=
  ⟨second.tree, fun revision stored => second.kept revision (first.kept revision stored)⟩

theorem grown_refl (tree : RosterTree genesis store) : Grown genesis store store :=
  ⟨tree, fun _ => id⟩

omit [Ed25519] in
theorem stored_hints (same : next.rosterRevisions = store.rosterRevisions) :
    next.Stored revision ↔ store.Stored revision := by
  rw [RosterStore.Stored, RosterStore.Stored, same]

/-- The hints are not part of the tree. -/
theorem grown_hints (tree : RosterTree genesis store)
    (same : next.rosterRevisions = store.rosterRevisions) : Grown genesis store next := by
  refine ⟨⟨?_, tree.valid, (stored_hints same).mpr tree.genesis_stored, ?_⟩,
    fun revision => (stored_hints same).mpr⟩
  · intro hash canonical row
    rw [same] at row
    exact tree.encoded hash canonical row
  · intro revision held other
    obtain ⟨parent, parentStored, valid⟩ :=
      tree.linked revision ((stored_hints same).mp held) other
    exact ⟨parent, (stored_hints same).mpr parentStored, valid⟩

/-- A row for a valid child of a stored revision. -/
theorem grown_insertRow (tree : RosterTree genesis store) (parentStored : store.Stored parent)
    (valid : revision.validateChild parent = .ok ())
    (inserted : store.insertRosterRevisionRow revision = .ok next) :
    Grown genesis store next ∧
      ∀ other, next.Stored other ↔ store.Stored other ∨ other = revision := by
  obtain ⟨absent, rfl⟩ := RosterStore.insertRosterRevisionRow_ok inserted
  refine ⟨⟨⟨RosterStore.encoded_insert tree.encoded, tree.valid, ?_, ?_⟩, ?_⟩,
    fun other => RosterStore.stored_insert absent⟩
  · exact (RosterStore.stored_insert absent).mpr (Or.inl tree.genesis_stored)
  · intro other held differs
    rcases (RosterStore.stored_insert absent).mp held with before | rfl
    · obtain ⟨upper, upperStored, valid⟩ := tree.linked other before differs
      exact ⟨upper, (RosterStore.stored_insert absent).mpr (Or.inl upperStored), valid⟩
    · exact ⟨parent, (RosterStore.stored_insert absent).mpr (Or.inl parentStored), valid⟩
  · intro other before
    exact (RosterStore.stored_insert absent).mpr (Or.inl before)

/-- `insert_roster_revision` on a tree stores a valid child. -/
theorem insertRosterRevision_ok (tree : RosterTree genesis store)
    (inserted : store.insertRosterRevision revision = .ok next) :
    store.insertRosterRevisionRow revision = .ok next ∧
      ∃ parent, store.Stored parent ∧ revision.validateChild parent = .ok () := by
  unfold RosterStore.insertRosterRevision at inserted
  split at inserted
  · split at inserted
    · cases inserted
    · rename_i nothing
      have row := tree.genesis_stored
      rw [RosterStore.Stored,
        Std.ExtTreeMap.eq_empty_iff_size_eq_zero.mpr (not_not.mp nothing)] at row
      cases row
  split at inserted
  · cases inserted
  rename_i parentHash _
  obtain ⟨found, loaded, checking⟩ := Except.bind_ok inserted
  cases found with
  | none => cases checking
  | some parent =>
      obtain ⟨⟨⟩, valid, storing⟩ := Except.bind_ok checking
      rcases RosterStore.rosterRevision_cases tree.encoded parentHash with
        ⟨-, absent⟩ | ⟨held, stored, -, present⟩
      · rw [absent] at loaded
        cases loaded
      · rw [present] at loaded
        cases loaded
        exact ⟨storing, parent, stored, Except.mapError_ok valid⟩

theorem grown_insertRosterRevision (tree : RosterTree genesis store)
    (inserted : store.insertRosterRevision revision = .ok next) :
    Grown genesis store next ∧
      ∀ other, next.Stored other ↔ store.Stored other ∨ other = revision := by
  obtain ⟨storing, parent, stored, valid⟩ := tree.insertRosterRevision_ok inserted
  exact tree.grown_insertRow stored valid storing

/-- For a valid child of a stored revision only the row is left to insert. -/
theorem insertRosterRevision_row (tree : RosterTree genesis store)
    (parentStored : store.Stored parent) (valid : revision.validateChild parent = .ok ()) :
    store.insertRosterRevision revision = store.insertRosterRevisionRow revision := by
  have parentHash := (RosterRevision.validateChild_ok valid).parentHash
  rw [RosterStore.insertRosterRevision, if_neg (number_pos valid), parentHash]
  dsimp only
  rw [RosterStore.rosterRevision_of_stored tree.encoded parentStored, Except.ok_bind]
  dsimp only
  rw [valid]
  rfl

/-- A valid child of a stored revision whose hash is not stored is inserted. -/
theorem insertRosterRevision_of_valid (tree : RosterTree genesis store)
    (parentStored : store.Stored parent) (valid : revision.validateChild parent = .ok ())
    (absent : store.rosterRevisions[revision.canonicalHash]? = none) :
    store.insertRosterRevision revision = .ok { store with
      rosterRevisions :=
        store.rosterRevisions.insert revision.canonicalHash revision.canonicalBytes } := by
  rw [tree.insertRosterRevision_row parentStored valid]
  exact RosterStore.insertRosterRevisionRow_of_absent tree.encoded absent

/-- `merge_selected_roster_chain`, whether it ends in success or stops half way. -/
theorem grown_mergeRevisions (tree : RosterTree genesis store) (revisions : List RosterRevision) :
    Grown genesis store (store.mergeRevisions revisions).1 := by
  induction revisions generalizing store with
  | nil => exact grown_refl tree
  | cons revision rest ih =>
      unfold RosterStore.mergeRevisions
      split
      · exact grown_refl tree
      · exact ih tree
      · split
        · exact grown_refl tree
        · rename_i inserted stored
          have first := (tree.grown_insertRosterRevision stored).1
          exact first.trans (ih first.tree)

theorem grown_mergeSelectedRosterChain (tree : RosterTree genesis store)
    (revisions : List RosterRevision) :
    Grown genesis store (store.mergeSelectedRosterChain revisions).1 := by
  unfold RosterStore.mergeSelectedRosterChain
  split
  · exact grown_refl tree
  · exact tree.grown_mergeRevisions revisions.tail

omit [Blake3] [Ed25519] in
theorem replaceHint_ok {peerHint : Option (EndpointId × String)}
    (hinted : store.replaceHint peerHint = .ok next) :
    next.rosterRevisions = store.rosterRevisions := by
  unfold RosterStore.replaceHint at hinted
  split at hinted
  · cases hinted
    rfl
  · unfold RosterStore.replacePeerHint at hinted
    split at hinted
    · cases hinted
    · cases hinted
      rfl

theorem grown_replaceHint (tree : RosterTree genesis store)
    {peerHint : Option (EndpointId × String)} (hinted : store.replaceHint peerHint = .ok next) :
    Grown genesis store next :=
  tree.grown_hints (replaceHint_ok hinted)

/-- The transaction that stores a valid child, unless another revision has its hash. -/
theorem grown_storeRevision (tree : RosterTree genesis store) (parentStored : store.Stored parent)
    (valid : revision.validateChild parent = .ok ())
    {peerHint : Option (EndpointId × String)}
    (stored : store.storeRevision revision peerHint = .ok next) :
    Grown genesis store next ∧
      (∀ other, next.Stored other → store.Stored other ∨ other = revision) ∧
      ((∀ other, store.Stored other → other.canonicalHash = revision.canonicalHash →
        other = revision) → next.Stored revision) := by
  obtain ⟨found, loaded, choosing⟩ := Except.bind_ok stored
  obtain ⟨inserted, storing, hinting⟩ := Except.bind_ok choosing
  have same := replaceHint_ok hinting
  rcases RosterStore.rosterRevision_cases tree.encoded revision.canonicalHash with
    ⟨-, absent⟩ | ⟨held, heldStored, sameHash, present⟩
  · rw [absent] at loaded
    cases loaded
    obtain ⟨first, exactly'⟩ := tree.grown_insertRow parentStored valid storing
    refine ⟨first.trans (first.tree.grown_replaceHint hinting), fun other held => ?_, fun _ => ?_⟩
    · exact (exactly' other).mp ((stored_hints same).mp held)
    · exact (stored_hints same).mpr ((exactly' revision).mpr (Or.inr rfl))
  · rw [present] at loaded
    cases loaded
    cases storing
    refine ⟨tree.grown_replaceHint hinting, fun other inside => ?_, fun distinct => ?_⟩
    · exact Or.inl ((stored_hints same).mp inside)
    · rw [← distinct held heldStored sameHash]
      exact (stored_hints same).mpr heldStored

/-- The selected chain of a tree. -/
theorem selected (tree : RosterTree genesis store) {chain : List RosterRevision}
    (selected : store.selectedRosterChain = .ok chain) :
    ∃ rest, chain = genesis :: rest ∧ Linked chain ∧ ∀ revision ∈ chain, store.Stored revision := by
  obtain ⟨candidates, member, selects⟩ := tree.selectedRosterChain_eq
  rw [selects] at selected
  cases selected
  have descent := selectFrom_descent candidates genesis
  refine ⟨_, rfl, descent.chain fun picked => (selectChild_some picked).2, ?_⟩
  rw [List.forall_mem_cons]
  refine ⟨tree.genesis_stored, fun revision listed => ?_⟩
  have inside := descent.subset (fun picked => (selectChild_some picked).1) revision listed
  exact ((member revision).mp inside).1

/-- A tree always selects a chain. -/
theorem exists_selected (tree : RosterTree genesis store) :
    ∃ rest, store.selectedRosterChain = .ok (genesis :: rest) ∧ Linked (genesis :: rest) ∧
      ∀ revision ∈ genesis :: rest, store.Stored revision := by
  obtain ⟨candidates, -, selects⟩ := tree.selectedRosterChain_eq
  obtain ⟨rest, same, linked, stored⟩ := tree.selected selects
  rw [same] at selects linked stored
  exact ⟨rest, selects, linked, stored⟩

theorem selectedTip_ok (tree : RosterTree genesis store) {tip : RosterRevision}
    (selects : store.selectedTip = .ok tip) : store.Stored tip := by
  obtain ⟨chain, chosen, last⟩ := Except.bind_ok selects
  obtain ⟨rest, -, -, stored⟩ := tree.selected chosen
  split at last
  · cases last
  · rename_i ends
    cases last
    exact stored tip (List.mem_of_getLast? ends)

/-- `apply_roster_change_inner`: each of its rounds stores a child of the selected tip. -/
theorem grown_applyRosterChangeLoop (tree : RosterTree genesis store) (identity : DeviceIdentity)
    (change : RosterChange) (peerHint : Option (EndpointId × String)) (attempts : Nat) :
    Grown genesis store
      (RosterStore.applyRosterChangeLoop identity change peerHint attempts store).1 := by
  induction attempts generalizing store with
  | zero => exact grown_refl tree
  | succ attempts ih =>
      unfold RosterStore.applyRosterChangeLoop
      split
      · exact grown_refl tree
      rename_i parent selects
      split
      · split
        · exact grown_refl tree
        · rename_i hinting
          exact tree.grown_replaceHint hinting
      split
      · exact grown_refl tree
      rename_i revision built
      split
      · exact grown_refl tree
      rename_i stored storing
      have first := (tree.grown_storeRevision (tree.selectedTip_ok selects)
        (RosterRevision.child_ok built) storing).1
      split
      · exact first
      split
      · exact first
      · exact first.trans (ih first.tree)

theorem validateLinks_ok {revisions : List RosterRevision} :
    validateLinks revisions = .ok () ↔ Linked revisions := by
  induction revisions with
  | nil => exact iff_of_true rfl List.isChain_nil
  | cons parent rest ih =>
      cases rest with
      | nil => exact iff_of_true rfl (List.isChain_singleton _)
      | cons child rest =>
          rw [Linked, List.isChain_cons_cons, ← Linked, ← ih, validateLinks]
          cases valid : child.validateChild parent with
          | error reason =>
              constructor
              · intro success
                cases success
              · rintro ⟨impossible, -⟩
                cases impossible
          | ok done => exact ⟨fun success => ⟨rfl, success⟩, fun success => success.2⟩

/-- The rows of a chain below a stored revision: `seen` are the revisions that the hashes tell
apart. -/
theorem grown_storeChain {seen : RosterRevision → Prop} (tree : RosterTree genesis store)
    {revisions : List RosterRevision} (parentStored : store.Stored parent)
    (linked : Linked (parent :: revisions)) (within : ∀ other, store.Stored other → seen other)
    (listed : ∀ revision ∈ revisions, seen revision)
    (distinct : ∀ a b, seen a → seen b → a.canonicalHash = b.canonicalHash → a = b)
    (stored : revisions.foldlM (fun store revision => store.storeRevision revision none) store =
      .ok next) : Grown genesis store next := by
  induction revisions generalizing store parent with
  | nil =>
      cases stored
      exact grown_refl tree
  | cons revision rest ih =>
      obtain ⟨middle, first, remaining⟩ := foldlM_cons_ok stored
      obtain ⟨valid, others⟩ := List.isChain_cons_cons.mp linked
      obtain ⟨seenRevision, seenRest⟩ := List.forall_mem_cons.mp listed
      obtain ⟨grown, only, inside⟩ := tree.grown_storeRevision parentStored valid first
      refine grown.trans (ih grown.tree ?_ others ?_ seenRest remaining)
      · exact inside fun other held same => distinct other revision (within other held)
          seenRevision same
      · intro other held
        rcases only other held with before | rfl
        · exact within other before
        · exact seenRevision

/-- A table that selects a chain is a tree below its first revision. -/
theorem of_selected {rest : List RosterRevision}
    (selects : store.selectedRosterChain = .ok (genesis :: rest)) : RosterTree genesis store := by
  unfold RosterStore.selectedRosterChain RosterStore.selectFromRows at selects
  obtain ⟨table, decoding, selects⟩ := Except.bind_ok selects
  have encoded : store.Encoded := by
    intro hash canonical row
    obtain ⟨before, after, decoded⟩ := foldlM_each decoding (hash, canonical)
      (Std.ExtTreeMap.mem_toList_iff_getElem?_eq_some.mpr row)
    obtain ⟨revision, read, decoded⟩ := Except.bind_ok decoded
    split at decoded
    · cases decoded
    rename_i same
    exact ⟨revision, (not_not.mp same).symm,
      (RosterRevision.fromCanonicalWithMemberLimit_ok (Except.mapError_ok read)).1.symm⟩
  obtain ⟨revisions, member, distinct, other, decoded, values, lookup⟩ :=
    RosterStore.decode_rows encoded
  rw [decoding, Except.ok.injEq] at decoded
  subst decoded
  dsimp only at selects
  rw [values] at selects
  split at selects
  · cases selects
  split at selects
  · cases selects
  · cases selects
  rename_i root roots
  obtain ⟨⟨⟩, valid, selects⟩ := Except.bind_ok selects
  obtain ⟨⟨⟩, checked, selects⟩ := Except.bind_ok selects
  obtain ⟨chain, -, selects⟩ := Except.bind_ok selects
  cases selects
  have inside : genesis ∈ revisions := by
    have first : genesis ∈ [genesis] := List.mem_cons_self
    rw [← roots] at first
    exact (List.mem_filter.mp first).1
  refine ⟨encoded, Except.mapError_ok valid, (member genesis).mp inside, ?_⟩
  intro revision stored differs
  have topology := forM_eq_ok.mp checked revision ((member revision).mpr stored)
  unfold checkTopology at topology
  rw [if_neg fun same => differs (stored.unique ((member genesis).mp inside) same)] at topology
  split at topology
  · cases topology
  split at topology
  · cases topology
  split at topology
  · cases topology
  rename_i parentHash _ parent found
  -- The parent is a row of the decoded table, and so of the stored one.
  have parentListed : parent ∈ table.toList.map Prod.snd :=
    List.mem_map_of_mem (Std.ExtTreeMap.mem_toList_iff_getElem?_eq_some.mpr found)
  rw [values] at parentListed
  exact ⟨parent, (member parent).mp parentListed, Except.mapError_ok topology⟩

end RosterTree

end Skillsync
