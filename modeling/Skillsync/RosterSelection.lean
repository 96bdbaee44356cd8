import Skillsync.RosterRuns

set_option autoImplicit false

namespace Skillsync

open Fallible

section
variable [Blake3] [Ed25519]

/-- The hashes of the revisions seen tell them apart. -/
def Distinguished (seen : RosterRevision → Prop) : Prop :=
  ∀ a b, seen a → seen b → a.canonicalHash = b.canonicalHash → a = b

/-- What chains are compared by: at their first difference by removal, then by hash. -/
def chainKey (chain : List RosterRevision) : List (Nat ×ₗ RosterHash) := chain.map selectionKey

omit [Ed25519] in
theorem selectionKey_eq {seen : RosterRevision → Prop} (distinguished : Distinguished seen)
    {a b : RosterRevision} (seenA : seen a) (seenB : seen b)
    (same : selectionKey a = selectionKey b) : a = b :=
  distinguished a b seenA seenB (congrArg (fun key => (ofLex key).2) same)

omit [Ed25519] in
theorem chainKey_eq {seen : RosterRevision → Prop} (distinguished : Distinguished seen)
    {a b : List RosterRevision} (seenA : ∀ revision ∈ a, seen revision)
    (seenB : ∀ revision ∈ b, seen revision) (same : chainKey a = chainKey b) : a = b := by
  induction a generalizing b with
  | nil =>
      cases b with
      | nil => rfl
      | cons revision rest => cases same
  | cons revision rest ih =>
      cases b with
      | nil => cases same
      | cons other others =>
          obtain ⟨firstA, restA⟩ := List.forall_mem_cons.mp seenA
          obtain ⟨firstB, restB⟩ := List.forall_mem_cons.mp seenB
          obtain ⟨first, tail⟩ := List.cons.inj same
          rw [selectionKey_eq distinguished firstA firstB first, ih restA restB tail]

namespace RosterTree

variable {genesis parent tip : RosterRevision} {store next : RosterStore}
  {seen : RosterRevision → Prop}

theorem linked_numbers {rest : List RosterRevision} (linked : Linked (parent :: rest)) :
    ∀ revision ∈ rest, revision.number ≠ 0 := by
  induction rest generalizing parent with
  | nil => simp
  | cons child rest ih =>
      obtain ⟨valid, others⟩ := List.isChain_cons_cons.mp linked
      exact List.forall_mem_cons.mpr ⟨number_pos valid, ih others⟩

/-- The selected chain is the greatest of the stored chains. -/
theorem selected_greatest (tree : RosterTree genesis store)
    (distinguished : Distinguished store.Stored) {selected other : List RosterRevision}
    (selects : store.selectedRosterChain = .ok selected) (linked : Linked (genesis :: other))
    (stored : ∀ revision ∈ other, store.Stored revision) :
    chainKey (genesis :: other) ≤ chainKey selected := by
  obtain ⟨candidates, member, chosen⟩ := tree.selectedRosterChain_eq
  rw [selects] at chosen
  cases chosen
  have descent := selectFrom_descent candidates genesis
  have zero := (RosterRevision.validateGenesis_ok tree.valid).1
  have listed : ∀ revision ∈ other, revision ∈ candidates := by
    intro revision inside
    refine (member revision).mpr ⟨stored revision inside, ?_⟩
    rintro rfl
    exact linked_numbers linked revision inside zero
  apply List.cons_le_cons
  refine descent.greatest
    (fun parent child : RosterRevision => child.validateChild parent = .ok ()) ?_
    (fun picked => (selectChild_some picked).1) ?_ linked listed
  · intro a listedA b listedB same
    exact selectionKey_eq distinguished ((member a).mp listedA).1 ((member b).mp listedB).1 same
  · intro parent node listed valid
    exact selectChild_greatest listed valid

/-- Every stored revision has a derivation in the store: induction on its number. -/
theorem derivation (tree : RosterTree genesis store) (stored : store.Stored tip) :
    ∃ front, (front ++ [tip]).head? = some genesis ∧ Linked (front ++ [tip]) ∧
      ∀ revision ∈ front ++ [tip], store.Stored revision := by
  induction level : tip.number.toNat generalizing tip with
  | zero =>
      have same : tip = genesis := by
        by_contra other
        obtain ⟨parent, -, valid⟩ := tree.linked tip stored other
        have above := (RosterRevision.validateChild_ok valid).number
        omega
      subst same
      exact ⟨[], rfl, List.isChain_singleton _, by simpa using stored⟩
  | succ level ih =>
      by_cases same : tip = genesis
      · subst same
        exact ⟨[], rfl, List.isChain_singleton _, by simpa using stored⟩
      · obtain ⟨parent, parentStored, valid⟩ := tree.linked tip stored same
        have above := (RosterRevision.validateChild_ok valid).number
        obtain ⟨front, head, linked, inside⟩ := ih parentStored (by omega)
        refine ⟨front ++ [parent], ?_, ?_, ?_⟩
        · rw [List.head?_append_of_ne_nil _ (by simp), head]
        · apply List.isChain_append.mpr ⟨linked, List.isChain_singleton _, ?_⟩
          intro last ends next starts
          simp only [List.getLast?_append, List.getLast?_singleton, List.head?_singleton,
            Option.mem_def, Option.some_or, Option.some.injEq] at ends starts
          rw [← ends, ← starts]
          exact valid
        · intro revision listed
          rcases List.mem_append.mp listed with upper | own
          · exact inside revision upper
          · rw [List.mem_singleton.mp own]
            exact stored

end RosterTree

/-- The last two revisions of a chain. -/
theorem linked_snoc {front : List RosterRevision} {parent tip : RosterRevision}
    (linked : Linked (front ++ [parent] ++ [tip])) :
    Linked (front ++ [parent]) ∧ tip.validateChild parent = .ok () := by
  obtain ⟨upper, -, joint⟩ := List.isChain_append.mp linked
  exact ⟨upper, joint parent (by simp) tip rfl⟩

/-- A revision has one derivation: induction from its end. -/
theorem derivation_unique {seen : RosterRevision → Prop} (distinguished : Distinguished seen)
    {genesis tip : RosterRevision} (zero : genesis.number = 0)
    {front other : List RosterRevision} (head : (front ++ [tip]).head? = some genesis)
    (linked : Linked (front ++ [tip])) (inside : ∀ revision ∈ front, seen revision)
    (headOther : (other ++ [tip]).head? = some genesis) (linkedOther : Linked (other ++ [tip]))
    (insideOther : ∀ revision ∈ other, seen revision) : front = other := by
  induction front using List.reverseRecOn generalizing tip other with
  | nil =>
      have same : tip = genesis := by simpa using head
      cases other using List.reverseRecOn with
      | nil => rfl
      | append_singleton other last =>
          have valid := (linked_snoc linkedOther).2
          exact absurd (same ▸ zero) (RosterTree.number_pos valid)
  | append_singleton front parent ih =>
      obtain ⟨upper, valid⟩ := linked_snoc linked
      cases other using List.reverseRecOn with
      | nil =>
          have same : tip = genesis := by simpa using headOther
          exact absurd (same ▸ zero) (RosterTree.number_pos valid)
      | append_singleton other last =>
          obtain ⟨upperOther, validOther⟩ := linked_snoc linkedOther
          have first := (RosterRevision.validateChild_ok valid).parentHash
          rw [(RosterRevision.validateChild_ok validOther).parentHash, Option.some.injEq] at first
          have same : last = parent := by
            apply distinguished last parent _ _ first
            · exact insideOther last (by simp)
            · exact inside parent (by simp)
          subst same
          rw [List.head?_append_of_ne_nil _ (by simp)] at head headOther
          rw [ih head upper (fun revision listed => inside revision (List.mem_append_left _ listed))
            headOther upperOther
            (fun revision listed => insideOther revision (List.mem_append_left _ listed))]

omit [Ed25519] in
theorem chainKey_le_of_prefix {front whole : List RosterRevision} (starts : front <+: whole) :
    chainKey front ≤ chainKey whole :=
  not_lt.mp (List.IsPrefix.le (starts.map selectionKey))

namespace RosterTree

variable {genesis parent : RosterRevision} {store next : RosterStore}
  {seen : RosterRevision → Prop}

/-- Without collisions a valid chain below a stored revision is stored completely. -/
theorem mergeRevisions_eq (tree : RosterTree genesis store) (distinguished : Distinguished seen)
    {revisions : List RosterRevision} (parentStored : store.Stored parent)
    (linked : Linked (parent :: revisions)) (within : ∀ other, store.Stored other → seen other)
    (listed : ∀ revision ∈ revisions, seen revision) :
    (store.mergeRevisions revisions).2 = .ok () ∧
      RosterTree genesis (store.mergeRevisions revisions).1 ∧
      ∀ other, (store.mergeRevisions revisions).1.Stored other ↔
        store.Stored other ∨ other ∈ revisions := by
  induction revisions generalizing store parent with
  | nil => exact ⟨rfl, tree, by simp [RosterStore.mergeRevisions]⟩
  | cons revision rest ih =>
      obtain ⟨valid, others⟩ := List.isChain_cons_cons.mp linked
      obtain ⟨seenRevision, seenRest⟩ := List.forall_mem_cons.mp listed
      unfold RosterStore.mergeRevisions
      rcases RosterStore.rosterRevision_cases tree.encoded revision.canonicalHash with
        ⟨absent, loaded⟩ | ⟨held, heldStored, sameHash, loaded⟩
      · rw [loaded]
        dsimp only
        rw [tree.insertRosterRevision_of_valid parentStored valid absent]
        dsimp only
        obtain ⟨grown, exactly'⟩ := tree.grown_insertRow parentStored valid
          (RosterStore.insertRosterRevisionRow_of_absent tree.encoded absent)
        have inside := (exactly' revision).mpr (Or.inr rfl)
        have within' := fun other held => ((exactly' other).mp held).elim (within other)
          fun same => same ▸ seenRevision
        obtain ⟨success, after, stored⟩ := ih grown.tree inside others within' seenRest
        refine ⟨success, after, fun other => ?_⟩
        rw [stored other, exactly' other, List.mem_cons, or_assoc]
      · have same : held = revision :=
          distinguished held revision (within held heldStored) seenRevision sameHash
        subst same
        rw [loaded]
        dsimp only
        obtain ⟨success, after, stored⟩ := ih tree heldStored others within seenRest
        refine ⟨success, after, fun other => ?_⟩
        rw [stored other, List.mem_cons]
        constructor
        · rintro (before | later)
          · exact Or.inl before
          · exact Or.inr (Or.inr later)
        · rintro (before | rfl | later)
          · exact Or.inl before
          · exact Or.inl heldStored
          · exact Or.inr later

theorem checkMerge_of_valid (tree : RosterTree genesis store) {rest : List RosterRevision}
    (linked : Linked (genesis :: rest)) : store.checkMerge (genesis :: rest) = .ok () := by
  obtain ⟨candidates, -, selects⟩ := tree.selectedRosterChain_eq
  have links : validateLinks (genesis :: rest) = .ok () := validateLinks_ok.mpr linked
  simp only [RosterStore.checkMerge, tree.valid, links, selects, Except.mapError, Except.ok_bind,
    ne_eq, not_true_eq_false, ↓reduceIte]
  rfl

/-- Merging a valid chain of the stored genesis succeeds and adds exactly its revisions. -/
theorem mergeSelectedRosterChain_eq (tree : RosterTree genesis store)
    (distinguished : Distinguished seen) {rest : List RosterRevision}
    (linked : Linked (genesis :: rest)) (within : ∀ other, store.Stored other → seen other)
    (listed : ∀ revision ∈ rest, seen revision) :
    (store.mergeSelectedRosterChain (genesis :: rest)).2 = .ok () ∧
      RosterTree genesis (store.mergeSelectedRosterChain (genesis :: rest)).1 ∧
      ∀ other, (store.mergeSelectedRosterChain (genesis :: rest)).1.Stored other ↔
        store.Stored other ∨ other ∈ rest := by
  rw [RosterStore.mergeSelectedRosterChain, tree.checkMerge_of_valid linked]
  exact tree.mergeRevisions_eq distinguished tree.genesis_stored linked within listed

/-- Merging any sequence of valid chains adds exactly their revisions. -/
theorem merge_run (tree : RosterTree genesis store) (distinguished : Distinguished seen)
    {tails : List (List RosterRevision)} (linked : ∀ rest ∈ tails, Linked (genesis :: rest))
    (within : ∀ other, store.Stored other → seen other)
    (listed : ∀ rest ∈ tails, ∀ revision ∈ rest, seen revision) :
    let merged := tails.foldl
      (fun store rest => (store.mergeSelectedRosterChain (genesis :: rest)).1) store
    RosterTree genesis merged ∧
      ∀ other, merged.Stored other ↔ store.Stored other ∨ ∃ rest ∈ tails, other ∈ rest := by
  induction tails generalizing store with
  | nil => exact ⟨tree, by simp⟩
  | cons rest tails ih =>
      rw [List.forall_mem_cons] at linked listed
      obtain ⟨-, after, stored⟩ :=
        tree.mergeSelectedRosterChain_eq distinguished linked.1 within listed.1
      have within' := fun other held => ((stored other).mp held).elim (within other)
        (listed.1 other)
      obtain ⟨final, storedFinal⟩ := ih after linked.2 within' listed.2
      refine ⟨final, fun other => ?_⟩
      rw [List.foldl_cons, storedFinal other, stored other]
      simp only [List.mem_cons, exists_eq_or_imp, or_assoc]

end RosterTree

omit [Blake3] [Ed25519] in
theorem ofList_perm {Key Value : Type} [LinearOrder Key] {left right : List (Key × Value)}
    (distinct : (left.map Prod.fst).Nodup) (same : left.Perm right) :
    (Std.ExtTreeMap.ofList left : OrderedMap Key Value) = Std.ExtTreeMap.ofList right := by
  have apart : ∀ entries : List (Key × Value), (entries.map Prod.fst).Nodup →
      entries.Pairwise fun a b => ¬ compare a.1 b.1 = .eq := fun entries nodup => by
    rw [List.nodup_iff_pairwise_ne, List.pairwise_map] at nodup
    exact nodup.imp fun differs equal => differs (compare_eq_iff_eq.mp equal)
  have distinct' := (same.map Prod.fst).nodup_iff.mp distinct
  apply Std.ExtTreeMap.ext_getElem?
  intro key
  by_cases listed : key ∈ left.map Prod.fst
  · obtain ⟨⟨_, value⟩, member, rfl⟩ := List.mem_map.mp listed
    rw [Std.ExtTreeMap.getElem?_ofList_of_mem Std.ReflCmp.compare_self (apart _ distinct) member,
      Std.ExtTreeMap.getElem?_ofList_of_mem Std.ReflCmp.compare_self (apart _ distinct')
        (same.mem_iff.mp member)]
  · have absent := listed
    rw [(same.map Prod.fst).mem_iff] at absent
    rw [Std.ExtTreeMap.getElem?_ofList_of_contains_eq_false (by simpa using listed),
      Std.ExtTreeMap.getElem?_ofList_of_contains_eq_false (by simpa using absent)]

/-- The order of the rows does not matter. -/
theorem selectFromRows_perm {store : RosterStore} (encoded : store.Encoded)
    {rows : List (RosterHash × List UInt8)} (same : rows.Perm store.rosterRevisions.toList) :
    RosterStore.selectFromRows rows = store.selectedRosterChain := by
  have decoded : rows.foldlM RosterStore.decodeRosterRow ∅ =
      store.rosterRevisions.toList.foldlM RosterStore.decodeRosterRow ∅ := by
    obtain ⟨revisions, spelled, distinct⟩ := RosterStore.rows_of_encoded encoded
    have image : rows ∈ Set.range (List.map RosterRevision.row) := by
      rw [Set.range_list_map]
      intro row listed
      rw [same.mem_iff, ← spelled] at listed
      obtain ⟨revision, -, rfl⟩ := List.mem_map.mp listed
      exact ⟨revision, rfl⟩
    obtain ⟨others, rfl⟩ := image
    rw [← spelled, List.map_perm_map_iff RosterRevision.row_injective] at same
    have fresh : ∀ revision : RosterRevision,
        (∅ : OrderedMap RosterHash RosterRevision)[revision.canonicalHash]? = none :=
      fun _ => Std.ExtTreeMap.getElem?_empty
    have distinct' := (same.map RosterRevision.canonicalHash).nodup_iff.mpr distinct
    rw [← spelled, RosterStore.foldlM_decodeRosterRow distinct fun revision _ => fresh revision,
      RosterStore.foldlM_decodeRosterRow distinct' fun revision _ => fresh revision,
      ← Std.ExtTreeMap.ofList_eq_insertMany_empty, ← Std.ExtTreeMap.ofList_eq_insertMany_empty,
      ofList_perm _ (same.map RosterRevision.keyed)]
    rwa [List.map_map]
  rw [RosterStore.selectedRosterChain, RosterStore.selectFromRows, decoded,
    ← RosterStore.selectFromRows]

namespace RosterTree

variable {genesis : RosterRevision} {store next other : RosterStore}
  {seen : RosterRevision → Prop} {previous : List RosterRevision}

/-- Merging valid chains selects the greatest of the chain selected before and the merged
ones: the derivation of the new tip was all in the store, or is the start of a merged chain. -/
theorem merged_selection (tree : RosterTree genesis store) (distinguished : Distinguished seen)
    {tails : List (List RosterRevision)} (linked : ∀ rest ∈ tails, Linked (genesis :: rest))
    (within : ∀ other, store.Stored other → seen other)
    (listed : ∀ rest ∈ tails, ∀ revision ∈ rest, seen revision)
    (selects : store.selectedRosterChain = .ok previous) :
    ∃ selected,
      (tails.foldl (fun store rest => (store.mergeSelectedRosterChain (genesis :: rest)).1)
        store).selectedRosterChain = .ok selected ∧
      selected ∈ previous :: tails.map (List.cons genesis) ∧
      ∀ chain ∈ previous :: tails.map (List.cons genesis), chainKey chain ≤ chainKey selected := by
  obtain ⟨merged, stored⟩ := tree.merge_run distinguished linked within listed
  have zero := (RosterRevision.validateGenesis_ok tree.valid).1
  have seenMerged := fun revision held => ((stored revision).mp held).elim (within revision)
    fun ⟨rest, member, inside⟩ => listed rest member revision inside
  have apart := fun a b heldA heldB => distinguished a b (seenMerged a heldA) (seenMerged b heldB)
  obtain ⟨selectedRest, chosen, selectedLinked, selectedStored⟩ := merged.exists_selected
  obtain ⟨previousRest, rfl, previousLinked, previousStored⟩ := tree.selected selects
  have upper : ∀ chain ∈ (genesis :: previousRest) :: tails.map (List.cons genesis),
      chainKey chain ≤ chainKey (genesis :: selectedRest) := by
    intro chain member
    rcases List.mem_cons.mp member with rfl | member
    · apply merged.selected_greatest apart chosen previousLinked
      intro revision inside
      exact (stored revision).mpr (Or.inl (previousStored revision (List.mem_cons_of_mem _ inside)))
    · obtain ⟨rest, inTails, rfl⟩ := List.mem_map.mp member
      apply merged.selected_greatest apart chosen (linked rest inTails)
      exact fun revision inside => (stored revision).mpr (Or.inr ⟨rest, inTails, inside⟩)
  refine ⟨_, chosen, ?_, upper⟩
  have seenSelected : ∀ revision ∈ genesis :: selectedRest, seen revision :=
    fun revision inside => seenMerged revision (selectedStored revision inside)
  -- The chain that bounds the selected one is equal to it.
  have bounded : ∀ chain ∈ (genesis :: previousRest) :: tails.map (List.cons genesis),
      chainKey (genesis :: selectedRest) ≤ chainKey chain → (∀ revision ∈ chain, seen revision) →
      genesis :: selectedRest ∈ (genesis :: previousRest) :: tails.map (List.cons genesis) := by
    intro chain member bound seenChain
    rw [chainKey_eq distinguished seenSelected seenChain (le_antisymm bound (upper chain member))]
    exact member
  obtain ⟨front, tip, whole⟩ : ∃ front tip, genesis :: selectedRest = front ++ [tip] :=
    ⟨_, _, (List.dropLast_append_getLast (List.cons_ne_nil genesis selectedRest)).symm⟩
  have head : (front ++ [tip]).head? = some genesis := whole ▸ rfl
  have chain : Linked (front ++ [tip]) := whole ▸ selectedLinked
  have seenFront : ∀ revision ∈ front, seen revision := fun revision inside =>
    seenSelected revision (whole ▸ List.mem_append_left _ inside)
  have tipStored := selectedStored tip (whole ▸ List.mem_append_right _ List.mem_cons_self)
  rcases (stored tip).mp tipStored with before | ⟨rest, inTails, inside⟩
  · -- The tip was stored before, and with it the whole selected chain.
    obtain ⟨upperFront, upperHead, upperLinked, upperStored⟩ := tree.derivation before
    have same := derivation_unique distinguished zero head chain seenFront upperHead upperLinked
      fun revision inside => within revision (upperStored revision (List.mem_append_left _ inside))
    subst same
    rw [← whole] at upperStored
    apply bounded (genesis :: previousRest) List.mem_cons_self
    · apply tree.selected_greatest (fun a b heldA heldB =>
        distinguished a b (within a heldA) (within b heldB)) selects selectedLinked
      exact fun revision listed => upperStored revision (List.mem_cons_of_mem _ listed)
    · exact fun revision listed => within revision (previousStored revision listed)
  · -- The tip is in a merged chain, which starts with the whole selected chain.
    obtain ⟨inner, outer, rfl⟩ := List.append_of_mem inside
    have spelled : genesis :: (inner ++ tip :: outer) = (genesis :: inner ++ [tip]) ++ outer := by
      simp
    have startLinked : Linked (genesis :: inner ++ [tip]) := by
      have link := linked _ inTails
      rw [spelled] at link
      exact link.left_of_append
    have seenInner : ∀ revision ∈ genesis :: inner, seen revision := by
      apply List.forall_mem_cons.mpr ⟨within genesis tree.genesis_stored, ?_⟩
      exact fun revision member => listed _ inTails revision (List.mem_append_left _ member)
    have same := derivation_unique distinguished zero head chain seenFront rfl startLinked seenInner
    apply bounded (genesis :: (inner ++ tip :: outer))
      (List.mem_cons_of_mem _ (List.mem_map_of_mem inTails))
    · apply chainKey_le_of_prefix
      rw [whole, same, spelled]
      exact List.prefix_append _ _
    · exact List.forall_mem_cons.mpr ⟨within genesis tree.genesis_stored, listed _ inTails⟩

/-- Merging one more chain. -/
theorem merged_with (tree : RosterTree genesis store) (distinguished : Distinguished seen)
    {rest previousRest : List RosterRevision} (linked : Linked (genesis :: rest))
    (within : ∀ other, store.Stored other → seen other)
    (listed : ∀ revision ∈ rest, seen revision)
    (selects : store.selectedRosterChain = .ok (genesis :: previousRest)) :
    ∃ selected,
      (store.mergeSelectedRosterChain (genesis :: rest)).1.selectedRosterChain = .ok selected ∧
      (selected = genesis :: previousRest ∨ selected = genesis :: rest) ∧
      chainKey (genesis :: previousRest) ≤ chainKey selected ∧
      chainKey (genesis :: rest) ≤ chainKey selected := by
  have linked' : ∀ tail ∈ [rest], Linked (genesis :: tail) := by simpa using linked
  have listed' : ∀ tail ∈ [rest], ∀ revision ∈ tail, seen revision := by simpa using listed
  obtain ⟨selected, chosen, member, greatest⟩ :=
    tree.merged_selection distinguished linked' within listed' selects
  refine ⟨selected, chosen, by simpa using member, greatest _ List.mem_cons_self, ?_⟩
  exact greatest _ (List.mem_cons_of_mem _ List.mem_cons_self)

theorem selected_congr (same : next.rosterRevisions = store.rosterRevisions) :
    next.selectedRosterChain = store.selectedRosterChain := by
  unfold RosterStore.selectedRosterChain
  rw [same]

/-- A table with one more chain, however it was stored, selects what a merge of it selects. -/
theorem selected_union (tree : RosterTree genesis store) (distinguished : Distinguished seen)
    {rest previousRest : List RosterRevision} (linked : Linked (genesis :: rest))
    (within : ∀ other, store.Stored other → seen other)
    (listed : ∀ revision ∈ rest, seen revision)
    (selects : store.selectedRosterChain = .ok (genesis :: previousRest))
    (grown : RosterTree genesis next)
    (stored : ∀ other, next.Stored other ↔ store.Stored other ∨ other ∈ rest) :
    ∃ selected, next.selectedRosterChain = .ok selected ∧
      (selected = genesis :: previousRest ∨ selected = genesis :: rest) ∧
      chainKey (genesis :: previousRest) ≤ chainKey selected ∧
      chainKey (genesis :: rest) ≤ chainKey selected := by
  obtain ⟨-, mergedTree, mergedStored⟩ :=
    tree.mergeSelectedRosterChain_eq distinguished linked within listed
  have table := RosterStore.table_eq grown.encoded mergedTree.encoded fun other =>
    (stored other).trans (mergedStored other).symm
  rw [selected_congr table]
  exact tree.merged_with distinguished linked within listed selects

/-- Two stores that exchange the chains they selected before select the same chain. -/
theorem exchange_agrees {remote : RosterStore} (tree : RosterTree genesis store)
    (remoteTree : RosterTree genesis remote) (distinguished : Distinguished seen)
    (within : ∀ other, store.Stored other → seen other)
    (remoteWithin : ∀ other, remote.Stored other → seen other) :
    ∃ mine theirs agreed, store.selectedRosterChain = .ok mine ∧
      remote.selectedRosterChain = .ok theirs ∧
      (store.mergeSelectedRosterChain theirs).1.selectedRosterChain = .ok agreed ∧
      (remote.mergeSelectedRosterChain mine).1.selectedRosterChain = .ok agreed := by
  obtain ⟨mine, selects, linked, stored⟩ := tree.exists_selected
  obtain ⟨theirs, remoteSelects, remoteLinked, remoteStored⟩ := remoteTree.exists_selected
  have seenMine : ∀ revision ∈ genesis :: mine, seen revision :=
    fun revision inside => within revision (stored revision inside)
  have seenTheirs : ∀ revision ∈ genesis :: theirs, seen revision :=
    fun revision inside => remoteWithin revision (remoteStored revision inside)
  obtain ⟨here, hereChosen, hereMember, mineLeHere, theirsLeHere⟩ :=
    tree.merged_with distinguished remoteLinked within
      (fun revision inside => seenTheirs revision (List.mem_cons_of_mem _ inside)) selects
  obtain ⟨there, thereChosen, thereMember, theirsLeThere, mineLeThere⟩ :=
    remoteTree.merged_with distinguished linked remoteWithin
      (fun revision inside => seenMine revision (List.mem_cons_of_mem _ inside)) remoteSelects
  have same : here = there := by
    have seenHere : ∀ revision ∈ here, seen revision := by
      rcases hereMember with rfl | rfl
      · exact seenMine
      · exact seenTheirs
    have seenThere : ∀ revision ∈ there, seen revision := by
      rcases thereMember with rfl | rfl
      · exact seenTheirs
      · exact seenMine
    apply chainKey_eq distinguished seenHere seenThere
    apply le_antisymm
    · rcases hereMember with rfl | rfl
      · exact mineLeThere
      · exact theirsLeThere
    · rcases thereMember with rfl | rfl
      · exact theirsLeHere
      · exact mineLeHere
  exact ⟨_, _, here, selects, remoteSelects, hereChosen, same ▸ thereChosen⟩

end RosterTree

/-- From any tables that select a chain of the group, and after any operations, merging valid
chains in any order selects the greatest of the chain selected before and the merged ones; two
stores that exchange the chains they selected before the exchange select the same chain. -/
theorem roster_selection_converges {genesis : RosterRevision} {first second : List RosterRevision}
    {start start' : RosterStore} {operations operations' : List RosterOperation}
    {chains : List (List RosterRevision)}
    (selects : start.selectedRosterChain = .ok (genesis :: first))
    (selects' : start'.selectedRosterChain = .ok (genesis :: second))
    (collisionFree : CollisionFree start operations)
    (collisionFree' : CollisionFree start' operations')
    (valid : ∀ chain ∈ chains, chain.head? = some genesis ∧ Linked chain)
    (distinguished : Distinguished fun revision =>
      (operations.foldl RosterOperation.perform start).Stored revision ∨
      (operations'.foldl RosterOperation.perform start').Stored revision ∨
      ∃ chain ∈ chains, revision ∈ chain) :
    let store := operations.foldl RosterOperation.perform start
    let remote := operations'.foldl RosterOperation.perform start'
    let merged := chains.foldl (fun store chain => (store.mergeSelectedRosterChain chain).1) store
    (∃ previous selected, store.selectedRosterChain = .ok previous ∧
      merged.selectedRosterChain = .ok selected ∧
      (∀ rows, rows.Perm merged.rosterRevisions.toList →
        RosterStore.selectFromRows rows = .ok selected) ∧
      selected ∈ previous :: chains ∧
      ∀ chain ∈ previous :: chains, chainKey chain ≤ chainKey selected) ∧
    ∃ mine theirs agreed, store.selectedRosterChain = .ok mine ∧
      remote.selectedRosterChain = .ok theirs ∧
      (store.mergeSelectedRosterChain theirs).1.selectedRosterChain = .ok agreed ∧
      (remote.mergeSelectedRosterChain mine).1.selectedRosterChain = .ok agreed := by
  intro store remote merged
  have tree := ((RosterTree.of_selected selects).grown_run collisionFree).tree
  have remoteTree := ((RosterTree.of_selected selects').grown_run collisionFree').tree
  refine ⟨?_, tree.exchange_agrees remoteTree distinguished (fun _ => Or.inl)
    fun _ held => Or.inr (Or.inl held)⟩
  obtain ⟨tails, rfl⟩ : chains ∈ Set.range (List.map (List.cons genesis)) := by
    rw [Set.range_list_map]
    intro chain member
    have head := (valid chain member).1
    cases chain with
    | nil => cases head
    | cons first rest => exact ⟨rest, by rw [← Option.some.inj head]⟩
  have linked : ∀ rest ∈ tails, Linked (genesis :: rest) :=
    fun rest member => (valid _ (List.mem_map_of_mem member)).2
  have listed : ∀ rest ∈ tails, ∀ revision ∈ rest,
      store.Stored revision ∨ remote.Stored revision ∨
        ∃ chain ∈ tails.map (List.cons genesis), revision ∈ chain :=
    fun rest member revision inside => Or.inr (Or.inr
      ⟨_, List.mem_map_of_mem member, List.mem_cons_of_mem _ inside⟩)
  have spelled : merged = tails.foldl
      (fun store rest => (store.mergeSelectedRosterChain (genesis :: rest)).1) store :=
    List.foldl_map
  obtain ⟨previous, before, -, -⟩ := tree.exists_selected
  obtain ⟨selected, chosen, member, greatest⟩ :=
    tree.merged_selection distinguished linked (fun _ => Or.inl) listed before
  have mergedTree := (tree.merge_run distinguished linked (fun _ => Or.inl) listed).1
  rw [← spelled] at chosen mergedTree
  refine ⟨_, selected, before, chosen, fun rows same => ?_, member, greatest⟩
  rw [selectFromRows_perm mergedTree.encoded same, chosen]

end

section
attribute [local instance] Blake3.checksum Ed25519.checksum

open RosterSample

def admitted (byte : UInt8) : RosterRevision := child genesis (.admitMember (member byte)) 1

/-- The table of the first device after it admitted the second one. -/
def pair : RosterStore := (start.mergeSelectedRosterChain [genesis, admitted 2]).1

theorem mem_fork {revision root left right : RosterRevision}
    (held : revision = root ∨ revision = root ∨
      ∃ chain ∈ [[root, left], [root, right]], revision ∈ chain) :
    revision ∈ [root, left, right] := by
  simp only [List.mem_cons, List.not_mem_nil, or_false, exists_eq_or_imp, exists_eq_left] at held ⊢
  tauto

/-- Of two competing admissions the greater one is selected. -/
theorem competing_admissions_converge :
    ∃ selected,
      ([[genesis, admitted 2], [genesis, admitted 3]].foldl
        (fun store chain => (store.mergeSelectedRosterChain chain).1) start).selectedRosterChain =
          .ok selected ∧
      chainKey [genesis, admitted 2] ≤ chainKey selected ∧
      chainKey [genesis, admitted 3] ≤ chainKey selected := by
  have inserted : RosterStore.empty.insertRosterRevision genesis = .ok start := by decide +kernel
  have selects : start.selectedRosterChain = .ok [genesis] := by decide +kernel
  have second : (admitted 2).validateChild genesis = .ok () := by decide +kernel
  have third : (admitted 3).validateChild genesis = .ok () := by decide +kernel
  have apart : ∀ a ∈ [genesis, admitted 2, admitted 3], ∀ b ∈ [genesis, admitted 2, admitted 3],
      a.canonicalHash = b.canonicalHash → a = b := by decide +kernel
  have valid : ∀ chain ∈ [[genesis, admitted 2], [genesis, admitted 3]],
      chain.head? = some genesis ∧ Linked chain := by
    intro chain listed
    simp only [List.mem_cons, List.not_mem_nil, or_false] at listed
    rcases listed with rfl | rfl
    · exact ⟨rfl, List.isChain_cons_cons.mpr ⟨second, List.isChain_singleton _⟩⟩
    · exact ⟨rfl, List.isChain_cons_cons.mpr ⟨third, List.isChain_singleton _⟩⟩
  have known : ∀ revision, start.Stored revision ∨ start.Stored revision ∨
      (∃ chain ∈ [[genesis, admitted 2], [genesis, admitted 3]], revision ∈ chain) →
      revision ∈ [genesis, admitted 2, admitted 3] := by
    intro revision held
    rw [RosterTree.stored_start inserted] at held
    exact mem_fork held
  have distinguished : Distinguished fun revision =>
      (([] : List RosterOperation).foldl RosterOperation.perform start).Stored revision ∨
      (([] : List RosterOperation).foldl RosterOperation.perform start).Stored revision ∨
      ∃ chain ∈ [[genesis, admitted 2], [genesis, admitted 3]], revision ∈ chain := by
    rw [List.foldl_nil]
    exact fun a b heldA heldB same => apart a (known a heldA) b (known b heldB) same
  obtain ⟨⟨_, selected, -, chosen, -, -, greatest⟩, -⟩ :=
    @roster_selection_converges _ _ _ _ _ _ _ [] [] _ selects selects trivial trivial valid
      distinguished
  rw [List.foldl_nil] at chosen
  have secondListed : [genesis, admitted 2] ∈ [[genesis, admitted 2], [genesis, admitted 3]] :=
    List.mem_cons_self
  have thirdListed : [genesis, admitted 3] ∈ [[genesis, admitted 2], [genesis, admitted 3]] :=
    List.mem_cons_of_mem _ List.mem_cons_self
  exact ⟨selected, chosen, greatest _ (List.mem_cons_of_mem _ secondListed),
    greatest _ (List.mem_cons_of_mem _ thirdListed)⟩

end

end Skillsync
