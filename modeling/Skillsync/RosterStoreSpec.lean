import Mathlib.Data.Set.List
import Skillsync.GreedyDescent
import Skillsync.RosterStore

set_option autoImplicit false

namespace Skillsync

open Fallible

theorem validatePeerHint_ok {hint : String} (valid : validatePeerHint hint = .ok ()) :
    ¬ (hint = "" ∨ maxPeerHintBytes < (utf8 hint).length) := by
  unfold validatePeerHint at valid
  split at valid
  · cases valid
  · assumption

theorem RosterStore.replacePeerHint_eq {store : RosterStore} {endpoint : EndpointId}
    {hint : String} (valid : validatePeerHint hint = .ok ()) :
    store.replacePeerHint endpoint hint =
      .ok { store with peerHints := store.peerHints.insert endpoint hint } :=
  if_neg (validatePeerHint_ok valid)

section
variable [Blake3]

namespace RosterRevision

/-- What a revision with a valid signature of its author says about its parent. -/
structure Extends [Ed25519] (revision parent : RosterRevision) : Prop where
  group : revision.groupId = parent.groupId
  number : revision.number.toNat = parent.number.toNat + 1
  parentHash : revision.parentHash = some parent.canonicalHash
  author : (parent.members[revision.author]?).isSome
  members : applyChange parent.members revision.change = .ok revision.members
  signature : revision.verifySignature revision.author = .ok ()

variable [Ed25519] {revision parent : RosterRevision}

theorem validateChild_ok (valid : revision.validateChild parent = .ok ()) :
    revision.Extends parent := by
  unfold validateChild at valid
  split at valid
  · cases valid
  rename_i group
  split at valid
  · cases valid
  rename_i room
  split at valid
  · cases valid
  rename_i linked
  split at valid
  · cases valid
  rename_i author
  split at valid
  · cases valid
  obtain ⟨expected, applied, checked⟩ := Except.bind_ok valid
  split at checked
  · cases checked
  rename_i members
  rw [not_or, not_not, not_not] at linked
  refine ⟨not_not.mp group, ?_, linked.2, ?_, ?_, checked⟩
  · rw [linked.1, UInt64.toNat_add]
    exact Nat.mod_eq_of_lt (not_le.mp room)
  · simpa [Option.isSome_iff_ne_none] using author
  · rw [applied, not_not.mp members]

theorem child_ok {change : RosterChange} {author : DeviceIdentity}
    (built : parent.child change author = .ok revision) :
    revision.validateChild parent = .ok () := by
  unfold child at built
  split at built
  · cases built
  split at built
  · cases built
  obtain ⟨members, -, built⟩ := Except.bind_ok built
  split at built
  · cases built
  split at built
  · obtain ⟨⟨⟩, valid, built⟩ := Except.bind_ok built
    cases built
    exact valid
  · cases built

omit [Blake3] in
theorem validateGenesis_ok {genesis : RosterRevision} (valid : genesis.validateGenesis = .ok ()) :
    genesis.number = 0 ∧ genesis.parentHash = none ∧
      ∃ creator, genesis.change = .initial creator ∧ genesis.author = creator.endpointId ∧
        genesis.members.size = 1 ∧
        genesis.members[creator.endpointId]? = some creator.deviceName ∧
        genesis.verifySignature genesis.author = .ok () := by
  unfold validateGenesis at valid
  split at valid
  · cases valid
  rename_i first
  rw [not_or, not_not, Bool.not_eq_true, Option.isSome_eq_false_iff, Option.isNone_iff_eq_none]
    at first
  split at valid
  · rename_i creator change
    split at valid
    · cases valid
    rename_i sole
    simp only [not_or, not_not] at sole
    exact ⟨first.1, first.2, creator, change, sole.1, sole.2.1, sole.2.2, valid⟩
  · cases valid

end RosterRevision

/-- The row of a revision. -/
def RosterRevision.row (revision : RosterRevision) : RosterHash × List UInt8 :=
  (revision.canonicalHash, revision.canonicalBytes)

theorem RosterRevision.row_injective : Function.Injective RosterRevision.row := by
  intro a b same
  exact RosterRevision.canonicalBytes_injective (congrArg Prod.snd same)

def RosterRevision.keyed (revision : RosterRevision) : RosterHash × RosterRevision :=
  (revision.canonicalHash, revision)

namespace RosterStore

def Stored (store : RosterStore) (revision : RosterRevision) : Prop :=
  store.rosterRevisions[revision.canonicalHash]? = some revision.canonicalBytes

instance (store : RosterStore) : DecidablePred store.Stored := fun revision => by
  unfold Stored
  infer_instance

/-- Every row holds a revision under its hash. -/
def Encoded (store : RosterStore) : Prop :=
  ∀ hash canonical, store.rosterRevisions[hash]? = some canonical →
    ∃ revision : RosterRevision,
      hash = revision.canonicalHash ∧ canonical = revision.canonicalBytes

variable {store next : RosterStore} {revision other : RosterRevision}

theorem Stored.unique (stored : store.Stored revision) (storedOther : store.Stored other)
    (same : revision.canonicalHash = other.canonicalHash) : revision = other := by
  unfold Stored at stored storedOther
  rw [same, storedOther, Option.some.injEq] at stored
  exact (RosterRevision.canonicalBytes_injective stored).symm

/-- `load_roster_revision` on a table of revisions. -/
theorem rosterRevision_cases (encoded : store.Encoded) (hash : RosterHash) :
    (store.rosterRevisions[hash]? = none ∧ store.rosterRevision hash = .ok none) ∨
      ∃ revision, store.Stored revision ∧ revision.canonicalHash = hash ∧
        store.rosterRevision hash = .ok (some revision) := by
  cases row : store.rosterRevisions[hash]? with
  | none =>
      left
      simp only [rosterRevision, row, true_and]
  | some canonical =>
      right
      obtain ⟨revision, rfl, rfl⟩ := encoded hash canonical row
      refine ⟨revision, row, rfl, ?_⟩
      simp only [rosterRevision, row, RosterRevision.fromCanonical_canonicalBytes,
        Except.mapError, Except.ok_bind, ne_eq, not_true_eq_false, ↓reduceIte]
      rfl

theorem rosterRevision_of_stored (encoded : store.Encoded) (stored : store.Stored revision) :
    store.rosterRevision revision.canonicalHash = .ok (some revision) := by
  rcases rosterRevision_cases encoded revision.canonicalHash with ⟨absent, -⟩ |
    ⟨found, present, same, loaded⟩
  · rw [stored] at absent
    cases absent
  · rw [present.unique stored same] at loaded
    exact loaded

theorem rosterRevision_eq_none (encoded : store.Encoded) {hash : RosterHash} :
    store.rosterRevision hash = .ok none ↔ store.rosterRevisions[hash]? = none := by
  rcases rosterRevision_cases encoded hash with ⟨absent, loaded⟩ | ⟨found, present, same, loaded⟩
  · simp only [absent, loaded]
  · subst same
    rw [loaded]
    constructor
    · intro absurdity
      cases absurdity
    · intro absent
      rw [present] at absent
      cases absent

theorem insertRosterRevisionRow_ok (inserted : store.insertRosterRevisionRow revision = .ok next) :
    store.rosterRevisions[revision.canonicalHash]? = none ∧
      next = { store with
        rosterRevisions :=
          store.rosterRevisions.insert revision.canonicalHash revision.canonicalBytes } := by
  unfold insertRosterRevisionRow at inserted
  split at inserted
  · cases inserted
  rename_i fresh
  cases inserted
  rw [not_or, Bool.not_eq_true, Option.isSome_eq_false_iff, Option.isNone_iff_eq_none] at fresh
  exact ⟨fresh.1, rfl⟩

/-- On a table of revisions, only a stored hash makes the insertion of a row fail. -/
theorem insertRosterRevisionRow_of_absent (encoded : store.Encoded)
    (absent : store.rosterRevisions[revision.canonicalHash]? = none) :
    store.insertRosterRevisionRow revision = .ok { store with
      rosterRevisions :=
        store.rosterRevisions.insert revision.canonicalHash revision.canonicalBytes } := by
  apply if_neg
  rintro (present | listed)
  · rw [absent] at present
    cases present
  · obtain ⟨⟨hash, canonical⟩, member, same⟩ := List.mem_map.mp listed
    have row := Std.ExtTreeMap.mem_toList_iff_getElem?_eq_some.mp member
    obtain ⟨twin, rfl, spelled⟩ := encoded hash canonical row
    have equal : twin = revision := by
      apply RosterRevision.canonicalBytes_injective
      rw [← spelled]
      exact same
    rw [equal, absent] at row
    cases row

/-- The rows after an insertion. -/
theorem stored_insert (absent : store.rosterRevisions[revision.canonicalHash]? = none)
    {hints : OrderedMap EndpointId String} :
    Stored ⟨store.rosterRevisions.insert revision.canonicalHash revision.canonicalBytes,
        hints⟩ other ↔
      store.Stored other ∨ other = revision := by
  unfold Stored
  rw [OrderedMap.getElem?_insert]
  split
  · rename_i same
    rw [← same, absent, Option.some.injEq]
    constructor
    · intro spelled
      exact Or.inr (RosterRevision.canonicalBytes_injective spelled.symm)
    · rintro (impossible | rfl)
      · cases impossible
      · rfl
  · rename_i differs
    constructor
    · exact Or.inl
    · rintro (stored | rfl)
      · exact stored
      · exact absurd rfl differs

theorem encoded_insert (encoded : store.Encoded) {hints : OrderedMap EndpointId String} :
    Encoded ⟨store.rosterRevisions.insert revision.canonicalHash revision.canonicalBytes,
      hints⟩ := by
  intro hash canonical row
  rw [OrderedMap.getElem?_insert] at row
  split at row
  · rename_i same
    exact ⟨revision, same.symm, (Option.some.inj row).symm⟩
  · exact encoded hash canonical row

theorem decodeRosterRow_row {revisions : OrderedMap RosterHash RosterRevision}
    (fresh : revisions[revision.canonicalHash]? = none) :
    decodeRosterRow revisions revision.row =
      .ok (revisions.insert revision.canonicalHash revision) := by
  simp only [decodeRosterRow, RosterRevision.row, RosterRevision.fromCanonical_canonicalBytes,
    Except.mapError, Except.ok_bind, ne_eq, not_true_eq_false, ↓reduceIte, fresh,
    Option.isSome_none, Bool.false_eq_true]
  rfl

theorem foldlM_decodeRosterRow {revisions : List RosterRevision}
    {table : OrderedMap RosterHash RosterRevision}
    (distinct : (revisions.map RosterRevision.canonicalHash).Nodup)
    (fresh : ∀ revision ∈ revisions, table[revision.canonicalHash]? = none) :
    (revisions.map RosterRevision.row).foldlM decodeRosterRow table =
      .ok (table.insertMany (revisions.map RosterRevision.keyed)) := by
  induction revisions generalizing table with
  | nil => rfl
  | cons revision rest ih =>
      rw [List.map_cons, List.nodup_cons] at distinct
      rw [List.forall_mem_cons] at fresh
      have others : ∀ other ∈ rest,
          (table.insert revision.canonicalHash revision)[other.canonicalHash]? = none := by
        intro other member
        rw [OrderedMap.getElem?_insert, if_neg, fresh.2 other member]
        intro same
        exact distinct.1 (same ▸ List.mem_map_of_mem member)
      rw [List.map_cons, List.foldlM_cons, decodeRosterRow_row fresh.1, Except.ok_bind,
        ih distinct.2 others, List.map_cons, RosterRevision.keyed, Std.ExtTreeMap.insertMany_cons]

theorem rows_of_encoded (encoded : store.Encoded) :
    ∃ revisions : List RosterRevision,
      revisions.map RosterRevision.row = store.rosterRevisions.toList ∧
      (revisions.map RosterRevision.canonicalHash).Nodup := by
  have image : store.rosterRevisions.toList ∈ Set.range (List.map RosterRevision.row) := by
    rw [Set.range_list_map]
    rintro ⟨hash, canonical⟩ member
    obtain ⟨revision, rfl, rfl⟩ :=
      encoded hash canonical (Std.ExtTreeMap.mem_toList_iff_getElem?_eq_some.mp member)
    exact ⟨revision, rfl⟩
  obtain ⟨revisions, rows⟩ := image
  refine ⟨revisions, rows, ?_⟩
  have distinct := OrderedMap.nodup_keys store.rosterRevisions
  rwa [← rows, List.map_map] at distinct

/-- The rows of a table of revisions, decoded. -/
theorem decode_rows (encoded : store.Encoded) :
    ∃ revisions : List RosterRevision,
      (∀ revision, revision ∈ revisions ↔ store.Stored revision) ∧
      (revisions.map RosterRevision.canonicalHash).Nodup ∧
      ∃ table, store.rosterRevisions.toList.foldlM decodeRosterRow ∅ = .ok table ∧
        table.toList.map Prod.snd = revisions ∧
        ∀ revision, store.Stored revision → table[revision.canonicalHash]? = some revision := by
  obtain ⟨revisions, rows, distinct⟩ := rows_of_encoded encoded
  have member : ∀ revision, revision ∈ revisions ↔ store.Stored revision := by
    intro revision
    rw [Stored, ← Std.ExtTreeMap.mem_toList_iff_getElem?_eq_some, ← rows]
    exact (List.mem_map_of_injective RosterRevision.row_injective).symm
  have ascending : (revisions.map RosterRevision.keyed).Pairwise
      fun left right => left.1 < right.1 := by
    have sorted := OrderedMap.toList_ascending store.rosterRevisions
    rw [← rows, List.pairwise_map] at sorted
    exact List.pairwise_map.mpr sorted
  have listed := OrderedMap.toList_ofList ascending
  refine ⟨revisions, member, distinct,
    Std.ExtTreeMap.ofList (revisions.map RosterRevision.keyed), ?_, ?_, ?_⟩
  · rw [← rows, foldlM_decodeRosterRow distinct fun _ _ => Std.ExtTreeMap.getElem?_empty,
      ← Std.ExtTreeMap.ofList_eq_insertMany_empty]
  · rw [listed, List.map_map]
    exact List.map_id revisions
  · intro revision stored
    rw [← Std.ExtTreeMap.mem_toList_iff_getElem?_eq_some, listed]
    exact List.mem_map_of_mem ((member revision).mpr stored)

theorem row_of_kept (encoded : store.Encoded)
    (kept : ∀ revision, store.Stored revision → next.Stored revision) {hash : RosterHash}
    {canonical : List UInt8} (row : store.rosterRevisions[hash]? = some canonical) :
    next.rosterRevisions[hash]? = some canonical := by
  obtain ⟨revision, rfl, rfl⟩ := encoded hash canonical row
  exact kept revision row

/-- Tables of the same revisions are equal. -/
theorem table_eq (encoded : store.Encoded) (encodedNext : next.Encoded)
    (same : ∀ revision, store.Stored revision ↔ next.Stored revision) :
    store.rosterRevisions = next.rosterRevisions := by
  apply Std.ExtTreeMap.ext_getElem?
  intro hash
  apply Option.ext
  intro canonical
  constructor
  · exact row_of_kept encoded fun revision => (same revision).mp
  · exact row_of_kept encodedNext fun revision => (same revision).mpr

end RosterStore

section
variable [Ed25519] {parent child candidate : RosterRevision} {candidates : List RosterRevision}

omit [Ed25519] in
/-- The fold of `select_child`. -/
theorem greatest_of_fold {best : Option RosterRevision} {choice : Option RosterRevision}
    (folded : candidates.foldl (fun best candidate =>
      match best with
      | none => some candidate
      | some best =>
          if selectionKey candidate < selectionKey best then some best else some candidate)
      best = choice) :
    (choice = none ↔ best = none ∧ candidates = []) ∧
      ∀ winner, choice = some winner →
        (best = some winner ∨ winner ∈ candidates) ∧
        (∀ other, best = some other → selectionKey other ≤ selectionKey winner) ∧
        ∀ other ∈ candidates, selectionKey other ≤ selectionKey winner := by
  induction candidates generalizing best with
  | nil =>
      subst folded
      refine ⟨by simp, fun winner chosen => ⟨Or.inl chosen, fun other same => ?_, by simp⟩⟩
      have equal : winner = other := Option.some.inj (chosen.symm.trans same)
      exact equal ▸ le_refl _
  | cons candidate rest ih =>
      obtain ⟨stops, wins⟩ := ih folded
      cases best with
      | none =>
          refine ⟨?_, fun winner chosen => ?_⟩
          · simpa using stops
          · obtain ⟨from', above, others⟩ := wins winner chosen
            refine ⟨Or.inr ?_, fun other impossible => ?_, List.forall_mem_cons.mpr
              ⟨above candidate rfl, others⟩⟩
            · rcases from' with same | later
              · rw [Option.some.injEq] at same
                exact same ▸ List.mem_cons_self
              · exact List.mem_cons_of_mem _ later
            · cases impossible
      | some best =>
          refine ⟨?_, fun winner chosen => ?_⟩
          · dsimp only at stops
            split at stops <;> simpa using stops
          · obtain ⟨from', above, others⟩ := wins winner chosen
            dsimp only at from' above
            split at above
            · rename_i less
              rw [if_pos less] at from'
              have bound := above best rfl
              refine ⟨from'.imp_right (List.mem_cons_of_mem _), fun other same => ?_,
                List.forall_mem_cons.mpr ⟨le_trans (le_of_lt less) bound, others⟩⟩
              rwa [← Option.some.inj same]
            · rename_i notLess
              rw [if_neg notLess] at from'
              have bound := above candidate rfl
              refine ⟨Or.inr ?_, fun other same => ?_, List.forall_mem_cons.mpr ⟨bound, others⟩⟩
              · rcases from' with same | later
                · rw [Option.some.injEq] at same
                  exact same ▸ List.mem_cons_self
                · exact List.mem_cons_of_mem _ later
              · rw [← Option.some.inj same]
                exact le_trans (not_lt.mp notLess) bound

theorem selectChild_some (picked : selectChild parent candidates = some child) :
    child ∈ candidates ∧ child.validateChild parent = .ok () := by
  obtain ⟨-, wins⟩ := greatest_of_fold picked
  obtain ⟨from', -⟩ := wins child rfl
  rcases from' with impossible | member
  · cases impossible
  · simpa using member

theorem selectChild_greatest (listed : candidate ∈ candidates)
    (valid : candidate.validateChild parent = .ok ()) :
    ∃ child, selectChild parent candidates = some child ∧
      selectionKey candidate ≤ selectionKey child := by
  have member : candidate ∈
      candidates.filter fun candidate => candidate.validateChild parent = .ok () := by
    simp [listed, valid]
  cases picked : selectChild parent candidates with
  | none =>
      obtain ⟨stops, -⟩ := greatest_of_fold picked
      rw [(stops.mp rfl).2] at member
      cases member
  | some child =>
      obtain ⟨-, wins⟩ := greatest_of_fold picked
      exact ⟨child, rfl, (wins child rfl).2.2 candidate member⟩

theorem selectFrom_eq_descend (fuel : Nat) (root : RosterRevision) :
    selectFrom candidates fuel root =
      GreedyDescent.descend (fun parent => selectChild parent candidates) fuel root := by
  induction fuel generalizing root with
  | zero => rfl
  | succ fuel ih =>
      unfold selectFrom GreedyDescent.descend
      cases selectChild root candidates with
      | none => rfl
      | some child => exact congrArg (List.cons child) (ih child)

/-- `select_chain` goes on until no candidate extends its last revision. -/
theorem selectFrom_descent (candidates : List RosterRevision) (root : RosterRevision) :
    GreedyDescent.Descent (fun parent => selectChild parent candidates) root
      (selectFrom candidates candidates.length root) := by
  rw [selectFrom_eq_descend]
  apply GreedyDescent.descend_complete fun revision : RosterRevision => revision.number.toNat
  · intro parent child picked
    obtain ⟨listed, valid⟩ := selectChild_some picked
    have next := (RosterRevision.validateChild_ok valid).number
    exact ⟨listed, by omega⟩
  · exact List.countP_le_length

end

end

end Skillsync
