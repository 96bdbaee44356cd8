import Mathlib.Algebra.BigOperators.Group.Finset.Basic
import Mathlib.Algebra.Order.BigOperators.Group.Finset
import Skillsync.CollectionsSpec
import Skillsync.Deletions
import Skillsync.Interleaving

set_option autoImplicit false

namespace Skillsync

open Fallible Runs StateStore

/-- What the wire asks of a record, its collection apart. -/
def Record.Transferable (record : Record) : Prop :=
  (utf8 record.path.text).length ≤ maxPathBytes ∧ KindAllowed record.kind

instance : DecidablePred Record.Transferable := fun _ => inferInstanceAs (Decidable (_ ∧ _))

namespace StateStore

/-- The names that `collections` lists. -/
def names (store : StateStore) : List String := store.collections.keys

/-- The bytes a collection takes in a bundle. -/
def space (store : StateStore) (name : String) : Nat :=
  34 + (utf8 name).length + ((store.records name).map fun record => 4 + record.encodedLength).sum

/-- A hello of all collections is written, and a bundle of whatever collections are shared. -/
structure Advertises (store : StateStore) : Prop where
  hello : ∀ hint, (utf8 hint).length ≤ maxAddressHintBytes →
    ∃ bytes, (Hello.mk store.names hint).encode = .ok bytes
  bundle : ∀ shared, shared.Sublist store.names → ∃ bundle bytes,
    buildManifests store shared = .ok bundle ∧ bundle.encode = .ok bytes

/-- The tables are within the limits of the wire. -/
structure Within (store : StateStore) : Prop where
  collections : store.names.length ≤ maxCollections
  records : ∀ key record, store.record key = some record → record.Transferable
  count : (store.names.map fun name => (store.records name).length).sum ≤ maxManifestRecords
  bytes : 4 + (store.names.map store.space).sum ≤ maxManifestBytes

variable {store : StateStore}

theorem mem_names {name : String} :
    name ∈ store.names ↔ (store.collections[name]?).isSome = true := by
  rw [names, Std.ExtTreeMap.mem_keys, Std.ExtTreeMap.mem_iff_isSome_getElem?]

theorem names_ascending (store : StateStore) : store.names.Pairwise (· < ·) :=
  (Std.ExtTreeMap.ordered_keys (t := store.collections)).imp fun below =>
    compare_lt_iff_lt.mp below

theorem nodup_names (store : StateStore) : store.names.Nodup :=
  (names_ascending store).imp fun less => ne_of_lt less

end StateStore

section
variable {names : String → Prop} {records : Record → Prop} {store : StateStore}

theorem Holding.recorded (holding : Holding names records store) {name : String} {record : Record}
    (member : record ∈ store.records name) :
    record.collection = name ∧ store.record record.key = some record := by
  obtain ⟨path, found⟩ := mem_records.mp member
  have key := holding.keyed _ _ found
  exact ⟨congrArg RecordKey.collection key, by rw [key]; exact found⟩

theorem Holding.nodup_paths (holding : Holding names records store) (name : String) :
    ((store.records name).map Record.path).Nodup := by
  have distinct := nodup_recordStates holding.keyed name
  rwa [StateStore.records, List.map_map]

/-- The bundle that `build_manifests` builds. -/
def bundleOf (store : StateStore) (shared : List String) : ManifestBundle :=
  ⟨shared.map fun name => (name, Manifest.sorted (store.records name))⟩

theorem Holding.manifest_new (holding : Holding names records store) (name : String) :
    Manifest.new (store.records name) = .ok (Manifest.sorted (store.records name)) := by
  apply Manifest.new_of_distinct
  have distinct := holding.nodup_paths name
  rw [List.nodup_iff_pairwise_ne, List.pairwise_map] at distinct ⊢
  exact distinct.imp fun differs same => differs (congrArg RecordKey.path same)

theorem Holding.buildManifests (holding : Holding names records store) (shared : List String) :
    buildManifests store shared = .ok (bundleOf store shared) := by
  unfold Skillsync.buildManifests
  rw [mapM_eq_ok (g := fun name => (name, Manifest.sorted (store.records name)))]
  · rfl
  · intro name _
    rw [holding.manifest_new name]
    rfl

theorem Holding.sorted_perm (holding : Holding names records store) (name : String) :
    (Manifest.sorted (store.records name)).records.Perm (store.records name) :=
  Manifest.new_perm (holding.manifest_new name)

theorem Holding.encodedLength (holding : Holding names records store) (shared : List String) :
    (bundleOf store shared).encodedLength = 4 + (shared.map store.space).sum := by
  have each : ∀ name ∈ shared, 8 + (utf8 name).length +
      (Manifest.sorted (store.records name)).encodedLength = store.space name := by
    intro name _
    have same := ((holding.sorted_perm name).map fun record => 4 + record.encodedLength).sum_eq
    rw [Manifest.encodedLength, same, space]
    omega
  rw [ManifestBundle.encodedLength, bundleOf, List.map_map]
  exact congrArg (fun lengths => 4 + lengths.sum) (List.map_congr_left each)

theorem Holding.recordCount (holding : Holding names records store) (shared : List String) :
    ManifestBundle.recordCount (bundleOf store shared).manifests =
      (shared.map fun name => (store.records name).length).sum := by
  rw [ManifestBundle.recordCount, bundleOf, List.map_map]
  exact congrArg List.sum (List.map_congr_left fun name _ => (holding.sorted_perm name).length_eq)

/-- In a reachable state the wire's limits decide alone. -/
theorem Holding.advertises_iff (holding : Holding names records store) :
    store.Advertises ↔ store.Within := by
  have named : ∀ name ∈ store.names, NameAllowed name := fun name member =>
    (holding.named name (mem_names.mp member)).1
  constructor
  · rintro ⟨hello, bundle⟩
    have greeted := (Hello.encode_eq_ok.mp (hello "" (by decide))).1
    obtain ⟨whole, bytes, built, encoded⟩ := bundle store.names (List.Sublist.refl _)
    rw [holding.buildManifests] at built
    cases built
    obtain ⟨-, allowed, short, -⟩ := ManifestBundle.encode_eq_ok.mp encoded
    have few := allowed.few
    rw [holding.recordCount, Nat.zero_add] at few
    rw [holding.encodedLength] at short
    refine ⟨(validateCollections_eq_ok.mp greeted).1, fun key record found => ?_, few, short⟩
    have listed : (key.collection, Manifest.sorted (store.records key.collection)) ∈
        (bundleOf store store.names).manifests := by
      apply List.mem_map_of_mem (f := fun name => (name, Manifest.sorted (store.records name)))
      exact mem_names.mpr (holding.attached key record found)
    have inside := (holding.sorted_perm key.collection).mem_iff.mpr
      (mem_records.mpr ⟨key.path, found⟩)
    exact ((allowed.each _ listed).records record inside).2
  · intro within
    refine ⟨fun hint short => ?_, fun shared part => ?_⟩
    · refine Hello.encode_eq_ok.mpr ⟨validateCollections_eq_ok.mpr ⟨within.collections, named, ?_⟩,
        short⟩
      exact (names_ascending store).isChain
    · refine ⟨bundleOf store shared, _, holding.buildManifests shared,
        ManifestBundle.encode_eq_ok.mpr ⟨?_, ?_, ?_, rfl⟩⟩
      · rw [bundleOf, List.length_map]
        exact part.length_le.trans within.collections
      · have sum := (part.map fun name => (store.records name).length).sum_le_sum
          fun _ _ => Nat.zero_le _
        refine ⟨fun manifest listed => ?_, fun _ _ => List.not_mem_nil, ?_, ?_⟩
        · obtain ⟨name, member, rfl⟩ := List.mem_map.mp listed
          refine ⟨named name (part.subset member), fun record inside => ?_⟩
          obtain ⟨collection, found⟩ :=
            holding.recorded ((holding.sorted_perm name).mem_iff.mp inside)
          exact ⟨collection, within.records _ record found⟩
        · rw [bundleOf, List.map_map, show (Prod.fst ∘ fun name =>
            (name, Manifest.sorted (store.records name))) = id from rfl, List.map_id]
          exact (nodup_names store).sublist part
        · rw [holding.recordCount, Nat.zero_add]
          exact sum.trans within.count
      · rw [holding.encodedLength]
        have sum := (part.map store.space).sum_le_sum fun _ _ => Nat.zero_le _
        exact (Nat.add_le_add_left sum 4).trans within.bytes

end

namespace StateStore

/-- The paths of the stored records of a collection. -/
def paths (store : StateStore) (name : String) : Finset ProtocolPath :=
  ((store.records name).map Record.path).toFinset

end StateStore

/-- Collections with these paths are within the limits of the wire. -/
structure Room (names : Finset String) (paths : String → Finset ProtocolPath) : Prop where
  collections : names.card ≤ maxCollections
  count : ∑ name ∈ names, (paths name).card ≤ maxManifestRecords
  bytes : 4 + ∑ name ∈ names, (34 + (utf8 name).length + ∑ path ∈ paths name,
    (113 + (utf8 name).length + (utf8 path.text).length)) ≤ maxManifestBytes

instance (names : Finset String) (paths : String → Finset ProtocolPath) :
    Decidable (Room names paths) :=
  decidable_of_iff (names.card ≤ maxCollections ∧
      ∑ name ∈ names, (paths name).card ≤ maxManifestRecords ∧
      4 + ∑ name ∈ names, (34 + (utf8 name).length + ∑ path ∈ paths name,
        (113 + (utf8 name).length + (utf8 path.text).length)) ≤ maxManifestBytes)
    ⟨fun room => ⟨room.1, room.2.1, room.2.2⟩,
      fun room => ⟨room.collections, room.count, room.bytes⟩⟩

theorem Room.mono {names names' : Finset String} {paths paths' : String → Finset ProtocolPath}
    (room : Room names paths) (fewer : names' ⊆ names)
    (less : ∀ name, paths' name ⊆ paths name) : Room names' paths' := by
  refine ⟨(Finset.card_le_card fewer).trans room.collections, ?_, ?_⟩
  · refine le_trans ?_ room.count
    calc ∑ name ∈ names', (paths' name).card
        ≤ ∑ name ∈ names', (paths name).card :=
          Finset.sum_le_sum fun name _ => Finset.card_le_card (less name)
      _ ≤ ∑ name ∈ names, (paths name).card := Finset.sum_le_sum_of_subset fewer
  · refine le_trans (Nat.add_le_add_left ?_ 4) room.bytes
    refine le_trans (Finset.sum_le_sum fun name _ => ?_) (Finset.sum_le_sum_of_subset fewer)
    exact Nat.add_le_add_left (Finset.sum_le_sum_of_subset (less name)) _

section
variable {names : String → Prop} {records : Record → Prop} {store : StateStore}

theorem Record.encodedLength_le (record : Record) :
    record.encodedLength ≤
      109 + (utf8 record.collection).length + (utf8 record.path.text).length := by
  unfold Record.encodedLength
  split <;> omega

theorem Holding.space_le (holding : Holding names records store) (name : String) :
    store.space name ≤ 34 + (utf8 name).length + ∑ path ∈ store.paths name,
      (113 + (utf8 name).length + (utf8 path.text).length) := by
  rw [paths, List.sum_toFinset _ (holding.nodup_paths name), List.map_map, space]
  apply Nat.add_le_add_left
  apply List.sum_le_sum
  intro record member
  have length := record.encodedLength_le
  rw [(holding.recorded member).1] at length
  show 4 + record.encodedLength ≤ 113 + (utf8 name).length + (utf8 record.path.text).length
  omega

/-- Transferable records with room for their paths are within the limits. -/
theorem Room.within (room : Room store.names.toFinset store.paths)
    (holding : Holding names Record.Transferable store) : store.Within := by
  obtain ⟨collections, count, bytes⟩ := room
  rw [List.toFinset_card_of_nodup (nodup_names store)] at collections
  rw [List.sum_toFinset _ (nodup_names store)] at count bytes
  refine ⟨collections, holding.stored, ?_, ?_⟩
  · refine le_trans (List.sum_le_sum fun name _ => ?_) count
    rw [paths, List.toFinset_card_of_nodup (holding.nodup_paths name), List.length_map]
  · refine le_trans (Nat.add_le_add_left ?_ 4) bytes
    exact List.sum_le_sum fun name _ => holding.space_le name

end

section
variable [Blake3]

/-- What an operation offers may be transferred, and the tables have room for it. -/
def Fits (store : StateStore) (operation : StoreOperation) : Prop :=
  (∀ record ∈ operation.offers, record.Transferable) ∧
    Room (store.names ++ operation.attaches).toFinset fun name =>
      store.paths name ∪ ((operation.offers.filter fun record =>
        decide (record.collection = name)).map Record.path).toFinset

instance (store : StateStore) (operation : StoreOperation) : Decidable (Fits store operation) :=
  inferInstanceAs (Decidable (_ ∧ _))

/-- The invariant of the runs whose operations fit. -/
structure Roomy (store : StateStore) : Prop where
  holding : Holding (fun _ => True) Record.Transferable store
  room : Room store.names.toFinset store.paths

omit [Blake3] in
theorem roomy_empty : Roomy .empty := by
  have none : StateStore.empty.names = [] := rfl
  refine ⟨holding_empty, ?_⟩
  rw [none]
  exact ⟨Nat.zero_le _, Nat.zero_le _, by decide⟩

theorem Roomy.perform {store : StateStore} {operation : StoreOperation} (roomy : Roomy store)
    (fits : Fits store operation) : Roomy (operation.perform store) := by
  obtain ⟨transferable, room⟩ := fits
  let names (name : String) : Prop := name ∈ (store.names ++ operation.attaches).toFinset
  let paths (name : String) : Finset ProtocolPath :=
    store.paths name ∪ ((operation.offers.filter fun record =>
      decide (record.collection = name)).map Record.path).toFinset
  let records (record : Record) : Prop :=
    record.Transferable ∧ record.path ∈ paths record.collection
  have start : Holding names records store := by
    refine ⟨fun name attached => ⟨(roomy.holding.named name attached).1, ?_⟩, roomy.holding.keyed,
      roomy.holding.attached, fun key record found => ⟨roomy.holding.stored key record found, ?_⟩⟩
    · exact List.mem_toFinset.mpr (List.mem_append_left _ (mem_names.mpr attached))
    · have key' := roomy.holding.keyed key record found
      have collection : record.collection = key.collection := congrArg RecordKey.collection key'
      apply Finset.mem_union_left
      rw [StateStore.paths, List.mem_toFinset, collection]
      exact List.mem_map_of_mem (mem_records.mpr ⟨key.path, found⟩)
  have closed : ∀ winner tombstone : Record, records winner → tombstone.key = winner.key →
      tombstone.kind = .tombstone → records tombstone := by
    rintro winner tombstone ⟨⟨short, -⟩, inside⟩ same removed
    have collection : tombstone.collection = winner.collection :=
      congrArg RecordKey.collection same
    have path : tombstone.path = winner.path := congrArg RecordKey.path same
    refine ⟨⟨by rw [path]; exact short, ?_⟩, by rw [collection, path]; exact inside⟩
    rw [removed]
    trivial
  have after : Holding names records (operation.perform store) := by
    apply start.perform closed
    · exact fun name member => List.mem_toFinset.mpr (List.mem_append_right _ member)
    · intro record offered
      refine ⟨transferable record offered, Finset.mem_union_right _ ?_⟩
      rw [List.mem_toFinset]
      exact List.mem_map_of_mem (List.mem_filter.mpr ⟨offered, decide_eq_true rfl⟩)
  constructor
  · exact ⟨fun name attached => ⟨(after.named name attached).1, trivial⟩, after.keyed,
      after.attached, fun key record found => (after.stored key record found).1⟩
  · apply room.mono
    · intro name member
      rw [List.mem_toFinset, mem_names] at member
      exact (after.named name member).2
    · intro name path member
      rw [StateStore.paths, List.mem_toFinset] at member
      obtain ⟨record, listed, rfl⟩ := List.mem_map.mp member
      obtain ⟨collection, found⟩ := after.recorded listed
      have inside := (after.stored _ record found).2
      rw [collection] at inside
      exact inside

theorem holding_reached {operations : List StoreOperation} {store : StateStore}
    (reached : run StoreOperation.step .empty operations = some store) :
    Holding (fun _ => True) (fun _ => True) store := by
  have keeps : Preserves StoreOperation.step (fun _ _ => True)
      (Holding (fun _ => True) fun _ => True) := by
    intro store operation after holding _ taken
    obtain rfl : operation.perform store = after := Option.some.inj taken
    exact holding.perform (fun _ _ _ _ _ => trivial) (fun _ _ => trivial) fun _ _ => trivial
  exact keeps.run holding_empty (Along.of_forall fun _ _ _ => trivial) reached

/-- A node can send what it has stored exactly when its tables are within the limits of the wire;
after operations that all fit, they are. -/
theorem accepted_state_advertised (operations : List StoreOperation) (store : StateStore)
    (reached : run StoreOperation.step .empty operations = some store) :
    (store.Advertises ↔ store.Within) ∧
      (Along StoreOperation.step Fits .empty operations → store.Advertises) := by
  have keeps : Preserves StoreOperation.step Fits Roomy := by
    intro store operation after roomy fits taken
    obtain rfl : operation.perform store = after := Option.some.inj taken
    exact roomy.perform fits
  refine ⟨(holding_reached reached).advertises_iff, fun fitting => ?_⟩
  have roomy := keeps.run roomy_empty fitting reached
  exact roomy.holding.advertises_iff.mpr (roomy.room.within roomy.holding)

end

section
attribute [local instance] Blake3.checksum

/-- More collections than a hello can list. -/
def attachMany : List StoreOperation :=
  (List.range 65).map fun n => .attach (String.singleton (Char.ofNat (97 + n))) "/c" true 0 1

theorem many_collections_not_advertised :
    ∃ store, run StoreOperation.step .empty attachMany = some store ∧ ¬ store.Advertises := by
  have counted : ((run StoreOperation.step .empty attachMany).map fun store =>
      store.names.length) = some 65 := by decide +kernel
  obtain ⟨store, reached, count⟩ := Option.map_eq_some_iff.mp counted
  refine ⟨store, reached, fun advertises => ?_⟩
  have within := (holding_reached reached).advertises_iff.mp advertises
  exact absurd within.collections (by rw [count]; decide)

/-- One collection, and a scan of one file. -/
def attachAndScan : List StoreOperation :=
  [.attach "c" "/c" true 0 100,
    .scan Daemon.sample.scanner "c" "/c" (.fill 1) 9 (.ok ("/c", nested))]

theorem small_collection_advertised :
    ∃ store, run StoreOperation.step .empty attachAndScan = some store ∧ store.Advertises := by
  refine ⟨_, rfl, (accepted_state_advertised attachAndScan _ rfl).2 ?_⟩
  decide +kernel

end

end Skillsync
