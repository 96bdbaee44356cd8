import Skillsync.RecordOrder
import Skillsync.Sync

set_option autoImplicit false

namespace Skillsync

open RankedMaximum Fallible

namespace StateStore

/-- Every row is stored under its own record's key. -/
def Keyed (store : StateStore) : Prop :=
  ∀ key record, store.record key = some record → record.key = key

theorem mem_records {store : StateStore} {collection : String} {record : Record} :
    record ∈ store.records collection ↔
      ∃ path, store.record ⟨collection, path⟩ = some record := by
  simp only [records, recordStates, List.map_map, List.mem_map, List.mem_filter,
    decide_eq_true_eq, Function.comp_apply, record_eq_some, recordState]
  constructor
  · rintro ⟨⟨⟨name, path⟩, row⟩, ⟨member, rfl⟩, rfl⟩
    exact ⟨path, row, Std.ExtTreeMap.mem_toList_iff_getElem?_eq_some.mp member, rfl⟩
  · rintro ⟨path, row, present, rfl⟩
    exact ⟨(⟨collection, path⟩, row),
      ⟨Std.ExtTreeMap.mem_toList_iff_getElem?_eq_some.mpr present, rfl⟩, rfl⟩

theorem record_congr {store after : StateStore} {key : RecordKey}
    (same : after.recordState key = store.recordState key) :
    after.record key = store.record key := by
  simp only [StateStore.record, same]

theorem appendLog_record {store after : StateStore} {createdNs : I64}
    {event : OperationalEvent} {maxLogs : Nat}
    (committed : store.appendLog createdNs event maxLogs = .ok after) (key : RecordKey) :
    after.record key = store.record key := record_congr (appendLog_recordState committed key)

theorem markTombstoneMaterializedAndLog_record {store after : StateStore} {key : RecordKey}
    {createdNs : I64} {event : OperationalEvent} {maxLogs : Nat}
    (committed : store.markTombstoneMaterializedAndLog key createdNs event maxLogs = .ok after)
    (other : RecordKey) : after.record other = store.record other := by
  obtain ⟨row, present, -, -, rows⟩ := markTombstoneMaterializedAndLog_ok committed
  simp only [StateStore.record, rows]
  split
  · rename_i same
    subst same
    simp only [present, Option.map_some]
  · rfl

end StateStore

theorem materializeTombstone_row (store : StateStore) (disk : Disk) (record : Record)
    (environment : RemovalEnvironment) (now : I64) (maxLogs : Nat) {key : RecordKey}
    (other : record.key ≠ key) :
    (materializeTombstone store disk record environment now maxLogs).2.1.recordState key =
      store.recordState key := by
  unfold materializeTombstone
  split
  · rfl
  · split
    · rename_i marked
      obtain ⟨row, -, -, -, rows⟩ := StateStore.markTombstoneMaterializedAndLog_ok marked
      exact (rows key).trans (if_neg other)
    · rfl

theorem materializeTombstone_record (store : StateStore) (disk : Disk) (record : Record)
    (environment : RemovalEnvironment) (now : I64) (maxLogs : Nat) (key : RecordKey) :
    (materializeTombstone store disk record environment now maxLogs).2.1.record key =
      store.record key := by
  unfold materializeTombstone
  split
  · rfl
  · split
    · rename_i marked
      exact StateStore.markTombstoneMaterializedAndLog_record marked key
    · rfl

theorem deleteForWinner_record {config : SessionConfig} {now : I64}
    {environment : RemovalEnvironment} {collection : String} {candidate : Record}
    {store : StateStore} {disk : Disk} {after : StateStore × Disk}
    (done : deleteForWinner config now environment collection candidate store disk = .ok after)
    (key : RecordKey) : after.1.record key = store.record key := by
  unfold deleteForWinner at done
  dsimp only at done
  have removal := materializeTombstone_record store disk candidate environment now
    config.maxLogs key
  split at done
  · split at done
    · rename_i result
      cases done
      rw [result] at removal
      exact removal
    · rename_i result
      rw [result] at removal
      obtain ⟨logged, appended, done⟩ := Except.bind_ok done
      cases done
      exact (StateStore.appendLog_record (Except.mapError_ok appended) key).trans removal
  · cases done
    rfl

theorem deleteForWinner_row {config : SessionConfig} {now : I64}
    {environment : RemovalEnvironment} {collection : String} {candidate : Record}
    {store : StateStore} {disk : Disk} {after : StateStore × Disk}
    (done : deleteForWinner config now environment collection candidate store disk = .ok after)
    {key : RecordKey} (other : candidate.key ≠ key) :
    after.1.recordState key = store.recordState key := by
  unfold deleteForWinner at done
  dsimp only at done
  have removal := materializeTombstone_row store disk candidate environment now
    config.maxLogs other
  split at done
  · split at done
    · rename_i result
      cases done
      rw [result] at removal
      exact removal
    · rename_i result
      rw [result] at removal
      obtain ⟨logged, appended, done⟩ := Except.bind_ok done
      cases done
      exact (StateStore.appendLog_recordState (Except.mapError_ok appended) key).trans removal
  · cases done
    rfl

/-- All manifests of a bundle, each naming the collection of its records. -/
def ManifestBundle.Named (bundle : ManifestBundle) : Prop :=
  ∀ manifest ∈ bundle.manifests, ∀ record ∈ manifest.2.records, record.collection = manifest.1

/-- No record of the bundle is beyond the limit. -/
def ManifestBundle.Within (bundle : ManifestBundle) (limit : I64) : Prop :=
  ∀ manifest ∈ bundle.manifests, ∀ record ∈ manifest.2.records, record.modifiedNs ≤ limit

instance (bundle : ManifestBundle) (limit : I64) : Decidable (bundle.Within limit) := by
  unfold ManifestBundle.Within
  infer_instance

/-- The records a bundle lists. -/
def ManifestBundle.records (bundle : ManifestBundle) : List Record :=
  bundle.manifests.flatMap fun manifest => manifest.2.records

/-- `build_manifests` lists exactly the stored winners of the shared collections. -/
theorem buildManifests_ok {store : StateStore} {shared : List String} {bundle : ManifestBundle}
    (built : buildManifests store shared = .ok bundle) :
    bundle.manifests.map Prod.fst = shared ∧
      ∀ manifest ∈ bundle.manifests, ∀ record, record ∈ manifest.2.records ↔
        ∃ path, store.record ⟨manifest.1, path⟩ = some record := by
  unfold buildManifests at built
  obtain ⟨manifests, mapped, built⟩ := Except.bind_ok built
  cases built
  have pairs := mapM_ok mapped
  clear mapped built
  induction pairs with
  | nil => simp
  | @cons collection manifest shared manifests first _ ih =>
      obtain ⟨sorted, made, first⟩ := Except.bind_ok first
      cases first
      refine ⟨by simp only [List.map_cons, ih.1], ?_⟩
      rw [List.forall_mem_cons]
      refine ⟨fun record => ?_, ih.2⟩
      rw [Manifest.mem_new (Except.mapError_ok made), StateStore.mem_records]

theorem buildManifests_named {store : StateStore} {shared : List String}
    {bundle : ManifestBundle} (keyed : store.Keyed)
    (built : buildManifests store shared = .ok bundle) : bundle.Named := by
  intro manifest member record listed
  obtain ⟨path, stored⟩ := ((buildManifests_ok built).2 manifest member record).mp listed
  exact congrArg RecordKey.collection (keyed _ _ stored)

theorem mem_bundle_records {store : StateStore} {shared : List String} {bundle : ManifestBundle}
    (keyed : store.Keyed) (built : buildManifests store shared = .ok bundle) (record : Record) :
    record ∈ bundle.records ↔
      record.collection ∈ shared ∧ store.record record.key = some record := by
  obtain ⟨names, lists⟩ := buildManifests_ok built
  simp only [ManifestBundle.records, List.mem_flatMap]
  constructor
  · rintro ⟨manifest, member, listed⟩
    obtain ⟨path, stored⟩ := (lists manifest member record).mp listed
    have key := keyed _ _ stored
    refine ⟨?_, by rw [key]; exact stored⟩
    rw [← names, show record.collection = manifest.1 from congrArg RecordKey.collection key]
    exact List.mem_map_of_mem member
  · rintro ⟨member, stored⟩
    rw [← names, List.mem_map] at member
    obtain ⟨manifest, member, name⟩ := member
    refine ⟨manifest, member, (lists manifest member record).mpr ⟨record.path, ?_⟩⟩
    rw [name]
    exact stored

section
variable [Blake3]

/-- A candidate within the future limit is one join of the winner at its key. -/
theorem mergeCandidate_record {config : SessionConfig} {remoteEndpoint : EndpointId} {now : I64}
    {environment : Record → RemovalEnvironment} {collection : String}
    {state after : StateStore × Disk} {candidate : Record}
    (within : candidate.modifiedNs ≤ now.saturatingAdd config.maxFutureClockSkew)
    (named : candidate.collection = collection)
    (done : mergeCandidate config remoteEndpoint now environment collection state candidate =
      .ok after) (key : RecordKey) :
    after.1.record key =
      if candidate.key = key then join Record.rank (state.1.record key) candidate
      else state.1.record key := by
  unfold mergeCandidate at done
  dsimp only at done
  rw [if_neg (not_lt.mpr within)] at done
  obtain ⟨store, merged, done⟩ := Except.bind_ok done
  rw [deleteForWinner_record done key]
  subst named
  split at merged
  · rename_i current
    cases merged
    split
    · rename_i same
      subst same
      have found : state.1.record candidate.key = some candidate := current
      rw [found]
      simp only [join, lt_irrefl, ↓reduceIte]
    · rfl
  · obtain ⟨⟨middle, accepted⟩, committed, rfl⟩ := Except.of_map_ok merged
    exact StateStore.mergeRecord_record (Except.mapError_ok committed) key

theorem mergeCandidate_row {config : SessionConfig} {remoteEndpoint : EndpointId} {now : I64}
    {environment : Record → RemovalEnvironment} {collection : String}
    {state after : StateStore × Disk} {candidate : Record} {key : RecordKey}
    (other : candidate.key ≠ key)
    (done : mergeCandidate config remoteEndpoint now environment collection state candidate =
      .ok after) : after.1.recordState key = state.1.recordState key := by
  unfold mergeCandidate at done
  dsimp only at done
  split at done
  · obtain ⟨logged, appended, done⟩ := Except.bind_ok done
    cases done
    exact StateStore.appendLog_recordState (Except.mapError_ok appended) key
  · obtain ⟨store, merged, done⟩ := Except.bind_ok done
    rw [deleteForWinner_row done other]
    split at merged
    · cases merged
      rfl
    · obtain ⟨⟨middle, accepted⟩, committed, rfl⟩ := Except.of_map_ok merged
      obtain ⟨-, -, rows⟩ := StateStore.mergeRecord_ok (Except.mapError_ok committed)
      exact (rows key).trans (if_neg fun both => other both.2)

/-- A bundle leaves the rows of every other collection as they are. -/
theorem mergeManifests_row {config : SessionConfig} {remoteEndpoint : EndpointId} {now : I64}
    {environment : Record → RemovalEnvironment} {key : RecordKey} {bundle : ManifestBundle}
    {state after : StateStore × Disk} (named : bundle.Named)
    (outside : key.collection ∉ bundle.manifests.map Prod.fst)
    (done : bundle.manifests.foldlM (mergeManifest config remoteEndpoint now environment)
      state = .ok after) : after.1.recordState key = state.1.recordState key := by
  have differs : ∀ record ∈ bundle.records, record.key ≠ key := by
    rintro record listed rfl
    obtain ⟨manifest, member, inside⟩ := List.mem_flatMap.mp listed
    apply outside
    rw [show record.key.collection = manifest.1 from named manifest member record inside]
    exact List.mem_map_of_mem member
  clear named outside
  obtain ⟨manifests⟩ := bundle
  simp only [ManifestBundle.records] at differs
  induction manifests generalizing state with
  | nil =>
      cases done
      rfl
  | cons manifest rest ih =>
      obtain ⟨middle, first, done⟩ := foldlM_cons_ok done
      simp only [List.flatMap_cons, List.forall_mem_append] at differs
      rw [ih done differs.2]
      unfold mergeManifest at first
      split at first
      · exact foldlM_keeps (fun state => state.1.recordState key)
          (fun state candidate next member step => mergeCandidate_row (differs.1 _ member) step)
          first
      · cases first

/-- What a manifest contributes to the winners: the join of its records, key by key. -/
theorem mergeCandidates_winner {config : SessionConfig} {remoteEndpoint : EndpointId} {now : I64}
    {environment : Record → RemovalEnvironment} {collection : String} {key : RecordKey}
    {candidates : List Record} {state after : StateStore × Disk} {history : Set Record}
    (wins : IsWinner Record.rank history (state.1.record key))
    (within : ∀ candidate ∈ candidates,
      candidate.modifiedNs ≤ now.saturatingAdd config.maxFutureClockSkew)
    (named : ∀ candidate ∈ candidates, candidate.collection = collection)
    (done : candidates.foldlM (mergeCandidate config remoteEndpoint now environment collection)
      state = .ok after) :
    IsWinner Record.rank (history ∪ { record | record ∈ candidates ∧ record.key = key })
      (after.1.record key) := by
  induction candidates generalizing state history with
  | nil =>
      cases done
      simpa using wins
  | cons candidate rest ih =>
      obtain ⟨middle, first, done⟩ := foldlM_cons_ok done
      rw [List.forall_mem_cons] at within named
      have step := mergeCandidate_record within.1 named.1 first key
      by_cases same : candidate.key = key
      · rw [if_pos same] at step
        have joined := ih (step ▸ wins.join candidate) within.2 named.2 done
        refine joined.congr ?_
        ext record
        simp only [Set.mem_union, Set.mem_insert_iff, Set.mem_ofPred_eq, List.mem_cons]
        constructor
        · rintro ((rfl | old) | ⟨member, keyed⟩)
          · exact Or.inr ⟨Or.inl rfl, same⟩
          · exact Or.inl old
          · exact Or.inr ⟨Or.inr member, keyed⟩
        · rintro (old | ⟨rfl | member, keyed⟩)
          · exact Or.inl (Or.inr old)
          · exact Or.inl (Or.inl rfl)
          · exact Or.inr ⟨member, keyed⟩
      · rw [if_neg same] at step
        have kept := ih (step ▸ wins) within.2 named.2 done
        refine kept.congr ?_
        ext record
        simp only [Set.mem_union, Set.mem_ofPred_eq, List.mem_cons]
        constructor
        · rintro (old | ⟨member, keyed⟩)
          · exact Or.inl old
          · exact Or.inr ⟨Or.inr member, keyed⟩
        · rintro (old | ⟨rfl | member, keyed⟩)
          · exact Or.inl old
          · exact absurd keyed same
          · exact Or.inr ⟨member, keyed⟩

theorem mergeManifests_winner {config : SessionConfig} {remoteEndpoint : EndpointId} {now : I64}
    {environment : Record → RemovalEnvironment} {key : RecordKey} {bundle : ManifestBundle}
    {state after : StateStore × Disk} {history : Set Record}
    (wins : IsWinner Record.rank history (state.1.record key))
    (within : bundle.Within (now.saturatingAdd config.maxFutureClockSkew))
    (named : bundle.Named)
    (done : bundle.manifests.foldlM (mergeManifest config remoteEndpoint now environment)
      state = .ok after) :
    IsWinner Record.rank (history ∪ { record | record ∈ bundle.records ∧ record.key = key })
      (after.1.record key) := by
  obtain ⟨manifests⟩ := bundle
  dsimp only [ManifestBundle.Within, ManifestBundle.Named, ManifestBundle.records] at *
  induction manifests generalizing state history with
  | nil =>
      cases done
      simpa using wins
  | cons manifest rest ih =>
      obtain ⟨middle, first, done⟩ := foldlM_cons_ok done
      rw [List.forall_mem_cons] at within named
      unfold mergeManifest at first
      split at first
      · have joined := ih (mergeCandidates_winner wins within.1 named.1 first) within.2 named.2 done
        refine joined.congr ?_
        ext record
        simp only [Set.mem_union, Set.mem_ofPred_eq, List.flatMap_cons, List.mem_append]
        tauto
      · cases first

/-- What a successful exchange merges. -/
theorem mergeRemoteManifests_ok {config : SessionConfig} {remoteEndpoint : EndpointId} {now : I64}
    {environment : Record → RemovalEnvironment} {store after : StateStore} {disk diskAfter : Disk}
    {shared : List String} {bundle : ManifestBundle} {requests : List FileRequest}
    (done : mergeRemoteManifests config remoteEndpoint now environment store disk shared bundle =
      .ok (after, diskAfter, requests)) :
    bundle.manifests.foldlM (mergeManifest config remoteEndpoint now environment) (store, disk) =
      .ok (after, diskAfter) := by
  unfold mergeRemoteManifests at done
  split at done
  · cases done
  · obtain ⟨⟨merged, left⟩, folded, done⟩ := Except.bind_ok done
    cases done
    exact folded

end

end Skillsync
