import Skillsync.InterleavingSpec
import Skillsync.Session
import Skillsync.SessionExchange

set_option autoImplicit false

namespace Skillsync

open Effects Fallible

/-- No row outside the named collections changes, and no collection comes, goes or moves. -/
structure StateStore.Confined (names : List String) (store after : StateStore) : Prop where
  rows : ∀ key : RecordKey, key.collection ∉ names → after.recordState key = store.recordState key
  paths : ∀ name : String, (after.collections[name]?).map CollectionState.localPath =
    (store.collections[name]?).map CollectionState.localPath

/-- The records are the same; what is known of their files may differ. -/
def StateStore.SameRecords (store after : StateStore) : Prop :=
  ∀ key, after.record key = store.record key

namespace StateStore

variable {store middle after : StateStore} {names : List String}

theorem Confined.refl (names : List String) (store : StateStore) : store.Confined names store :=
  ⟨fun _ _ => rfl, fun _ => rfl⟩

theorem Confined.trans (first : store.Confined names middle)
    (second : middle.Confined names after) :
    store.Confined names after where
  rows key outside := (second.rows key outside).trans (first.rows key outside)
  paths name := (second.paths name).trans (first.paths name)

theorem Confined.of_collections (same : after.collections = store.collections)
    (rows : ∀ key : RecordKey, key.collection ∉ names →
      after.recordState key = store.recordState key) : store.Confined names after where
  rows := rows
  paths name := by rw [same]

theorem SameRecords.refl (store : StateStore) : store.SameRecords store := fun _ => rfl

theorem SameRecords.trans (first : store.SameRecords middle) (second : middle.SameRecords after) :
    store.SameRecords after := fun key => (second key).trans (first key)

theorem appendLog_confined {createdNs : I64} {event : OperationalEvent} {maxLogs : Nat}
    (committed : store.appendLog createdNs event maxLogs = .ok after) :
    store.Confined names after ∧ store.SameRecords after :=
  ⟨.of_collections (appendLog_collections committed) fun key _ =>
    appendLog_recordState committed key, appendLog_record committed⟩

theorem markRepairRequiredAndLog_confined {key : RecordKey} {createdNs : I64}
    {event : OperationalEvent} {maxLogs : Nat} (listed : key.collection ∈ names)
    (committed : store.markRepairRequiredAndLog key createdNs event maxLogs = .ok after) :
    store.Confined names after ∧ store.SameRecords after := by
  obtain ⟨row, -, -, collections, rows⟩ := markRepairRequiredAndLog_ok committed
  refine ⟨.of_collections collections fun other outside => ?_,
    markRepairRequiredAndLog_record committed⟩
  rw [rows, if_neg]
  rintro rfl
  exact outside listed

theorem markMaterializedAndLog_record {key : RecordKey} {root : RootPath}
    {fingerprint : FileFingerprint} {createdNs : I64} {event : OperationalEvent} {maxLogs : Nat}
    (committed : store.markMaterializedAndLog key root fingerprint createdNs event maxLogs =
      .ok after) : store.SameRecords after := by
  obtain ⟨row, present, -, -, rows⟩ := markMaterializedAndLog_ok committed
  intro other
  rw [StateStore.record, rows]
  by_cases own : key = other
  · subst own
    rw [if_pos rfl, StateStore.record, present]
    rfl
  · rw [if_neg own, reboundRow]
    split
    · rfl
    · rw [StateStore.record, Option.map_map]
      apply congrArg (Option.map · _)
      funext row
      exact unmaterialized_record _ _ _ row

theorem markMaterializedAndLog_paths {key : RecordKey} {root : RootPath}
    {fingerprint : FileFingerprint} {createdNs : I64} {event : OperationalEvent} {maxLogs : Nat}
    (committed : store.markMaterializedAndLog key root fingerprint createdNs event maxLogs =
      .ok after) (name : String) :
    (after.collections[name]?).map CollectionState.localPath =
      (store.collections[name]?).map CollectionState.localPath := by
  unfold markMaterializedAndLog at committed
  cases attached : store.collections[key.collection]? with
  | none =>
      rw [attached] at committed
      cases committed
  | some collection =>
      rw [attached] at committed
      obtain ⟨marked, updated, committed⟩ := Except.bind_ok committed
      obtain ⟨row, -, -, collections, -⟩ := updateMaterializedFingerprint_ok updated
      rw [(insertLog_tables committed).1, collections]
      split
      · rfl
      · rw [OrderedMap.getElem?_insert]
        split
        · rename_i same
          rw [← same, attached]
          rfl
        · rfl

theorem markMaterializedAndLog_confined {key : RecordKey} {root : RootPath}
    {fingerprint : FileFingerprint} {createdNs : I64} {event : OperationalEvent} {maxLogs : Nat}
    (listed : key.collection ∈ names)
    (committed : store.markMaterializedAndLog key root fingerprint createdNs event maxLogs =
      .ok after) : store.Confined names after ∧ store.SameRecords after := by
  obtain ⟨row, present, -, -, rows⟩ := markMaterializedAndLog_ok committed
  refine ⟨⟨fun other outside => ?_, markMaterializedAndLog_paths committed⟩,
    markMaterializedAndLog_record committed⟩
  have apart : other.collection ≠ key.collection := by
    intro same
    exact outside (same ▸ listed)
  have differs : key ≠ other := by
    rintro rfl
    exact apart rfl
  rw [rows, if_neg differs, reboundRow]
  split
  · rfl
  · have kept : unmaterialized key.collection (some key.path) other = id := by
      funext row
      unfold unmaterialized
      rw [if_neg fun both => apart both.1]
      rfl
    rw [kept, Option.map_id, id]

end StateStore

theorem materializeTombstone_disk {store middle : StateStore} {disk after : Disk} {record : Record}
    {environment : RemovalEnvironment} {now : I64} {maxLogs : Nat}
    {result : Except InstallError Unit}
    (done : materializeTombstone store disk record environment now maxLogs =
      (result, middle, after)) (place : DiskKey) :
    after[place]? = disk[place]? ∨ after[place]? = none ∧ record.path = place.path ∧
      record.kind = .tombstone ∧ environment.root = .ok place.root := by
  unfold materializeTombstone at done
  split at done
  · rename_i removed
    cases done
    exact removeForTombstone_disk removed place
  · rename_i removed
    split at done <;> cases done <;> exact removeForTombstone_disk removed place

theorem logUnavailable_confined {config : SessionConfig} {remoteEndpoint : EndpointId} {now : I64}
    {store after : StateStore} {request : FileRequest} {markRepair : Bool} {names : List String}
    (listed : request.collection ∈ names)
    (logged : logUnavailable config remoteEndpoint now store request markRepair = .ok after) :
    store.Confined names after ∧ store.SameRecords after := by
  unfold logUnavailable at logged
  obtain ⟨path, -, logged⟩ := Except.bind_ok logged
  dsimp only at logged
  split at logged
  · exact StateStore.markRepairRequiredAndLog_confined listed (Except.mapError_ok logged)
  · exact StateStore.appendLog_confined (Except.mapError_ok logged)

section
variable [Blake3]

theorem installFile_disk {disk after : Disk} {record : Record} {stream : List UInt8}
    {environment : InstallEnvironment} {result : Except InstallError InstalledFile}
    (installed : installFile disk record stream environment = (result, after)) (place : DiskKey) :
    after[place]? = disk[place]? ∨ record.path = place.path ∧ environment.root = .ok place.root ∧
      ∃ file, after[place]? = some file ∧ file.bytes = stream ∧ file.Holds record.kind := by
  rcases installFile_cases installed with ⟨file, prepared, rfl, -⟩ | ⟨reason, -, rfl, -⟩
  · obtain ⟨samePath, opened, kind, length, hash⟩ := prepareInstall_ok prepared
    rw [renamed, OrderedMap.getElem?_insert]
    split
    · rename_i same
      subst same
      refine Or.inr ⟨samePath.symm, opened, _, rfl, rfl, ?_⟩
      rw [RegularFile.Holds, kind, length, hash]
    · exact Or.inl rfl
  · exact Or.inl rfl

/-- An installation changes the file of its record, and what is known of the files of its
collection. -/
theorem applyFileFixture_confined {store middle : StateStore} {disk after : Disk} {record : Record}
    {stream : List UInt8} {environment : InstallEnvironment} {now : I64} {maxLogs : Nat}
    {names : List String} {result : Except InstallError InstalledFile}
    (listed : record.collection ∈ names)
    (done : applyFileFixture store disk record stream environment now maxLogs =
      (result, middle, after)) :
    store.Confined names middle ∧ store.SameRecords middle ∧
      ∀ place : DiskKey, after[place]? = disk[place]? ∨ record.path = place.path ∧
        environment.root = .ok place.root ∧
        ∃ file, after[place]? = some file ∧ file.bytes = stream ∧ file.Holds record.kind := by
  unfold applyFileFixture at done
  dsimp only at done
  split at done
  · rename_i installed
    split at done
    · rename_i marked
      cases done
      obtain ⟨confined, same⟩ := StateStore.markMaterializedAndLog_confined listed marked
      exact ⟨confined, same, installFile_disk installed⟩
    · cases done
      exact ⟨.refl _ _, .refl _, installFile_disk installed⟩
  · rename_i installed
    split at done
    · rename_i marked
      cases done
      obtain ⟨confined, same⟩ := StateStore.markMaterializedAndLog_confined listed marked
      exact ⟨confined, same, installFile_disk installed⟩
    · cases done
      exact ⟨.refl _ _, .refl _, installFile_disk installed⟩
  · rename_i installed
    cases done
    exact ⟨.refl _ _, .refl _, installFile_disk installed⟩
  · rename_i installed
    split at done
    · rename_i marked
      cases done
      obtain ⟨confined, same⟩ := StateStore.markRepairRequiredAndLog_confined listed marked
      exact ⟨confined, same, installFile_disk installed⟩
    · cases done
      exact ⟨.refl _ _, .refl _, installFile_disk installed⟩

section
variable {config : SessionConfig} {remoteEndpoint : EndpointId} {moment : Moment}
  {store after : StateStore} {request : FileRequest} {names : List String}

theorem prepareRequestedFile_confined {found : Option (Record × Nat)}
    (listed : request.collection ∈ names)
    (prepared : prepareRequestedFile config remoteEndpoint moment store request =
      .ok (after, found)) : store.Confined names after ∧ store.SameRecords after := by
  have left : ∀ {markRepair : Bool}, ((logUnavailable config remoteEndpoint moment.now store
      request markRepair).map fun store => (store, none)) = .ok (after, found) →
      store.Confined names after ∧ store.SameRecords after := by
    intro markRepair result
    obtain ⟨logged, written, same⟩ := Except.of_map_ok result
    cases same
    exact logUnavailable_confined listed written
  unfold prepareRequestedFile at prepared
  dsimp only at prepared
  split at prepared
  · exact left prepared
  split at prepared
  · exact left prepared
  split at prepared
  · exact left prepared
  split at prepared
  · exact left prepared
  split at prepared
  · exact left prepared
  split at prepared
  · cases prepared
    exact ⟨.refl _ _, .refl _⟩
  · exact left prepared

/-- The file of a request: the stored record that the request names, whose file on the disk was
verified. -/
structure Answer.Supplies (context : SessionContext) (store : StateStore) (disk : Disk)
    (request : FileRequest) (record : Record) (header content : List UInt8) : Prop where
  stored : request.key.bind store.record = some record
  asked : record.canonicalHash = request.recordHash
  header : encodeFileHeader record = .ok header
  verified : ∃ file, openVerifiedFile disk record (context.serving request).environment = .ok file
  content : ∃ size contentHash, record.kind = .file size contentHash ∧
    content = (context.serving request).content.take size

/-- What `send_files` does for one request, also when it fails half way. -/
theorem sendFile_supplies {context : SessionContext} {disk : Disk} {sent : Nat} {answer : Answer}
    {result : Except TransferError (StateStore × Nat)} (listed : request.collection ∈ names)
    (light : sent ≤ maxSessionFileBytes)
    (done : sendFile context.config context.remoteEndpoint
      ⟨id, disk, (context.serving request).environment, (context.serving request).now,
        (context.serving request).content⟩ store sent request = (answer, result)) :
    (∀ after total, result = .ok (after, total) → total = sent + answer.fileBytes ∧
      store.Confined names after ∧ store.SameRecords after) ∧
    sent + answer.fileBytes ≤ maxSessionFileBytes ∧
    ∀ record header content, answer = .file record header content →
      Answer.Supplies context store disk request record header content := by
  unfold sendFile at done
  split at done
  · cases done
    refine ⟨fun after total failed => ?_, light, fun record header content other => ?_⟩
    · cases failed
    · cases other
  · rename_i left prepared
    cases done
    refine ⟨fun after total same => ?_, light, fun record header content other => ?_⟩
    · cases same
      exact ⟨rfl, prepareRequestedFile_confined listed prepared⟩
    · cases other
  · rename_i left record size prepared
    obtain ⟨confined, same⟩ := prepareRequestedFile_confined listed prepared
    obtain ⟨stored, contentHash, kind⟩ := (prepareRequestedFile_ok prepared).2 record size rfl
    obtain ⟨hash, file, opened⟩ := prepareRequestedFile_verified prepared
    split at done
    · obtain ⟨rfl, rfl⟩ := Prod.mk.inj done
      refine ⟨fun after total outcome => ?_, light, fun record header content other => ?_⟩
      · obtain ⟨logged, written, equal⟩ := Except.of_map_ok outcome
        cases equal
        obtain ⟨confined', same'⟩ := logUnavailable_confined listed (Except.mapError_ok written)
        exact ⟨rfl, confined.trans confined', same.trans same'⟩
      · cases other
    rename_i fits
    rw [not_or, not_le, not_lt] at fits
    split at done
    · cases done
      refine ⟨fun after total failed => ?_, light, fun record header content other => ?_⟩
      · cases failed
      · cases other
    rename_i header headed
    obtain ⟨rfl, rfl⟩ := Prod.mk.inj done
    have short : ((context.serving request).content.take size).length ≤ size :=
      List.length_take_le _ _
    refine ⟨fun after total outcome => ?_, ?_, fun found head bytes equal => ?_⟩
    · split at outcome
      · cases outcome
      rename_i enough
      obtain ⟨logged, written, equal⟩ := Except.of_map_ok outcome
      cases equal
      obtain ⟨confined', same'⟩ := StateStore.appendLog_confined (Except.mapError_ok written)
      refine ⟨?_, confined.trans confined', same.trans same'⟩
      show sent + size = sent + ((context.serving request).content.take size).length
      dsimp only at enough
      omega
    · show sent + ((context.serving request).content.take size).length ≤ _
      omega
    · cases equal
      exact ⟨stored, hash, headed, ⟨file, opened⟩, size, contentHash, kind, rfl⟩

end

end

section
variable [Blake3]

/-- A part of a session that only works on the tables and the files, with the same outcome. -/
def Performs (part : SessionM Unit)
    (function : StateStore × Disk → Except SyncError (StateStore × Disk)) : Prop :=
  ∀ state, match function (state.store, state.disk) with
    | .ok (store, disk) => part.run state = (.ok (), { state with store := store, disk := disk })
    | .error reason => ∃ after, part.run state = (.error (.sync reason), after)

omit [Blake3] in
theorem Performs.forM {Item : Type} {items : List Item} {body : Item → SessionM Unit}
    {function : StateStore × Disk → Item → Except SyncError (StateStore × Disk)}
    (each : ∀ item, Performs (body item) fun tables => function tables item) :
    Performs (items.forM body) fun tables => items.foldlM function tables := by
  induction items with
  | nil => exact fun state => rfl
  | cons item rest ih =>
      intro state
      have first := each item state
      show match (item :: rest).foldlM function (state.store, state.disk) with
        | .ok (store, disk) => (body item >>= fun _ => rest.forM body).run state =
            (.ok (), { state with store := store, disk := disk })
        | .error reason => ∃ after, (body item >>= fun _ => rest.forM body).run state =
            (.error (.sync reason), after)
      rw [List.foldlM_cons]
      dsimp only at first
      cases outcome : function (state.store, state.disk) item with
      | error reason =>
          rw [outcome] at first
          obtain ⟨after, failed⟩ := first
          exact ⟨after, bind_error failed⟩
      | ok tables =>
          rw [outcome] at first
          rw [Except.ok_bind, bind_ok first]
          exact ih { state with store := tables.1, disk := tables.2 }

omit [Blake3] in
theorem transact_ok {transaction : StateStore → Except SessionError StateStore}
    {state : SessionState} {store : StateStore} (done : transaction state.store = .ok store) :
    (SessionM.transact transaction).run state = (.ok (), { state with store := store }) := by
  simp only [SessionM.transact, done]

omit [Blake3] in
theorem transact_error {transaction : StateStore → Except SessionError StateStore}
    {state : SessionState} {reason : SessionError}
    (failed : transaction state.store = .error reason) :
    (SessionM.transact transaction).run state = (.error reason, state) := by
  simp only [SessionM.transact, failed]

variable {context : SessionContext}

omit [Blake3] in
theorem appendSessionLog_performs {now : I64} {event : OperationalEvent} :
    Performs (appendSessionLog context now event) fun tables => do
      let store ← (tables.1.appendLog now event context.config.maxLogs).mapError SyncError.state
      return (store, tables.2) := by
  intro state
  dsimp only
  cases outcome : state.store.appendLog now event context.config.maxLogs with
  | ok store =>
      apply transact_ok
      rw [outcome]
      rfl
  | error reason =>
      refine ⟨state, transact_error ?_⟩
      rw [outcome]
      rfl

omit [Blake3] in
theorem removeForWinner_performs {collection : String} {candidate : Record} :
    Performs (removeForWinner context collection candidate) fun tables =>
      deleteForWinner context.config context.now (context.removal candidate) collection candidate
        tables.1 tables.2 := by
  intro state
  dsimp only
  unfold deleteForWinner removeForWinner
  dsimp only
  rw [readState_bind]
  by_cases wins : state.store.record ⟨collection, candidate.path⟩ = some candidate ∧
      candidate.kind = .tombstone ∧
      (state.store.recordState ⟨collection, candidate.path⟩).any fun item => !item.materialized
  · rw [if_pos wins, if_pos wins]
    generalize materializeTombstone state.store state.disk candidate (context.removal candidate)
      context.now context.config.maxLogs = removed
    obtain ⟨outcome, store, disk⟩ := removed
    cases outcome with
    | ok done => rfl
    | error reason => exact appendSessionLog_performs { state with store := store, disk := disk }
  · rw [if_neg wins, if_neg wins]
    rfl

theorem mergeOne_performs {collection : String} {candidate : Record} :
    Performs (mergeOne context collection candidate) fun tables =>
      mergeCandidate context.config context.remoteEndpoint context.now context.removal collection
        tables candidate := by
  intro state
  dsimp only
  unfold mergeCandidate mergeOne
  dsimp only
  by_cases future : context.now.saturatingAdd context.config.maxFutureClockSkew <
      candidate.modifiedNs
  · rw [if_pos future, if_pos future]
    exact appendSessionLog_performs state
  · rw [if_neg future, if_neg future]
    by_cases known : state.store.record ⟨collection, candidate.path⟩ = some candidate
    · rw [if_pos known, Except.ok_bind, bind_ok (transact_ok (if_pos known))]
      exact removeForWinner_performs state
    · rw [if_neg known]
      cases outcome : state.store.mergeRecord candidate context.now (some context.remoteEndpoint)
        context.config.maxLogs with
      | error reason =>
          refine ⟨state, bind_error (transact_error ?_)⟩
          rw [if_neg known, outcome]
          rfl
      | ok merged =>
          have stored : (SessionM.transact fun store =>
              if store.record ⟨collection, candidate.path⟩ = some candidate then .ok store
              else ((store.mergeRecord candidate context.now (some context.remoteEndpoint)
                context.config.maxLogs).map Prod.fst).mapError fun reason =>
                  SessionError.sync (.state reason)).run state =
              (.ok (), { state with store := merged.1 }) := by
            apply transact_ok
            rw [if_neg known, outcome]
            rfl
          rw [bind_ok stored]
          exact removeForWinner_performs { state with store := merged.1 }

theorem mergeOffered_performs {manifest : String × Manifest} :
    Performs (mergeOffered context manifest) fun tables =>
      mergeManifest context.config context.remoteEndpoint context.now context.removal tables
        manifest := by
  intro state
  dsimp only
  unfold mergeManifest mergeOffered
  rw [readState_bind]
  by_cases attached : (state.store.collections[manifest.1]?).isSome = true
  · rw [if_pos attached, require_bind attached]
    exact Performs.forM (fun candidate => mergeOne_performs) state
  · rw [if_neg attached]
    exact ⟨state, require_bind_error attached⟩

/-- What a session merges when it succeeds is what `mergeRemoteManifests` merges, and it succeeds
together with it. -/
theorem mergeManifests_performs (state : SessionState) (shared : List String)
    (bundle : ManifestBundle) :
    match mergeRemoteManifests context.config context.remoteEndpoint context.now context.removal
        state.store state.disk shared bundle with
    | .ok (store, disk, requests) => (mergeManifests context shared bundle).run state =
        (.ok requests, { state with store := store, disk := disk })
    | .error reason => ∃ after,
        (mergeManifests context shared bundle).run state = (.error (.sync reason), after) := by
  have loop : Performs (bundle.manifests.forM (mergeOffered context)) fun tables =>
      bundle.manifests.foldlM
        (mergeManifest context.config context.remoteEndpoint context.now context.removal) tables :=
    Performs.forM fun manifest => mergeOffered_performs
  unfold mergeRemoteManifests mergeManifests
  by_cases same : (bundle.manifests.map Prod.fst).toFinset = shared.toFinset
  · rw [if_neg (not_not.mpr same), require_bind same]
    have merged := loop state
    dsimp only at merged
    cases outcome : bundle.manifests.foldlM (mergeManifest context.config context.remoteEndpoint
      context.now context.removal) (state.store, state.disk) with
    | error reason =>
        rw [outcome] at merged
        obtain ⟨after, failed⟩ := merged
        exact ⟨after, bind_error failed⟩
    | ok tables =>
        rw [outcome] at merged
        rw [Except.ok_bind]
        exact bind_ok merged
  · rw [if_pos same]
    exact ⟨state, require_bind_error same⟩

end

end Skillsync
