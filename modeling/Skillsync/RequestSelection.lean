import Skillsync.MessagesSpec
import Skillsync.SyncSpec
import Skillsync.Transfers

set_option autoImplicit false

namespace Skillsync

open Fallible Rationing

section
variable [Blake3]

/-- The request for a record's file. -/
def Record.request (record : Record) : FileRequest :=
  ⟨record.collection, record.path.text, record.canonicalHash⟩

/-- A request is needed for a file that the peer has and that wins here, but is not installed. -/
def Needed (store : StateStore) (limit : I64) (bundle : ManifestBundle) (request : FileRequest) :
    Prop :=
  ∃ record ∈ bundle.records, request = record.request ∧
    store.record record.key = some record ∧ record.kind.isFile = true ∧
    ¬ store.Materialized record.key ∧ record.modifiedNs ≤ limit

/-- A list of requests within the budgets of a session and the needed requests that it is cut
from. -/
structure RequestSelection (store : StateStore) (limit : I64) (bundle : ManifestBundle)
    (needed selected : List FileRequest) : Prop where
  needed_iff : ∀ request, request ∈ needed ↔ Needed store limit bundle request
  needed_ascending : needed.Pairwise (· < ·)
  sound : ∀ request ∈ selected, Needed store limit bundle request
  ascending : selected.Pairwise (· < ·)
  few : selected.length ≤ maxTransfers
  light : (selected.map store.requestedSize).sum ≤ maxSessionFileBytes
  encodes : ∃ bytes, (RequestBundle.mk selected).encode = .ok bytes
  front : selected <+: needed
  maximal : ∀ request rest, needed = selected ++ request :: rest →
    selected.length = maxTransfers ∨
      maxSessionFileBytes < (selected.map store.requestedSize).sum + store.requestedSize request
  whole : needed.length ≤ maxTransfers →
    (needed.map store.requestedSize).sum ≤ maxSessionFileBytes → selected = needed
  served : needed ≠ [] → selected ≠ []

/-- What the decoder checks of every record. -/
structure ManifestBundle.Checked (bundle : ManifestBundle) : Prop where
  named : bundle.Named
  allowed : ∀ record ∈ bundle.records, NameAllowed record.collection ∧
    RecordAllowed record.collection record

section
variable {store : StateStore} {limit : I64} {bundle : ManifestBundle} {request : FileRequest}

omit [Blake3] in
theorem ManifestBundle.decode_checked {bytes : List UInt8}
    (decoded : ManifestBundle.decode bytes = .ok bundle) : bundle.Checked := by
  obtain ⟨-, allowed, -⟩ := ManifestBundle.decode_eq_ok.mp decoded
  constructor
  · intro manifest listed record inside
    exact ((allowed.each manifest listed).records record inside).1
  · intro record listed
    obtain ⟨manifest, member, inside⟩ := List.mem_flatMap.mp listed
    have checked := (allowed.each manifest member).records record inside
    have same := checked.1
    rw [← same] at checked
    exact ⟨same ▸ (allowed.each manifest member).name, checked⟩

theorem Record.key_request (record : Record) : record.request.key = some record.key :=
  Skillsync.key_request record.collection record

theorem mem_needed (named : bundle.Named) :
    request ∈ neededRequests store limit bundle ↔ Needed store limit bundle request := by
  rw [mem_neededRequests]
  constructor
  · rintro ⟨manifest, member, record, inside, asked, rfl⟩
    obtain ⟨within, isFile, stored, missing⟩ := isRequested_iff.mp asked
    have name := named manifest member record inside
    rw [← name] at stored missing ⊢
    exact ⟨record, List.mem_flatMap.mpr ⟨manifest, member, inside⟩, rfl, stored, isFile, missing,
      within⟩
  · rintro ⟨record, listed, rfl, stored, isFile, missing, within⟩
    obtain ⟨manifest, member, inside⟩ := List.mem_flatMap.mp listed
    have name := named manifest member record inside
    refine ⟨manifest, member, record, inside, ?_, by rw [← name]; rfl⟩
    rw [← name]
    exact isRequested_iff.mpr ⟨within, isFile, stored, missing⟩

/-- A needed request passes `validate_request`. -/
theorem Needed.allowed (needed : Needed store limit bundle request) (checked : bundle.Checked) :
    RequestAllowed request := by
  obtain ⟨record, listed, rfl, -⟩ := needed
  obtain ⟨name, -, short, -⟩ := checked.allowed record listed
  exact ⟨name, short, record.path, ProtocolPath.parse_text record.path⟩

/-- The size that a needed request counts is the one that the peer declares. -/
theorem Needed.declared (needed : Needed store limit bundle request) :
    ∃ record ∈ bundle.records, request = record.request ∧
      ∃ contentHash, record.kind = .file (store.requestedSize request) contentHash := by
  obtain ⟨record, listed, rfl, stored, isFile, -⟩ := needed
  refine ⟨record, listed, rfl, ?_⟩
  cases kind : record.kind with
  | tombstone =>
      rw [kind] at isFile
      cases isFile
  | file size contentHash =>
      refine ⟨contentHash, ?_⟩
      simp only [StateStore.requestedSize, record.key_request, Option.bind_some, stored,
        Option.map_some, kind]

theorem Needed.size_le (needed : Needed store limit bundle request) (checked : bundle.Checked) :
    store.requestedSize request ≤ maxFileBytes := by
  obtain ⟨record, listed, -, contentHash, kind⟩ := needed.declared
  obtain ⟨-, -, -, small⟩ := checked.allowed record listed
  rw [kind] at small
  exact small

/-- The selection of a store and its needed requests. -/
theorem requestSelection (checked : bundle.Checked) (store : StateStore) (limit : I64) :
    RequestSelection store limit bundle (neededRequests store limit bundle)
      (store.selection limit bundle) := by
  have ascending := neededRequests_ascending store limit bundle
  have front : store.selection limit bundle <+: neededRequests store limit bundle := by
    rw [selection_eq_take]
    exact take_isPrefix _
  have sound : ∀ request ∈ store.selection limit bundle, Needed store limit bundle request :=
    fun request taken => (mem_needed checked.named).mp (front.subset taken)
  obtain ⟨few, light⟩ : (store.selection limit bundle).length ≤ maxTransfers ∧
      ((store.selection limit bundle).map store.requestedSize).sum ≤ maxSessionFileBytes := by
    rw [selection_eq_take]
    have within := @take_within _ store.sessionBudget 0 0 (neededRequests store limit bundle)
      (Nat.zero_le _) (Nat.zero_le _)
    rwa [Nat.zero_add, Nat.zero_add] at within
  have sorted : (store.selection limit bundle).Pairwise (· < ·) :=
    ascending.sublist front.sublist
  constructor
  case needed_iff => exact fun request => mem_needed checked.named
  case needed_ascending => exact ascending
  case sound => exact sound
  case ascending => exact sorted
  case few => exact few
  case light => exact light
  case encodes =>
    refine ⟨_, RequestBundle.encode_iff.mpr ⟨few, ⟨fun request taken => ?_, ?_⟩, rfl⟩⟩
    · exact (sound request taken).allowed checked
    · exact sorted.isChain
  case front => exact front
  case maximal =>
    intro request rest split
    rw [selection_eq_take] at split ⊢
    have behind := @take_maximal _ store.sessionBudget 0 0 rest request _ (Nat.zero_le _) split
    rwa [Nat.zero_add, Nat.zero_add] at behind
  case whole =>
    intro short total
    rw [selection_eq_take]
    exact take_eq_self (by rw [Nat.zero_add]; exact short) (by rw [Nat.zero_add]; exact total)
  case served =>
    intro waiting nothing
    cases list : neededRequests store limit bundle with
    | nil => exact waiting list
    | cons first rest =>
        have needed : Needed store limit bundle first := by
          rw [← mem_needed checked.named, list]
          exact List.mem_cons_self
        have small : store.sessionBudget.weigh first ≤ maxFileBytes := needed.size_le checked
        have taken : first ∈ store.sessionBudget.take 0 0 ([] ++ first :: rest) := by
          apply take_of_fits
          · show 0 + 0 < maxTransfers
            unfold maxTransfers
            omega
          · show 0 + 0 + _ ≤ maxSessionFileBytes
            unfold maxFileBytes at small
            unfold maxSessionFileBytes
            omega
        rw [selection_eq_take, list] at nothing
        rw [List.nil_append, nothing] at taken
        cases taken

end

/-- The store has the records of a bundle. -/
def ManifestBundle.Held (bundle : ManifestBundle) (store : StateStore) : Prop :=
  ∀ record ∈ bundle.records, store.record record.key = some record

section
variable {config : SessionConfig} {remoteEndpoint : EndpointId} {moment : Moment} {now : I64}
  {store after : StateStore} {bundle : ManifestBundle} {request : FileRequest} {sent : Nat}

omit [Blake3] in
theorem ManifestBundle.Held.congr (held : bundle.Held store)
    (same : ∀ key, after.record key = store.record key) : bundle.Held after := by
  intro record listed
  rw [same]
  exact held record listed

omit [Blake3] in
theorem markRepairRequiredAndLog_record {key : RecordKey} {event : OperationalEvent}
    {maxLogs : Nat}
    (committed : store.markRepairRequiredAndLog key now event maxLogs = .ok after)
    (other : RecordKey) : after.record other = store.record other := by
  obtain ⟨row, present, -, -, rows⟩ := StateStore.markRepairRequiredAndLog_ok committed
  rw [StateStore.record, rows other]
  by_cases own : key = other
  · rw [if_pos own, ← own]
    exact (StateStore.record_eq_some.mpr ⟨row, present, rfl⟩).symm
  · rw [if_neg own]
    rfl

omit [Blake3] in
theorem logUnavailable_record {markRepair : Bool}
    (logged : logUnavailable config remoteEndpoint now store request markRepair = .ok after)
    (key : RecordKey) : after.record key = store.record key := by
  unfold logUnavailable at logged
  obtain ⟨path, -, logged⟩ := Except.bind_ok logged
  dsimp only at logged
  split at logged
  · exact markRepairRequiredAndLog_record (Except.mapError_ok logged) key
  · exact StateStore.appendLog_record (Except.mapError_ok logged) key

/-- What is prepared is the stored record of the requested path; the records stay. -/
theorem prepareRequestedFile_ok {found : Option (Record × Nat)}
    (prepared : prepareRequestedFile config remoteEndpoint moment store request =
      .ok (after, found)) :
    (∀ key, after.record key = store.record key) ∧ ∀ record size, found = some (record, size) →
      request.key.bind store.record = some record ∧
        ∃ contentHash, record.kind = .file size contentHash := by
  have left : ∀ {markRepair : Bool}, ((logUnavailable config remoteEndpoint moment.now store
      request markRepair).map fun store => (store, none)) = .ok (after, found) →
      (∀ key, after.record key = store.record key) ∧ ∀ record size, found = some (record, size) →
        request.key.bind store.record = some record ∧
          ∃ contentHash, record.kind = .file size contentHash := by
    intro markRepair result
    obtain ⟨logged, written, same⟩ := Except.of_map_ok result
    cases same
    refine ⟨logUnavailable_record written, fun record size absent => ?_⟩
    cases absent
  unfold prepareRequestedFile at prepared
  dsimp only at prepared
  split at prepared
  · exact left prepared
  rename_i record stored
  split at prepared
  · exact left prepared
  split at prepared
  · exact left prepared
  split at prepared
  · exact left prepared
  split at prepared
  · exact left prepared
  rename_i size contentHash kind
  split at prepared
  · cases prepared
    refine ⟨fun _ => rfl, fun found size same => ?_⟩
    cases same
    exact ⟨stored, contentHash, kind⟩
  · exact left prepared

/-- One request: the records stay, and with room for its file the budget does not refuse it. -/
theorem sendFile_within {weight : Nat}
    (sized : ∀ record size contentHash, request.key.bind store.record = some record →
      record.kind = .file size contentHash → size = weight)
    (room : sent + weight ≤ maxSessionFileBytes) :
    (sendFile config remoteEndpoint moment store sent request).1 ≠ .overBudget ∧
      ∀ next total, (sendFile config remoteEndpoint moment store sent request).2 =
        .ok (next, total) →
        (∀ key, next.record key = store.record key) ∧ total ≤ sent + weight := by
  unfold sendFile
  split
  · refine ⟨fun same => ?_, fun next total failed => ?_⟩
    · cases same
    · cases failed
  · rename_i left prepared
    refine ⟨fun same => ?_, fun next total done => ?_⟩
    · cases same
    · cases done
      exact ⟨(prepareRequestedFile_ok prepared).1, Nat.le_add_right _ _⟩
  · rename_i left record size prepared
    obtain ⟨kept, described⟩ := prepareRequestedFile_ok prepared
    obtain ⟨stored, contentHash, kind⟩ := described record size rfl
    have same := sized record size contentHash stored kind
    have fits : ¬ (2 ^ 64 ≤ sent + size ∨ maxSessionFileBytes < sent + size) := by
      unfold maxSessionFileBytes at *
      omega
    rw [if_neg fits]
    split
    · refine ⟨fun same => ?_, fun next total failed => ?_⟩
      · cases same
      · cases failed
    · dsimp only
      refine ⟨fun same => ?_, fun next total done => ?_⟩
      · cases same
      · split at done
        · cases done
        · obtain ⟨logged, appended, equal⟩ := Except.of_map_ok done
          cases equal
          refine ⟨fun key => ?_, by omega⟩
          exact (StateStore.appendLog_record (Except.mapError_ok appended) key).trans (kept key)

/-- With room for all files no request is refused: the sizes of the files that follow are the
room that the loop keeps. -/
theorem sendRequested_within {requests : List (FileRequest × Moment)} {weigh : FileRequest → Nat}
    (listed : ∀ item ∈ requests, ∃ record ∈ bundle.records, item.1 = record.request ∧
      ∃ contentHash, record.kind = .file (weigh item.1) contentHash)
    (unchanged : ∀ item ∈ requests, ∀ store, bundle.Held store → bundle.Held (item.2.others store))
    (held : bundle.Held store)
    (room : sent + (requests.map fun item => weigh item.1).sum ≤ maxSessionFileBytes) :
    Answer.overBudget ∉ (sendRequested config remoteEndpoint store sent requests).1 := by
  induction requests generalizing store sent with
  | nil => exact List.not_mem_nil
  | cons item rest ih =>
      obtain ⟨request, moment⟩ := item
      rw [List.forall_mem_cons] at listed unchanged
      rw [List.map_cons, List.sum_cons] at room
      dsimp only at room
      have here := unchanged.1 store held
      have sized : ∀ record size contentHash,
          request.key.bind (moment.others store).record = some record →
          record.kind = .file size contentHash → size = weigh request := by
        intro record size contentHash stored kind
        obtain ⟨known, inside, asked, hash, declared⟩ := listed.1
        dsimp only at asked declared
        rw [asked, known.key_request, Option.bind_some, here known inside,
          Option.some.injEq] at stored
        rw [← stored, declared] at kind
        cases kind
        rfl
      obtain ⟨first, follow⟩ := @sendFile_within _ config remoteEndpoint moment
        (moment.others store) request sent (weigh request) sized (by omega)
      unfold sendRequested
      split
      · rename_i answer reason outcome
        rw [outcome] at first
        rw [List.mem_singleton]
        exact Ne.symm first
      · rename_i answer next total outcome
        rw [outcome] at first follow
        obtain ⟨kept, below⟩ := follow next total rfl
        rw [List.mem_cons, not_or]
        exact ⟨Ne.symm first, ih listed.2 unchanged.2 (here.congr kept) (by omega)⟩

end

theorem mergeRemoteManifests_eq {config : SessionConfig} {remoteEndpoint : EndpointId} {now : I64}
    {environment : Record → RemovalEnvironment} {store : StateStore} {disk : Disk}
    {shared : List String} {bundle : ManifestBundle} {state : StateStore × Disk}
    (names : (bundle.manifests.map Prod.fst).toFinset = shared.toFinset)
    (looped : bundle.manifests.foldlM (mergeManifest config remoteEndpoint now environment)
      (store, disk) = .ok state) :
    mergeRemoteManifests config remoteEndpoint now environment store disk shared bundle =
      .ok (state.1, state.2,
        state.1.selection (now.saturatingAdd config.maxFutureClockSkew) bundle) := by
  unfold mergeRemoteManifests
  rw [if_neg (not_not.mpr names), looped, Except.ok_bind]
  rfl

/-- The requests that a merge of a decoded bundle returns are the front of all needed requests, as
far as the budgets go, and a peer that keeps its records refuses none of them for its budget. -/
theorem requests_selected {config : SessionConfig} {remoteEndpoint : EndpointId} {now : I64}
    {environment : Record → RemovalEnvironment} {store after : StateStore} {disk diskAfter : Disk}
    {shared : List String} {bundle : ManifestBundle} {bytes : List UInt8}
    {selected : List FileRequest} (decoded : ManifestBundle.decode bytes = .ok bundle)
    (merged : mergeRemoteManifests config remoteEndpoint now environment store disk shared bundle =
      .ok (after, diskAfter, selected)) :
    (∃ needed, RequestSelection after (now.saturatingAdd config.maxFutureClockSkew) bundle needed
      selected) ∧
    ∀ (peerConfig : SessionConfig) (endpoint : EndpointId) (peer : StateStore)
      (peerShared : List String) (requests : List (FileRequest × Moment)),
      requests.map Prod.fst = selected → bundle.Held peer →
      (∀ item ∈ requests, ∀ store, bundle.Held store → bundle.Held (item.2.others store)) →
      Answer.overBudget ∉ (sendFiles peerConfig endpoint peer peerShared requests).1 := by
  have checked := ManifestBundle.decode_checked decoded
  have selection := requestSelection checked after (now.saturatingAdd config.maxFutureClockSkew)
  rw [← mergeRemoteManifests_selection merged] at selection
  refine ⟨⟨_, selection⟩, fun peerConfig endpoint peer peerShared requests asked held
    unchanged => ?_⟩
  unfold sendFiles
  split
  · exact List.not_mem_nil
  have total : (requests.map fun item => after.requestedSize item.1).sum ≤ maxSessionFileBytes := by
    have light := selection.light
    rwa [← asked, List.map_map] at light
  refine @sendRequested_within _ peerConfig endpoint peer bundle 0 requests after.requestedSize
    (fun item inside => ?_) unchanged held (by rwa [Nat.zero_add])
  apply Needed.declared
  apply selection.sound
  rw [← asked]
  exact List.mem_map_of_mem inside

end

section
attribute [local instance] Blake3.checksum

/-- A node without files that has the collection. -/
def newcomer : StateStore :=
  (StateStore.empty.addCollection "c" "/c" none).toOption.getD .empty

/-- A file of one byte. -/
def sharedFile : Record := .sample (pathNamed "d") 0 (.fill 1) (.file 1 (Blake3.hash [5]))

/-- The records of a peer, which lacks the bytes of the first file. -/
def sharedRecords : List Record := [offered (pathNamed "a") maxFileBytes, sharedFile]

def sharedOffer : ManifestBundle := ⟨[("c", ⟨sharedRecords⟩)]⟩

/-- The newcomer after the merge of the offer. -/
def offerMerged : StateStore × Disk :=
  ((sharedOffer.manifests.foldlM (mergeManifest ⟨.fill 9, 10, 100⟩ (.fill 1) 0
    fun _ => ⟨.ok "/c", .ok true, .ok (), .ok ()⟩) (newcomer, ∅)).toOption).getD (.empty, ∅)

/-- The peer, which has scanned its files. -/
def holder : StateStore :=
  (sharedRecords.foldlM
    (fun (store : StateStore) record => (store.mergeRecord record 0 none 100).map Prod.fst)
    newcomer).toOption.getD .empty

/-- What the peer finds and reads while it sends. -/
def holderMoment : Moment where
  others := id
  disk := (∅ : Disk).insert ⟨"/c", pathNamed "d"⟩ ⟨[5], 0⟩
  environment := ⟨.ok "/c", .ok true, .ok ()⟩
  now := 0
  content := [5]

theorem offer_merges : (sharedOffer.manifests.foldlM (mergeManifest ⟨.fill 9, 10, 100⟩ (.fill 1) 0
    fun _ => ⟨.ok "/c", .ok true, .ok (), .ok ()⟩) (newcomer, ∅)).isOk = true := by
  decide +kernel

theorem sharedOffer_decoded : ∃ bytes, ManifestBundle.decode bytes = .ok sharedOffer := by
  have ordered : Manifest.Ordered sharedRecords := by
    unfold Manifest.Ordered
    decide +kernel
  have allowed : ManifestBundle.Allowed [] 0 sharedOffer.manifests := by
    refine ⟨fun manifest listed => ?_, fun _ _ => List.not_mem_nil, List.nodup_singleton _,
      by decide +kernel⟩
    rw [List.mem_singleton.mp listed]
    exact ⟨by decide, by decide +kernel⟩
  refine ⟨sharedOffer.spelled, ManifestBundle.decode_eq_ok.mpr ⟨by decide +kernel, allowed,
    fun manifest listed => ?_, by decide +kernel, rfl⟩⟩
  rw [List.mem_singleton.mp listed]
  exact ⟨ordered, by decide +kernel⟩

theorem offerMerged_selection :
    offerMerged.1.selection ((0 : I64).saturatingAdd 10) sharedOffer =
      sharedRecords.map Record.request := by
  have wanted : wantedRequests offerMerged.1 ((0 : I64).saturatingAdd 10) sharedOffer =
      sharedRecords.map Record.request := by decide +kernel
  have ascending : (sharedRecords.map Record.request).Pairwise (· < ·) := by decide +kernel
  rw [← wanted] at ascending
  rw [selection_eq_take, neededRequests_of_ascending ascending, wanted]
  decide +kernel

/-- The newcomer requests the files of the offer, and the peer sends the one that it can read. -/
theorem offer_requested : ∃ after disk selected header,
    mergeRemoteManifests ⟨.fill 9, 10, 100⟩ (.fill 1) 0
      (fun _ => ⟨.ok "/c", .ok true, .ok (), .ok ()⟩) newcomer ∅ ["c"] sharedOffer =
        .ok (after, disk, selected) ∧
      selected ≠ [] ∧ (∃ bytes, (RequestBundle.mk selected).encode = .ok bytes) ∧
      (sendFiles ⟨.fill 8, 10, 100⟩ (.fill 9) holder ["c"]
        (selected.map fun request => (request, holderMoment))).1 =
          [.unavailable, .file sharedFile header [5]] ∧
      Answer.overBudget ∉ (sendFiles ⟨.fill 8, 10, 100⟩ (.fill 9) holder ["c"]
        (selected.map fun request => (request, holderMoment))).1 := by
  have merged := @mergeRemoteManifests_eq _ _ _ _ _ _ _ ["c"] _ _ (by decide)
    (Except.eq_ok_getD offer_merges (StateStore.empty, ∅))
  obtain ⟨bytes, decoded⟩ := sharedOffer_decoded
  obtain ⟨⟨needed, selection⟩, within⟩ := requests_selected decoded merged
  have held : sharedOffer.Held holder := by
    unfold ManifestBundle.Held
    decide +kernel
  have asked : ∀ requests : List FileRequest,
      (requests.map fun request => (request, holderMoment)).map Prod.fst = requests :=
        fun requests => by
    rw [List.map_map]
    exact List.map_id' requests
  have accepted := within ⟨.fill 8, 10, 100⟩ (.fill 9) holder ["c"] _ (asked _) held (by
    intro item listed store kept
    obtain ⟨request, -, rfl⟩ := List.mem_map.mp listed
    exact kept)
  have sent : ∃ header, (sendFiles ⟨.fill 8, 10, 100⟩ (.fill 9) holder ["c"]
      ((sharedRecords.map Record.request).map fun request => (request, holderMoment))).1 =
        [.unavailable, .file sharedFile header [5]] := by
    refine ⟨(encodeFileHeader sharedFile).toOption.getD [], ?_⟩
    decide +kernel
  obtain ⟨header, sent⟩ := sent
  rw [← offerMerged_selection] at sent
  refine ⟨_, _, _, header, merged, ?_, selection.encodes, sent, accepted⟩
  show offerMerged.1.selection ((0 : I64).saturatingAdd 10) sharedOffer ≠ []
  rw [offerMerged_selection]
  exact List.cons_ne_nil _ _

end

end Skillsync
