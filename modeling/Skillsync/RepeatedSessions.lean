import Skillsync.Rationing
import Skillsync.ProtocolSpec
import Skillsync.StateSpec
import Skillsync.Sync

set_option autoImplicit false

namespace Skillsync

open Fallible Rationing

/-- The row a request asks for. -/
def FileRequest.key (request : FileRequest) : Option RecordKey :=
  (ProtocolPath.parse request.path).toOption.map fun path => ⟨request.collection, path⟩

namespace StateStore

def requestedSize (store : StateStore) (request : FileRequest) : Nat :=
  match ((request.key.bind store.record).map Record.kind) with
  | some (.file size _) => size
  | _ => 0

/-- What a session may transfer. -/
def sessionBudget (store : StateStore) : Budget FileRequest :=
  ⟨maxTransfers, maxSessionFileBytes, store.requestedSize⟩

/-- The file of a row is installed. -/
def materialize (store : StateStore) (key : RecordKey) : StateStore :=
  match (store.record key).bind recordFingerprint with
  | none => store
  | some fingerprint => (store.updateMaterializedFingerprint key fingerprint).toOption.getD store

def receive (store : StateStore) (request : FileRequest) : StateStore :=
  match request.key with
  | none => store
  | some key => store.materialize key

variable [Blake3]

/-- The requests of `merge_remote_manifests`. -/
def selection (store : StateStore) (futureLimit : I64) (bundle : ManifestBundle) :
    List FileRequest :=
  selectRequests store 0 0 (neededRequests store futureLimit bundle)

/-- A session that receives what it selects, except for the transfers that fail. -/
def session (futureLimit : I64) (bundle : ManifestBundle) (fails : FileRequest → Bool)
    (store : StateStore) : StateStore :=
  ((store.selection futureLimit bundle).filter fun request => !fails request).foldl receive store

end StateStore

section
variable [Blake3] {store : StateStore} {limit : I64} {bundle : ManifestBundle}
  {request : FileRequest}

omit [Blake3] in
theorem requests_sorted (requests : List FileRequest) :
    (requests.mergeSort fun left right => decide (left ≤ right)).Pairwise (· ≤ ·) := by
  have sorted := @List.pairwise_mergeSort _ (fun left right : FileRequest =>
    decide (left ≤ right)) (fun a b c first second => by
      simp only [decide_eq_true_eq] at first second ⊢
      exact le_trans first second) (fun a b => by simpa using le_total a b) requests
  exact sorted.imp fun below => of_decide_eq_true below

/-- The needed requests as the second loop of `merge_remote_manifests` pushes them. -/
def wantedRequests (store : StateStore) (limit : I64) (bundle : ManifestBundle) :
    List FileRequest :=
  bundle.manifests.flatMap fun manifest =>
    (manifest.2.records.filter (isRequested store limit manifest.1)).map fun remote =>
      ⟨manifest.1, remote.path.text, remote.canonicalHash⟩

theorem neededRequests_eq : neededRequests store limit bundle =
    ((wantedRequests store limit bundle).mergeSort fun left right =>
      decide (left ≤ right)).dedup :=
  List.Pairwise.destutter_eq_dedup (requests_sorted _)

theorem mem_neededRequests : request ∈ neededRequests store limit bundle ↔
    ∃ manifest ∈ bundle.manifests, ∃ remote ∈ manifest.2.records,
      isRequested store limit manifest.1 remote = true ∧
        request = ⟨manifest.1, remote.path.text, remote.canonicalHash⟩ := by
  rw [neededRequests_eq, List.mem_dedup, List.mem_mergeSort, wantedRequests, List.mem_flatMap]
  constructor
  · rintro ⟨manifest, listed, member⟩
    obtain ⟨remote, inside, rfl⟩ := List.mem_map.mp member
    obtain ⟨record, needed⟩ := List.mem_filter.mp inside
    exact ⟨manifest, listed, remote, record, needed, rfl⟩
  · rintro ⟨manifest, listed, remote, record, needed, rfl⟩
    exact ⟨manifest, listed, List.mem_map.mpr ⟨remote, List.mem_filter.mpr ⟨record, needed⟩, rfl⟩⟩

theorem neededRequests_ascending (store : StateStore) (limit : I64)
    (bundle : ManifestBundle) : (neededRequests store limit bundle).Pairwise (· < ·) := by
  rw [neededRequests_eq]
  have sorted := (requests_sorted (wantedRequests store limit bundle)).sublist
    (List.dedup_sublist _)
  have distinct := List.nodup_iff_pairwise_ne.mp (List.nodup_dedup
    ((wantedRequests store limit bundle).mergeSort fun left right => decide (left ≤ right)))
  exact sorted.imp₂ (fun _ _ below differs => lt_of_le_of_ne below differs) distinct

/-- Requests that are in order already. -/
theorem neededRequests_of_ascending
    (ascending : (wantedRequests store limit bundle).Pairwise (· < ·)) :
    neededRequests store limit bundle = wantedRequests store limit bundle := by
  have same : (neededRequests store limit bundle).Perm (wantedRequests store limit bundle) := by
    rw [List.perm_ext_iff_of_nodup ((neededRequests_ascending _ _ _).imp fun less => ne_of_lt less)
      (ascending.imp fun less => ne_of_lt less)]
    intro request
    rw [neededRequests_eq, List.mem_dedup, List.mem_mergeSort]
  apply same.eq_of_pairwise _ (neededRequests_ascending _ _ _) ascending
  intro a b _ _ less greater
  exact absurd less (lt_asymm greater)

theorem key_request (collection : String) (record : Record) :
    (FileRequest.mk collection record.path.text record.canonicalHash).key =
      some ⟨collection, record.path⟩ := by
  simp only [FileRequest.key, ProtocolPath.parse_text]
  rfl

/-- A needed request names an unmaterialized row. -/
theorem needed_row (needed : request ∈ neededRequests store limit bundle) :
    ∃ key row, request.key = some key ∧ store.recordState key = some row ∧
      row.record.kind.isFile = true ∧ row.materialized = false ∧
      request = ⟨key.collection, key.path.text, row.record.canonicalHash⟩ := by
  obtain ⟨manifest, -, remote, -, asked, rfl⟩ := mem_neededRequests.mp needed
  unfold isRequested at asked
  rw [Bool.and_eq_true, Bool.and_eq_true] at asked
  obtain ⟨⟨-, isFile⟩, winner⟩ := asked
  split at winner
  · cases winner
  · rename_i row present
    simp only [Bool.and_eq_true, decide_eq_true_eq, Bool.not_eq_true'] at winner
    obtain ⟨same, missing⟩ := winner
    subst same
    exact ⟨⟨manifest.1, row.record.path⟩, row, key_request _ _, present, isFile, missing, rfl⟩

/-- Over needed requests the budget loop is the generic one. -/
theorem selectRequests_eq_take {requests : List FileRequest}
    (needed : ∀ request ∈ requests, request ∈ neededRequests store limit bundle)
    (count bytes : Nat) :
    selectRequests store count bytes requests = store.sessionBudget.take count bytes requests := by
  induction requests generalizing count bytes with
  | nil => rfl
  | cons request rest ih =>
      obtain ⟨first, others⟩ := List.forall_mem_cons.mp needed
      obtain ⟨key, row, named, present, isFile, -⟩ := needed_row first
      have stored : request.key.bind store.record = some row.record := by
        rw [named, Option.bind_some]
        exact StateStore.record_eq_some.mpr ⟨row, present, rfl⟩
      have loaded : ((ProtocolPath.parse request.path).toOption.bind fun path =>
          store.record ⟨request.collection, path⟩) = some row.record := by
        rw [← stored, FileRequest.key, Option.bind_map]
        rfl
      cases kind : row.record.kind with
      | tombstone =>
          rw [kind] at isFile
          cases isFile
      | file size contentHash =>
          have weight : store.sessionBudget.weigh request = size := by
            simp only [StateStore.sessionBudget, StateStore.requestedSize, stored, Option.map_some,
              kind]
          rw [selectRequests, Budget.take, weight]
          simp only [loaded, Option.map_some, kind, ih others]
          rfl

end

namespace StateStore

variable {store : StateStore} {key other : RecordKey}

theorem materialize_recordState {row : PathRecordState} (present : store.recordState key = some row)
    (isFile : row.record.kind.isFile = true) :
    ∃ fingerprint, ∀ other, (store.materialize key).recordState other =
      if key = other then some ⟨row.record, true, some fingerprint⟩
      else store.recordState other := by
  have stored : store.record key = some row.record := record_eq_some.mpr ⟨row, present, rfl⟩
  have fits := row.record.size_fits
  cases kind : row.record.kind with
  | tombstone =>
      rw [kind] at isFile
      cases isFile
  | file size contentHash =>
      rw [kind] at fits
      have print : recordFingerprint row.record =
          some ⟨row.record.modifiedNs, size, contentHash⟩ := by
        simp only [recordFingerprint, kind]
      have small : ¬ 2 ^ 63 ≤ size := not_le.mpr fits
      refine ⟨⟨row.record.modifiedNs, size, contentHash⟩, fun other => ?_⟩
      rw [materialize, stored, Option.bind_some, print]
      dsimp only
      rw [updateMaterializedFingerprint, if_neg small, fileRow_of_file present isFile,
        Except.ok_bind]
      exact OrderedMap.getElem?_insert _ _ _ _

/-- The file of a row is installed. -/
def Materialized (store : StateStore) (key : RecordKey) : Prop :=
  ∃ row, store.recordState key = some row ∧ row.materialized = true

/-- The request names a file record. -/
def Names (store : StateStore) (request : FileRequest) (key : RecordKey) : Prop :=
  request.key = some key ∧ ∃ record, store.record key = some record ∧ record.kind.isFile = true

/-- A received request changes one flag. -/
theorem receive_row {request : FileRequest} (names : store.Names request key) :
    (∀ other, (store.receive request).record other = store.record other) ∧
      ∀ other, (store.receive request).Materialized other ↔
        store.Materialized other ∨ other = key := by
  obtain ⟨named, record, stored, isFile⟩ := names
  obtain ⟨row, present, rfl⟩ := record_eq_some.mp stored
  obtain ⟨fingerprint, after⟩ := materialize_recordState present isFile
  have same : store.receive request = store.materialize key := by
    simp only [receive, named]
  rw [same]
  constructor
  · intro other
    rw [StateStore.record, after other]
    by_cases own : key = other
    · rw [if_pos own, ← own, stored]
      rfl
    · rw [if_neg own]
      rfl
  · intro other
    unfold Materialized
    rw [after other]
    by_cases own : key = other
    · rw [if_pos own]
      exact ⟨fun _ => Or.inr own.symm, fun _ => ⟨_, rfl, rfl⟩⟩
    · rw [if_neg own]
      exact ⟨Or.inl, fun either => either.resolve_right fun equal => own equal.symm⟩

/-- Received requests change only their own flags. -/
theorem foldl_receive (store : StateStore) (requests : List FileRequest)
    (names : ∀ request ∈ requests, ∃ key, store.Names request key) :
    (∀ other, (requests.foldl receive store).record other = store.record other) ∧
      ∀ other, (requests.foldl receive store).Materialized other ↔
        store.Materialized other ∨ ∃ request ∈ requests, request.key = some other := by
  induction requests generalizing store with
  | nil => simp
  | cons request rest ih =>
      obtain ⟨⟨key, first⟩, others⟩ := List.forall_mem_cons.mp names
      obtain ⟨sameRecord, flags⟩ := receive_row first
      have follow : ∀ request' ∈ rest, ∃ key, (store.receive request).Names request' key := by
        intro request' member
        obtain ⟨other, named, record, stored, isFile⟩ := others request' member
        exact ⟨other, named, record, (sameRecord other).trans stored, isFile⟩
      obtain ⟨restRecord, restFlags⟩ := ih _ follow
      rw [List.foldl_cons]
      refine ⟨fun other => (restRecord other).trans (sameRecord other), fun other => ?_⟩
      rw [restFlags other, flags other, List.exists_mem_cons_iff, or_assoc, first.1,
        Option.some.injEq, eq_comm (a := key)]

end StateStore

section
variable [Blake3] {store : StateStore} {limit : I64} {bundle : ManifestBundle}
  {fails : FileRequest → Bool}

omit [Blake3] in
theorem isRequested_iff {collection : String} {remote : Record} :
    isRequested store limit collection remote = true ↔ remote.modifiedNs ≤ limit ∧
      remote.kind.isFile = true ∧ store.record ⟨collection, remote.path⟩ = some remote ∧
      ¬ store.Materialized ⟨collection, remote.path⟩ := by
  unfold isRequested StateStore.Materialized StateStore.record
  cases store.recordState ⟨collection, remote.path⟩ with
  | none => simp
  | some row => simp [and_assoc]

theorem needed_names {request : FileRequest}
    (needed : request ∈ neededRequests store limit bundle) :
    ∃ key, store.Names request key := by
  obtain ⟨key, row, named, present, isFile, -⟩ := needed_row needed
  exact ⟨key, named, row.record, StateStore.record_eq_some.mpr ⟨row, present, rfl⟩, isFile⟩

/-- A row has one needed request. -/
theorem needed_unique {request other : FileRequest} {key : RecordKey}
    (needed : request ∈ neededRequests store limit bundle)
    (neededOther : other ∈ neededRequests store limit bundle) (named : request.key = some key)
    (namedOther : other.key = some key) : request = other := by
  obtain ⟨first, row, firstNamed, present, -, -, spelled⟩ := needed_row needed
  obtain ⟨second, row', secondNamed, present', -, -, spelled'⟩ := needed_row neededOther
  rw [named, Option.some.injEq] at firstNamed
  rw [namedOther, Option.some.injEq] at secondNamed
  subst firstNamed
  subst secondNamed
  rw [present, Option.some.injEq] at present'
  rw [spelled, spelled', present']

theorem selection_eq_take : store.selection limit bundle =
    store.sessionBudget.take 0 0 (neededRequests store limit bundle) :=
  selectRequests_eq_take (fun _ member => member) 0 0

/-- A session changes the flags of the rows it received, and nothing else. -/
theorem session_rows (store : StateStore) (limit : I64) (bundle : ManifestBundle)
    (fails : FileRequest → Bool) :
    (∀ key, (store.session limit bundle fails).record key = store.record key) ∧
      ∀ key, (store.session limit bundle fails).Materialized key ↔ store.Materialized key ∨
        ∃ request ∈ store.sessionBudget.take 0 0 (neededRequests store limit bundle),
          fails request = false ∧ request.key = some key := by
  unfold StateStore.session
  rw [selection_eq_take]
  obtain ⟨records, flags⟩ := StateStore.foldl_receive store
    ((store.sessionBudget.take 0 0 (neededRequests store limit bundle)).filter
      fun request => !fails request)
    (fun request member => needed_names (mem_take (List.mem_filter.mp member).1))
  refine ⟨records, fun key => ?_⟩
  rw [flags key]
  simp only [List.mem_filter, Bool.not_eq_true', and_assoc]

theorem session_budget :
    (store.session limit bundle fails).sessionBudget = store.sessionBudget := by
  have same : (store.session limit bundle fails).record = store.record :=
    funext fun key => (session_rows store limit bundle fails).1 key
  unfold StateStore.sessionBudget StateStore.requestedSize
  rw [same]

theorem mem_needed_session {request : FileRequest} :
    request ∈ neededRequests (store.session limit bundle fails) limit bundle ↔
      request ∈ neededRequests store limit bundle ∧ (fails request = true ∨
        request ∉ store.sessionBudget.take 0 0 (neededRequests store limit bundle)) := by
  obtain ⟨records, flags⟩ := session_rows store limit bundle fails
  constructor
  · intro needed
    obtain ⟨manifest, listed, remote, inside, asked, rfl⟩ := mem_neededRequests.mp needed
    obtain ⟨within, isFile, stored, missing⟩ := isRequested_iff.mp asked
    rw [records] at stored
    rw [flags, not_or] at missing
    refine ⟨mem_neededRequests.mpr ⟨manifest, listed, remote, inside,
      isRequested_iff.mpr ⟨within, isFile, stored, missing.1⟩, rfl⟩, ?_⟩
    by_contra served
    rw [not_or, not_not, Bool.not_eq_true] at served
    exact missing.2 ⟨_, served.2, served.1, key_request _ _⟩
  · rintro ⟨needed, left⟩
    obtain ⟨manifest, listed, remote, inside, asked, rfl⟩ := mem_neededRequests.mp needed
    obtain ⟨within, isFile, stored, missing⟩ := isRequested_iff.mp asked
    refine mem_neededRequests.mpr ⟨manifest, listed, remote, inside,
      isRequested_iff.mpr ⟨within, isFile, (records _).trans stored, ?_⟩, rfl⟩
    rw [flags]
    rintro (before | ⟨other, taken, works, named⟩)
    · exact missing before
    · have same := needed_unique (mem_take taken) needed named (key_request _ _)
      subst same
      rcases left with failing | missed
      · rw [works] at failing
        cases failing
      · exact missed taken

/-- A session is a round of the budget. -/
theorem needed_session : neededRequests (store.session limit bundle fails) limit bundle =
    store.sessionBudget.round fails (neededRequests store limit bundle) := by
  have ascending := neededRequests_ascending (store.session limit bundle fails) limit bundle
  have ascendingRound : (store.sessionBudget.round fails
      (neededRequests store limit bundle)).Pairwise (· < ·) :=
    (neededRequests_ascending _ _ _).filter _
  apply List.Perm.eq_of_pairwise _ ascending ascendingRound
  · rw [List.perm_ext_iff_of_nodup (ascending.imp fun less => ne_of_lt less)
      (ascendingRound.imp fun less => ne_of_lt less)]
    intro request
    rw [mem_needed_session, mem_round]
  · intro a b _ _ less greater
    exact absurd less (lt_asymm greater)

theorem needed_sessions (sessions : Nat) :
    neededRequests ((StateStore.session limit bundle fails)^[sessions] store) limit bundle =
      (store.sessionBudget.round fails)^[sessions] (neededRequests store limit bundle) := by
  induction sessions generalizing store with
  | zero => rfl
  | succ sessions ih =>
      rw [Function.iterate_succ_apply, Function.iterate_succ_apply, ih, session_budget,
        needed_session]

theorem record_sessions (sessions : Nat) (key : RecordKey) :
    ((StateStore.session limit bundle fails)^[sessions] store).record key = store.record key := by
  induction sessions generalizing store with
  | zero => rfl
  | succ sessions ih => rw [Function.iterate_succ_apply, ih, (session_rows _ _ _ _).1]

/-- A request is no longer needed when its file is installed. -/
theorem materialized_iff {request : FileRequest} (sessions : Nat)
    (needed : request ∈ neededRequests store limit bundle) :
    (∃ key, request.key = some key ∧
      ((StateStore.session limit bundle fails)^[sessions] store).Materialized key) ↔
      request ∉ neededRequests ((StateStore.session limit bundle fails)^[sessions] store) limit
        bundle := by
  obtain ⟨manifest, listed, remote, inside, asked, rfl⟩ := mem_neededRequests.mp needed
  obtain ⟨within, isFile, stored, -⟩ := isRequested_iff.mp asked
  rw [key_request]
  constructor
  · rintro ⟨key, named, materialized⟩ later
    rw [Option.some.injEq] at named
    subst named
    obtain ⟨key, row, named, present, -, missing, -⟩ := needed_row later
    rw [key_request, Option.some.injEq] at named
    subst named
    obtain ⟨row', present', flag⟩ := materialized
    rw [present, Option.some.injEq] at present'
    rw [← present', missing] at flag
    cases flag
  · intro done
    refine ⟨_, rfl, ?_⟩
    by_contra missing
    apply done
    exact mem_neededRequests.mpr ⟨manifest, listed, remote, inside, isRequested_iff.mpr
      ⟨within, isFile, (record_sessions sessions _).trans stored, missing⟩, rfl⟩

/-- The list `merge_remote_manifests` returns is the selection of the merged store. -/
theorem mergeRemoteManifests_selection {config : SessionConfig} {remoteEndpoint : EndpointId}
    {now : I64} {environment : Record → RemovalEnvironment} {disk diskAfter : Disk}
    {shared : List String} {after : StateStore} {selected : List FileRequest}
    (merged : mergeRemoteManifests config remoteEndpoint now environment store disk shared bundle =
      .ok (after, diskAfter, selected)) :
    selected = after.selection (now.saturatingAdd config.maxFutureClockSkew) bundle := by
  unfold mergeRemoteManifests at merged
  split at merged
  · cases merged
  · obtain ⟨⟨store, disk⟩, -, returned⟩ := Except.bind_ok merged
    cases returned
    rfl

theorem never_received {front back : List FileRequest} {request : FileRequest}
    (split : neededRequests store limit bundle = front ++ request :: back)
    (blocked : ¬ store.sessionBudget.Admits fails front request) (sessions : Nat) :
    ¬ ∃ key, request.key = some key ∧
      ((StateStore.session limit bundle fails)^[sessions] store).Materialized key := by
  have needed : request ∈ neededRequests store limit bundle := by
    rw [split]
    exact List.mem_append_right _ List.mem_cons_self
  have distinct := (neededRequests_ascending store limit bundle).imp fun less => ne_of_lt less
  rw [materialized_iff sessions needed, needed_sessions, not_not]
  rw [split] at distinct ⊢
  exact never_served distinct blocked sessions

/-- The failing requests that come before a request. -/
def blocking (fails : FileRequest → Bool) (requests : List FileRequest) (request : FileRequest) :
    List FileRequest :=
  requests.filter fun other => fails other && decide (other < request)

omit [Blake3] in
theorem blocking_eq {front back : List FileRequest} {request : FileRequest}
    (ascending : (front ++ request :: back).Pairwise (· < ·)) :
    blocking fails (front ++ request :: back) request = front.filter fails := by
  obtain ⟨-, later, earlier⟩ := List.pairwise_append.mp ascending
  have before : ∀ other ∈ front, other < request := fun other member =>
    earlier other member request List.mem_cons_self
  have after : ∀ other ∈ request :: back, ¬ other < request := by
    intro other member
    rcases List.mem_cons.mp member with rfl | inBack
    · exact lt_irrefl _
    · exact lt_asymm ((List.pairwise_cons.mp later).1 other inBack)
  have none : (request :: back).filter (fun other => fails other && decide (other < request)) =
      [] := by
    apply List.filter_eq_nil_iff.mpr
    intro other member
    simp [after other member]
  rw [blocking, List.filter_append, none, List.append_nil]
  apply List.filter_congr
  intro other member
  simp [before other member]

/-- Repeated sessions install every file whose transfer does not fail, exactly when the failing
requests before each of them leave room for it in a session. -/
theorem repeated_sessions_finish :
    (∃ sessions, ∀ request ∈ neededRequests store limit bundle, fails request = false →
      ∃ key, request.key = some key ∧
        ((StateStore.session limit bundle fails)^[sessions] store).Materialized key) ↔
    ∀ request ∈ neededRequests store limit bundle, fails request = false →
      (blocking fails (neededRequests store limit bundle) request).length < maxTransfers ∧
      ((blocking fails (neededRequests store limit bundle) request).map
        store.requestedSize).sum + store.requestedSize request ≤ maxSessionFileBytes := by
  have ascending := neededRequests_ascending store limit bundle
  have served : _ ↔ store.sessionBudget.Open fails _ :=
    served_iff (ascending.imp fun less => ne_of_lt less)
  constructor
  · rintro ⟨sessions, installed⟩ request needed works
    have unblocked := served.mp ⟨sessions, fun other member worksOther => by
      rw [← needed_sessions]
      exact (materialized_iff sessions member).mp (installed other member worksOther)⟩
    obtain ⟨front, back, split⟩ := List.append_of_mem needed
    have room := unblocked front request back split works
    rw [split] at ascending ⊢
    rw [blocking_eq ascending]
    exact room
  · intro room
    obtain ⟨sessions, done⟩ := served.mpr fun front request back split works => by
      have fits := room request (split ▸ List.mem_append_right _ List.mem_cons_self) works
      rw [split] at ascending fits
      rw [blocking_eq ascending] at fits
      exact fits
    refine ⟨sessions, fun request needed works => (materialized_iff sessions needed).mpr ?_⟩
    rw [needed_sessions]
    exact done request needed works

end

section
attribute [local instance] Blake3.checksum

/-- A file of the sender. -/
def offered (path : ProtocolPath) (size : Nat) : Record :=
  .sample path 0 (.fill 1) (.file size (.fill 7))

def pathNamed (name : String) : ProtocolPath :=
  (ProtocolPath.parse name).toOption.getD .sample

def largeFiles : List Record :=
  [offered (pathNamed "a") maxFileBytes, offered (pathNamed "b") maxFileBytes,
    offered (pathNamed "c") maxFileBytes]

def smallFile : Record := offered (pathNamed "d") 1

def offer : ManifestBundle := ⟨[("c", ⟨largeFiles ++ [smallFile]⟩)]⟩

/-- The receiver after the merge of the offer. -/
def receiver : StateStore :=
  ((largeFiles ++ [smallFile]).foldlM
    (fun (store : StateStore) record =>
      (store.mergeRecord record 0 (some (.fill 1)) 1000).map Prod.fst)
    ((StateStore.empty.addCollection "c" "/c" none).toOption.getD StateStore.empty)).toOption.getD
      StateStore.empty

def requestFor (record : Record) : FileRequest :=
  ⟨"c", record.path.text, record.canonicalHash⟩

/-- The offer can be received. -/
theorem offer_decoded : ∃ bytes, ManifestBundle.decode bytes = .ok offer := by
  have ordered : Manifest.Ordered (largeFiles ++ [smallFile]) := by
    unfold Manifest.Ordered
    decide +kernel
  have allowed : ManifestBundle.Allowed [] 0 offer.manifests := by
    refine ⟨fun manifest listed => ?_, fun _ _ => List.not_mem_nil, List.nodup_singleton _,
      by decide +kernel⟩
    rw [List.mem_singleton.mp listed]
    exact ⟨by decide, by decide +kernel⟩
  refine ⟨offer.spelled, ManifestBundle.decode_eq_ok.mpr ⟨by decide +kernel, allowed,
    fun manifest listed => ?_, by decide +kernel, rfl⟩⟩
  rw [List.mem_singleton.mp listed]
  exact ⟨ordered, by decide +kernel⟩

/-- Three files of the greatest size whose transfer fails keep a fourth one waiting. -/
theorem small_file_starves :
    (∃ bytes, ManifestBundle.decode bytes = .ok offer) ∧
      requestFor smallFile ∈ neededRequests receiver 0 offer ∧
      ¬ ∃ sessions key, (requestFor smallFile).key = some key ∧
        ((StateStore.session 0 offer fun request =>
          decide (request ∈ largeFiles.map requestFor))^[sessions] receiver).Materialized key := by
  have wanted : wantedRequests receiver 0 offer =
      largeFiles.map requestFor ++ requestFor smallFile :: [] := by decide +kernel
  have needed : neededRequests receiver 0 offer =
      largeFiles.map requestFor ++ requestFor smallFile :: [] := by
    have ascending : (largeFiles.map requestFor ++ requestFor smallFile :: []).Pairwise
        (· < ·) := by decide +kernel
    rw [← wanted] at ascending ⊢
    exact neededRequests_of_ascending ascending
  have full : ¬ receiver.sessionBudget.Admits
      (fun request => decide (request ∈ largeFiles.map requestFor))
        (largeFiles.map requestFor) (requestFor smallFile) := by
    unfold Budget.Admits
    decide +kernel
  refine ⟨offer_decoded, ?_, ?_⟩
  · rw [needed]
    exact List.mem_append_right _ List.mem_cons_self
  · rintro ⟨sessions, starved⟩
    exact never_received needed full sessions starved

end

end Skillsync
