import Skillsync.CollectionsSpec
import Skillsync.SessionSpec

set_option autoImplicit false

namespace Skillsync

open Effects Fallible RankedMaximum SessionM

section
variable {pre : SessionState → Prop} {fails : SessionError → SessionState → Prop}

theorem transact_triple {transaction : StateStore → Except SessionError StateStore}
    {post : Unit → SessionState → Prop}
    (refuses : ∀ state reason, pre state → fails reason state)
    (done : ∀ state store, pre state → transaction state.store = .ok store →
      post () { state with store := store }) :
    Triple pre (transact transaction) post fails := by
  intro state holds
  unfold transact
  cases outcome : transaction state.store with
  | ok store =>
      simp only [outcome]
      exact done state store holds outcome
  | error reason =>
      simp only [outcome]
      exact refuses state reason holds

theorem protocolResult_bind {Value Result : Type} {outcome : Except ProtocolError Value}
    {next : Value → SessionM Result} {final : Result → SessionState → Prop}
    (refuses : ∀ state reason, pre state → fails reason state)
    (back : ∀ value, outcome = .ok value → Triple pre (next value) final fails) :
    Triple pre (protocolResult outcome >>= next) final fails :=
  .settle_bind (fun state reason holds _ => refuses state reason holds)
    fun value same => back value (Except.mapError_ok same)

/-- The state after a frame is taken. -/
def SessionState.take (state : SessionState) (frame : Frame) (received : Nat)
    (input : List UInt8) : SessionState :=
  { state with received := received, input := input, taken := state.taken ++ [frame] }

theorem takeFrame_triple {tag : FrameTag} {post : List UInt8 → SessionState → Prop}
    (refuses : ∀ state reason, pre state → fails reason state)
    (takes : ∀ state payload received input, pre state →
      post payload (state.take (tag, payload) received input)) :
    Triple pre (takeFrame tag) post fails := by
  apply Triple.read_bind
  intro seen holds
  apply Triple.settle_bind
  · rintro state reason rfl -
    exact refuses state reason holds
  rintro ⟨payload, received, input⟩ -
  refine (Triple.change ?_).bind fun _ => Triple.pure fun state done => done
  rintro state rfl
  exact takes state payload received input holds

theorem exchangeFrame_triple {tag : FrameTag} {payload : List UInt8}
    {sent : SessionState → Prop} {post : List UInt8 → SessionState → Prop}
    (refuses : ∀ state reason, pre state → fails reason state)
    (sends : ∀ state, pre state →
      sent { state with sent := state.sent ++ [.frame tag payload] })
    (refusesToo : ∀ state reason, sent state → fails reason state)
    (takes : ∀ state answered received input, sent state →
      post answered (state.take (tag, answered) received input)) :
    Triple pre (exchangeFrame tag payload) post fails := by
  apply protocolResult_bind refuses
  intro bytes _
  have sending : Triple pre (send (.frame tag payload)) (fun _ => sent) fails :=
    Triple.change sends
  exact sending.bind fun _ => takeFrame_triple refusesToo takes

end

theorem SessionState.continues_of_sent (state : SessionState) (sent : List Sent) :
    state.Continues { state with sent := sent } := ⟨rfl, List.Subset.refl _⟩

theorem SessionState.continues_tables (state : SessionState) (store : StateStore) (disk : Disk) :
    state.Continues { state with store := store, disk := disk } := ⟨rfl, List.Subset.refl _⟩

theorem SessionState.continues_take (state : SessionState) (frame : Frame) (received : Nat)
    (input : List UInt8) : state.Continues (state.take frame received input) :=
  ⟨rfl, List.subset_append_left _ _⟩

section
variable [Blake3] [Ed25519] {context : SessionContext} {start state : SessionState}
  {shared : List String} {offers : List Record}

/-- Whatever the reason of a failure, the session is safe. -/
def SafeFailure (context : SessionContext) (start : SessionState) (_ : SessionError)
    (state : SessionState) : Prop := SessionKept context start state

theorem BeforeTransfers.fails (reason : SessionError)
    (holds : BeforeTransfers context start shared offers state) :
    SafeFailure context start reason state := holds.toAfterRosters.kept

theorem AfterRosters.fails (reason : SessionError)
    (holds : AfterRosters context start shared offers state) :
    SafeFailure context start reason state := holds.kept

theorem BeforeTransfers.send {tag : FrameTag} {payload : List UInt8}
    (holds : BeforeTransfers context start shared offers state)
    (allowed : FrameAllowed context start state tag payload) :
    BeforeTransfers context start shared offers
      { state with sent := state.sent ++ [.frame tag payload] } := by
  have frames : ∀ item ∈ state.sent ++ [Sent.frame tag payload],
      ∃ tag payload, item = Sent.frame tag payload := by
    intro item listed
    rw [List.mem_append, List.mem_singleton] at listed
    rcases listed with before | rfl
    · exact holds.silent item before
    · exact ⟨tag, payload, rfl⟩
  refine ⟨holds.toAfterRosters.step (state.continues_of_sent _) (.refl _) (.refl _ _) rfl ?_ ?_ ?_
    fun place => Or.inl rfl, frames, holds.removed⟩
  · intro other content listed
    cases List.mem_singleton.mp listed
    exact allowed.mono (state.continues_of_sent _)
  · intro request disk answer listed
    cases List.mem_singleton.mp listed
  · rw [fileBytes_of_frames frames]
    exact Nat.zero_le _

theorem BeforeTransfers.take (holds : BeforeTransfers context start shared offers state)
    (frame : Frame) (received : Nat) (input : List UInt8) :
    BeforeTransfers context start shared offers (state.take frame received input) :=
  holds.step (state.continues_take frame received input) rfl (fun _ => Or.inl rfl) holds.keyed
    (.refl _ _) fun _ => Or.inl rfl

/-- An exchange of frames before the transfers. -/
theorem exchange_before {tag : FrameTag} {payload : List UInt8}
    (allowed : ∀ state, BeforeTransfers context start shared offers state →
      FrameAllowed context start state tag payload) :
    Triple (BeforeTransfers context start shared offers) (exchangeFrame tag payload)
      (fun answered state => BeforeTransfers context start shared offers state ∧
        (tag, answered) ∈ state.taken) (SafeFailure context start) := by
  apply exchangeFrame_triple
  · exact fun state reason holds => holds.fails reason
  · exact fun state holds => holds.send (allowed state holds)
  · exact fun state reason holds => holds.fails reason
  · intro state answered received input holds
    exact ⟨holds.take _ received input, List.mem_append_right _ (List.mem_singleton_self _)⟩

theorem BeforeTransfers.stores (holds : BeforeTransfers context start shared offers state)
    {store : StateStore} (same : state.store.SameRecords store)
    (confined : state.store.Confined shared store) :
    BeforeTransfers context start shared offers { state with store := store } :=
  holds.step (state.continues_tables store state.disk) rfl (fun key => Or.inl (same key))
    (holds.keyed.of_record same) confined fun _ => Or.inl rfl

theorem appendSessionLog_before {now : I64} {event : OperationalEvent} :
    Triple (BeforeTransfers context start shared offers) (appendSessionLog context now event)
      (fun _ => BeforeTransfers context start shared offers) (SafeFailure context start) := by
  apply transact_triple
  · exact fun state reason holds => holds.fails reason
  · intro state store holds appended
    obtain ⟨confined, same⟩ := StateStore.appendLog_confined (Except.mapError_ok appended)
    exact holds.stores same confined

theorem candidate_allowed (holds : BeforeTransfers context start shared offers state)
    {candidate : Record} (offered : candidate ∈ offers)
    (inTime : candidate.modifiedNs ≤
      context.now.saturatingAdd context.config.maxFutureClockSkew) :
    CandidateAllowed context start state candidate := by
  obtain ⟨listed, inside⟩ := holds.offered candidate offered
  exact ⟨listed, holds.shares _ inside, inTime⟩

/-- The removal of the file of a candidate that has won. -/
theorem removeForWinner_before {candidate : Record} (offered : candidate ∈ offers)
    (inTime : candidate.modifiedNs ≤
      context.now.saturatingAdd context.config.maxFutureClockSkew) :
    Triple (BeforeTransfers context start shared offers)
      (removeForWinner context candidate.collection candidate)
      (fun _ => BeforeTransfers context start shared offers) (SafeFailure context start) := by
  apply Triple.read_bind
  intro seen holds
  split
  · rename_i wins
    obtain ⟨stored, kind, -⟩ := wins
    generalize done : materializeTombstone seen.store seen.disk candidate
      (context.removal candidate)
      context.now context.config.maxLogs = outcome
    obtain ⟨result, store, disk⟩ := outcome
    have removed : BeforeTransfers context start shared offers
        { seen with store := store, disk := disk } := by
      have records : seen.store.SameRecords store := by
        intro key
        have same := materializeTombstone_record seen.store seen.disk candidate
          (context.removal candidate) context.now context.config.maxLogs key
        rwa [done] at same
      have collections := materializeTombstone_collections seen.store seen.disk candidate
        (context.removal candidate) context.now context.config.maxLogs
      rw [done] at collections
      refine holds.step (seen.continues_tables store disk) rfl (fun key => Or.inl (records key))
        (holds.keyed.of_record records) ?_ ?_
      · apply StateStore.Confined.of_collections collections
        intro key outside
        have other : candidate.key ≠ key := by
          rintro rfl
          exact outside (holds.offered candidate offered).2
        have same := materializeTombstone_row seen.store seen.disk candidate
          (context.removal candidate) context.now context.config.maxLogs other
        rwa [done] at same
      · intro place
        rcases materializeTombstone_disk done place with same | ⟨gone, path, tombstone, opened⟩
        · exact Or.inl same
        · refine Or.inr ⟨gone, candidate, candidate, ?_, tombstone, path, opened, ?_, le_rfl⟩
          · exact candidate_allowed holds offered inTime
          · exact (records candidate.key).trans stored
    have change : Triple (fun state => state = seen)
        (change fun state => { state with store := store, disk := disk })
        (fun _ => BeforeTransfers context start shared offers) (SafeFailure context start) := by
      apply Triple.change
      rintro state rfl
      exact removed
    refine change.bind fun _ => ?_
    split
    · exact Triple.pure fun state done => done
    · exact appendSessionLog_before
  · apply Triple.pure
    rintro state rfl
    exact holds

/-- One candidate: it joins the record that is stored, or is refused. -/
theorem mergeOne_before {candidate : Record} (offered : candidate ∈ offers) :
    Triple (BeforeTransfers context start shared offers)
      (mergeOne context candidate.collection candidate)
      (fun _ => BeforeTransfers context start shared offers) (SafeFailure context start) := by
  unfold mergeOne
  split
  · exact appendSessionLog_before
  rename_i inTime
  rw [not_lt] at inTime
  have merging : Triple (BeforeTransfers context start shared offers)
      (transact fun store =>
        if store.record ⟨candidate.collection, candidate.path⟩ = some candidate then .ok store
        else ((store.mergeRecord candidate context.now (some context.remoteEndpoint)
          context.config.maxLogs).map Prod.fst).mapError fun reason => .sync (.state reason))
      (fun _ => BeforeTransfers context start shared offers) (SafeFailure context start) := by
    apply transact_triple
    · exact fun state reason holds => holds.fails reason
    · intro state store holds merged
      split at merged
      · cases merged
        exact holds
      obtain ⟨⟨after, accepted⟩, committed, rfl⟩ := Except.of_map_ok (Except.mapError_ok merged)
      obtain ⟨-, collections, rows⟩ := StateStore.mergeRecord_ok committed
      have joins := StateStore.mergeRecord_record committed
      have allowed := candidate_allowed holds offered inTime
      have raised : ∀ key, Raised (CandidateAllowed context start state) (state.store.record key)
          (after.record key) := by
        intro key
        rw [joins key]
        split
        · exact raised_join allowed
        · exact Or.inl rfl
      refine holds.step (state.continues_tables after state.disk) rfl raised ?_ ?_ ?_
      · intro key record found
        rw [joins key] at found
        split at found
        · rename_i same
          rcases join_mem found with stored | rfl
          · exact holds.keyed key record stored
          · exact same
        · exact holds.keyed key record found
      · apply StateStore.Confined.of_collections collections
        intro key outside
        rw [rows key, if_neg]
        rintro ⟨-, rfl⟩
        exact outside (holds.offered candidate offered).2
      · exact fun place => Or.inl rfl
  exact merging.bind fun _ => removeForWinner_before offered inTime

theorem mergeOffered_before {manifest : String × Manifest}
    (named : ∀ record ∈ manifest.2.records, record.collection = manifest.1)
    (offered : ∀ record ∈ manifest.2.records, record ∈ offers) :
    Triple (BeforeTransfers context start shared offers) (mergeOffered context manifest)
      (fun _ => BeforeTransfers context start shared offers) (SafeFailure context start) := by
  apply Triple.read_bind
  intro seen holds
  apply Triple.require_bind
  · rintro state rfl -
    exact holds.fails _
  intro _
  have loop : Triple (BeforeTransfers context start shared offers)
      (manifest.2.records.forM (mergeOne context manifest.1))
      (fun _ => BeforeTransfers context start shared offers) (SafeFailure context start) := by
    apply Triple.forM
    intro candidate listed
    rw [← named candidate listed]
    exact mergeOne_before (offered candidate listed)
  apply loop.of_pre
  rintro state rfl
  exact holds

omit [Ed25519] in
/-- The requests that are selected are for records of the bundle. -/
theorem selected_shared {store : StateStore} {limit : I64} {bundle : ManifestBundle}
    (names : (bundle.manifests.map Prod.fst).toFinset = shared.toFinset) {request : FileRequest}
    (selected : request ∈ selectRequests store 0 0 (neededRequests store limit bundle)) :
    request.collection ∈ shared := by
  rw [selectRequests_eq_take fun _ member => member] at selected
  obtain ⟨manifest, listed, remote, -, -, rfl⟩ :=
    mem_neededRequests.mp (Rationing.mem_take selected)
  have member : manifest.1 ∈ (bundle.manifests.map Prod.fst).toFinset :=
    List.mem_toFinset.mpr (List.mem_map_of_mem listed)
  rw [names] at member
  exact List.mem_toFinset.mp member

/-- `merge_remote_manifests` with the bundle that the peer has sent. -/
theorem mergeManifests_before {bundle : ManifestBundle} {payload : List UInt8}
    (decoded : ManifestBundle.decode payload = .ok bundle) :
    Triple (fun state => BeforeTransfers context start shared [] state ∧
        (FrameTag.manifests, payload) ∈ state.taken) (mergeManifests context shared bundle)
      (fun requests state => BeforeTransfers context start shared bundle.records state ∧
        ∀ request ∈ requests, request.collection ∈ shared) (SafeFailure context start) := by
  obtain ⟨-, allowed, -, -, -⟩ := ManifestBundle.decode_eq_ok.mp decoded
  have named : ∀ manifest ∈ bundle.manifests, ∀ record ∈ manifest.2.records,
      record.collection = manifest.1 := by
    intro manifest listed record inside
    exact ((allowed.each manifest listed).records record inside).1
  apply Triple.require_bind
  · rintro state ⟨holds, -⟩ -
    exact holds.fails _
  intro names
  have offering : ∀ state, BeforeTransfers context start shared [] state ∧
      (FrameTag.manifests, payload) ∈ state.taken →
      BeforeTransfers context start shared bundle.records state := by
    rintro state ⟨holds, taken⟩
    refine { holds with offered := fun record listed =>
      ⟨⟨payload, bundle, taken, decoded, listed⟩, ?_⟩ }
    obtain ⟨manifest, member, inside⟩ := List.mem_flatMap.mp listed
    have found : manifest.1 ∈ (bundle.manifests.map Prod.fst).toFinset :=
      List.mem_toFinset.mpr (List.mem_map_of_mem member)
    rw [names] at found
    rw [named manifest member record inside]
    exact List.mem_toFinset.mp found
  have loop : Triple (BeforeTransfers context start shared bundle.records)
      (bundle.manifests.forM (mergeOffered context))
      (fun _ => BeforeTransfers context start shared bundle.records)
      (SafeFailure context start) := by
    apply Triple.forM
    intro manifest listed
    exact mergeOffered_before (named manifest listed) fun record inside =>
      List.mem_flatMap.mpr ⟨manifest, listed, inside⟩
  refine (loop.of_pre offering).bind fun _ => ?_
  apply Triple.read_bind
  intro seen holds
  apply Triple.pure
  rintro state rfl
  exact ⟨holds, fun request selected => selected_shared names selected⟩

end

section
variable [Blake3] [Ed25519] {context : SessionContext} {start state : SessionState}
  {shared : List String} {offers : List Record} {asked : List FileRequest}

/-- The state of a transfer: what the peer has asked for, and the bytes of files that are sent. -/
structure Transferring (context : SessionContext) (start : SessionState) (shared : List String)
    (offers : List Record) (asked : List FileRequest) (sent : Nat) (state : SessionState) :
    Prop extends AfterRosters context start shared offers state where
  weight : (state.sent.map Sent.fileBytes).sum = sent
  asks : ∀ request ∈ asked, state.Asks request

theorem Transferring.stores {sent : Nat}
    (holds : Transferring context start shared offers asked sent state)
    {store : StateStore} {disk : Disk} (same : state.store.SameRecords store)
    (confined : state.store.Confined shared store)
    (files : ∀ place : DiskKey, disk[place]? = state.disk[place]? ∨
      FileInstalled context start { state with store := store, disk := disk } place) :
    Transferring context start shared offers asked sent
      { state with store := store, disk := disk } := by
  have silent : state.sent = state.sent ++ [] := (List.append_nil _).symm
  refine ⟨holds.toAfterRosters.step (state.continues_tables store disk) same confined silent ?_ ?_
    holds.disclosed.volume ?_, holds.weight, holds.asks⟩
  · intro tag payload listed
    cases listed
  · intro request disk answer listed
    cases listed
  · intro place
    exact (files place).imp_right Or.inr

theorem Transferring.fails {sent : Nat} (reason : SessionError)
    (holds : Transferring context start shared offers asked sent state) :
    SafeFailure context start reason state := holds.toAfterRosters.kept

/-- An answer is sent, and the tables change with it. -/
theorem Transferring.answer {sent : Nat} {request : FileRequest} {answer : Answer}
    (holds : Transferring context start shared offers asked sent state) {store : StateStore}
    (same : state.store.SameRecords store) (confined : state.store.Confined shared store)
    (allowed : AnswerAllowed context start state request state.disk answer)
    (light : sent + answer.fileBytes ≤ maxSessionFileBytes) :
    Transferring context start shared offers asked (sent + answer.fileBytes)
      { state with store := store, sent := state.sent ++ [.answer request state.disk answer] } := by
  obtain ⟨running, rfl, asks⟩ := holds
  have continues : state.Continues
      { state with store := store, sent := state.sent ++ [.answer request state.disk answer] } :=
    ⟨rfl, List.Subset.refl _⟩
  have weight : ((state.sent ++ [Sent.answer request state.disk answer]).map Sent.fileBytes).sum =
      (state.sent.map Sent.fileBytes).sum + answer.fileBytes := by
    rw [List.map_append, List.sum_append]
    rfl
  refine ⟨running.step continues same confined rfl ?_ ?_ (weight.trans_le light) fun place =>
    Or.inl rfl, weight, asks⟩
  · intro tag payload listed
    cases List.mem_singleton.mp listed
  · intro other disk content listed
    cases List.mem_singleton.mp listed
    exact allowed.mono continues same

theorem serveRequest_serving {sent : Nat} {request : FileRequest}
    (wanted : request ∈ asked) (listed : request.collection ∈ shared)
    (light : sent ≤ maxSessionFileBytes) :
    Triple (Transferring context start shared offers asked sent) (serveRequest context sent request)
      (fun total state => total ≤ maxSessionFileBytes ∧
        Transferring context start shared offers asked total state)
      (SafeFailure context start) := by
  apply Triple.read_bind
  intro seen holds
  dsimp only
  generalize done : sendFile context.config context.remoteEndpoint
    ⟨id, seen.disk, (context.serving request).environment, (context.serving request).now,
      (context.serving request).content⟩ seen.store sent request = outcome
  obtain ⟨answer, result⟩ := outcome
  obtain ⟨stores, within, supplies⟩ := sendFile_supplies listed light done
  have allowed : AnswerAllowed context start seen request seen.disk answer := by
    refine ⟨holds.trusted, holds.asks request wanted, holds.shares _ listed, holds.files,
      fun record header content equal => ?_⟩
    have supplied := supplies record header content equal
    have named := request_of_stored holds.keyed supplied.stored supplied.asked
    obtain ⟨key, -, stored⟩ := Option.bind_eq_some_iff.mp supplied.stored
    have place := holds.keyed key record stored
    exact ⟨named, by rw [place]; exact stored, supplied⟩
  cases result with
  | ok outcome =>
      obtain ⟨store, total⟩ := outcome
      obtain ⟨rfl, confined, same⟩ := stores store total rfl
      rintro state rfl
      exact ⟨within, holds.answer same confined allowed within⟩
  | error reason =>
      dsimp only
      split
      · have sending : Triple (fun state => state = seen)
            (send (.answer request seen.disk answer))
            (fun _ => Transferring context start shared offers asked (sent + answer.fileBytes))
            (SafeFailure context start) := by
          apply Triple.change
          rintro state rfl
          exact holds.answer (.refl _) (.refl _ _) allowed within
        exact sending.bind fun _ => Triple.fail fun state sent => sent.fails _
      · apply Triple.fail
        rintro state rfl
        exact holds.fails _

theorem serveRequests_serving {requests : List FileRequest} {sent : Nat}
    (wanted : ∀ request ∈ requests, request ∈ asked)
    (listed : ∀ request ∈ requests, request.collection ∈ shared)
    (light : sent ≤ maxSessionFileBytes) :
    Triple (Transferring context start shared offers asked sent)
      (serveRequests context sent requests)
      (fun _ => AfterRosters context start shared offers) (SafeFailure context start) := by
  induction requests generalizing sent with
  | nil =>
      apply Triple.pure
      exact fun state holds => holds.toAfterRosters
  | cons request rest ih =>
      rw [List.forall_mem_cons] at wanted listed
      refine (serveRequest_serving wanted.1 listed.1 light).bind fun total => ?_
      intro state holds
      exact ih wanted.2 listed.2 holds.1 state holds.2

theorem serveFiles_serving :
    Triple (Transferring context start shared offers asked 0) (serveFiles context shared asked)
      (fun _ => AfterRosters context start shared offers) (SafeFailure context start) := by
  apply Triple.require_bind
  · exact fun state holds _ => holds.fails _
  intro listed
  exact serveRequests_serving (fun request wanted => wanted) listed (Nat.zero_le _)

omit [Blake3] [Ed25519] in
theorem FileRequest.key_collection {request : FileRequest} {key : RecordKey}
    (named : request.key = some key) : key.collection = request.collection := by
  unfold FileRequest.key at named
  obtain ⟨path, -, rfl⟩ := Option.map_eq_some_iff.mp named
  rfl

theorem Transferring.connection {sent : Nat}
    (holds : Transferring context start shared offers asked sent state) (received : Nat)
    (input : List UInt8) :
    Transferring context start shared offers asked sent
      { state with received := received, input := input } := by
  have silent : state.sent = state.sent ++ [] := (List.append_nil _).symm
  have continues : state.Continues { state with received := received, input := input } :=
    ⟨rfl, List.Subset.refl _⟩
  refine ⟨holds.toAfterRosters.step continues (.refl _) (.refl _ _) silent ?_ ?_
    holds.disclosed.volume fun place => Or.inl rfl, holds.weight, holds.asks⟩
  · intro tag payload listed
    cases listed
  · intro request disk answer listed
    cases listed

/-- A transaction of a transfer that leaves the records as they are. -/
theorem transact_transferring {sent : Nat}
    {transaction : StateStore → Except SessionError StateStore}
    (confines : ∀ store after, transaction store = .ok after →
      store.Confined shared after ∧ store.SameRecords after) :
    Triple (Transferring context start shared offers asked sent) (transact transaction)
      (fun _ => Transferring context start shared offers asked sent)
      (SafeFailure context start) := by
  apply transact_triple
  · exact fun state reason holds => holds.fails reason
  · intro state store holds done
    obtain ⟨confined, same⟩ := confines state.store store done
    exact holds.stores same confined fun place => Or.inl rfl

theorem attempt_transferring {sent : Nat} {transaction : StateStore → Except StateError StateStore}
    (confines : ∀ store after, transaction store = .ok after →
      store.Confined shared after ∧ store.SameRecords after) :
    Triple (Transferring context start shared offers asked sent) (attempt transaction)
      (fun _ => Transferring context start shared offers asked sent)
      (SafeFailure context start) := by
  apply Triple.change
  intro state holds
  have left : state.store.Confined shared ((transaction state.store).toOption.getD state.store) ∧
      state.store.SameRecords ((transaction state.store).toOption.getD state.store) := by
    cases outcome : transaction state.store with
    | ok after => exact confines state.store after outcome
    | error reason => exact ⟨.refl _ _, .refl _⟩
  exact holds.stores left.2 left.1 fun place => Or.inl rfl

theorem logMissing_transferring {sent : Nat} {request : FileRequest}
    (listed : request.collection ∈ shared) :
    Triple (Transferring context start shared offers asked sent) (logMissing context request)
      (fun _ => Transferring context start shared offers asked sent) (SafeFailure context start) :=
  transact_transferring fun _ _ logged =>
    logUnavailable_confined listed (Except.mapError_ok logged)

theorem rejectTransfer_transferring {sent : Nat} {request : FileRequest} {reason : TransferError}
    (listed : request.collection ∈ shared) :
    Triple (Transferring context start shared offers asked sent)
      (rejectTransfer context request reason)
      (fun _ => Transferring context start shared offers asked sent)
      (SafeFailure context start) := by
  have failing : Triple (Transferring context start shared offers asked sent)
      (fail (.transfer reason) : SessionM Unit)
      (fun _ => Transferring context start shared offers asked sent) (SafeFailure context start) :=
    Triple.fail fun state holds => holds.fails _
  unfold rejectTransfer
  dsimp only
  split
  · apply Triple.require_bind
    · exact fun state holds _ => holds.fails _
    · intro staged
      refine (logMissing_transferring listed).bind fun _ => Triple.require_bind ?_ ?_
      · exact fun state holds _ => holds.fails _
      · exact fun _ => failing
  · exact failing

theorem logInstall_transferring {sent : Nat} {request : FileRequest} {record : Record}
    (outcome : Except InstallError InstalledFile) :
    Triple (Transferring context start shared offers asked sent)
      (logInstall context request record outcome)
      (fun _ => Transferring context start shared offers asked sent)
      (SafeFailure context start) := by
  unfold logInstall
  split
  · exact transact_transferring fun _ _ logged =>
      StateStore.appendLog_confined (Except.mapError_ok logged)
  · exact attempt_transferring fun _ _ logged => StateStore.appendLog_confined logged
  · exact attempt_transferring fun _ _ logged => StateStore.appendLog_confined logged
  · exact Triple.pure fun state holds => holds

/-- The bytes of the stored record are installed. -/
theorem installReceived_transferring {sent : Nat} {request : FileRequest} {record : Record}
    {content : List UInt8} (listed : record.collection ∈ shared) :
    Triple (fun state => Transferring context start shared offers asked sent state ∧
        state.store.record record.key = some record)
      (installReceived context request record content)
      (fun _ => Transferring context start shared offers asked sent)
      (SafeFailure context start) := by
  apply Triple.read_bind
  rintro seen ⟨holds, stored⟩
  generalize done : applyFileFixture seen.store seen.disk record content
    (context.receiving request).environment (context.receiving request).now
    context.config.maxLogs = result
  obtain ⟨outcome, store, disk⟩ := result
  obtain ⟨confined, same, files⟩ := applyFileFixture_confined listed done
  have changing : Triple (fun state => state = seen)
      (change fun state => { state with store := store, disk := disk })
      (fun _ => Transferring context start shared offers asked sent)
      (SafeFailure context start) := by
    apply Triple.change
    rintro state rfl
    apply holds.stores same confined
    intro place
    rcases files place with kept | ⟨path, opened, file, found, -, matches'⟩
    · exact Or.inl kept
    · exact Or.inr ⟨request, record, file, path, holds.shares _ listed, opened,
        (same record.key).trans stored, found, matches'⟩
  exact changing.bind fun _ => logInstall_transferring outcome

/-- One answer of the peer is read, and its file is installed when its record is still stored. -/
theorem receiveRequested_transferring {sent : Nat} {request : FileRequest}
    (listed : request.collection ∈ shared) :
    Triple (Transferring context start shared offers asked sent) (receiveRequested context request)
      (fun _ => Transferring context start shared offers asked sent)
      (SafeFailure context start) := by
  apply Triple.read_bind
  intro seen holds
  cases outcome : receiveFile request seen.received seen.input with
  | error reason =>
      apply (rejectTransfer_transferring listed).of_pre
      rintro state rfl
      exact holds
  | ok read =>
      obtain ⟨found, received, input⟩ := read
      have reading : Triple (fun state => state = seen)
          (change fun state => { state with received := received, input := input })
          (fun _ state => Transferring context start shared offers asked sent state ∧
            state.store = seen.store) (SafeFailure context start) := by
        apply Triple.change
        rintro state rfl
        exact ⟨holds.connection received input, rfl⟩
      refine reading.bind fun _ => ?_
      cases found with
      | none =>
          apply (logMissing_transferring listed).of_pre
          exact fun state known => known.1
      | some file =>
          obtain ⟨record, content⟩ := file
          apply Triple.require_bind
          · exact fun state known _ => known.1.fails _
          intro staged
          split
          case isFalse =>
            apply Triple.of_pre _ fun state known => known.1
            exact (logMissing_transferring listed).bind fun _ =>
              Triple.fail fun state holds => holds.fails _
          apply Triple.require_bind
          · exact fun state known _ => known.1.fails _
          intro rewound
          split
          · apply (logMissing_transferring listed).of_pre
            exact fun state known => known.1
          · rename_i current
            rw [not_or, not_not] at current
            obtain ⟨key, named, stored⟩ := Option.bind_eq_some_iff.mp current.1
            have place := holds.keyed key record stored
            have inside : record.collection ∈ shared := by
              have same : record.key.collection = request.collection := by
                rw [place]
                exact FileRequest.key_collection named
              show record.key.collection ∈ shared
              rw [same]
              exact listed
            apply (installReceived_transferring inside).of_pre
            rintro state ⟨known, same⟩
            exact ⟨known, by rw [same, place]; exact stored⟩

theorem receiveRequests_transferring {sent : Nat} {requests : List FileRequest}
    (listed : ∀ request ∈ requests, request.collection ∈ shared) :
    Triple (Transferring context start shared offers asked sent) (receiveRequests context requests)
      (fun _ => Transferring context start shared offers asked sent) (SafeFailure context start) :=
  Triple.forM fun request member => receiveRequested_transferring (listed request member)

end

section
variable [Blake3] [Ed25519] {context : SessionContext} {start state : SessionState}
  {shared : List String} {offers : List Record}

/-- An exchange after the transfers. -/
theorem exchange_done : Triple (AfterRosters context start shared offers) (exchangeFrame .done [])
    (fun _ => AfterRosters context start shared offers) (SafeFailure context start) := by
  have sends : ∀ state, AfterRosters context start shared offers state →
      AfterRosters context start shared offers
        { state with sent := state.sent ++ [.frame .done []] } := by
    intro state holds
    refine holds.step (state.continues_of_sent _) (.refl _) (.refl _ _) rfl ?_ ?_ ?_
      fun place => Or.inl rfl
    · intro tag payload listed
      cases List.mem_singleton.mp listed
      exact ⟨holds.trusted.mono rfl, rfl⟩
    · intro request disk answer listed
      cases List.mem_singleton.mp listed
    · rw [List.map_append, List.sum_append]
      exact holds.disclosed.volume
  apply exchangeFrame_triple
  · exact fun state reason holds => holds.fails reason
  · exact sends
  · exact fun state reason holds => holds.fails reason
  · intro state answered received input holds
    have silent : state.sent = state.sent ++ [] := (List.append_nil _).symm
    refine holds.step (state.continues_take _ received input) (.refl _) (.refl _ _) silent ?_ ?_
      holds.disclosed.volume fun place => Or.inl rfl
    · intro tag payload listed
      cases listed
    · intro request disk answer listed
      cases listed

/-- The transfers in the order of a side. -/
theorem transfers_after {bundle : RequestBundle} {payload : List UInt8}
    {requests : List FileRequest} (side : ConnectionSide)
    (decoded : RequestBundle.decode payload = .ok bundle)
    (listed : ∀ request ∈ requests, request.collection ∈ shared) :
    Triple (fun state => BeforeTransfers context start shared offers state ∧
        (FrameTag.requests, payload) ∈ state.taken)
      (transferFiles context side shared bundle.requests requests)
      (fun _ => AfterRosters context start shared offers) (SafeFailure context start) := by
  have begins : ∀ state, BeforeTransfers context start shared offers state ∧
      (FrameTag.requests, payload) ∈ state.taken →
      Transferring context start shared offers bundle.requests 0 state := by
    rintro state ⟨holds, taken⟩
    exact ⟨holds.toAfterRosters, fileBytes_of_frames holds.silent,
      fun request wanted => ⟨payload, bundle, taken, decoded, wanted⟩⟩
  have serves : Triple (Transferring context start shared offers bundle.requests 0)
      (serveFiles context shared bundle.requests)
      (fun _ => AfterRosters context start shared offers) (SafeFailure context start) :=
    serveFiles_serving
  cases side with
  | dialer =>
      refine (serves.of_pre begins).bind fun _ => ?_
      intro state holds
      have receives : Triple (Transferring context start shared offers []
          (state.sent.map Sent.fileBytes).sum) (receiveRequests context requests)
          (fun _ => AfterRosters context start shared offers) (SafeFailure context start) :=
        (receiveRequests_transferring listed).weaken (fun _ known => known)
          (fun _ _ done => done.toAfterRosters) fun _ _ failed => failed
      exact receives state ⟨holds, rfl, by simp⟩
  | acceptor =>
      exact ((receiveRequests_transferring listed).of_pre begins).bind fun _ => serves

/-- What follows the exchange of the rosters. -/
theorem exchangeFiles_kept {side : ConnectionSide} (keyed : start.store.Keyed) :
    Triple (fun state => BeforeTransfers context start shared [] state ∧
        state.store = start.store)
      (exchangeFiles context side shared) (fun _ => SessionKept context start)
      (SafeFailure context start) := by
  apply Triple.read_bind
  rintro seen ⟨holds, store⟩
  apply Triple.settle_bind
  · rintro state reason rfl -
    exact holds.fails _
  intro offered built
  rw [store] at built
  have contents := mem_bundle_records keyed (Except.mapError_ok built)
  apply protocolResult_bind
  · rintro state reason rfl
    exact holds.fails _
  intro manifests encoded
  have begins : ∀ state, state = seen → BeforeTransfers context start shared [] state := by
    rintro state rfl
    exact holds
  have offering : ∀ state, BeforeTransfers context start shared [] state →
      FrameAllowed context start state .manifests manifests := by
    intro state holds
    refine ⟨holds.trusted, offered, encoded, fun record listed => ?_⟩
    obtain ⟨inside, stored⟩ := (contents record).mp listed
    exact ⟨holds.shares _ inside, stored⟩
  refine ((exchange_before offering).of_pre begins).bind fun answered => ?_
  apply protocolResult_bind
  · exact fun state reason known => known.1.fails _
  intro bundle decoded
  refine (mergeManifests_before decoded).bind fun requests => ?_
  apply Triple.knowing
  intro listed
  apply protocolResult_bind
  · exact fun state reason holds => holds.fails _
  intro asked encoded
  have asking : ∀ state, BeforeTransfers context start shared bundle.records state →
      FrameAllowed context start state .requests asked := by
    intro state holds
    exact ⟨holds.trusted, ⟨requests⟩, encoded, fun request member => holds.shares _ (listed request
      member)⟩
  refine (exchange_before asking).bind fun answered => ?_
  apply protocolResult_bind
  · exact fun state reason known => known.1.fails _
  intro remote decoded
  refine (transfers_after side decoded listed).bind fun _ => ?_
  refine exchange_done.bind fun done => ?_
  apply Triple.require_bind
  · exact fun state holds _ => holds.fails _
  intro _
  apply Triple.read_bind
  intro last holds
  apply Triple.require
  · rintro state rfl -
    exact holds.fails _
  · rintro state rfl -
    exact holds.kept

theorem FrameAllowed.roster_free {other : SessionState} {tag : FrameTag} {payload : List UInt8}
    (early : tag = .hello ∨ tag = .roster)
    (allowed : FrameAllowed context start state tag payload) :
    FrameAllowed context start other tag payload := by
  rcases early with rfl | rfl
  · exact allowed
  · exact allowed

theorem BeforeRosters.congr {other : SessionState} (holds : BeforeRosters context start state)
    (store : other.store = state.store) (disk : other.disk = state.disk)
    (sent : other.sent = state.sent) : BeforeRosters context start other where
  store := store.trans holds.store
  disk := disk.trans holds.disk
  started := by
    rw [sent]
    exact holds.started
  sent := by
    intro item listed
    rw [sent] at listed
    obtain ⟨tag, payload, same, early, allowed⟩ := holds.sent item listed
    exact ⟨tag, payload, same, early, allowed.roster_free early⟩

/-- An exchange before the rosters are merged; `known` are frames that are taken already. -/
theorem exchange_opening {known : List Frame} {tag : FrameTag} {payload : List UInt8}
    (started : start.Trusts context) (early : tag = .hello ∨ tag = .roster)
    (allowed : FrameAllowed context start start tag payload) :
    Triple (fun state => BeforeRosters context start state ∧ known ⊆ state.taken)
      (exchangeFrame tag payload)
      (fun answered state => BeforeRosters context start state ∧
        (tag, answered) :: known ⊆ state.taken) (SafeFailure context start) := by
  have sends : ∀ state, BeforeRosters context start state ∧ known ⊆ state.taken →
      BeforeRosters context start { state with sent := state.sent ++ [.frame tag payload] } ∧
        known ⊆ state.taken := by
    rintro state ⟨holds, taken⟩
    refine ⟨⟨holds.store, holds.disk, fun _ => started, fun item listed => ?_⟩, taken⟩
    rw [List.mem_append, List.mem_singleton] at listed
    rcases listed with before | rfl
    · obtain ⟨other, content, same, first, admitted⟩ := holds.sent item before
      exact ⟨other, content, same, first, admitted.roster_free first⟩
    · exact ⟨tag, payload, rfl, early, allowed.roster_free early⟩
  have fails : ∀ state reason, BeforeRosters context start state ∧ known ⊆ state.taken →
      SafeFailure context start reason state := fun state reason holds => holds.1.kept
  refine exchangeFrame_triple fails sends fails ?_
  rintro state answered received input ⟨holds, taken⟩
  refine ⟨holds.congr rfl rfl rfl, List.cons_subset.mpr ⟨?_, ?_⟩⟩
  · exact List.mem_append_right _ (List.mem_singleton_self _)
  · exact List.Subset.trans taken (List.subset_append_left _ _)

theorem selectedWithTip_ok {roster : RosterStore} {chain : List RosterRevision}
    {tip : RosterRevision} (selects : selectedWithTip roster = .ok (chain, tip)) :
    roster.selectedTip = .ok tip := by
  unfold selectedWithTip at selects
  split at selects
  · cases selects
  rename_i found chosen
  split at selects
  · cases selects
  rename_i last ends
  cases selects
  unfold RosterStore.selectedTip
  rw [chosen, Except.ok_bind, ends]
  rfl

theorem BeforeRosters.begins (silent : start.sent = []) : BeforeRosters context start start where
  store := rfl
  disk := rfl
  started sent := absurd silent sent
  sent := by
    intro item listed
    rw [silent] at listed
    cases listed

theorem authorizeLocalRoster_begins (silent : start.sent = []) :
    Triple (fun state => state = start) (authorizeLocalRoster context)
      (fun _ state => state = start ∧ start.Trusts context) (SafeFailure context start) := by
  have safe : SessionKept context start start := (BeforeRosters.begins silent).kept
  apply Triple.read_bind
  rintro seen rfl
  apply Triple.settle_bind
  · rintro state reason rfl -
    exact safe
  rintro ⟨chain, tip⟩ selects
  apply Triple.require
  · rintro state rfl -
    exact safe
  · rintro state rfl members
    exact ⟨rfl, tip, selectedWithTip_ok selects, members⟩

theorem localSessionState_begins (silent : start.sent = []) :
    Triple (fun state => state = start) localSessionState
      (fun found state => state = start ∧ (start.roster.selectedRosterChain = .ok found.1 ∧
        found.2 = start.store.collections.toList.map Prod.fst)) (SafeFailure context start) := by
  apply Triple.read_bind
  rintro seen rfl
  apply Triple.settle_bind
  · rintro state reason rfl -
    exact (BeforeRosters.begins silent).kept
  intro chain selects
  apply Triple.pure
  rintro state rfl
  exact ⟨rfl, Except.mapError_ok selects, rfl⟩

end

section
variable [Blake3] [Ed25519] [AddrJson] {context : SessionContext} {start : SessionState}

/-- A roster is accepted only when it then has both sides as members. -/
theorem acceptRemoteRosterAndHint_authorizes {roster next : RosterStore}
    {revisions : List RosterRevision} {genesisHash : RosterHash} {first second : EndpointId}
    {hint : String} {loaded : Option DeviceIdentity} {changed : Bool}
    (accepted : roster.acceptRemoteRosterAndHint revisions genesisHash first second hint loaded =
      (next, .ok changed)) : next.Authorizes first second := by
  have cases : ((roster.acceptRemoteRosterAndHint revisions genesisHash first second hint
      loaded).1 = roster ∧ _) ∨ _ := roster.acceptRemoteRosterAndHint_cases
  rcases cases with ⟨-, reason, refused⟩ | ⟨-, -, merged, result, reconciled, outcome⟩
  · rw [accepted] at refused
    cases refused
  · rw [accepted] at outcome
    cases result with
    | error reason => cases (Prod.mk.inj outcome).2
    | ok value =>
        obtain ⟨rfl, -⟩ := Prod.mk.inj outcome
        obtain ⟨previous, chosen, tip, holds⟩ :=
          RosterStore.mergeAndAuthorizeRemoteRoster_ok reconciled
        exact ⟨tip, holds.after, holds.localMember, holds.remoteMember⟩

/-- The roster and the address of the peer are taken, or nothing else of it. -/
theorem acceptRoster_trusts {genesis : RosterRevision} {revisions : List RosterRevision}
    {hint : String} {names : List String} {remote : Hello} {payload : List UInt8}
    {known : List Frame} (started : start.Trusts context) (keyed : start.store.Keyed)
    (mine : ∀ name ∈ names, (start.store.collections[name]?).isSome = true)
    (decoded : Hello.decode payload = .ok remote) (greeted : (FrameTag.hello, payload) ∈ known) :
    Triple (fun state => BeforeRosters context start state ∧ known ⊆ state.taken)
      (acceptRoster context genesis revisions hint)
      (fun _ state => BeforeTransfers context start
        (names.filter fun name => decide (name ∈ remote.collections)) [] state ∧
        state.store = start.store) (SafeFailure context start) := by
  rintro state ⟨holds, taken⟩
  unfold acceptRoster onRoster
  dsimp only
  generalize done : state.roster.acceptRemoteRosterAndHint revisions genesis.canonicalHash
    context.config.localEndpoint context.remoteEndpoint hint context.loaded = outcome
  obtain ⟨roster, result⟩ := outcome
  have rest : BeforeRosters context start { state with roster := roster } := holds.congr rfl rfl rfl
  cases result with
  | error reason => exact rest.kept
  | ok changed =>
      have silent : ∀ item ∈ state.sent, ∃ tag payload, item = Sent.frame tag payload := by
        intro item listed
        obtain ⟨tag, payload, same, -, -⟩ := holds.sent item listed
        exact ⟨tag, payload, same⟩
      have shares : ∀ name ∈ names.filter fun name => decide (name ∈ remote.collections),
          start.Shares { state with roster := roster } name := by
        intro name listed
        rw [List.mem_filter, decide_eq_true_eq] at listed
        exact ⟨mine name listed.1, payload, remote, taken greeted, decoded, listed.2⟩
      refine ⟨⟨⟨started, acceptRemoteRosterAndHint_authorizes done, shares, ?_, ?_,
        rest.kept.disclosed, fun key => Or.inl ?_, ?_, fun place => Or.inl ?_⟩, silent,
        fun place => Or.inl ?_⟩, holds.store⟩
      · intro record listed
        cases listed
      · rw [holds.store]
        exact keyed
      · rw [holds.store]
      · rw [holds.store]
        exact .refl _ _
      · rw [holds.disk]
      · rw [holds.disk]

/-- Every step of a session leaves it safe, and so does every failure. -/
theorem runSession_kept (side : ConnectionSide) (silent : start.sent = [])
    (keyed : start.store.Keyed) :
    Triple (fun state => state = start) (runSession context side)
      (fun _ => SessionKept context start) (SafeFailure context start) := by
  refine (authorizeLocalRoster_begins silent).bind fun _ => ?_
  apply Triple.knowing
  intro started
  refine (localSessionState_begins silent).bind ?_
  rintro ⟨chain, collections⟩
  apply Triple.knowing
  rintro ⟨selects, rfl⟩
  have fails : ∀ state, state = start → SessionKept context start state := by
    rintro state rfl
    exact (BeforeRosters.begins silent).kept
  apply Triple.settle_bind
  · exact fun state reason same _ => fails state same
  intro genesis _
  apply Triple.require_bind
  · exact fun state same _ => fails state same
  intro _
  apply protocolResult_bind
  · exact fun state reason same => fails state same
  intro hello encoded
  have begins : ∀ state, state = start → BeforeRosters context start state ∧ [] ⊆ state.taken := by
    rintro state rfl
    exact ⟨.begins silent, List.nil_subset _⟩
  refine ((exchange_opening started (Or.inl rfl) ⟨_, encoded, rfl⟩).of_pre begins).bind
    fun greeted => ?_
  apply protocolResult_bind
  · exact fun state reason known => known.1.kept
  intro remote decoded
  apply protocolResult_bind
  · exact fun state reason known => known.1.kept
  intro roster listed
  refine (exchange_opening started (Or.inr rfl) ⟨_, selects, listed⟩).bind fun answered => ?_
  apply protocolResult_bind
  · exact fun state reason known => known.1.kept
  intro bundle _
  have mine : ∀ name ∈ start.store.collections.toList.map Prod.fst,
      (start.store.collections[name]?).isSome = true := by
    intro name listed
    obtain ⟨⟨other, collection⟩, member, rfl⟩ := List.mem_map.mp listed
    rw [Std.ExtTreeMap.mem_toList_iff_getElem?_eq_some] at member
    rw [member]
    rfl
  refine (acceptRoster_trusts started keyed mine decoded (by simp)).bind fun changed => ?_
  refine (exchangeFiles_kept keyed).bind fun _ => ?_
  exact Triple.pure fun state holds => holds

theorem runSession_safe (context : SessionContext) (side : ConnectionSide) (roster : RosterStore)
    {store : StateStore} (disk : Disk) (input : List UInt8) (keyed : store.Keyed) :
    SessionKept context (.opening roster store disk input)
      ((runSession context side).run (.opening roster store disk input)).2 := by
  have triple : Triple (fun state => state = .opening roster store disk input)
      (runSession context side) (fun _ => SessionKept context (.opening roster store disk input))
      (fun _ => SessionKept context (.opening roster store disk input)) :=
    runSession_kept side rfl keyed
  exact triple.always rfl

end

section
attribute [local instance] Blake3.checksum Ed25519.checksum AddrJson.bare

open RosterSample

/-- A session with a device, on a network where nothing fails. -/
def SessionContext.sample (remoteEndpoint : EndpointId) : SessionContext where
  config := ⟨(device 1).endpointId, 10, 100⟩
  localAddr := ⟨(device 1).endpointId, 0⟩
  localAddrJson := bareAddr (device 1).endpointId
  remoteEndpoint := remoteEndpoint
  loaded := none
  now := 0
  removal _ := ⟨.ok "/c", .ok true, .ok (), .ok ()⟩
  serving _ := ⟨⟨.ok "/c", .ok true, .ok ()⟩, 0, [7]⟩
  receiving _ := ⟨true, true, true, true, ⟨.ok "/c", .ok (), fun _ => false, .ok (), .ok (), id⟩, 0⟩

/-- What a device of the pair is given for a session with the other one. -/
def SessionContext.between (mine other : UInt8) : SessionContext :=
  { SessionContext.sample (device other).endpointId with
    config := ⟨(device mine).endpointId, 10, 100⟩
    localAddr := ⟨(device mine).endpointId, 0⟩
    localAddrJson := bareAddr (device mine).endpointId }

/-- The first device has a note, and dials the second one. -/
def noteDialed (input : List UInt8) : Except SessionError Bool × SessionState :=
  (runSession (.between 1 2) .dialer).run
    (.opening pair (noteMerged.1.materialize note.key) noteAsked.2.disk input)

/-- The second device has nothing yet. -/
def noteAccepted (input : List UInt8) : Except SessionError Bool × SessionState :=
  (runSession (.between 2 1) .acceptor).run (.opening pair newcomer ∅ input)

/-- The streams after some rounds: in each of them first the acceptor gets all that was sent, and
then the dialer. -/
def noteStreams : Nat → List UInt8 × List UInt8
  | 0 => ([], [])
  | rounds + 1 =>
      let before := noteStreams rounds
      let dialed := transcript (noteDialed before.1).2.sent
      (transcript (noteAccepted dialed).2.sent, dialed)

/-- The record that a side has sent the file of. -/
def Sent.file : Sent → Option Record
  | .answer _ _ (.file record _ _) => some record
  | _ => none

/-- Both sides succeed: the note is sent, merged and installed. -/
theorem note_session_runs :
    ((noteDialed (noteStreams 3).1).1.isOk = true ∧
      (noteAccepted (noteStreams 3).2).1.isOk = true) ∧
    ((noteStreams 3).1 <+: transcript (noteAccepted (noteStreams 3).2).2.sent ∧
      (noteStreams 3).2 <+: transcript (noteDialed (noteStreams 3).1).2.sent) ∧
    (noteDialed (noteStreams 3).1).2.sent.findSome? Sent.file = some note ∧
    (noteAccepted (noteStreams 3).2).2.store.record note.key = some note ∧
    ((noteAccepted (noteStreams 3).2).2.disk[DiskKey.mk "/c" note.path]?).isSome = true := by
  decide +kernel

end

end Skillsync
