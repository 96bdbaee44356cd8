import Skillsync.SessionSafety

set_option autoImplicit false

namespace Skillsync

open Effects Fallible RankedMaximum SessionM

/-- A frame that can be written. -/
def Sent.IsFrame (item : Sent) : Prop :=
  ∃ tag payload bytes, item = .frame tag payload ∧ encodeFrame tag payload = .ok bytes

/-- The stream of a side begins with its hello, its roster and its manifests. -/
def Opens (sent : List Sent) : Prop := ∀ item ∈ sent.take 3, item.IsFrame

/-- What a side has taken is the beginning of what its peer has sent. -/
def Heard (start state : SessionState) : Prop :=
  ∀ peer, Opens peer → start.input <+: transcript peer → ∃ rest,
    peer = state.taken.map (fun frame => Sent.frame frame.1 frame.2) ++ rest ∧
      state.input <+: transcript rest

section
variable {tag sentTag : FrameTag} {payload sentPayload bytes front rest input left : List UInt8}
  {received total : Nat}

theorem readBytes_sent {taken : List UInt8} (part : input <+: front ++ rest)
    (read : readBytes front.length input = .ok (taken, left)) : taken = front ∧ left <+: rest := by
  have known := readBytes_part part
  rw [read] at known
  exact known

/-- A frame that is read from the front of a stream is the frame that was written there. -/
theorem readFrame_sent (encoded : encodeFrame sentTag sentPayload = .ok bytes)
    (part : input <+: bytes ++ rest)
    (read : readFrame received input = .ok ((tag, payload), total, left)) :
    tag = sentTag ∧ payload = sentPayload ∧ left <+: rest := by
  obtain ⟨fits, rfl⟩ := encodeFrame_eq_ok.mp encoded
  obtain ⟨five, header⟩ := decodeHeader_encoded fits
  have shape : sentTag.byte :: (Encoder.u32 sentPayload.length ++ sentPayload) ++ rest =
      (sentTag.byte :: Encoder.u32 sentPayload.length) ++ (sentPayload ++ rest) := by
    simp only [List.cons_append, List.append_assoc]
  rw [shape] at part
  unfold readFrame at read
  rw [← five] at read
  obtain ⟨⟨first, behind⟩, headed, read⟩ := Except.bind_ok read
  obtain ⟨same, follow⟩ := readBytes_sent part headed
  dsimp only at read
  rw [same, header, Except.mapError, Except.ok_bind] at read
  obtain ⟨added, counted, read⟩ := Except.bind_ok read
  obtain ⟨⟨second, last⟩, body, read⟩ := Except.bind_ok read
  obtain ⟨whole, after⟩ := readBytes_sent follow body
  cases read
  exact ⟨rfl, whole, after⟩

theorem readExpected_sent (encoded : encodeFrame sentTag sentPayload = .ok bytes)
    (part : input <+: bytes ++ rest)
    (read : readExpected tag received input = .ok (payload, total, left)) :
    tag = sentTag ∧ payload = sentPayload ∧ left <+: rest := by
  unfold readExpected at read
  obtain ⟨⟨⟨foundTag, found⟩, after, behind⟩, frame, read⟩ := Except.bind_ok read
  obtain ⟨same, whole, follow⟩ := readFrame_sent encoded part frame
  dsimp only at read
  split at read
  · cases read
  · rename_i equal
    cases read
    exact ⟨(not_not.mp equal).symm.trans same, whole, follow⟩

end

section
variable {start state : SessionState}

theorem Heard.begins (fresh : start.taken = []) : Heard start start := by
  intro peer _ part
  exact ⟨peer, by rw [fresh]; rfl, part⟩

theorem Heard.congr {other : SessionState} (heard : Heard start state)
    (taken : other.taken = state.taken) (input : other.input = state.input) :
    Heard start other := by
  unfold Heard
  rw [taken, input]
  exact heard

/-- A side that reads on takes the next frame of its peer. -/
theorem Heard.take {tag : FrameTag} {payload input : List UInt8} {received : Nat}
    (heard : Heard start state) (early : state.taken.length < 3)
    (read : readExpected tag state.received state.input = .ok (payload, received, input)) :
    Heard start (state.take (tag, payload) received input) := by
  intro peer opens part
  obtain ⟨rest, split, ahead⟩ := heard peer opens part
  have nothing : state.input = [] → False := by
    intro empty
    rw [empty] at read
    unfold readExpected readFrame readBytes at read
    rw [if_neg (by simp [headerBytes])] at read
    cases read
  cases rest with
  | nil =>
      unfold transcript at ahead
      rw [List.flatMap_nil, List.prefix_nil] at ahead
      exact (nothing ahead).elim
  | cons item rest =>
      have first : item ∈ peer.take 3 := by
        rw [split, List.take_append, List.length_map, List.mem_append]
        apply Or.inr
        rw [List.take_cons (by omega)]
        exact List.mem_cons_self
      obtain ⟨sentTag, sentPayload, bytes, rfl, encoded⟩ := opens item first
      unfold transcript at ahead
      rw [List.flatMap_cons, Sent.bytes, encoded] at ahead
      obtain ⟨rfl, rfl, follow⟩ := readExpected_sent encoded ahead read
      refine ⟨rest, ?_, follow⟩
      rw [split, SessionState.take, List.map_append, List.append_assoc]
      rfl

theorem Heard.mem {peer : List Sent} (heard : Heard start state) (opens : Opens peer)
    (part : start.input <+: transcript peer) {tag : FrameTag} {payload : List UInt8}
    (taken : (tag, payload) ∈ state.taken) : Sent.frame tag payload ∈ peer := by
  obtain ⟨rest, split, -⟩ := heard peer opens part
  rw [split]
  exact List.mem_append_left _ (List.mem_map_of_mem taken)

end

/-- The manifests that a side sends: all stored winners of the collections that both sides have. -/
def Manifested (start state : SessionState) (payload : List UInt8) : Prop :=
  ∃ greeting hello bundle, (FrameTag.hello, greeting) ∈ state.taken ∧
    Hello.decode greeting = .ok hello ∧
    buildManifests start.store ((start.store.collections.toList.map Prod.fst).filter fun name =>
      decide (name ∈ hello.collections)) = .ok bundle ∧ bundle.encode = .ok payload

/-- What holds of both streams of a side, however its session ends. -/
structure Talk (start state : SessionState) : Prop where
  heard : ∀ peer, Opens peer → start.input <+: transcript peer → ∀ tag payload,
    (tag, payload) ∈ state.taken → tag = .hello ∨ tag = .manifests → Sent.frame tag payload ∈ peer
  opens : Opens state.sent
  manifests : ∀ payload, .frame .manifests payload ∈ state.sent → Manifested start state payload
  keyed : start.store.Keyed → state.store.Keyed

/-- A state of the same session after the manifests: no more of its opening frames come. -/
structure SessionState.Later (state later : SessionState) : Prop where
  taken : ∃ frames, later.taken = state.taken ++ frames ∧
    ∀ frame ∈ frames, frame.1 ≠ .hello ∧ frame.1 ≠ .manifests
  sent : ∃ items, later.sent = state.sent ++ items ∧
    ∀ payload, .frame .manifests payload ∉ items
  keyed : state.store.Keyed → later.store.Keyed

/-- The front of a session: the frames with these tags are sent and taken. -/
structure Front (start : SessionState) (tags : List FrameTag) (state : SessionState) : Prop where
  store : state.store = start.store
  disk : state.disk = start.disk
  sent : state.sent.length = tags.length ∧ ∀ item ∈ state.sent, item.IsFrame ∧
    ∀ payload, item ≠ .frame .manifests payload
  taken : state.taken.map Prod.fst = tags
  heard : Heard start state

section
variable {start state later : SessionState} {tags : List FrameTag}

theorem SessionState.Later.refl (state : SessionState) : state.Later state :=
  ⟨⟨[], by simp, by simp⟩, ⟨[], by simp, by simp⟩, id⟩

theorem SessionState.Later.trans {last : SessionState} (first : state.Later later)
    (second : later.Later last) : state.Later last := by
  obtain ⟨⟨frames, taken, free⟩, ⟨items, sent, silent⟩, keyed⟩ := first
  obtain ⟨⟨frames', taken', free'⟩, ⟨items', sent', silent'⟩, keyed'⟩ := second
  refine ⟨⟨frames ++ frames', by rw [taken', taken, List.append_assoc], ?_⟩,
    ⟨items ++ items', by rw [sent', sent, List.append_assoc], ?_⟩, keyed' ∘ keyed⟩
  · exact List.forall_mem_append.mpr ⟨free, free'⟩
  · intro payload listed
    rcases List.mem_append.mp listed with before | after
    · exact silent payload before
    · exact silent' payload after

theorem SessionState.Later.of_same (taken : later.taken = state.taken)
    (sent : later.sent = state.sent) (keyed : state.store.Keyed → later.store.Keyed) :
    state.Later later :=
  ⟨⟨[], by rw [taken, List.append_nil], by simp⟩, ⟨[], by rw [sent, List.append_nil], by simp⟩,
    keyed⟩

theorem Manifested.mono {payload : List UInt8} (manifested : Manifested start state payload)
    (taken : state.taken ⊆ later.taken) : Manifested start later payload := by
  obtain ⟨greeting, hello, bundle, greeted, rest⟩ := manifested
  exact ⟨greeting, hello, bundle, taken greeted, rest⟩

theorem Talk.goes_on (talk : Talk start state) (long : 3 ≤ state.sent.length)
    (goes : state.Later later) : Talk start later := by
  obtain ⟨⟨frames, taken, free⟩, ⟨items, sent, silent⟩, keyed⟩ := goes
  refine ⟨?_, ?_, ?_, keyed ∘ talk.keyed⟩
  · intro peer opens part tag payload listed early
    rw [taken, List.mem_append] at listed
    rcases listed with before | after
    · exact talk.heard peer opens part tag payload before early
    · obtain ⟨hello, manifests⟩ := free _ after
      rcases early with same | same
      · exact absurd same hello
      · exact absurd same manifests
  · unfold Opens
    rw [sent, List.take_append_of_le_length long]
    exact talk.opens
  · intro payload listed
    rw [sent, List.mem_append] at listed
    rcases listed with before | after
    · apply (talk.manifests payload before).mono
      rw [taken]
      exact List.subset_append_left _ _
    · exact absurd after (silent payload)

theorem Front.begins (silent : start.sent = []) (fresh : start.taken = []) :
    Front start [] start where
  store := rfl
  disk := rfl
  sent := by rw [silent]; simp
  taken := by rw [fresh]; rfl
  heard := .begins fresh

theorem Front.talk (front : Front start tags state) : Talk start state where
  heard _ opens part _ _ listed _ := front.heard.mem opens part listed
  opens item listed := (front.sent.2 item (List.mem_of_mem_take listed)).1
  manifests payload listed := absurd rfl ((front.sent.2 _ listed).2 payload)
  keyed keyed := by
    rw [front.store]
    exact keyed

/-- A frame of the front is sent, whether the peer answers or not. -/
theorem Front.spoken (front : Front start tags state) {tag : FrameTag} {payload bytes : List UInt8}
    (encoded : encodeFrame tag payload = .ok bytes) (other : tag ≠ .manifests) :
    Talk start { state with sent := state.sent ++ [.frame tag payload] } where
  heard := front.talk.heard
  opens := by
    intro item listed
    have inside := List.mem_of_mem_take listed
    rw [List.mem_append, List.mem_singleton] at inside
    rcases inside with before | rfl
    · exact (front.sent.2 item before).1
    · exact ⟨tag, payload, bytes, rfl, encoded⟩
  manifests := by
    intro content listed
    rw [List.mem_append, List.mem_singleton] at listed
    rcases listed with before | same
    · exact absurd rfl ((front.sent.2 _ before).2 content)
    · cases same
      exact absurd rfl other
  keyed := front.talk.keyed

/-- A frame of the front is exchanged. -/
theorem Front.take (front : Front start tags state) {tag : FrameTag}
    {payload bytes answered input : List UInt8} {received : Nat}
    (encoded : encodeFrame tag payload = .ok bytes) (other : tag ≠ .manifests)
    (early : tags.length < 3)
    (read : readExpected tag state.received state.input = .ok (answered, received, input)) :
    Front start (tags ++ [tag]) (({ state with sent := state.sent ++ [.frame tag payload] } :
      SessionState).take (tag, answered) received input) where
  store := front.store
  disk := front.disk
  sent := by
    refine ⟨?_, ?_⟩
    · show (state.sent ++ [Sent.frame tag payload]).length = _
      rw [List.length_append, List.length_append, front.sent.1]
      rfl
    · intro item listed
      have inside : item ∈ state.sent ++ [Sent.frame tag payload] := listed
      rw [List.mem_append, List.mem_singleton] at inside
      rcases inside with before | rfl
      · exact front.sent.2 item before
      · refine ⟨⟨tag, payload, bytes, rfl, encoded⟩, fun content same => ?_⟩
        cases same
        exact other rfl
  taken := by
    show (state.taken ++ [(tag, answered)]).map Prod.fst = _
    rw [List.map_append, front.taken]
    rfl
  heard := by
    have short : state.taken.length < 3 := by
      rw [← List.length_map (f := Prod.fst), front.taken]
      exact early
    have heard : Heard start { state with sent := state.sent ++ [.frame tag payload] } :=
      front.heard.congr rfl rfl
    exact heard.take short read

end

/-- However the session fails, its streams are as they should be. -/
def TalkFails (start : SessionState) (_ : SessionError) (state : SessionState) : Prop :=
  Talk start state

section
variable {start seen : SessionState} {tag : FrameTag} {payload : List UInt8}

/-- An exchange of frames: it is refused, or sent only, or answered. -/
theorem exchangeFrame_parts {post : List UInt8 → SessionState → Prop}
    {fails : SessionError → SessionState → Prop} (refused : ∀ reason, fails reason seen)
    (spoken : ∀ reason bytes, encodeFrame tag payload = .ok bytes →
      fails reason { seen with sent := seen.sent ++ [.frame tag payload] })
    (answers : ∀ bytes answered received input, encodeFrame tag payload = .ok bytes →
      readExpected tag seen.received seen.input = .ok (answered, received, input) →
      post answered (({ seen with sent := seen.sent ++ [.frame tag payload] } :
        SessionState).take (tag, answered) received input)) :
    Triple (fun state => state = seen) (exchangeFrame tag payload) post fails := by
  apply Triple.settle_bind
  · rintro state reason rfl -
    exact refused reason
  intro bytes encoded
  have written := Except.mapError_ok encoded
  have sending : Triple (fun state => state = seen) (send (.frame tag payload))
      (fun _ state => state = { seen with sent := seen.sent ++ [.frame tag payload] }) fails := by
    apply Triple.change
    rintro state rfl
    rfl
  refine sending.bind fun _ => ?_
  apply Triple.read_bind
  rintro state rfl
  apply Triple.settle_bind
  · rintro state reason rfl -
    exact spoken reason bytes written
  rintro ⟨answered, received, input⟩ read
  refine (Triple.change ?_).bind fun _ => Triple.pure fun state done => done
  rintro state rfl
  exact answers bytes answered received input written (Except.mapError_ok read)

theorem exchange_front {tags : List FrameTag} {known : List Frame} (other : tag ≠ .manifests)
    (early : tags.length < 3) :
    Triple (fun state => Front start tags state ∧ known ⊆ state.taken) (exchangeFrame tag payload)
      (fun answered state => Front start (tags ++ [tag]) state ∧
        (tag, answered) :: known ⊆ state.taken) (TalkFails start) := by
  intro seen ⟨front, taken⟩
  have parts : Triple (fun state => state = seen) (exchangeFrame tag payload)
      (fun answered state => Front start (tags ++ [tag]) state ∧
        (tag, answered) :: known ⊆ state.taken) (TalkFails start) := by
    apply exchangeFrame_parts
    · exact fun reason => front.talk
    · exact fun reason bytes encoded => front.spoken encoded other
    · intro bytes answered received input encoded read
      refine ⟨front.take encoded other early read, List.cons_subset.mpr ⟨?_, ?_⟩⟩
      · exact List.mem_append_right _ (List.mem_singleton_self _)
      · exact List.Subset.trans taken (List.subset_append_left _ _)
  exact parts seen rfl

end

/-- A step of the transfers: the records stay as they are. -/
structure Transfers (state later : SessionState) : Prop where
  goes : state.Later later
  records : state.store.SameRecords later.store

theorem later_chained : Chained SessionState.Later := ⟨.refl, fun _ _ _ => .trans⟩

theorem transfers_chained : Chained Transfers where
  refl state := ⟨.refl state, .refl state.store⟩
  trans _ _ _ first second := ⟨first.goes.trans second.goes, first.records.trans second.records⟩

theorem Transfers.of_store {state : SessionState} {store : StateStore} {disk : Disk}
    (same : state.store.SameRecords store) :
    Transfers state { state with store := store, disk := disk } :=
  ⟨.of_same rfl rfl fun keyed => keyed.of_record same, same⟩

theorem transact_later {transaction : StateStore → Except SessionError StateStore}
    (keeps : ∀ store after, transaction store = .ok after → store.Keyed → after.Keyed) :
    Moves SessionState.Later (transact transaction) := by
  intro state
  cases outcome : transaction state.store with
  | ok store =>
      rw [transact_ok outcome]
      exact .of_same rfl rfl (keeps state.store store outcome)
  | error reason =>
      rw [transact_error outcome]
      exact .refl state

theorem transact_transfers {transaction : StateStore → Except SessionError StateStore}
    (keeps : ∀ store after, transaction store = .ok after → store.SameRecords after) :
    Moves Transfers (transact transaction) := by
  intro state
  cases outcome : transaction state.store with
  | ok store =>
      rw [transact_ok outcome]
      exact .of_store (keeps state.store store outcome)
  | error reason =>
      rw [transact_error outcome]
      exact transfers_chained.refl state

theorem attempt_transfers {transaction : StateStore → Except StateError StateStore}
    (keeps : ∀ store after, transaction store = .ok after → store.SameRecords after) :
    Moves Transfers (attempt transaction) := by
  intro state
  apply Transfers.of_store
  cases outcome : transaction state.store with
  | ok after => exact keeps state.store after outcome
  | error reason => exact .refl _

/-- A frame that is exchanged after the manifests. -/
theorem exchangeFrame_transfers {tag : FrameTag} {payload : List UInt8} (hello : tag ≠ .hello)
    (manifests : tag ≠ .manifests) : Moves Transfers (exchangeFrame tag payload) := by
  intro seen
  have silent : ∀ content, Sent.frame .manifests content ∉ [Sent.frame tag payload] := by
    intro content listed
    cases List.mem_singleton.mp listed
    exact manifests rfl
  have spoken : Transfers seen { seen with sent := seen.sent ++ [.frame tag payload] } :=
    ⟨⟨⟨[], by simp, by simp⟩, ⟨_, rfl, silent⟩, id⟩, .refl _⟩
  have parts : Triple (fun state => state = seen) (exchangeFrame tag payload)
      (fun _ => Transfers seen) (fun _ => Transfers seen) := by
    apply exchangeFrame_parts
    · exact fun reason => transfers_chained.refl seen
    · exact fun reason bytes encoded => spoken
    · intro bytes answered received input encoded read
      refine ⟨⟨⟨[(tag, answered)], rfl, ?_⟩, ⟨_, rfl, silent⟩, id⟩, .refl _⟩
      intro frame listed
      cases List.mem_singleton.mp listed
      exact ⟨hello, manifests⟩
  exact parts.always rfl

section
variable [Blake3] {context : SessionContext}

theorem sendFile_records {config : SessionConfig} {remoteEndpoint : EndpointId} {moment : Moment}
    {store after : StateStore} {sent total : Nat} {request : FileRequest} {answer : Answer}
    (done : sendFile config remoteEndpoint moment store sent request =
      (answer, .ok (after, total))) :
    store.SameRecords after := by
  have inside : request.collection ∈ [request.collection] := List.mem_singleton_self _
  unfold sendFile at done
  split at done
  · cases done
  · rename_i left prepared
    cases done
    exact (prepareRequestedFile_confined inside prepared).2
  · rename_i left record size prepared
    have first := (prepareRequestedFile_confined inside prepared).2
    split at done
    · obtain ⟨logged, written, same⟩ := Except.of_map_ok (Prod.mk.inj done).2
      cases same
      exact first.trans (logUnavailable_confined inside (Except.mapError_ok written)).2
    split at done
    · cases (Prod.mk.inj done).2
    · have result := (Prod.mk.inj done).2
      split at result
      · cases result
      · obtain ⟨logged, written, same⟩ := Except.of_map_ok result
        cases same
        exact first.trans (StateStore.appendLog_record (Except.mapError_ok written))

omit [Blake3] in
/-- An answer is no frame of the front. -/
theorem answer_transfers {request : FileRequest} {disk : Disk} {answer : Answer} :
    Moves Transfers (send (.answer request disk answer)) := by
  intro state
  refine ⟨⟨⟨[], by simp [send, change], by simp⟩, ⟨[.answer request disk answer], rfl, ?_⟩,
    id⟩, .refl _⟩
  intro payload listed
  cases List.mem_singleton.mp listed

theorem serveRequest_transfers {sent : Nat} {request : FileRequest} :
    Moves Transfers (serveRequest context sent request) := by
  apply Moves.read_bind
  intro seen
  dsimp only
  generalize done : sendFile context.config context.remoteEndpoint
    ⟨id, seen.disk, (context.serving request).environment, (context.serving request).now,
      (context.serving request).content⟩ seen.store sent request = outcome
  obtain ⟨answer, result⟩ := outcome
  cases result with
  | ok outcome =>
      obtain ⟨store, total⟩ := outcome
      dsimp only
      rw [change_bind]
      have stored : Transfers seen { seen with store := store } := .of_store (sendFile_records done)
      apply transfers_chained.trans _ _ _ stored
      exact answer_transfers.bind transfers_chained (fun _ => .pure transfers_chained total) _
  | error reason =>
      dsimp only
      split
      · exact answer_transfers.bind transfers_chained (fun _ => .fail transfers_chained _) _
      · exact transfers_chained.refl seen

theorem serveRequests_transfers {requests : List FileRequest} {sent : Nat} :
    Moves Transfers (serveRequests context sent requests) := by
  induction requests generalizing sent with
  | nil => exact .pure transfers_chained ()
  | cons request rest ih =>
      exact serveRequest_transfers.bind transfers_chained fun total => ih

theorem serveFiles_transfers {shared : List String} {requests : List FileRequest} :
    Moves Transfers (serveFiles context shared requests) :=
  (Moves.require transfers_chained _ _).bind transfers_chained fun _ => serveRequests_transfers

omit [Blake3] in
theorem logMissing_transfers {request : FileRequest} :
    Moves Transfers (logMissing context request) :=
  transact_transfers fun _ _ logged =>
    (logUnavailable_confined (List.mem_singleton_self _) (Except.mapError_ok logged)).2

omit [Blake3] in
theorem rejectTransfer_transfers {request : FileRequest} {reason : TransferError} :
    Moves Transfers (rejectTransfer context request reason) := by
  unfold rejectTransfer
  dsimp only
  split
  · apply (Moves.require transfers_chained _ _).bind transfers_chained
    refine fun _ => logMissing_transfers.bind transfers_chained fun _ => ?_
    exact (Moves.require transfers_chained _ _).bind transfers_chained fun _ =>
      .fail transfers_chained _
  · exact .fail transfers_chained _

omit [Blake3] in
theorem logInstall_transfers {request : FileRequest} {record : Record}
    (outcome : Except InstallError InstalledFile) :
    Moves Transfers (logInstall context request record outcome) := by
  unfold logInstall
  split
  · exact transact_transfers fun _ _ logged =>
      StateStore.appendLog_record (Except.mapError_ok logged)
  · exact attempt_transfers fun _ _ logged => StateStore.appendLog_record logged
  · exact attempt_transfers fun _ _ logged => StateStore.appendLog_record logged
  · exact .pure transfers_chained ()

theorem installReceived_transfers {request : FileRequest} {record : Record}
    {content : List UInt8} : Moves Transfers (installReceived context request record content) := by
  apply Moves.read_bind
  intro seen
  generalize done : applyFileFixture seen.store seen.disk record content
    (context.receiving request).environment (context.receiving request).now
    context.config.maxLogs = result
  obtain ⟨outcome, store, disk⟩ := result
  have installed : Transfers seen { seen with store := store, disk := disk } :=
    .of_store (applyFileFixture_confined (List.mem_singleton_self _) done).2.1
  dsimp only
  rw [change_bind]
  exact transfers_chained.trans _ _ _ installed (logInstall_transfers outcome _)

theorem receiveRequested_transfers {request : FileRequest} :
    Moves Transfers (receiveRequested context request) := by
  apply Moves.read_bind
  intro seen
  cases receiveFile request seen.received seen.input with
  | error reason => exact rejectTransfer_transfers seen
  | ok read =>
      obtain ⟨found, received, input⟩ := read
      have reading : Transfers seen { seen with received := received, input := input } :=
        ⟨.of_same rfl rfl id, .refl _⟩
      dsimp only
      rw [change_bind]
      apply transfers_chained.trans _ _ _ reading
      cases found with
      | none => exact logMissing_transfers _
      | some file =>
          obtain ⟨record, content⟩ := file
          apply (Moves.require transfers_chained _ _).bind transfers_chained
          intro _
          split
          · apply (Moves.require transfers_chained _ _).bind transfers_chained
            intro _
            split
            · exact logMissing_transfers
            · exact installReceived_transfers
          · exact logMissing_transfers.bind transfers_chained fun _ => .fail transfers_chained _

theorem transferFiles_transfers {side : ConnectionSide} {shared : List String}
    {asked requests : List FileRequest} :
    Moves Transfers (transferFiles context side shared asked requests) := by
  have receives : Moves Transfers (receiveRequests context requests) :=
    Moves.forM transfers_chained fun request => receiveRequested_transfers
  cases side with
  | dialer => exact serveFiles_transfers.bind transfers_chained fun _ => receives
  | acceptor => exact receives.bind transfers_chained fun _ => serveFiles_transfers

end

/-- The collections of a side that its peer has named. -/
def SessionState.shared (start : SessionState) (hello : Hello) : List String :=
  (start.store.collections.toList.map Prod.fst).filter fun name => decide (name ∈ hello.collections)

/-- A session that succeeds has merged the manifests of its peer, once and before the transfers. -/
def Merged [Blake3] (context : SessionContext) (start state : SessionState) : Prop :=
  ∃ greeting hello answered bundle store disk requests, (FrameTag.hello, greeting) ∈ state.taken ∧
    Hello.decode greeting = .ok hello ∧ (FrameTag.manifests, answered) ∈ state.taken ∧
    ManifestBundle.decode answered = .ok bundle ∧
    mergeRemoteManifests context.config context.remoteEndpoint context.now context.removal
      start.store start.disk (start.shared hello) bundle = .ok (store, disk, requests) ∧
    store.SameRecords state.store

/-- The state of a side after the exchange of the manifests. -/
structure Exchanged (start : SessionState) (greeting answered : List UInt8) (state : SessionState) :
    Prop where
  talk : Talk start state
  long : 3 ≤ state.sent.length
  store : state.store = start.store
  disk : state.disk = start.disk
  greeted : (FrameTag.hello, greeting) ∈ state.taken
  answered : (FrameTag.manifests, answered) ∈ state.taken

section
variable [Blake3] {context : SessionContext} {start state : SessionState}

omit [Blake3] in
theorem appendSessionLog_later {now : I64} {event : OperationalEvent} :
    Moves SessionState.Later (appendSessionLog context now event) :=
  transact_later fun _ _ logged keyed =>
    keyed.of_record (StateStore.appendLog_record (Except.mapError_ok logged))

omit [Blake3] in
theorem removeForWinner_later {collection : String} {candidate : Record} :
    Moves SessionState.Later (removeForWinner context collection candidate) := by
  apply Moves.read_bind
  intro seen
  split
  · have records := materializeTombstone_record seen.store seen.disk candidate
      (context.removal candidate) context.now context.config.maxLogs
    generalize materializeTombstone seen.store seen.disk candidate (context.removal candidate)
      context.now context.config.maxLogs = result at records
    obtain ⟨outcome, store, disk⟩ := result
    dsimp only
    rw [change_bind]
    have removed : seen.Later { seen with store := store, disk := disk } :=
      .of_same rfl rfl fun keyed => keyed.of_record records
    apply removed.trans
    split
    · exact .refl _
    · exact appendSessionLog_later _
  · exact .refl seen

/-- A merge stores a record under its own key. -/
theorem mergeStored_keyed {collection : String} {candidate : Record} {store after : StateStore}
    (merged : (if store.record ⟨collection, candidate.path⟩ = some candidate then .ok store
      else ((store.mergeRecord candidate context.now (some context.remoteEndpoint)
        context.config.maxLogs).map Prod.fst).mapError fun reason =>
          SessionError.sync (.state reason)) = .ok after) (keyed : store.Keyed) : after.Keyed := by
  split at merged
  · cases merged
    exact keyed
  obtain ⟨⟨next, accepted⟩, committed, rfl⟩ := Except.of_map_ok (Except.mapError_ok merged)
  intro key record found
  rw [StateStore.mergeRecord_record committed key] at found
  split at found
  · rename_i same
    rcases join_mem found with stored | rfl
    · exact keyed key record stored
    · exact same
  · exact keyed key record found

theorem mergeManifests_later {shared : List String} {bundle : ManifestBundle} :
    Moves SessionState.Later (mergeManifests context shared bundle) := by
  have mergeOne_later : ∀ (collection : String) (candidate : Record),
      Moves SessionState.Later (mergeOne context collection candidate) := by
    intro collection candidate
    unfold mergeOne
    split
    · exact appendSessionLog_later
    · apply (transact_later fun _ _ merged => mergeStored_keyed merged).bind later_chained
      exact fun _ => removeForWinner_later
  have mergeOffered_later : ∀ manifest : String × Manifest,
      Moves SessionState.Later (mergeOffered context manifest) := by
    intro manifest
    apply Moves.read_bind
    intro seen
    apply (Moves.require later_chained _ _).bind later_chained
    exact fun _ => Moves.forM later_chained (mergeOne_later manifest.1)
  apply (Moves.require later_chained _ _).bind later_chained
  intro _
  apply (Moves.forM later_chained mergeOffered_later).bind later_chained
  intro _
  exact Moves.read_bind fun seen => .refl seen

omit [Blake3] in
/-- The manifests are sent, whether the peer answers or not. -/
theorem Front.offers (front : Front start [.hello, .roster] state) {payload bytes : List UInt8}
    (encoded : encodeFrame .manifests payload = .ok bytes)
    (manifested : Manifested start state payload) :
    Talk start { state with sent := state.sent ++ [.frame .manifests payload] } where
  heard := front.talk.heard
  opens := by
    intro item listed
    have inside := List.mem_of_mem_take listed
    rw [List.mem_append, List.mem_singleton] at inside
    rcases inside with before | rfl
    · exact (front.sent.2 item before).1
    · exact ⟨.manifests, payload, bytes, rfl, encoded⟩
  manifests := by
    intro content listed
    rw [List.mem_append, List.mem_singleton] at listed
    rcases listed with before | same
    · exact absurd rfl ((front.sent.2 _ before).2 content)
    · cases same
      exact manifested
  keyed := front.talk.keyed

omit [Blake3] in
/-- The manifests are exchanged. -/
theorem exchange_manifests {greeting payload : List UInt8}
    (front : Front start [.hello, .roster] state)
    (greeted : (FrameTag.hello, greeting) ∈ state.taken)
    (manifested : Manifested start state payload) :
    Triple (fun seen => seen = state) (exchangeFrame .manifests payload)
      (fun answered => Exchanged start greeting answered) (TalkFails start) := by
  apply exchangeFrame_parts
  · exact fun reason => front.talk
  · exact fun reason bytes encoded => front.offers encoded manifested
  intro bytes answered received input encoded read
  have spoken := front.offers encoded manifested
  have short : state.taken.length < 3 := by
    have tags := congrArg List.length front.taken
    rw [List.length_map] at tags
    simp [tags]
  have heard : Heard start { state with sent := state.sent ++ [.frame .manifests payload] } :=
    front.heard.congr rfl rfl
  have onward := heard.take short read
  have subset : state.taken ⊆ state.taken ++ [(FrameTag.manifests, answered)] :=
    List.subset_append_left _ _
  refine ⟨⟨fun _ opens part _ _ listed _ => onward.mem opens part listed, spoken.opens,
    fun content listed => (spoken.manifests content listed).mono subset, spoken.keyed⟩, ?_,
      front.store, front.disk, subset greeted, List.mem_append_right _ (List.mem_singleton_self _)⟩
  show 3 ≤ (state.sent ++ [Sent.frame .manifests payload]).length
  rw [List.length_append, front.sent.1]
  simp

theorem Merged.goes_on {later : SessionState} (merged : Merged context start state)
    (transfers : Transfers state later) : Merged context start later := by
  obtain ⟨greeting, hello, answered, bundle, store, disk, requests, greeted, decoded, offered,
    listed, merges, same⟩ := merged
  obtain ⟨frames, taken, -⟩ := transfers.goes.taken
  have subset : state.taken ⊆ later.taken := by
    rw [taken]
    exact List.subset_append_left _ _
  exact ⟨greeting, hello, answered, bundle, store, disk, requests, subset greeted, decoded,
    subset offered, listed, merges, same.trans transfers.records⟩

/-- The merge of what the peer has offered. -/
theorem Exchanged.merges {greeting answered : List UInt8} {hello : Hello} {bundle : ManifestBundle}
    (decoded : Hello.decode greeting = .ok hello)
    (listed : ManifestBundle.decode answered = .ok bundle) :
    Triple (Exchanged start greeting answered) (mergeManifests context (start.shared hello) bundle)
      (fun _ state => (Talk start state ∧ 3 ≤ state.sent.length) ∧ Merged context start state)
      (TalkFails start) := by
  intro state holds
  have performs := @mergeManifests_performs _ context state (start.shared hello) bundle
  have later : state.Later ((mergeManifests context (start.shared hello) bundle).run state).2 :=
    mergeManifests_later state
  split at performs
  · rename_i store disk requests merges
    rw [performs] at later ⊢
    rw [holds.store, holds.disk] at merges
    refine ⟨⟨?_, holds.long⟩, greeting, hello, answered, bundle, store, disk, requests,
      holds.greeted, decoded, holds.answered, listed, merges, .refl _⟩
    exact holds.talk.goes_on holds.long later
  · obtain ⟨after, failed⟩ := performs
    rw [failed] at later ⊢
    exact holds.talk.goes_on holds.long later

/-- What follows the exchange of the rosters. -/
theorem exchangeFiles_talks (side : ConnectionSide) {greeting : List UInt8} {hello : Hello}
    (decoded : Hello.decode greeting = .ok hello) :
    Triple (fun state => Front start [.hello, .roster] state ∧
        (FrameTag.hello, greeting) ∈ state.taken)
      (exchangeFiles context side (start.shared hello))
      (fun _ state => Talk start state ∧ Merged context start state) (TalkFails start) := by
  apply Triple.read_bind
  intro seen ⟨front, greeted⟩
  apply Triple.settle_bind
  · rintro state reason rfl -
    exact front.talk
  intro offered built
  rw [front.store] at built
  apply protocolResult_bind
  · rintro state reason rfl
    exact front.talk
  intro manifests encoded
  have manifested : Manifested start seen manifests :=
    ⟨greeting, hello, offered, greeted, decoded, Except.mapError_ok built, encoded⟩
  refine (exchange_manifests front greeted manifested).bind fun answered => ?_
  apply protocolResult_bind
  · exact fun state reason holds => holds.talk
  intro bundle listed
  refine (Exchanged.merges decoded listed).bind fun requests => ?_
  -- the rest of the session leaves the records as they are
  refine Moves.triple (?_ : Moves Transfers _) ?_ ?_
  · apply (Moves.settle transfers_chained _).bind transfers_chained
    intro asked
    apply (exchangeFrame_transfers (by decide) (by decide)).bind transfers_chained
    intro answered
    apply (Moves.settle transfers_chained _).bind transfers_chained
    intro remote
    apply transferFiles_transfers.bind transfers_chained
    intro _
    apply (exchangeFrame_transfers (by decide) (by decide)).bind transfers_chained
    intro done
    apply (Moves.require transfers_chained _ _).bind transfers_chained
    intro _
    exact Moves.read_bind fun last => transfers_chained.refl last
  · exact fun first second known transfers =>
      ⟨known.1.1.goes_on known.1.2 transfers.goes, known.2.goes_on transfers⟩
  · exact fun first second reason known transfers => known.1.1.goes_on known.1.2 transfers.goes

end

section
variable [Blake3] [Ed25519] {context : SessionContext} {start : SessionState}

/-- Nothing has happened yet. -/
def Still (state later : SessionState) : Prop := later = state

omit [Blake3] [Ed25519] in
theorem still_chained : Chained Still :=
  ⟨fun _ => rfl, fun _ _ _ first second => Eq.trans second first⟩

theorem authorizeLocalRoster_still : Moves Still (authorizeLocalRoster context) := by
  apply Moves.read_bind
  intro seen
  apply (Moves.settle still_chained _).bind still_chained
  exact fun _ => Moves.require still_chained _ _

theorem localSessionState_still (talk : Talk start start) :
    Triple (fun state => state = start) localSessionState
      (fun found state => state = start ∧
        found.2 = start.store.collections.toList.map Prod.fst) (TalkFails start) := by
  apply Triple.read_bind
  rintro seen rfl
  apply Triple.settle_bind
  · rintro state reason rfl -
    exact talk
  intro chain selects
  apply Triple.pure
  rintro state rfl
  exact ⟨rfl, rfl⟩

/-- The roster of the peer is taken before anything else happens. -/
theorem acceptRoster_front [AddrJson] {genesis : RosterRevision} {revisions : List RosterRevision}
    {hint : String} {tags : List FrameTag} {known : List Frame} :
    Triple (fun state => Front start tags state ∧ known ⊆ state.taken)
      (acceptRoster context genesis revisions hint)
      (fun _ state => Front start tags state ∧ known ⊆ state.taken) (TalkFails start) := by
  intro state ⟨front, taken⟩
  unfold acceptRoster onRoster
  dsimp only
  generalize state.roster.acceptRemoteRosterAndHint revisions genesis.canonicalHash
    context.config.localEndpoint context.remoteEndpoint hint context.loaded = outcome
  obtain ⟨roster, result⟩ := outcome
  have kept : Front start tags { state with roster := roster } :=
    ⟨front.store, front.disk, front.sent, front.taken, front.heard.congr rfl rfl⟩
  cases result with
  | error reason => exact kept.talk
  | ok changed => exact ⟨kept, taken⟩

/-- However a session ends, its streams are as they should be; when it succeeds, it has merged the
manifests of the peer. -/
theorem runSession_talks [AddrJson] (side : ConnectionSide) (silent : start.sent = [])
    (fresh : start.taken = []) :
    Triple (fun state => state = start) (runSession context side)
      (fun _ state => Talk start state ∧ Merged context start state) (TalkFails start) := by
  have begins : Front start [] start := .begins silent fresh
  have still : Triple (fun state => state = start) (authorizeLocalRoster context)
      (fun _ state => state = start) (TalkFails start) := by
    apply authorizeLocalRoster_still.triple
    · exact fun first second same moved => Eq.trans moved same
    · intro first second reason same moved
      rw [show second = start from Eq.trans moved same]
      exact begins.talk
  refine still.bind fun _ => ?_
  refine (localSessionState_still begins.talk).bind ?_
  rintro ⟨chain, collections⟩
  apply Triple.knowing
  rintro rfl
  have fails : ∀ state reason, state = start → TalkFails start reason state := by
    rintro state reason rfl
    exact begins.talk
  apply Triple.settle_bind
  · exact fun state reason same _ => fails state reason same
  intro genesis _
  apply Triple.require_bind
  · exact fun state same _ => fails state _ same
  intro _
  apply protocolResult_bind fails
  intro hello _
  have opening : ∀ state, state = start → Front start [] state ∧
      ([] : List Frame) ⊆ state.taken := by
    rintro state rfl
    exact ⟨begins, List.nil_subset _⟩
  refine ((exchange_front (by decide) (by decide)).of_pre opening).bind fun greeting => ?_
  apply protocolResult_bind
  · exact fun state reason known => known.1.talk
  intro remote decoded
  apply protocolResult_bind
  · exact fun state reason known => known.1.talk
  intro roster _
  refine (exchange_front (by decide) (by decide)).bind fun answered => ?_
  apply protocolResult_bind
  · exact fun state reason known => known.1.talk
  intro bundle _
  refine acceptRoster_front.bind fun changed => ?_
  have greeted : ∀ state, Front start [.hello, .roster] state ∧
      (FrameTag.roster, answered) :: (FrameTag.hello, greeting) :: ([] : List Frame) ⊆ state.taken →
      Front start [.hello, .roster] state ∧ (FrameTag.hello, greeting) ∈ state.taken := by
    intro state ⟨front, taken⟩
    exact ⟨front, taken (by simp)⟩
  refine ((exchangeFiles_talks side decoded).of_pre greeted).bind fun _ => ?_
  exact Triple.pure fun state holds => holds

end

end Skillsync
