import Skillsync.RequestSelection
import Skillsync.RosterStore

set_option autoImplicit false

namespace Skillsync

open Fallible Rationing

/-- The bytes that a frame counts. -/
def frameBytes (payload : List UInt8) : Nat := headerBytes + payload.length

namespace Answer

/-- What an answer puts on the stream: a frame, and the raw bytes of a file. -/
def written : Answer → Except ProtocolError (List UInt8)
  | .unavailable => encodeFrame .fileUnavailable []
  | .overBudget => encodeFrame .fileUnavailable []
  | .file _ header content => (encodeFrame .file header).map (· ++ content)

/-- What an answer counts for the receiver. -/
def amount : Answer → Nat
  | .unavailable => frameBytes []
  | .overBudget => frameBytes []
  | .file _ header content => frameBytes header + content.length

/-- The raw bytes of an answer. -/
def fileBytes : Answer → Nat
  | .unavailable => 0
  | .overBudget => 0
  | .file _ _ content => content.length

/-- The header of a sent file is its record's, and its bytes are as many as that declares. -/
def Sound : Answer → Prop
  | .unavailable => True
  | .overBudget => True
  | .file record header content => encodeFileHeader record = .ok header ∧
      ∃ contentHash, record.kind = .file content.length contentHash

end Answer

/-- The payloads that a side sends in a session, and its answers to the requests of the peer. -/
structure SentSession where
  hello : List UInt8
  roster : List UInt8
  manifests : List UInt8
  requests : List UInt8
  answers : List Answer

namespace SentSession

/-- The bytes of a whole session. -/
def stream (sent : SentSession) : Except ProtocolError (List UInt8) := do
  let hello ← encodeFrame .hello sent.hello
  let roster ← encodeFrame .roster sent.roster
  let manifests ← encodeFrame .manifests sent.manifests
  let requests ← encodeFrame .requests sent.requests
  let files ← sent.answers.mapM Answer.written
  let done ← encodeFrame .done []
  return hello ++ (roster ++ (manifests ++ (requests ++ (files.flatten ++ done))))

/-- What the peer adds through `add_received` when it reads all of it. -/
def amount (sent : SentSession) : Nat :=
  frameBytes sent.hello + frameBytes sent.roster + frameBytes sent.manifests +
    frameBytes sent.requests + (sent.answers.map Answer.amount).sum + frameBytes []

/-- What the encoders and `send_files` keep of it. -/
structure Honest (sent : SentSession) : Prop where
  hello : sent.hello.length ≤ FrameTag.hello.payloadLimit
  roster : sent.roster.length ≤ FrameTag.roster.payloadLimit
  manifests : sent.manifests.length ≤ FrameTag.manifests.payloadLimit
  requests : sent.requests.length ≤ FrameTag.requests.payloadLimit
  few : sent.answers.length ≤ maxTransfers
  sound : ∀ answer ∈ sent.answers, answer.Sound
  light : (sent.answers.map Answer.fileBytes).sum ≤ maxSessionFileBytes

end SentSession

section
variable {answer : Answer} {sent : SentSession}

/-- The header of a file is one record with a short name and a short path. -/
theorem Answer.Sound.amount_le (sound : answer.Sound) :
    answer.amount ≤ 4465 + answer.fileBytes := by
  cases answer with
  | unavailable => decide
  | overBudget => decide
  | file record header content =>
      obtain ⟨encoded, -⟩ := sound
      obtain ⟨valid, -, rfl⟩ := encodeFileHeader_iff.mp encoded
      obtain ⟨⟨⟩, named, -⟩ := Except.bind_ok valid
      have name := validateCollection_eq_ok.mp named
      have bound := ((validateRecord_eq_ok name).mp valid).encodedLength_le name
      show frameBytes record.canonicalBytes + content.length ≤ 4465 + content.length
      rw [frameBytes, Record.length_canonicalBytes, headerBytes]
      omega

theorem amounts_le {answers : List Answer} (sound : ∀ answer ∈ answers, answer.Sound) :
    (answers.map Answer.amount).sum ≤
      4465 * answers.length + (answers.map Answer.fileBytes).sum := by
  induction answers with
  | nil => simp
  | cons answer rest ih =>
      rw [List.forall_mem_cons] at sound
      have first := sound.1.amount_le
      have follow := ih sound.2
      rw [List.map_cons, List.sum_cons, List.map_cons, List.sum_cons, List.length_cons]
      omega

/-- The limits of the messages add up to less than the limit of a connection. -/
theorem SentSession.Honest.amount_le (honest : sent.Honest) :
    sent.amount ≤ maxConnectionBytes := by
  have answers := amounts_le honest.sound
  have hello := honest.hello
  have roster := honest.roster
  have manifests := honest.manifests
  have requests := honest.requests
  have few := honest.few
  have light := honest.light
  simp only [FrameTag.payloadLimit, maxRosterBytes, maxManifestBytes, maxFrameBytes] at *
  unfold maxTransfers at few
  unfold maxSessionFileBytes at light
  unfold SentSession.amount frameBytes headerBytes maxConnectionBytes
  rw [List.length_nil]
  omega

theorem addReceived_ok {received amount : Nat} (room : received + amount ≤ maxConnectionBytes) :
    addReceived received amount = .ok (received + amount) := by
  unfold addReceived
  unfold maxConnectionBytes at *
  rw [if_neg (by omega), if_neg (by omega)]

end

/-- A read of a part of the stream counts as it should, and leaves a part of the rest; or it
fails for another reason than the limit. -/
def Counts {α : Type} (value : α → Prop) (received : Nat) (rest : List UInt8)
    (outcome : Except TransferError (α × Nat × List UInt8)) : Prop :=
  Always (fun result => value result.1 ∧ result.2.1 = received ∧ result.2.2 <+: rest)
    (fun reason => reason ≠ .connectionLimit) outcome

section
variable {tag : FrameTag} {payload bytes front rest input : List UInt8} {received : Nat}

theorem readBytes_part (part : input <+: front ++ rest) :
    Always (fun result => result.1 = front ∧ result.2 <+: rest)
      (fun reason => reason ≠ TransferError.connectionLimit) (readBytes front.length input) := by
  obtain ⟨behind, whole⟩ := part
  unfold readBytes
  split
  · rename_i enough
    have whole' : (input ++ behind).take front.length = input.take front.length :=
      List.take_append_of_le_length enough
    have taken : input.take front.length = front := by
      rw [← whole', whole, List.take_left]
    refine ⟨taken, behind, ?_⟩
    rw [← List.drop_append_of_le_length enough, whole, List.drop_left]
  · exact fun same => by cases same

theorem readFrame_counts (encoded : encodeFrame tag payload = .ok bytes)
    (part : input <+: bytes ++ rest) (room : received + frameBytes payload ≤ maxConnectionBytes) :
    Counts (fun frame => frame = (tag, payload)) (received + frameBytes payload) rest
      (readFrame received input) := by
  obtain ⟨fits, rfl⟩ := encodeFrame_eq_ok.mp encoded
  obtain ⟨five, header⟩ := decodeHeader_encoded fits
  have shape : tag.byte :: (Encoder.u32 payload.length ++ payload) ++ rest =
      (tag.byte :: Encoder.u32 payload.length) ++ (payload ++ rest) := by
    simp only [List.cons_append, List.append_assoc]
  rw [shape] at part
  unfold readFrame
  rw [← five]
  apply (readBytes_part part).bind
  rintro ⟨first, behind⟩ ⟨rfl, follow⟩
  dsimp only
  have added : addReceived received (headerBytes + payload.length) =
      .ok (received + frameBytes payload) := addReceived_ok room
  rw [header, five, Except.mapError, Except.ok_bind]
  dsimp only
  rw [added, Except.ok_bind]
  apply (readBytes_part follow).bind
  rintro ⟨second, left⟩ ⟨rfl, last⟩
  exact ⟨rfl, rfl, last⟩

theorem readExpected_counts (encoded : encodeFrame tag payload = .ok bytes)
    (part : input <+: bytes ++ rest) (room : received + frameBytes payload ≤ maxConnectionBytes) :
    Counts (fun found => found = payload) (received + frameBytes payload) rest
      (readExpected tag received input) := by
  apply (readFrame_counts encoded part room).bind
  rintro ⟨⟨found, content⟩, total, left⟩ ⟨same, counted, follow⟩
  obtain ⟨rfl, rfl⟩ := Prod.mk.inj same
  dsimp only
  rw [if_neg (not_not.mpr rfl)]
  exact ⟨rfl, counted, follow⟩

/-- One answer is read as it was written; the raw bytes are the declared ones or fewer. -/
theorem receiveFile_counts [Blake3] {answer : Answer} {request : FileRequest}
    (sound : answer.Sound) (encoded : answer.written = .ok bytes) (part : input <+: bytes ++ rest)
    (room : received + answer.amount ≤ maxConnectionBytes) :
    Counts (fun _ => True) (received + answer.amount) rest
      (receiveFile request received input) := by
  have missing : encodeFrame .fileUnavailable [] = .ok bytes → answer.amount = frameBytes [] →
      Counts (fun _ => True) (received + answer.amount) rest
        (receiveFile request received input) := by
    intro written same
    rw [same] at room ⊢
    apply (readFrame_counts written part room).bind
    rintro ⟨⟨tag, header⟩, total, left⟩ ⟨frame, counted, follow⟩
    obtain ⟨rfl, rfl⟩ := Prod.mk.inj frame
    exact ⟨trivial, counted, follow⟩
  cases answer with
  | unavailable => exact missing encoded rfl
  | overBudget => exact missing encoded rfl
  | file record header content =>
      obtain ⟨headed, contentHash, kind⟩ := sound
      obtain ⟨framed, written, rfl⟩ := Except.of_map_ok encoded
      rw [List.append_assoc] at part
      have room' : received + frameBytes header + content.length ≤ maxConnectionBytes := by
        rw [Nat.add_assoc]
        exact room
      apply (readFrame_counts written part (by omega)).bind
      rintro ⟨⟨tag, payload⟩, total, left⟩ ⟨frame, counted, follow⟩
      obtain ⟨rfl, rfl⟩ := Prod.mk.inj frame
      dsimp only at counted follow ⊢
      rw [if_neg (by decide), if_neg (by decide), decodeFileHeader_iff.mpr headed, Except.mapError,
        Except.ok_bind]
      split
      · exact fun same => by cases same
      · rw [kind, counted]
        dsimp only
        rw [addReceived_ok room', Except.ok_bind]
        unfold receiveRawFile
        split
        · exact fun same => by cases same
        split
        · exact fun same => by cases same
        · rename_i enough _
          obtain ⟨behind, whole⟩ := follow
          rw [Except.ok_bind]
          refine ⟨trivial, Nat.add_assoc _ _ _, behind, ?_⟩
          rw [← List.drop_append_of_le_length (not_lt.mp enough), whole, List.drop_left]

/-- The answers to all requests: the total of the rest is the room that the loop keeps. -/
theorem receiveFiles_counts [Blake3] {answers : List Answer} {requests : List FileRequest}
    {files : List (List UInt8)} (number : answers.length = requests.length)
    (sound : ∀ answer ∈ answers, answer.Sound)
    (encoded : answers.mapM Answer.written = .ok files) (part : input <+: files.flatten ++ rest)
    (room : received + (answers.map Answer.amount).sum ≤ maxConnectionBytes) :
    Always (fun result => result.1 = received + (answers.map Answer.amount).sum ∧
        result.2 <+: rest)
      (fun reason => reason ≠ .connectionLimit) (receiveFiles received input requests) := by
  induction answers generalizing requests files received input with
  | nil =>
      obtain rfl := List.length_eq_zero_iff.mp number.symm
      cases encoded
      exact ⟨rfl, part⟩
  | cons answer answers ih =>
      cases requests with
      | nil => cases number
      | cons request requests =>
          rw [List.forall_mem_cons] at sound
          rw [List.mapM_cons] at encoded
          obtain ⟨bytes, first, encoded⟩ := Except.bind_ok encoded
          obtain ⟨others, tail, encoded⟩ := Except.bind_ok encoded
          cases encoded
          rw [List.flatten_cons, List.append_assoc] at part
          rw [List.map_cons, List.sum_cons, ← Nat.add_assoc] at room ⊢
          unfold receiveFiles
          apply (receiveFile_counts sound.1 first part (by omega)).bind
          rintro ⟨found, total, left⟩ ⟨-, counted, follow⟩
          dsimp only at counted follow ⊢
          rw [counted]
          exact ih (Nat.succ.inj number) sound.2 tail follow room

/-- Every part of an honest session is read without reaching the limit of the connection. -/
theorem SentSession.Honest.readSession_counts [Blake3] {sent : SentSession}
    {requests : List FileRequest} {stream : List UInt8} (honest : sent.Honest)
    (number : sent.answers.length = requests.length) (written : sent.stream = .ok stream)
    (part : input <+: stream) :
    Always (fun total => total = sent.amount) (fun reason => reason ≠ .connectionLimit)
      (readSession requests input) := by
  have room := honest.amount_le
  unfold SentSession.amount at room ⊢
  unfold SentSession.stream at written
  obtain ⟨hello, helloed, written⟩ := Except.bind_ok written
  obtain ⟨roster, rostered, written⟩ := Except.bind_ok written
  obtain ⟨manifests, listed, written⟩ := Except.bind_ok written
  obtain ⟨asked, requested, written⟩ := Except.bind_ok written
  obtain ⟨files, answered, written⟩ := Except.bind_ok written
  obtain ⟨done, finished, written⟩ := Except.bind_ok written
  cases written
  rw [← Nat.zero_add (frameBytes sent.hello)] at room ⊢
  unfold readSession
  apply (readExpected_counts helloed part (by omega)).bind
  rintro ⟨found, received, input⟩ ⟨-, counted, part⟩
  dsimp only at counted part ⊢
  rw [counted]
  apply (readExpected_counts rostered part (by omega)).bind
  rintro ⟨found, received, input⟩ ⟨-, counted, part⟩
  dsimp only at counted part ⊢
  rw [counted]
  apply (readExpected_counts listed part (by omega)).bind
  rintro ⟨found, received, input⟩ ⟨-, counted, part⟩
  dsimp only at counted part ⊢
  rw [counted]
  apply (readExpected_counts requested part (by omega)).bind
  rintro ⟨found, received, input⟩ ⟨-, counted, part⟩
  dsimp only at counted part ⊢
  rw [counted]
  apply (receiveFiles_counts number honest.sound answered part (by omega)).bind
  rintro ⟨received, input⟩ ⟨counted, part⟩
  dsimp only at counted part ⊢
  rw [counted]
  have last : input <+: done ++ [] := by
    rw [List.append_nil]
    exact part
  apply (readExpected_counts finished last (by omega)).bind
  rintro ⟨found, received, input⟩ ⟨empty, counted, -⟩
  dsimp only at empty counted ⊢
  rw [if_neg (not_not.mpr empty)]
  exact counted

end

section
variable [Blake3] {config : SessionConfig} {remoteEndpoint : EndpointId} {store : StateStore}

theorem sendFile_sound {moment : Moment} {request : FileRequest} {sent total : Nat}
    {answer : Answer} {after : StateStore} (light : sent ≤ maxSessionFileBytes)
    (done : sendFile config remoteEndpoint moment store sent request =
      (answer, .ok (after, total))) :
    answer.Sound ∧ total = sent + answer.fileBytes ∧ total ≤ maxSessionFileBytes := by
  unfold sendFile at done
  split at done
  · cases done
  · cases done
    exact ⟨trivial, rfl, light⟩
  · rename_i left record size prepared
    obtain ⟨-, contentHash, kind⟩ := (prepareRequestedFile_ok prepared).2 record size rfl
    split at done
    · obtain ⟨rfl, left⟩ := Prod.mk.inj done
      obtain ⟨logged, -, same⟩ := Except.of_map_ok left
      cases same
      exact ⟨trivial, rfl, light⟩
    rename_i fits
    split at done
    · cases done
    rename_i header headed
    obtain ⟨rfl, outcome⟩ := Prod.mk.inj done
    split at outcome
    · cases outcome
    rename_i enough
    obtain ⟨logged, -, same⟩ := Except.of_map_ok outcome
    cases same
    have whole : (moment.content.take size).length = size := by
      have short := List.length_take_le size moment.content
      omega
    refine ⟨⟨headed, contentHash, whole.symm ▸ kind⟩, ?_, by omega⟩
    show sent + size = sent + (moment.content.take size).length
    rw [whole]

/-- Each request is answered, and the raw bytes stay within the budget of the sender. -/
theorem sendRequested_sound {requests : List (FileRequest × Moment)} {sent : Nat}
    {answers : List Answer} (light : sent ≤ maxSessionFileBytes)
    (done : sendRequested config remoteEndpoint store sent requests = (answers, .ok ())) :
    answers.length = requests.length ∧ (∀ answer ∈ answers, answer.Sound) ∧
      sent + (answers.map Answer.fileBytes).sum ≤ maxSessionFileBytes := by
  induction requests generalizing store sent answers with
  | nil =>
      cases done
      exact ⟨rfl, fun answer listed => absurd listed List.not_mem_nil, light⟩
  | cons item rest ih =>
      obtain ⟨request, moment⟩ := item
      unfold sendRequested at done
      split at done
      · cases done
      rename_i answer next total outcome
      obtain ⟨rfl, result⟩ := Prod.mk.inj done
      obtain ⟨sound, rfl, below⟩ := sendFile_sound light outcome
      obtain ⟨number, follow, bounded⟩ := ih below (Prod.ext rfl result)
      rw [List.map_cons, List.sum_cons, ← Nat.add_assoc]
      exact ⟨congrArg Nat.succ number, List.forall_mem_cons.mpr ⟨sound, follow⟩, bounded⟩

end

theorem Answer.Sound.written {answer : Answer} (sound : answer.Sound) :
    ∃ bytes, answer.written = .ok bytes := by
  cases answer with
  | unavailable => exact ⟨_, encodeFrame_eq_ok.mpr ⟨Nat.le_refl _, rfl⟩⟩
  | overBudget => exact ⟨_, encodeFrame_eq_ok.mpr ⟨Nat.le_refl _, rfl⟩⟩
  | file record header content =>
      obtain ⟨headed, -⟩ := sound
      have framed := encodeFrame_eq_ok.mpr ⟨fileHeader_wireFormat.fits headed, rfl⟩
      exact ⟨_, by rw [Answer.written, framed]; rfl⟩

theorem answers_written {answers : List Answer} (sound : ∀ answer ∈ answers, answer.Sound) :
    ∃ files, answers.mapM Answer.written = .ok files := by
  induction answers with
  | nil => exact ⟨[], rfl⟩
  | cons answer rest ih =>
      rw [List.forall_mem_cons] at sound
      obtain ⟨bytes, first⟩ := sound.1.written
      obtain ⟨files, follow⟩ := ih sound.2
      refine ⟨bytes :: files, ?_⟩
      rw [List.mapM_cons, first, Except.ok_bind, follow]
      rfl

theorem SentSession.Honest.written {sent : SentSession} (honest : sent.Honest) :
    ∃ stream, sent.stream = .ok stream := by
  obtain ⟨files, answered⟩ := answers_written honest.sound
  unfold SentSession.stream
  rw [encodeFrame_eq_ok.mpr ⟨honest.hello, rfl⟩, Except.ok_bind,
    encodeFrame_eq_ok.mpr ⟨honest.roster, rfl⟩, Except.ok_bind,
    encodeFrame_eq_ok.mpr ⟨honest.manifests, rfl⟩, Except.ok_bind,
    encodeFrame_eq_ok.mpr ⟨honest.requests, rfl⟩, Except.ok_bind, answered, Except.ok_bind,
    encodeFrame_eq_ok.mpr ⟨Nat.le_refl _, rfl⟩, Except.ok_bind]
  exact ⟨_, rfl⟩

/-- A side that requests what `merge_remote_manifests` selects reads a whole session of an honest
peer, or any part of it, within the limit of its connection. -/
theorem honest_session_fits [Blake3] [Ed25519] {hello : Hello} {roster : RosterBundle}
    {manifests : ManifestBundle} {asked : RequestBundle} {sent : SentSession}
    (greets : hello.encode = .ok sent.hello) (admits : roster.encode = .ok sent.roster)
    (lists : manifests.encode = .ok sent.manifests) (asks : asked.encode = .ok sent.requests)
    {config peerConfig : SessionConfig} {remoteEndpoint endpoint : EndpointId} {now : I64}
    {environment : Record → RemovalEnvironment} {store after peer : StateStore}
    {disk diskAfter : Disk} {shared peerShared : List String} {bundle : ManifestBundle}
    {selected : List FileRequest} {requests : List (FileRequest × Moment)}
    (merged : mergeRemoteManifests config remoteEndpoint now environment store disk shared bundle =
      .ok (after, diskAfter, selected)) (requested : requests.map Prod.fst = selected)
    (answered : sendFiles peerConfig endpoint peer peerShared requests = (sent.answers, .ok ())) :
    sent.amount ≤ maxConnectionBytes ∧ ∃ stream, sent.stream = .ok stream ∧
      ∀ input, input <+: stream → readSession selected input ≠ .error .connectionLimit ∧
        ∀ total, readSession selected input = .ok total → total = sent.amount := by
  have number : requests.length = selected.length := by
    rw [← requested, List.length_map]
  have few : selected.length ≤ maxTransfers := by
    rw [mergeRemoteManifests_selection merged, selection_eq_take]
    have within := @take_within _ after.sessionBudget 0 0
      (neededRequests after (now.saturatingAdd config.maxFutureClockSkew) bundle) (Nat.zero_le _)
      (Nat.zero_le _)
    rw [Nat.zero_add] at within
    exact within.1
  unfold sendFiles at answered
  split at answered
  · cases (Prod.mk.inj answered).2
  obtain ⟨each, sound, light⟩ := sendRequested_sound (Nat.zero_le _) answered
  rw [Nat.zero_add] at light
  have honest : sent.Honest := ⟨Hello.wireFormat.fits greets, RosterBundle.wireFormat.fits admits,
    ManifestBundle.wireFormat.fits lists, RequestBundle.wireFormat.fits asks,
    each.trans number ▸ few, sound, light⟩
  obtain ⟨stream, written⟩ := honest.written
  refine ⟨honest.amount_le, stream, written, fun input part => ?_⟩
  have counts := honest.readSession_counts (each.trans number) written part
  constructor
  · intro limited
    rw [limited] at counts
    exact counts rfl
  · intro total success
    rw [success] at counts
    exact counts

section
attribute [local instance] Blake3.checksum Ed25519.checksum

open RosterSample

/-- A file of one byte. -/
def note : Record := .sample .sample 0 (.fill 1) (.file 1 (Blake3.hash [7]))

def noteOffer : ManifestBundle := ⟨[("c", ⟨[note]⟩)]⟩

theorem note_merges : (noteOffer.manifests.foldlM (mergeManifest ⟨.fill 9, 10, 100⟩ (.fill 1) 0
    fun _ => ⟨.ok "/c", .ok true, .ok (), .ok ()⟩) (newcomer, ∅)).isOk = true := by
  decide +kernel

/-- The newcomer after the merge of the note, which it does not have yet. -/
def noteMerged : StateStore × Disk :=
  (noteOffer.manifests.foldlM (mergeManifest ⟨.fill 9, 10, 100⟩ (.fill 1) 0
    fun _ => ⟨.ok "/c", .ok true, .ok (), .ok ()⟩) (newcomer, ∅)).toOption.getD (.empty, ∅)

/-- The request for the note, and what its sender finds. -/
def noteAsked : FileRequest × Moment :=
  (note.request, ⟨id, Std.ExtTreeMap.insert ∅ ⟨"/c", .sample⟩ ⟨[7], 0⟩,
    ⟨.ok "/c", .ok true, .ok ()⟩, 0, [7]⟩)

/-- What the sender of the note writes. -/
def noteSession : SentSession where
  hello := ((Hello.mk ["c"] "").encode).toOption.getD []
  roster := ((RosterBundle.mk [genesis]).encode).toOption.getD []
  manifests := noteOffer.encode.toOption.getD []
  requests := ((RequestBundle.mk []).encode).toOption.getD []
  answers := (sendFiles ⟨.fill 1, 10, 100⟩ (.fill 9) (noteMerged.1.materialize note.key) ["c"]
    [noteAsked]).1

/-- The note is sent within the limit of the connection. -/
theorem note_session_fits : ∃ stream, noteSession.stream = .ok stream ∧
    readSession [note.request] stream ≠ .error .connectionLimit := by
  have asked : noteMerged.1.selection ((0 : I64).saturatingAdd 10) noteOffer =
      [note.request] := by
    have wanted : wantedRequests noteMerged.1 ((0 : I64).saturatingAdd 10) noteOffer =
        [note.request] := by decide +kernel
    have ascending : (wantedRequests noteMerged.1 ((0 : I64).saturatingAdd 10)
        noteOffer).Pairwise (· < ·) := by
      rw [wanted]
      exact List.pairwise_singleton _ _
    rw [StateStore.selection, neededRequests_of_ascending ascending, wanted]
    decide +kernel
  have merged : mergeRemoteManifests ⟨.fill 9, 10, 100⟩ (.fill 1) 0
      (fun _ => ⟨.ok "/c", .ok true, .ok (), .ok ()⟩) newcomer ∅ ["c"] noteOffer =
        .ok (noteMerged.1, noteMerged.2, [note.request]) := by
    rw [← asked]
    apply mergeRemoteManifests_eq
    · decide
    · unfold noteMerged
      exact Except.eq_ok_getD note_merges (.empty, ∅)
  have ends : (sendFiles ⟨.fill 1, 10, 100⟩ (.fill 9) (noteMerged.1.materialize note.key) ["c"]
      [noteAsked]).2 = .ok () := by decide +kernel
  have answered : sendFiles ⟨.fill 1, 10, 100⟩ (.fill 9) (noteMerged.1.materialize note.key) ["c"]
      [noteAsked] = (noteSession.answers, .ok ()) := by
    dsimp only [noteSession]
    rw [← ends]
  have greets : (Hello.mk ["c"] "").encode = .ok noteSession.hello := by
    dsimp only [noteSession]
    exact Except.eq_ok_getD (by decide +kernel) []
  have admits : (RosterBundle.mk [genesis]).encode = .ok noteSession.roster := by
    dsimp only [noteSession]
    exact Except.eq_ok_getD (by decide +kernel) []
  have lists : noteOffer.encode = .ok noteSession.manifests := by
    dsimp only [noteSession]
    exact Except.eq_ok_getD (by decide +kernel) []
  have asks : (RequestBundle.mk []).encode = .ok noteSession.requests := by
    dsimp only [noteSession]
    exact Except.eq_ok_getD (by decide +kernel) []
  obtain ⟨-, stream, written, reads⟩ := @honest_session_fits _ _ ⟨["c"], ""⟩ ⟨[genesis]⟩ noteOffer
    ⟨[]⟩ noteSession greets admits lists asks _ ⟨.fill 1, 10, 100⟩ _ (.fill 9) _ _ _ _
    (noteMerged.1.materialize note.key) _ _ _ ["c"] _ _ [noteAsked] merged rfl answered
  exact ⟨stream, written, (reads stream (List.prefix_refl stream)).1⟩

end

end Skillsync
