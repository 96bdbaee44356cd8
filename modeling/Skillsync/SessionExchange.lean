import Skillsync.ConnectionBudget
import Skillsync.Duplex
import Skillsync.ScanSpec

set_option autoImplicit false

namespace Skillsync

open Fallible Duplex

/-- What a side writes in each phase of `run_session_with_outcome`. -/
structure Phases where
  hello : List UInt8
  roster : List UInt8
  manifests : List UInt8
  requests : List UInt8
  files : List UInt8
  done : List UInt8

def Phases.bytes (phases : Phases) : List UInt8 :=
  phases.hello ++ (phases.roster ++ (phases.manifests ++ (phases.requests ++
    (phases.files ++ phases.done))))

def SentSession.phases (sent : SentSession) : Except ProtocolError Phases := do
  let hello ← encodeFrame .hello sent.hello
  let roster ← encodeFrame .roster sent.roster
  let manifests ← encodeFrame .manifests sent.manifests
  let requests ← encodeFrame .requests sent.requests
  let files ← sent.answers.mapM Answer.written
  let done ← encodeFrame .done []
  return ⟨hello, roster, manifests, requests, files.flatten, done⟩

/-- A round in which both sides write, as `exchange_frame` does. -/
def bothWrite (dialer acceptor : List UInt8) : Duplex.Side → List UInt8
  | .first => dialer
  | .second => acceptor

/-- The order of `run_session_with_outcome`: four exchanges, the answers of the dialer, those of
the acceptor, and the last exchange, after which the streams are finished. -/
def sessionScript (dialer acceptor : Phases) : Script UInt8 :=
  [bothWrite dialer.hello acceptor.hello, bothWrite dialer.roster acceptor.roster,
    bothWrite dialer.manifests acceptor.manifests, bothWrite dialer.requests acceptor.requests,
    bothWrite dialer.files [], bothWrite [] acceptor.files, bothWrite dialer.done acceptor.done]

section
variable (dialer acceptor : Phases)

theorem sessionScript_dialer : (sessionScript dialer acceptor).whole .first = dialer.bytes := by
  simp [sessionScript, Script.whole, bothWrite, Phases.bytes]

theorem sessionScript_acceptor : (sessionScript dialer acceptor).whole .second =
    acceptor.bytes := by
  simp [sessionScript, Script.whole, bothWrite, Phases.bytes]

theorem sessionScript_opens (greets : dialer.hello ≠ []) :
    (sessionScript dialer acceptor).upTo .first 1 ≠ [] := by
  simpa [sessionScript, Script.upTo, bothWrite] using greets

end

theorem SentSession.Honest.phases_written {sent : SentSession} (honest : sent.Honest) :
    ∃ phases, sent.phases = .ok phases ∧ sent.stream = .ok phases.bytes ∧ phases.hello ≠ [] := by
  obtain ⟨files, answered⟩ := answers_written honest.sound
  unfold SentSession.phases SentSession.stream
  rw [encodeFrame_eq_ok.mpr ⟨honest.hello, rfl⟩, Except.ok_bind,
    encodeFrame_eq_ok.mpr ⟨honest.roster, rfl⟩, Except.ok_bind,
    encodeFrame_eq_ok.mpr ⟨honest.manifests, rfl⟩, Except.ok_bind,
    encodeFrame_eq_ok.mpr ⟨honest.requests, rfl⟩, Except.ok_bind, answered, Except.ok_bind,
    encodeFrame_eq_ok.mpr ⟨Nat.le_refl _, rfl⟩, Except.ok_bind]
  refine ⟨_, rfl, rfl, ?_⟩
  simp

/-- An answer that the receiver of the request takes: the file of the requested record. -/
def Answer.Serves [Blake3] (request : FileRequest) : Answer → Prop
  | .unavailable => True
  | .overBudget => True
  | .file record header content => encodeFileHeader record = .ok header ∧
      record.request = request ∧ record.kind = .file content.length (Blake3.hash content)

section
variable {tag : FrameTag} {payload bytes rest : List UInt8} {received : Nat}

theorem readBytes_append (front : List UInt8) :
    readBytes front.length (front ++ rest) = .ok (front, rest) := by
  unfold readBytes
  rw [if_pos (by simp), List.take_left, List.drop_left]

theorem readFrame_written (encoded : encodeFrame tag payload = .ok bytes)
    (room : received + frameBytes payload ≤ maxConnectionBytes) :
    readFrame received (bytes ++ rest) = .ok ((tag, payload), received + frameBytes payload,
      rest) := by
  obtain ⟨fits, rfl⟩ := encodeFrame_eq_ok.mp encoded
  obtain ⟨five, header⟩ := decodeHeader_encoded fits
  have shape : tag.byte :: (Encoder.u32 payload.length ++ payload) ++ rest =
      (tag.byte :: Encoder.u32 payload.length) ++ (payload ++ rest) := by
    simp only [List.cons_append, List.append_assoc]
  have added : addReceived received (headerBytes + payload.length) =
      .ok (received + frameBytes payload) := addReceived_ok room
  unfold readFrame
  rw [shape, ← five, readBytes_append, Except.ok_bind]
  dsimp only
  rw [header, five, Except.mapError, Except.ok_bind]
  dsimp only
  rw [added, Except.ok_bind, readBytes_append, Except.ok_bind]
  rfl

theorem readExpected_written (encoded : encodeFrame tag payload = .ok bytes)
    (room : received + frameBytes payload ≤ maxConnectionBytes) :
    readExpected tag received (bytes ++ rest) =
      .ok (payload, received + frameBytes payload, rest) := by
  unfold readExpected
  rw [readFrame_written encoded room, Except.ok_bind]
  simp
  rfl

variable [Blake3]

theorem receiveRawFile_written (content : List UInt8) :
    receiveRawFile content.length (Blake3.hash content) (content ++ rest) =
      .ok (content, rest) := by
  unfold receiveRawFile
  rw [if_neg (by simp), List.take_left, if_neg (not_not.mpr rfl), List.drop_left]

/-- One answer is read to its end. -/
theorem receiveFile_written {answer : Answer} {request : FileRequest}
    (serves : answer.Serves request) (encoded : answer.written = .ok bytes)
    (room : received + answer.amount ≤ maxConnectionBytes) :
    ∃ found, receiveFile request received (bytes ++ rest) =
      .ok (found, received + answer.amount, rest) := by
  have missing : encodeFrame .fileUnavailable [] = .ok bytes → answer.amount = frameBytes [] →
      ∃ found, receiveFile request received (bytes ++ rest) =
        .ok (found, received + answer.amount, rest) := by
    intro written same
    rw [same] at room ⊢
    unfold receiveFile
    rw [readFrame_written written room, Except.ok_bind]
    exact ⟨none, rfl⟩
  cases answer with
  | unavailable => exact missing encoded rfl
  | overBudget => exact missing encoded rfl
  | file record header content =>
      obtain ⟨headed, asked, kind⟩ := serves
      obtain ⟨framed, written, rfl⟩ := Except.of_map_ok encoded
      have room' : received + frameBytes header + content.length ≤ maxConnectionBytes := by
        rw [Nat.add_assoc]
        exact room
      unfold receiveFile
      rw [List.append_assoc, readFrame_written written (by omega), Except.ok_bind]
      dsimp only
      rw [if_neg (by decide), if_neg (by decide), decodeFileHeader_iff.mpr headed, Except.mapError,
        Except.ok_bind]
      subst asked
      rw [if_neg (by simp [Record.request]), kind]
      dsimp only
      rw [addReceived_ok room', Except.ok_bind, receiveRawFile_written, Except.ok_bind]
      refine ⟨some (record, content), congrArg Except.ok ?_⟩
      simp only [Answer.amount, Nat.add_assoc]

theorem receiveFiles_written {answers : List Answer} {requests : List FileRequest}
    {files : List (List UInt8)} (serves : List.Forall₂ Answer.Serves requests answers)
    (encoded : answers.mapM Answer.written = .ok files)
    (room : received + (answers.map Answer.amount).sum ≤ maxConnectionBytes) :
    receiveFiles received (files.flatten ++ rest) requests =
      .ok (received + (answers.map Answer.amount).sum, rest) := by
  induction serves generalizing files received with
  | nil =>
      cases encoded
      rfl
  | cons first others ih =>
      rw [List.mapM_cons] at encoded
      obtain ⟨bytes, written, encoded⟩ := Except.bind_ok encoded
      obtain ⟨tail, follow, encoded⟩ := Except.bind_ok encoded
      cases encoded
      rw [List.map_cons, List.sum_cons, ← Nat.add_assoc] at room ⊢
      obtain ⟨found, read⟩ : ∃ found, receiveFile _ received (bytes ++ (tail.flatten ++ rest)) =
          .ok (found, received + Answer.amount _, tail.flatten ++ rest) :=
        receiveFile_written first written (by omega)
      unfold receiveFiles
      rw [List.flatten_cons, List.append_assoc, read, Except.ok_bind]
      exact ih follow room

/-- The whole stream of a side is read without an error. -/
theorem SentSession.Honest.readSession_written {sent : SentSession} {requests : List FileRequest}
    {phases : Phases} (honest : sent.Honest)
    (serves : List.Forall₂ Answer.Serves requests sent.answers)
    (written : sent.phases = .ok phases) :
    readSession requests phases.bytes = .ok sent.amount := by
  have room := honest.amount_le
  unfold SentSession.amount at room ⊢
  unfold SentSession.phases at written
  obtain ⟨hello, helloed, written⟩ := Except.bind_ok written
  obtain ⟨roster, rostered, written⟩ := Except.bind_ok written
  obtain ⟨manifests, listed, written⟩ := Except.bind_ok written
  obtain ⟨asked, requested, written⟩ := Except.bind_ok written
  obtain ⟨files, answered, written⟩ := Except.bind_ok written
  obtain ⟨done, finished, written⟩ := Except.bind_ok written
  cases written
  rw [← Nat.zero_add (frameBytes sent.hello)] at room ⊢
  have last : readExpected .done (0 + frameBytes sent.hello + frameBytes sent.roster +
      frameBytes sent.manifests + frameBytes sent.requests + (sent.answers.map Answer.amount).sum)
      (done ++ []) = .ok ([], _, []) := readExpected_written finished (by omega)
  rw [List.append_nil] at last
  unfold readSession Phases.bytes
  rw [readExpected_written helloed (by omega), Except.ok_bind]
  dsimp only
  rw [readExpected_written rostered (by omega), Except.ok_bind]
  dsimp only
  rw [readExpected_written listed (by omega), Except.ok_bind]
  dsimp only
  rw [readExpected_written requested (by omega), Except.ok_bind]
  dsimp only
  rw [receiveFiles_written serves answered (by omega), Except.ok_bind]
  dsimp only
  rw [last, Except.ok_bind]
  rfl

end

/-- The bytes that a sender reads are those of the file that it has opened. -/
def Moment.Intact [Blake3] (moment : Moment) : Prop :=
  ∀ record file, openVerifiedFile moment.disk record moment.environment = .ok file →
    moment.content = file.bytes

/-- What other threads do to the store keeps each row under its own record's key. -/
def Moment.Keeps (moment : Moment) : Prop :=
  ∀ store : StateStore, store.Keyed → (moment.others store).Keyed

section
variable [Blake3] {config : SessionConfig} {remoteEndpoint : EndpointId} {moment : Moment}
  {store after : StateStore} {request : FileRequest}

theorem openVerifiedFile_ok {disk : Disk} {record : Record} {environment : VerifyEnvironment}
    {file : RegularFile} (opened : openVerifiedFile disk record environment = .ok file) :
    record.kind = .file file.bytes.length (Blake3.hash file.bytes) ∧
      ∃ root, disk[DiskKey.mk root record.path]? = some file := by
  unfold openVerifiedFile at opened
  split at opened
  · cases opened
  rename_i size contentHash kind
  obtain ⟨root, -, opened⟩ := Except.bind_ok opened
  obtain ⟨parent, -, opened⟩ := Except.bind_ok opened
  split at opened
  · cases opened
  obtain ⟨read, -, opened⟩ := Except.bind_ok opened
  split at opened
  · rename_i other found
    split at opened
    · cases opened
    rename_i sized
    split at opened
    · cases opened
    rename_i hashed
    cases opened
    rw [kind, not_not.mp sized, not_not.mp hashed]
    exact ⟨rfl, root, found⟩
  · cases opened

/-- What is prepared is the verified file of the requested record. -/
theorem prepareRequestedFile_verified {record : Record} {size : Nat}
    (prepared : prepareRequestedFile config remoteEndpoint moment store request =
      .ok (after, some (record, size))) :
    record.canonicalHash = request.recordHash ∧
      ∃ file, openVerifiedFile moment.disk record moment.environment = .ok file := by
  have left : ∀ {markRepair : Bool}, ((logUnavailable config remoteEndpoint moment.now store
      request markRepair).map fun store => (store, none)) ≠ .ok (after, some (record, size)) := by
    intro markRepair result
    obtain ⟨logged, -, same⟩ := Except.of_map_ok result
    cases same
  unfold prepareRequestedFile at prepared
  dsimp only at prepared
  split at prepared
  · exact absurd prepared left
  split at prepared
  · exact absurd prepared left
  rename_i hash
  split at prepared
  · exact absurd prepared left
  split at prepared
  · exact absurd prepared left
  split at prepared
  · exact absurd prepared left
  split at prepared
  · rename_i file opened
    cases prepared
    exact ⟨not_not.mp hash, file, opened⟩
  · exact absurd prepared left

theorem request_of_stored {record : Record} (keyed : store.Keyed)
    (stored : request.key.bind store.record = some record)
    (hash : record.canonicalHash = request.recordHash) : record.request = request := by
  obtain ⟨key, named, found⟩ := Option.bind_eq_some_iff.mp stored
  unfold FileRequest.key at named
  obtain ⟨path, parsed, rfl⟩ := Option.map_eq_some_iff.mp named
  have text : path.text = request.path := by
    cases outcome : ProtocolPath.parse request.path with
    | error reason =>
        rw [outcome] at parsed
        cases parsed
    | ok other =>
        rw [outcome] at parsed
        cases parsed
        exact ProtocolPath.parse_ok outcome
  have place := keyed _ _ found
  have collection : record.collection = request.collection := congrArg RecordKey.collection place
  have same : record.path = path := congrArg RecordKey.path place
  unfold Record.request
  rw [hash, collection, same, text]

theorem sendFile_serves {sent total : Nat} {answer : Answer} (keyed : store.Keyed)
    (intact : moment.Intact)
    (done : sendFile config remoteEndpoint moment store sent request =
      (answer, .ok (after, total))) :
    answer.Serves request ∧ after.Keyed := by
  unfold sendFile at done
  split at done
  · cases done
  · rename_i left prepared
    cases done
    exact ⟨trivial, keyed.of_record (prepareRequestedFile_ok prepared).1⟩
  · rename_i left record size prepared
    have same := (prepareRequestedFile_ok prepared).1
    obtain ⟨stored, contentHash, kind⟩ := (prepareRequestedFile_ok prepared).2 record size rfl
    obtain ⟨hash, file, opened⟩ := prepareRequestedFile_verified prepared
    split at done
    · obtain ⟨rfl, outcome⟩ := Prod.mk.inj done
      obtain ⟨logged, written, same'⟩ := Except.of_map_ok outcome
      cases same'
      exact ⟨trivial, (keyed.of_record same).of_record
        (logUnavailable_record (Except.mapError_ok written))⟩
    split at done
    · cases done
    rename_i header headed
    obtain ⟨rfl, outcome⟩ := Prod.mk.inj done
    split at outcome
    · cases outcome
    obtain ⟨logged, written, same'⟩ := Except.of_map_ok outcome
    cases same'
    have verified := (openVerifiedFile_ok opened).1
    rw [kind] at verified
    obtain ⟨rfl, rfl⟩ := RecordKind.file.inj verified
    have content : moment.content.take file.bytes.length = file.bytes := by
      rw [intact record file opened, List.take_length]
    refine ⟨⟨headed, request_of_stored keyed stored hash, ?_⟩, (keyed.of_record same).of_record
      (StateStore.appendLog_record (Except.mapError_ok written))⟩
    rw [content, kind]

theorem sendRequested_serves {requests : List (FileRequest × Moment)} {sent : Nat}
    {answers : List Answer} (keyed : store.Keyed)
    (calm : ∀ item ∈ requests, item.2.Intact ∧ item.2.Keeps)
    (done : sendRequested config remoteEndpoint store sent requests = (answers, .ok ())) :
    List.Forall₂ Answer.Serves (requests.map Prod.fst) answers := by
  induction requests generalizing store sent answers with
  | nil =>
      cases done
      exact .nil
  | cons item rest ih =>
      obtain ⟨request, moment⟩ := item
      rw [List.forall_mem_cons] at calm
      obtain ⟨⟨intact, keeps⟩, others⟩ := calm
      unfold sendRequested at done
      split at done
      · cases done
      rename_i answer next total outcome
      obtain ⟨rfl, result⟩ := Prod.mk.inj done
      obtain ⟨serves, keyed⟩ := sendFile_serves (keeps _ keyed) intact outcome
      exact .cons serves (ih keyed others (Prod.ext rfl result))

end

/-- What a side of `run_session_with_outcome` sends when it requests `selected` and the peer
requests `asked`. Nothing but the messages and the answers is assumed of the peer. -/
structure SentSession.Partakes [Blake3] [Ed25519] (sent : SentSession)
    (selected asked : List FileRequest) : Prop where
  greets : ∃ hello : Hello, hello.encode = .ok sent.hello
  admits : ∃ roster : RosterBundle, roster.encode = .ok sent.roster
  lists : ∃ manifests : ManifestBundle, manifests.encode = .ok sent.manifests
  asks : (RequestBundle.mk selected).encode = .ok sent.requests
  answered : ∃ config remoteEndpoint store shared requests, store.Keyed ∧
    requests.map Prod.fst = asked ∧
    (∀ item ∈ requests, item.2.Intact ∧ item.2.Keeps) ∧
    sendFiles config remoteEndpoint store shared requests = (sent.answers, .ok ())

section
variable [Blake3] [Ed25519] {sent : SentSession} {selected asked : List FileRequest}

theorem SentSession.Partakes.serves (partakes : sent.Partakes selected asked) :
    List.Forall₂ Answer.Serves asked sent.answers := by
  obtain ⟨config, remoteEndpoint, store, shared, requests, keyed, rfl, calm, answered⟩ :=
    partakes.answered
  unfold sendFiles at answered
  split at answered
  · cases (Prod.mk.inj answered).2
  exact sendRequested_serves keyed calm answered

theorem SentSession.Partakes.honest (partakes : sent.Partakes selected asked)
    (few : asked.length ≤ maxTransfers) : sent.Honest := by
  obtain ⟨hello, greets⟩ := partakes.greets
  obtain ⟨roster, admits⟩ := partakes.admits
  obtain ⟨manifests, lists⟩ := partakes.lists
  obtain ⟨config, remoteEndpoint, store, shared, requests, -, rfl, -, answered⟩ :=
    partakes.answered
  unfold sendFiles at answered
  split at answered
  · cases (Prod.mk.inj answered).2
  obtain ⟨number, sound, light⟩ := sendRequested_sound (Nat.zero_le _) answered
  rw [Nat.zero_add] at light
  rw [List.length_map] at few
  exact ⟨Hello.wireFormat.fits greets, RosterBundle.wireFormat.fits admits,
    ManifestBundle.wireFormat.fits lists, RequestBundle.wireFormat.fits partakes.asks,
    number ▸ few, sound, light⟩

theorem SentSession.Partakes.few (partakes : sent.Partakes selected asked) :
    selected.length ≤ maxTransfers := by
  have asks := partakes.asks
  unfold RequestBundle.encode at asks
  split at asks
  · cases asks
  · rename_i few
    exact not_lt.mp few

/-- A session between two sides that keep to the protocol, over streams with any windows: however
the writes and the reads fall, one of the sides can go on until both are through, after a bounded
number of steps, and then each has read the whole session of the other without an error. -/
theorem session_completes {dialer acceptor : SentSession}
    {dialerAsks acceptorAsks : List FileRequest}
    (dialing : dialer.Partakes dialerAsks acceptorAsks)
    (accepting : acceptor.Partakes acceptorAsks dialerAsks)
    {window : Duplex.Side → Nat} (positive : ∀ side, 0 < window side) :
    ∃ dialed accepted : Phases, dialer.phases = .ok dialed ∧ acceptor.phases = .ok accepted ∧
      ∀ actions state, Runs.run (Duplex.step (sessionScript dialed accepted) window)
          (Duplex.start (sessionScript dialed accepted)) actions = some state →
        actions.length ≤ (sessionScript dialed accepted).work ∧
        (Finished (sessionScript dialed accepted) state ∨ ∃ action after,
          Duplex.step (sessionScript dialed accepted) window state action = some after) ∧
        (Finished (sessionScript dialed accepted) state →
          readSession dialerAsks (state.party .first).received = .ok acceptor.amount ∧
          readSession acceptorAsks (state.party .second).received = .ok dialer.amount) := by
  have dialerHonest := dialing.honest accepting.few
  have acceptorHonest := accepting.honest dialing.few
  obtain ⟨dialed, written, -, greets⟩ := dialerHonest.phases_written
  obtain ⟨accepted, replied, -, -⟩ := acceptorHonest.phases_written
  refine ⟨dialed, accepted, written, replied, fun actions state reached => ?_⟩
  have holds := run_invariant start_invariant reached
  refine ⟨bounded reached, progress holds positive (sessionScript_opens _ _ greets), ?_⟩
  intro finished
  have dialerReads : (state.party .first).received = accepted.bytes :=
    (complete holds finished .second).trans (sessionScript_acceptor _ _)
  have acceptorReads : (state.party .second).received = dialed.bytes :=
    (complete holds finished .first).trans (sessionScript_dialer _ _)
  rw [dialerReads, acceptorReads]
  exact ⟨acceptorHonest.readSession_written accepting.serves replied,
    dialerHonest.readSession_written dialing.serves written⟩

end

section
attribute [local instance] Blake3.checksum Ed25519.checksum

open RosterSample

/-- The session of the side that asks for the note. -/
def askingSession : SentSession where
  hello := noteSession.hello
  roster := noteSession.roster
  manifests := noteSession.manifests
  requests := (RequestBundle.mk [note.request]).spelled
  answers := []

theorem noteAsked_intact : noteAsked.2.Intact := by
  intro record file opened
  obtain ⟨-, root, found⟩ := openVerifiedFile_ok opened
  have inside : ((∅ : Disk).insert ⟨"/c", .sample⟩ ⟨[7], 0⟩)[DiskKey.mk root record.path]? =
      some file := found
  rw [OrderedMap.getElem?_insert] at inside
  split at inside
  · cases inside
    rfl
  · rw [Std.ExtTreeMap.getElem?_empty] at inside
    cases inside

theorem noteMerged_keyed : (noteMerged.1.materialize note.key).Keyed := by
  have rows : ∀ row ∈ (noteMerged.1.materialize note.key).pathRecords.toList,
      row.2.record.key = row.1 := by decide +kernel
  intro key record found
  obtain ⟨row, present, rfl⟩ := StateStore.record_eq_some.mp found
  exact rows (key, row) (Std.ExtTreeMap.mem_toList_iff_getElem?_eq_some.mpr present)

theorem noteAsked_answered : sendFiles ⟨.fill 1, 10, 100⟩ (.fill 9)
    (noteMerged.1.materialize note.key) ["c"] [noteAsked] = (noteSession.answers, .ok ()) := by
  have ends : (sendFiles ⟨.fill 1, 10, 100⟩ (.fill 9) (noteMerged.1.materialize note.key) ["c"]
      [noteAsked]).2 = .ok () := by decide +kernel
  dsimp only [noteSession]
  rw [← ends]

/-- The note is asked for and sent over streams with room for one byte. -/
theorem note_session_completes : ∃ dialed accepted : Phases, noteSession.phases = .ok dialed ∧
    askingSession.phases = .ok accepted ∧
    ∀ actions state, Runs.run (Duplex.step (sessionScript dialed accepted) fun _ => 1)
        (Duplex.start (sessionScript dialed accepted)) actions = some state →
      Finished (sessionScript dialed accepted) state →
      readSession [note.request] (state.party .second).received = .ok noteSession.amount := by
  have greets : (Hello.mk ["c"] "").encode = .ok noteSession.hello := by
    dsimp only [noteSession]
    exact Except.eq_ok_getD (by decide +kernel) []
  have admits : (RosterBundle.mk [genesis]).encode = .ok noteSession.roster := by
    dsimp only [noteSession]
    exact Except.eq_ok_getD (by decide +kernel) []
  have lists : noteOffer.encode = .ok noteSession.manifests := by
    dsimp only [noteSession]
    exact Except.eq_ok_getD (by decide +kernel) []
  have sending : noteSession.Partakes [] [note.request] := by
    refine ⟨⟨_, greets⟩, ⟨_, admits⟩, ⟨_, lists⟩, ?_, ⟨.fill 1, 10, 100⟩, .fill 9,
      noteMerged.1.materialize note.key, ["c"], [noteAsked], noteMerged_keyed, rfl, ?_,
      noteAsked_answered⟩
    · dsimp only [noteSession]
      exact Except.eq_ok_getD (by decide +kernel) []
    · intro item listed
      rw [List.mem_singleton.mp listed]
      exact ⟨noteAsked_intact, fun _ keyed => keyed⟩
  have asking : askingSession.Partakes [note.request] [] := by
    constructor
    · exact ⟨_, greets⟩
    · dsimp only [askingSession]
      exact ⟨_, admits⟩
    · dsimp only [askingSession]
      exact ⟨_, lists⟩
    · refine RequestBundle.encode_iff.mpr ⟨by decide, ?_, rfl⟩
      rw [RequestBundle.allowed_cons]
      exact ⟨⟨⟨by decide, by decide⟩, by decide, .sample, ProtocolPath.parse_text _⟩, by simp,
        RequestBundle.allowed_nil _⟩
    · refine ⟨⟨.fill 9, 10, 100⟩, .fill 1, .empty, ["c"], [], ?_, rfl, by simp, rfl⟩
      intro key record found
      cases found
  obtain ⟨dialed, accepted, written, replied, runs⟩ :=
    session_completes sending asking (fun _ => Nat.one_pos)
  refine ⟨dialed, accepted, written, replied, fun actions state reached finished => ?_⟩
  exact ((runs actions state reached).2.2 finished).2

end

end Skillsync
