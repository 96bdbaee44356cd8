import Skillsync.Messages
import Skillsync.RepeatedSessions

set_option autoImplicit false

namespace Skillsync

open Fallible

/-- The bytes that a session reads from its connection at most. -/
def maxConnectionBytes : Nat := 256 * 1024 * 1024

/-- The errors of a transfer: those of `SyncError` and `ProtocolError` that it adds. -/
inductive TransferError
  | sync (source : SyncError)
  | protocol (source : ProtocolError)
  | connectionLimit
  | unexpectedFrame
  | unexpectedState
  | unsolicitedFile
  | interruptedFile
  | corruptFile
deriving DecidableEq

/-- `add_received`. -/
def addReceived (received amount : Nat) : Except TransferError Nat :=
  if 2 ^ 64 ≤ received + amount then .error .connectionLimit
  else if maxConnectionBytes < received + amount then .error .connectionLimit
  else .ok (received + amount)

/-- `log_unavailable_in`. -/
def logUnavailable (config : SessionConfig) (remoteEndpoint : EndpointId) (now : I64)
    (store : StateStore) (request : FileRequest) (markRepair : Bool) :
    Except SyncError StateStore := do
  let path ← (ProtocolPath.parse request.path).mapError SyncError.path
  let event := OperationalEvent.transferRejected request.collection path remoteEndpoint
  if markRepair then
    (store.markRepairRequiredAndLog ⟨request.collection, path⟩ now event config.maxLogs).mapError
      .state
  else (store.appendLog now event config.maxLogs).mapError .state

/-- What a sender finds when it comes to a request: what other threads have done to the store
since the last one, the disk, and the bytes that it reads while it sends. -/
structure Moment where
  others : StateStore → StateStore
  disk : Disk
  environment : VerifyEnvironment
  now : I64
  content : List UInt8

/-- How `send_files` answers a request. -/
inductive Answer
  | unavailable
  /-- The byte budget of the sender leaves the file out. -/
  | overBudget
  | file (record : Record) (header content : List UInt8)
deriving DecidableEq

section
variable [Blake3]

/-- `prepare_requested_file`. -/
def prepareRequestedFile (config : SessionConfig) (remoteEndpoint : EndpointId) (moment : Moment)
    (store : StateStore) (request : FileRequest) :
    Except SyncError (StateStore × Option (Record × Nat)) :=
  let unavailable (markRepair : Bool) :=
    (logUnavailable config remoteEndpoint moment.now store request markRepair).map fun store =>
      (store, none)
  match request.key.bind store.record with
  | none => unavailable false
  | some record =>
      if record.canonicalHash ≠ request.recordHash then unavailable false
      else if !((request.key.bind store.recordState).any fun row => row.materialized) then
        unavailable false
      else if (store.collections[request.collection]?).isNone then unavailable false
      else
        match record.kind with
        | .tombstone => unavailable false
        | .file size _ =>
            match openVerifiedFile moment.disk record moment.environment with
            | .ok _ => .ok (store, some (record, size))
            | .error _ => unavailable true

/-- The body of the loop of `send_files`; `sent` are the bytes of the files sent before. -/
def sendFile (config : SessionConfig) (remoteEndpoint : EndpointId) (moment : Moment)
    (store : StateStore) (sent : Nat) (request : FileRequest) :
    Answer × Except TransferError (StateStore × Nat) :=
  match prepareRequestedFile config remoteEndpoint moment store request with
  | .error reason => (.unavailable, .error (.sync reason))
  | .ok (store, none) => (.unavailable, .ok (store, sent))
  | .ok (store, some (record, size)) =>
      if 2 ^ 64 ≤ sent + size ∨ maxSessionFileBytes < sent + size then
        (.overBudget,
          ((logUnavailable config remoteEndpoint moment.now store request false).mapError .sync).map
            fun store => (store, sent))
      else
        match encodeFileHeader record with
        | .error reason => (.unavailable, .error (.protocol reason))
        | .ok header =>
            let content := moment.content.take size
            (.file record header content,
              if content.length < size then .error .interruptedFile
              else
                ((store.appendLog moment.now
                  (.fileSent request.collection record.path remoteEndpoint)
                  config.maxLogs).mapError fun reason => .sync (.state reason)).map
                    fun store => (store, sent + size))

/-- The loop of `send_files`. -/
def sendRequested (config : SessionConfig) (remoteEndpoint : EndpointId) (store : StateStore)
    (sent : Nat) : List (FileRequest × Moment) → List Answer × Except TransferError Unit
  | [] => ([], .ok ())
  | (request, moment) :: rest =>
      match sendFile config remoteEndpoint moment (moment.others store) sent request with
      | (answer, .error reason) => ([answer], .error reason)
      | (answer, .ok (store, sent)) =>
          let (answers, result) := sendRequested config remoteEndpoint store sent rest
          (answer :: answers, result)

/-- `send_files`, and how it answers the requests that it comes to. -/
def sendFiles (config : SessionConfig) (remoteEndpoint : EndpointId) (store : StateStore)
    (shared : List String) (requests : List (FileRequest × Moment)) :
    List Answer × Except TransferError Unit :=
  if requests.any fun request => !shared.contains request.1.collection then
    ([], .error (.sync .wrongCollections))
  else sendRequested config remoteEndpoint store 0 requests

end

/-- `read_exact`. -/
def readBytes (length : Nat) (input : List UInt8) :
    Except TransferError (List UInt8 × List UInt8) :=
  if length ≤ input.length then .ok (input.take length, input.drop length)
  else .error (.protocol .truncated)

/-- `read_frame_async`: the frame, the bytes received so far, and the rest of the input. -/
def readFrame (received : Nat) (input : List UInt8) :
    Except TransferError (Frame × Nat × List UInt8) := do
  let (header, rest) ← readBytes headerBytes input
  let (tag, length) ← (decodeHeader header).mapError TransferError.protocol
  let received ← addReceived received (headerBytes + length)
  let (payload, rest) ← readBytes length rest
  return ((tag, payload), received, rest)

/-- `read_expected`. -/
def readExpected (expected : FrameTag) (received : Nat) (input : List UInt8) :
    Except TransferError (List UInt8 × Nat × List UInt8) := do
  let ((tag, payload), received, rest) ← readFrame received input
  if tag ≠ expected then throw .unexpectedFrame
  else return (payload, received, rest)

section
variable [Blake3]

/-- `receive_raw_file`. -/
def receiveRawFile (size : Nat) (expectedHash : Bytes32) (input : List UInt8) :
    Except TransferError (List UInt8 × List UInt8) :=
  if input.length < size then .error .interruptedFile
  else if Blake3.hash (input.take size) ≠ expectedHash then .error .corruptFile
  else .ok (input.take size, input.drop size)

/-- The body of the loop of `receive_files` up to the installation of the bytes. -/
def receiveFile (request : FileRequest) (received : Nat) (input : List UInt8) :
    Except TransferError (Option (Record × List UInt8) × Nat × List UInt8) := do
  let ((tag, header), received, rest) ← readFrame received input
  if tag ≠ .file ∧ tag ≠ .fileUnavailable then throw .unexpectedFrame
  else if tag = .fileUnavailable then
    if header ≠ [] then throw .unexpectedFrame else return (none, received, rest)
  else
    let record ← (decodeFileHeader header).mapError TransferError.protocol
    if record.collection ≠ request.collection ∨ record.path.text ≠ request.path ∨
        record.canonicalHash ≠ request.recordHash then throw .unsolicitedFile
    else
      match record.kind with
      | .tombstone => throw .unsolicitedFile
      | .file size contentHash =>
          let received ← addReceived received size
          let (content, rest) ← receiveRawFile size contentHash rest
          return (some (record, content), received, rest)

/-- The loop of `receive_files`. -/
def receiveFiles (received : Nat) (input : List UInt8) :
    List FileRequest → Except TransferError (Nat × List UInt8)
  | [] => .ok (received, input)
  | request :: rest => do
      let (_, received, input) ← receiveFile request received input
      receiveFiles received input rest

/-- What `run_session_with_outcome` reads, in its order: four frames, an answer for each request
that this side sent, and the end. -/
def readSession (requests : List FileRequest) (input : List UInt8) : Except TransferError Nat := do
  let (_, received, input) ← readExpected .hello 0 input
  let (_, received, input) ← readExpected .roster received input
  let (_, received, input) ← readExpected .manifests received input
  let (_, received, input) ← readExpected .requests received input
  let (received, input) ← receiveFiles received input requests
  let (done, received, _) ← readExpected .done received input
  if done ≠ [] then throw .unexpectedState else return received

end

end Skillsync
