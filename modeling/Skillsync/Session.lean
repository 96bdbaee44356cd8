import Skillsync.Effects
import Skillsync.RosterReplay
import Skillsync.Transfers

set_option autoImplicit false

namespace Skillsync

open Effects

/-- `ConnectionSide` -/
inductive ConnectionSide
  | dialer
  | acceptor
deriving DecidableEq

/-- What a side has put on its stream; an answer comes with the disk that it was taken from. -/
inductive Sent
  | frame (tag : FrameTag) (payload : List UInt8)
  | answer (request : FileRequest) (disk : Disk) (content : Answer)

/-- The tables and files of a device in a session, and its connection: the bytes that it has not
read, and, for the reader of the model, what it has sent and the frames that it has taken. -/
structure SessionState where
  roster : RosterStore
  store : StateStore
  disk : Disk
  input : List UInt8
  received : Nat
  sent : List Sent
  taken : List Frame

/-- The errors of a session: the variants of `SyncError`. -/
inductive SessionError
  | missingRoster
  | unauthorizedPeer
  | hintAddressLimit
  | unexpectedState
  | io
  | roster (source : RosterSessionError)
  | protocol (source : ProtocolError)
  | sync (source : SyncError)
  | transfer (source : TransferError)

/-- What a sender finds for a request: the answers of the filesystem, the time, and the bytes that
it reads while it sends. -/
structure Serving where
  environment : VerifyEnvironment
  now : I64
  content : List UInt8

/-- What a receiver finds for a request: whether the staging file is created, takes the bytes as
they come, is flushed and synchronized, and is read from its start again, the answers of the
filesystem to the installation, and the time. -/
structure Receiving where
  staged : Bool
  written : Bool
  flushed : Bool
  rewound : Bool
  environment : InstallEnvironment
  now : I64

/-- What a session is given, and what it finds outside the tables. -/
structure SessionContext where
  config : SessionConfig
  localAddr : EndpointAddr
  /-- `serde_json::to_string(&config.local_addr)` -/
  localAddrJson : String
  remoteEndpoint : EndpointId
  /-- `load_identity_from_data_dir` -/
  loaded : Option DeviceIdentity
  now : I64
  removal : Record → RemovalEnvironment
  serving : FileRequest → Serving
  receiving : FileRequest → Receiving

abbrev SessionM := Effect SessionState SessionError

namespace SessionM

/-- A transaction on the tables; an error leaves them as they are. -/
def transact (transaction : StateStore → Except SessionError StateStore) : SessionM Unit where
  run state :=
    match transaction state.store with
    | .ok store => (.ok (), { state with store := store })
    | .error reason => (.error reason, state)

/-- A transaction whose failure is not looked at. -/
def attempt (transaction : StateStore → Except StateError StateStore) : SessionM Unit :=
  change fun state => { state with store := (transaction state.store).toOption.getD state.store }

def send (item : Sent) : SessionM Unit :=
  change fun state => { state with sent := state.sent ++ [item] }

/-- The roster operations keep what they have written when they fail. -/
def onRoster {Value : Type} (operation : RosterStore → RosterStore × Except SessionError Value) :
    SessionM Value where
  run state :=
    match operation state.roster with
    | (roster, outcome) => (outcome, { state with roster := roster })

end SessionM

open SessionM

def protocolResult {Value : Type} (outcome : Except ProtocolError Value) : SessionM Value :=
  settle (outcome.mapError SessionError.protocol)

section
variable [Blake3] [Ed25519] [AddrJson] (context : SessionContext)

/-- `selected_roster_chain` with its last revision; the chain is in front. -/
def selectedWithTip (roster : RosterStore) :
    Except SessionError (List RosterRevision × RosterRevision) :=
  match roster.selectedRosterChain with
  | .error reason => .error (.roster (.state reason))
  | .ok chain =>
      match chain.getLast? with
      | none => .error .missingRoster
      | some tip => .ok (chain, tip)

/-- `authorize_local_roster` -/
def authorizeLocalRoster : SessionM Unit := do
  let state ← readState
  let (_, tip) ← settle (selectedWithTip state.roster)
  require ((tip.members[context.config.localEndpoint]?).isSome ∧
    (tip.members[context.remoteEndpoint]?).isSome) .unauthorizedPeer

/-- `local_session_state` -/
def localSessionState : SessionM (List RosterRevision × List String) := do
  let state ← readState
  let chain ← settle
    (state.roster.selectedRosterChain.mapError fun reason => .roster (.state reason))
  return (chain, state.store.collections.toList.map Prod.fst)

/-- `read_expected` -/
def takeFrame (tag : FrameTag) : SessionM (List UInt8) := do
  let state ← readState
  let (payload, received, input) ←
    settle ((readExpected tag state.received state.input).mapError SessionError.transfer)
  change fun state => { state with
    received := received
    input := input
    taken := state.taken ++ [(tag, payload)] }
  return payload

/-- `exchange_frame`: both at once in the source; the frame that is sent does not depend on the one
that is read. -/
def exchangeFrame (tag : FrameTag) (payload : List UInt8) : SessionM (List UInt8) := do
  let _ ← protocolResult (encodeFrame tag payload)
  send (.frame tag payload)
  takeFrame tag

/-- `accept_remote_roster_and_hint` -/
def acceptRoster (genesis : RosterRevision) (revisions : List RosterRevision) (hint : String) :
    SessionM Bool :=
  onRoster fun roster =>
    match roster.acceptRemoteRosterAndHint revisions genesis.canonicalHash
        context.config.localEndpoint context.remoteEndpoint hint context.loaded with
    | (roster, outcome) => (roster, outcome.mapError SessionError.roster)

def appendSessionLog (now : I64) (event : OperationalEvent) : SessionM Unit :=
  transact fun store => (store.appendLog now event context.config.maxLogs).mapError fun reason =>
    .sync (.state reason)

/-- The removal of the file of a winning tombstone. -/
def removeForWinner (collection : String) (candidate : Record) : SessionM Unit := do
  let state ← readState
  if state.store.record ⟨collection, candidate.path⟩ = some candidate ∧
      candidate.kind = .tombstone ∧
      (state.store.recordState ⟨collection, candidate.path⟩).any fun item => !item.materialized then
    match materializeTombstone state.store state.disk candidate (context.removal candidate)
        context.now context.config.maxLogs with
    | (outcome, store, disk) =>
        change fun state => { state with store := store, disk := disk }
        if outcome.isOk then return ()
        else appendSessionLog context context.now (.repairRequired collection candidate.path)

/-- The body of the first loop. -/
def mergeOne (collection : String) (candidate : Record) : SessionM Unit := do
  if context.now.saturatingAdd context.config.maxFutureClockSkew < candidate.modifiedNs then
    appendSessionLog context context.now
      (.collectionWarning collection (some candidate.path) .timestampRejected)
  else
    transact fun store =>
      if store.record ⟨collection, candidate.path⟩ = some candidate then .ok store
      else ((store.mergeRecord candidate context.now (some context.remoteEndpoint)
        context.config.maxLogs).map Prod.fst).mapError fun reason => .sync (.state reason)
    removeForWinner context collection candidate

/-- One manifest of the first loop. -/
def mergeOffered (manifest : String × Manifest) : SessionM Unit := do
  let state ← readState
  require ((state.store.collections[manifest.1]?).isSome = true) (.sync .wrongCollections)
  manifest.2.records.forM (mergeOne context manifest.1)

/-- `merge_remote_manifests`, which keeps what it has written when it fails. -/
def mergeManifests (shared : List String) (bundle : ManifestBundle) :
    SessionM (List FileRequest) := do
  require ((bundle.manifests.map Prod.fst).toFinset = shared.toFinset) (.sync .wrongCollections)
  bundle.manifests.forM (mergeOffered context)
  let state ← readState
  return selectRequests state.store 0 0 (neededRequests state.store
    (context.now.saturatingAdd context.config.maxFutureClockSkew) bundle)

/-- Whether the bytes of an answer have left when its computation failed: those of a file have. -/
def Answer.isFile : Answer → Bool
  | .file _ _ _ => true
  | _ => false

/-- The body of the loop of `send_files`; `sent` are the bytes of the files before. -/
def serveRequest (sent : Nat) (request : FileRequest) : SessionM Nat := do
  let state ← readState
  let serving := context.serving request
  match sendFile context.config context.remoteEndpoint
      ⟨id, state.disk, serving.environment, serving.now, serving.content⟩ state.store
        sent request with
  | (answer, .ok (store, total)) => do
      change fun state => { state with store := store }
      send (.answer request state.disk answer)
      return total
  | (answer, .error reason) => do
      if answer.isFile then send (.answer request state.disk answer)
      fail (.transfer reason)

/-- The loop of `send_files`. -/
def serveRequests (sent : Nat) : List FileRequest → SessionM Unit
  | [] => return ()
  | request :: rest => do
      let total ← serveRequest context sent request
      serveRequests total rest

/-- `send_files` -/
def serveFiles (shared : List String) (requests : List FileRequest) : SessionM Unit := do
  require (∀ request ∈ requests, request.collection ∈ shared) (.sync .wrongCollections)
  serveRequests context 0 requests

/-- `log_unavailable`, for a request of this side. -/
def logMissing (request : FileRequest) : SessionM Unit :=
  transact fun store => (logUnavailable context.config context.remoteEndpoint
    (context.receiving request).now store request false).mapError SessionError.sync

/-- The failure of a transfer. The raw bytes go to a staging file, and their failure is logged; a
write that fails comes before the bytes end. -/
def rejectTransfer (request : FileRequest) (reason : TransferError) : SessionM Unit := do
  if reason = .interruptedFile ∨ reason = .corruptFile then
    require ((context.receiving request).staged = true) .io
    logMissing context request
    require ((context.receiving request).written = true) .io
  fail (.transfer reason)

/-- The log entry for the outcome of `apply_file_fixture`. -/
def logInstall (request : FileRequest) (record : Record) :
    Except InstallError InstalledFile → SessionM Unit
  | .ok _ => appendSessionLog context (context.receiving request).now
      (.fileReceived request.collection record.path context.remoteEndpoint)
  | .error .unstableRoot => attempt fun store =>
      store.appendLog (context.receiving request).now
        (.fileApplyRejected request.collection record.path) context.config.maxLogs
  | .error (.postRenameState _ _) => attempt fun store =>
      store.appendLog (context.receiving request).now
        (.fileApplyRejected request.collection record.path) context.config.maxLogs
  | .error _ => return ()

/-- The installation of the bytes of a file. -/
def installReceived (request : FileRequest) (record : Record) (content : List UInt8) :
    SessionM Unit := do
  let state ← readState
  match applyFileFixture state.store state.disk record content
      (context.receiving request).environment (context.receiving request).now
      context.config.maxLogs with
  | (outcome, store, disk) => do
      change fun state => { state with store := store, disk := disk }
      logInstall context request record outcome

/-- The body of the loop of `receive_files`. -/
def receiveRequested (request : FileRequest) : SessionM Unit := do
  let state ← readState
  match receiveFile request state.received state.input with
  | .error reason => rejectTransfer context request reason
  | .ok (found, received, input) => do
      change fun state => { state with received := received, input := input }
      match found with
      | none => logMissing context request
      | some (record, content) => do
          require ((context.receiving request).staged = true) .io
          if (context.receiving request).written && (context.receiving request).flushed then
            require ((context.receiving request).rewound = true) .io
            if (request.key.bind state.store.record) ≠ some record ∨
                (state.store.collections[request.collection]?).isNone then
              logMissing context request
            else installReceived context request record content
          else
            logMissing context request
            fail .io

/-- `receive_files` -/
def receiveRequests (requests : List FileRequest) : SessionM Unit :=
  requests.forM (receiveRequested context)

/-- The order of the transfers: `asked` are the requests of the peer. -/
def transferFiles (side : ConnectionSide) (shared : List String)
    (asked requests : List FileRequest) : SessionM Unit :=
  match side with
  | .dialer => do
      serveFiles context shared asked
      receiveRequests context requests
  | .acceptor => do
      receiveRequests context requests
      serveFiles context shared asked

/-- What `run_session_with_outcome` does after the rosters are exchanged: `shared` are the
collections of both sides. -/
def exchangeFiles (side : ConnectionSide) (shared : List String) : SessionM Unit := do
  let state ← readState
  let offered ← settle ((buildManifests state.store shared).mapError SessionError.sync)
  let manifests ← protocolResult offered.encode
  let answered ← exchangeFrame .manifests manifests
  let bundle ← protocolResult (ManifestBundle.decode answered)
  let requests ← mergeManifests context shared bundle
  let asked ← protocolResult (RequestBundle.mk requests).encode
  let answered ← exchangeFrame .requests asked
  let remote ← protocolResult (RequestBundle.decode answered)
  transferFiles context side shared remote.requests requests
  let done ← exchangeFrame .done []
  require (done = []) .unexpectedState
  let state ← readState
  require (state.input = []) .unexpectedState

/-- `run_session_with_outcome` up to the end of the streams. -/
def runSession (side : ConnectionSide) : SessionM Bool := do
  authorizeLocalRoster context
  let (chain, collections) ← localSessionState
  let genesis ← settle (chain.head?.elim (.error .missingRoster) .ok)
  require (context.localAddr.addrs ≤ maxEndpointAddrs) .hintAddressLimit
  let hello ← protocolResult (Hello.mk collections context.localAddrJson).encode
  let answered ← exchangeFrame .hello hello
  let remote ← protocolResult (Hello.decode answered)
  let roster ← protocolResult (RosterBundle.mk chain).encode
  let answered ← exchangeFrame .roster roster
  let bundle ← protocolResult (RosterBundle.decode answered)
  let changed ← acceptRoster context genesis bundle.revisions remote.endpointAddrJson
  exchangeFiles context side (collections.filter fun name => decide (name ∈ remote.collections))
  return changed

end

end Skillsync
