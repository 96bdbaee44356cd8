import Skillsync.Framing
import Skillsync.JoinApprovalSpec
import Skillsync.JoinRuns

set_option autoImplicit false

namespace Skillsync

open Framing

structure JoinRequest where
  nonce : Bytes32
  deviceName : String
  endpointAddrJson : String
deriving DecidableEq

structure JoinAck where
  accepted : Bool
deriving DecidableEq

/-- The messages of a joiner in `serde_json`. -/
class JoinerMessages where
  requestToVec : JoinRequest → Option (List UInt8)
  requestFromSlice : List UInt8 → Option JoinRequest
  ackToVec : JoinAck → Option (List UInt8)
  ackFromSlice : List UInt8 → Option JoinAck

/-- A request that was written is read again. -/
def RequestsRoundTrip [JoinerMessages] : Prop :=
  ∀ request bytes, JoinerMessages.requestToVec request = some bytes →
    JoinerMessages.requestFromSlice bytes = some request

def joinRequestLimit : Nat := 32 * 1024

/-- The length of a JSON text, in front of it. -/
def lengthHeader : Header UInt8 where
  width := 4
  bound := 256 ^ 4
  write := bigEndian 4
  read := fromBigEndian
  width_pos := by omega
  length_write := length_bigEndian 4
  read_write := fun length told => by rw [fromBigEndian_bigEndian, Nat.mod_eq_of_lt told]

/-- `write_json` of the text of a message. -/
def writeText (text : Option (List UInt8)) (limit : Nat) : Except JoinError (List UInt8) :=
  match text with
  | none => .error .invalidFrame
  | some bytes =>
      if limit < bytes.length then .error .frameTooLarge
      else if 2 ^ 32 ≤ bytes.length then .error .frameTooLarge
      else .ok (lengthHeader.frame bytes)

theorem writeJson_eq [JoinEncodings] (response : JoinResponse) (limit : Nat) :
    writeJson response limit = writeText (JoinEncodings.toVec response) limit := rfl

/-- How a stream ended for its reader. A stream whose writer is gone may look finished. -/
inductive StreamEnd
  | none
  | finished
  | reset
  | dropped
deriving DecidableEq

/-- One direction of a connection: what was written and not read yet, and its end. -/
structure JoinStream where
  unread : List UInt8
  ending : StreamEnd
deriving DecidableEq

namespace JoinStream

def fresh : JoinStream := ⟨[], .none⟩

def write (stream : JoinStream) (bytes : List UInt8) : JoinStream :=
  { stream with unread := stream.unread ++ bytes }

/-- Only the first end of a stream counts. -/
def close (stream : JoinStream) (ending : StreamEnd) : JoinStream :=
  match stream.ending with
  | .none => { stream with ending := ending }
  | _ => stream

/-- `read_json`, when a whole message is there or it is seen to be too long. -/
def readMessage {Message : Type} (fromSlice : List UInt8 → Option Message) (limit : Nat)
    (stream : JoinStream) : Option (Except JoinError (Message × JoinStream)) :=
  match lengthHeader.find limit stream.unread with
  | .waiting => none
  | .tooLong => some (.error .frameTooLarge)
  | .whole body rest =>
      match fromSlice body with
      | none => some (.error .invalidFrame)
      | some message => some (.ok (message, { stream with unread := rest }))

/-- `expect_stream_end`, when there is a byte or the stream ended. -/
def expectStreamEnd (stream : JoinStream) : Option (Except JoinError Unit) :=
  if stream.unread ≠ [] then some (.error .invalidFrame)
  else
    match stream.ending with
    | .none => none
    | .reset => some (.error .transport)
    | .finished => some (.ok ())
    | .dropped => some (.ok ())

end JoinStream

/-- Where a joiner is in `run_joiner_on_endpoint`. -/
inductive JoinerPhase
  | connected
  | waiting
  /-- The response is a rejection. -/
  | refused
  /-- The roster is installed. -/
  | confirming
  /-- The acknowledgement is sent. -/
  | closing
  | returned (result : Except JoinError EndpointId)
deriving DecidableEq

/-- Where the connection is in `run_inviter`. -/
inductive InviterPhase
  | accepting
  | deciding (channel : Nat) (requestId : String)
  | answering (decision : JoinDecision)
  | confirming
  /-- The acknowledgement was read. -/
  | closing
  | returned (result : Except JoinError EndpointId)
  /-- The network thread stopped its tasks. -/
  | aborted
deriving DecidableEq

/-- A connection of a device to the inviter. The channel that its claim got, the decision that
came through it and the roster that was installed are kept for the statements about it. -/
structure Attempt where
  endpoint : EndpointId
  request : JoinRequest
  joiner : JoinerPhase
  inviter : InviterPhase
  up : JoinStream
  down : JoinStream
  channel : Option Nat
  decision : Option JoinDecision
  installed : Option (List RosterRevision)
deriving DecidableEq

namespace Attempt

def start (endpoint : EndpointId) (request : JoinRequest) : Attempt :=
  ⟨endpoint, request, .connected, .accepting, .fresh, .fresh, none, none, none⟩

/-- The joiner returns an error, and its end of the connection goes. -/
def joinerFails (attempt : Attempt) (reason : JoinError) : Attempt :=
  { attempt with
    joiner := .returned (.error reason)
    up := attempt.up.close .dropped }

/-- `run_inviter` returns an error. -/
def inviterFails (attempt : Attempt) (reason : JoinError) (ending : StreamEnd) : Attempt :=
  { attempt with
    inviter := .returned (.error reason)
    down := attempt.down.close ending }

section
variable [JoinerMessages]

/-- The request is written whole, or cut when the connection fails. -/
def ask (attempt : Attempt) (cut : Option Nat) : Option Attempt :=
  if attempt.joiner ≠ .connected then none
  else
    match writeText (JoinerMessages.requestToVec attempt.request) joinRequestLimit, cut with
    | .error reason, _ => some (attempt.joinerFails reason)
    | .ok bytes, none =>
        some { attempt with
          joiner := .waiting
          up := attempt.up.write bytes }
    | .ok bytes, some count =>
        if count < bytes.length then
          some ({ attempt with up := attempt.up.write (bytes.take count) }.joinerFails .transport)
        else none

/-- The acknowledgement is written whole and the stream finished, or it is cut. -/
def confirm (attempt : Attempt) (cut : Option Nat) : Option Attempt :=
  if attempt.joiner ≠ .confirming then none
  else
    match writeText (JoinerMessages.ackToVec ⟨true⟩) joinRequestLimit, cut with
    | .error reason, _ => some (attempt.joinerFails reason)
    | .ok bytes, none =>
        some { attempt with
          joiner := .closing
          up := (attempt.up.write bytes).close .finished }
    | .ok bytes, some count =>
        if count < bytes.length then
          some ({ attempt with up := attempt.up.write (bytes.take count) }.joinerFails .transport)
        else none

end

section
variable [JoinEncodings] [AddrJson] [Blake3] [Ed25519]

/-- The response is read and checked, and its roster installed. -/
def hear (attempt : Attempt) (inviter : EndpointId) (store : RosterStore) :
    Option (Attempt × RosterStore) :=
  if attempt.joiner ≠ .waiting then none
  else
    match attempt.down.readMessage JoinEncodings.fromSlice joinResponseLimit with
    | none => none
    | some (.error reason) => some (attempt.joinerFails reason, store)
    | some (.ok (response, down)) =>
        let heard := { attempt with down := down }
        if response.approved = false then some ({ heard with joiner := .refused }, store)
        else
          match RosterStore.checkResponse response attempt.endpoint inviter
              attempt.request.deviceName with
          | .error reason => some (heard.joinerFails reason, store)
          | .ok (roster, validatedHints) =>
              match store.installOrResumeJoinedState roster attempt.endpoint
                  attempt.request.deviceName validatedHints with
              | (store, .error reason) => some (heard.joinerFails (.state reason), store)
              | (store, .ok ()) =>
                  some ({ heard with
                    joiner := .confirming
                    installed := some roster }, store)

end

/-- The joiner sees the end of the response. -/
def conclude (attempt : Attempt) (inviter : EndpointId) : Option Attempt :=
  match attempt.joiner, attempt.down.expectStreamEnd with
  | .refused, some (.ok ()) => some (attempt.joinerFails .rejected)
  | .refused, some (.error reason) => some (attempt.joinerFails reason)
  | .closing, some (.ok ()) => some { attempt with joiner := .returned (.ok inviter) }
  | .closing, some (.error reason) => some (attempt.joinerFails reason)
  | _, _ => none

/-- A read or a write of the joiner fails or times out. -/
def joinerLost (attempt : Attempt) : Option Attempt :=
  match attempt.joiner with
  | .returned _ => none
  | _ => some (attempt.joinerFails .transport)

/-- The response is written. A rejection ends the stream, an approval waits to be confirmed. -/
def answer [JoinEncodings] (attempt : Attempt) (cut : Option Nat) : Option Attempt :=
  match attempt.inviter with
  | .answering decision =>
      match writeText (JoinEncodings.toVec decision.response) joinResponseLimit, cut with
      | .error reason, _ => some (attempt.inviterFails reason .dropped)
      | .ok bytes, none =>
          let answered := { attempt with down := attempt.down.write bytes }
          if decision.response.approved = false then
            some (answered.inviterFails .rejected .finished)
          else some { answered with inviter := .confirming }
      | .ok bytes, some count =>
          if count < bytes.length then
            some ({ attempt with down := attempt.down.write (bytes.take count) }.inviterFails
              .transport .dropped)
          else none
  | _ => none

/-- The acknowledgement is read. An error after the response resets the stream. -/
def acknowledge [JoinerMessages] (attempt : Attempt) : Option Attempt :=
  if attempt.inviter ≠ .confirming then none
  else
    match attempt.up.readMessage JoinerMessages.ackFromSlice joinRequestLimit with
    | none => none
    | some (.error reason) => some (attempt.inviterFails reason .reset)
    | some (.ok (ack, up)) =>
        let heard := { attempt with up := up }
        if ack.accepted = false then some (heard.inviterFails .invalidFrame .reset)
        else some { heard with inviter := .closing }

/-- The end of the joiner's stream is seen, and the response finished. -/
def finish (attempt : Attempt) : Option Attempt :=
  if attempt.inviter ≠ .closing then none
  else
    match attempt.up.expectStreamEnd with
    | none => none
    | some (.error reason) => some (attempt.inviterFails reason .reset)
    | some (.ok ()) =>
        some { attempt with
          inviter := .returned (.ok attempt.endpoint)
          down := attempt.down.close .finished }

/-- A read or a write of `run_inviter` fails or times out. -/
def inviterLost (attempt : Attempt) : Option Attempt :=
  match attempt.inviter with
  | .accepting => some (attempt.inviterFails .transport .dropped)
  | .confirming => some (attempt.inviterFails .transport .reset)
  | .closing => some (attempt.inviterFails .transport .reset)
  | _ => none

def abort (attempt : Attempt) : Option Attempt :=
  match attempt.inviter with
  | .returned _ => none
  | .aborted => none
  | _ => some { attempt with inviter := .aborted, down := attempt.down.close .dropped }

end Attempt

/-- Where the control thread is in `decide_join` with an approval. -/
inductive ControlPhase
  | idle
  | addressed (info : PendingJoinInfo) (joinerAddr : String)
  | built (requestId : String) (decision : JoinDecision)
  /-- There is no approval, so that the request is rejected. -/
  | refusing (requestId : String)
deriving DecidableEq

structure JoinNetwork where
  stores : EndpointId → RosterStore
  history : JoinHistory
  control : ControlPhase
  attempts : List Attempt

inductive JoinerAction
  | ask (cut : Option Nat)
  | hear
  | confirm (cut : Option Nat)
  | conclude
  | lose
deriving DecidableEq

inductive InviterAction
  | receive (requestId : String) (now later : Nat)
  /-- The decision arrives. -/
  | decide
  /-- The wait for the decision ends, by the deadline or because the connection closed. -/
  | expire (now : Nat)
  | close (now : Nat)
  /-- The coordinator dropped the sender of the decision. -/
  | forget
  | answer (cut : Option Nat)
  | acknowledge
  | finish
  | lose
  /-- The network thread stops the task. -/
  | abort (now : Nat)
deriving DecidableEq

/-- One step of an end of a join, of the coordinator or of the inviter's control thread. -/
inductive JoinLabel
  | activate (nonce : Bytes32) (lifetime now later : Nat)
  | pending (now : Nat)
  | reject (requestId : String) (now : Nat)
  /-- The three steps of `decide_join` with an approval. -/
  | address (requestId : String) (now : Nat)
  | build (localAddrJson : String)
  | settle (now : Nat)
  /-- The address, the identity or the database of the inviter cannot be loaded. -/
  | abandon
  /-- Another thread of a device changes its roster. -/
  | change (device : EndpointId) (operation : RosterOperation)
  | connect (endpoint : EndpointId) (request : JoinRequest)
  | joiner (index : Nat) (action : JoinerAction)
  | inviter (index : Nat) (action : InviterAction)

namespace JoinNetwork

def start (stores : EndpointId → RosterStore) : JoinNetwork := ⟨stores, .start, .idle, []⟩

def setStore (network : JoinNetwork) (device : EndpointId) (store : RosterStore) : JoinNetwork :=
  { network with stores := Function.update network.stores device store }

def setAttempt (network : JoinNetwork) (index : Nat) (attempt : Attempt) : JoinNetwork :=
  { network with attempts := network.attempts.set index attempt }

section
variable [AddrJson]

/-- A call of the coordinator, and its reply. -/
def call (network : JoinNetwork) (call : JoinCall) (now later : Nat) :
    Option (JoinNetwork × JoinReply) :=
  (network.history.step ⟨call, now, later⟩).map fun history =>
    ({ network with history := history },
      (network.history.coordinator.perform call now later).2)

/-- The request is read, and the invitation claimed for it. -/
def receive [JoinerMessages] (network : JoinNetwork) (index : Nat) (attempt : Attempt)
    (requestId : String) (now later : Nat) : Option JoinNetwork :=
  if attempt.inviter ≠ .accepting then none
  else
    match attempt.up.readMessage JoinerMessages.requestFromSlice joinRequestLimit with
    | none => none
    | some (.error reason) =>
        some (network.setAttempt index (attempt.inviterFails reason .dropped))
    | some (.ok (request, up)) =>
        let heard := { attempt with up := up }
        (network.call (.claim request.nonce attempt.endpoint request.deviceName
          request.endpointAddrJson requestId) now later).map fun (network, reply) =>
            match reply with
            | .claimed channel _ =>
                network.setAttempt index { heard with
                  inviter := .deciding channel requestId
                  channel := some channel }
            | .failed reason => network.setAttempt index (heard.inviterFails reason .dropped)
            | _ => network

/-- A request without a decision is cancelled, and its receiver goes. -/
def giveUp (network : JoinNetwork) (index : Nat) (attempt : Attempt) (channel : Nat)
    (requestId : String) (now : Nat) (reason : JoinError) : Option JoinNetwork :=
  (network.call (.cancel requestId) now now).bind fun (network, _) =>
    (network.call (.leave channel) now now).map fun (network, _) =>
      network.setAttempt index (attempt.inviterFails reason .dropped)

/-- `run_inviter` waits for the decision. -/
def awaitDecision (network : JoinNetwork) (index : Nat) (attempt : Attempt) :
    InviterAction → Option JoinNetwork
  | .decide =>
      match attempt.inviter with
      | .deciding channel _ =>
          (network.history.coordinator.received channel).head?.map fun decision =>
            network.setAttempt index { attempt with
              inviter := .answering decision
              decision := some decision }
      | _ => none
  | .expire now =>
      match attempt.inviter with
      | .deciding channel requestId =>
          network.giveUp index attempt channel requestId now .invitationUnavailable
      | _ => none
  | .close now =>
      match attempt.inviter with
      | .deciding channel requestId =>
          network.giveUp index attempt channel requestId now .joinerGone
      | _ => none
  | .forget =>
      match attempt.inviter with
      | .deciding channel _ =>
          if network.history.coordinator.received channel = [] then
            some (network.setAttempt index (attempt.inviterFails .joinerGone .dropped))
          else none
      | _ => none
  | _ => none

/-- A task that is stopped drops the receiver that it waits on. -/
def abort (network : JoinNetwork) (index : Nat) (attempt : Attempt) (now : Nat) :
    Option JoinNetwork :=
  attempt.abort.bind fun stopped =>
    match attempt.inviter with
    | .deciding channel _ =>
        (network.call (.leave channel) now now).map fun (network, _) =>
          network.setAttempt index stopped
    | _ => some (network.setAttempt index stopped)

section
variable [JoinEncodings] [JoinerMessages] [Blake3] [Ed25519]

def joinerStep (network : JoinNetwork) (inviter : EndpointId) (index : Nat) (attempt : Attempt) :
    JoinerAction → Option JoinNetwork
  | .ask cut => (attempt.ask cut).map (network.setAttempt index)
  | .hear =>
      (attempt.hear inviter (network.stores attempt.endpoint)).map fun (heard, store) =>
        (network.setStore attempt.endpoint store).setAttempt index heard
  | .confirm cut => (attempt.confirm cut).map (network.setAttempt index)
  | .conclude => (attempt.conclude inviter).map (network.setAttempt index)
  | .lose => attempt.joinerLost.map (network.setAttempt index)

omit [Blake3] [Ed25519] in
def inviterStep (network : JoinNetwork) (index : Nat) (attempt : Attempt) :
    InviterAction → Option JoinNetwork
  | .receive requestId now later => network.receive index attempt requestId now later
  | .answer cut => (attempt.answer cut).map (network.setAttempt index)
  | .acknowledge => attempt.acknowledge.map (network.setAttempt index)
  | .finish => attempt.finish.map (network.setAttempt index)
  | .lose => attempt.inviterLost.map (network.setAttempt index)
  | .abort now => network.abort index attempt now
  | action => network.awaitDecision index attempt action

/-- `build_join_approval` asks the coordinator for the request. -/
def address (network : JoinNetwork) (requestId : String) (now : Nat) : Option JoinNetwork :=
  if network.control ≠ .idle then none
  else
    (network.call (.pendingAddr requestId) now now).map fun (network, reply) =>
      match reply with
      | .address info endpointAddrJson =>
          { network with control := .addressed info endpointAddrJson }
      | _ => { network with control := .refusing requestId }

/-- `build_join_approval_in` of the inviter. -/
def build (network : JoinNetwork) (identity : DeviceIdentity) (localAddrJson : String) :
    Option JoinNetwork :=
  match network.control with
  | .addressed info joinerAddr =>
      match (network.stores identity.endpointId).buildJoinApproval identity localAddrJson info
          joinerAddr with
      | (store, .ok decision) =>
          some { network.setStore identity.endpointId store with
            control := .built info.requestId decision }
      | (store, .error _) =>
          some { network.setStore identity.endpointId store with
            control := .refusing info.requestId }
  | _ => none

omit [AddrJson] [JoinEncodings] [JoinerMessages] [Blake3] [Ed25519] in
/-- `build_join_approval` fails before it reads the roster. -/
def abandon (network : JoinNetwork) : Option JoinNetwork :=
  match network.control with
  | .addressed info _ => some { network with control := .refusing info.requestId }
  | _ => none

omit [JoinEncodings] [JoinerMessages] [Blake3] [Ed25519] in
/-- `decide_join` passes its decision on. -/
def settle (network : JoinNetwork) (now : Nat) : Option JoinNetwork :=
  match network.control with
  | .built requestId decision =>
      (network.call (.decide requestId decision) now now).map fun (network, _) =>
        { network with control := .idle }
  | .refusing requestId =>
      (network.call (.decide requestId .rejected) now now).map fun (network, _) =>
        { network with control := .idle }
  | _ => none

/-- One step of a network around an inviter. -/
def step (identity : DeviceIdentity) (network : JoinNetwork) : JoinLabel → Option JoinNetwork
  | .activate nonce lifetime now later =>
      (network.call (.activate nonce lifetime) now later).map Prod.fst
  | .pending now => (network.call .pending now now).map Prod.fst
  | .reject requestId now => (network.call (.decide requestId .rejected) now now).map Prod.fst
  | .address requestId now => network.address requestId now
  | .build localAddrJson => network.build identity localAddrJson
  | .settle now => network.settle now
  | .abandon => network.abandon
  | .change device operation =>
      some (network.setStore device (operation.perform (network.stores device)))
  | .connect endpoint request =>
      if validateJoinDeviceName request.deviceName = .ok () then
        some { network with attempts := network.attempts ++ [.start endpoint request] }
      else none
  | .joiner index action =>
      network.attempts[index]?.bind fun attempt =>
        network.joinerStep identity.endpointId index attempt action
  | .inviter index action =>
      network.attempts[index]?.bind fun attempt => network.inviterStep index attempt action

end

end

end JoinNetwork

end Skillsync
