import Skillsync.Protocol
import Skillsync.RosterStore

set_option autoImplicit false

namespace Skillsync

open Fallible

/-- `FrameTag`. -/
inductive FrameTag
  | hello
  | roster
  | manifests
  | requests
  | file
  | done
  | fileUnavailable
deriving DecidableEq

namespace FrameTag

/-- The discriminant of a tag. -/
def byte : FrameTag → UInt8
  | hello => 1
  | roster => 2
  | manifests => 3
  | requests => 4
  | file => 5
  | done => 6
  | fileUnavailable => 7

def fromByte (value : UInt8) : Except ProtocolError FrameTag :=
  if value = 1 then .ok hello
  else if value = 2 then .ok roster
  else if value = 3 then .ok manifests
  else if value = 4 then .ok requests
  else if value = 5 then .ok file
  else if value = 6 then .ok done
  else if value = 7 then .ok fileUnavailable
  else .error .unknownFrameType

def payloadLimit : FrameTag → Nat
  | hello => 64 * 1024
  | roster => maxRosterBytes
  | manifests => maxManifestBytes
  | requests => maxFrameBytes
  | file => 64 * 1024
  | done => 0
  | fileUnavailable => 0

end FrameTag

/-- A frame as `decode_frame` returns it. -/
abbrev Frame := FrameTag × List UInt8

def headerBytes : Nat := 5

def encodeFrame (tag : FrameTag) (payload : List UInt8) : Except ProtocolError (List UInt8) :=
  if tag.payloadLimit < payload.length ∨ maxFrameBytes < payload.length then .error .frameLimit
  else if 2 ^ 32 ≤ payload.length then .error .frameLimit
  else .ok (tag.byte :: (Encoder.u32 payload.length ++ payload))

/-- `decode_header` of five bytes. -/
def decodeHeader (header : List UInt8) : Except ProtocolError (FrameTag × Nat) := do
  let tag ← FrameTag.fromByte (header.headD 0)
  let length := fromBigEndian (header.drop 1)
  if maxFrameBytes < length ∨ tag.payloadLimit < length then throw .frameLimit
  else return (tag, length)

/-- What a read leaves in the reader, and its result. -/
abbrev ReadOutcome (α : Type) := List UInt8 × Except ProtocolError α

/-- `read_exact`; a reader that ends too early is at its end. -/
def readExact (length : Nat) (input : List UInt8) : ReadOutcome (List UInt8) :=
  if length ≤ input.length then (input.drop length, .ok (input.take length))
  else ([], .error .truncated)

def decodeFrame (input : List UInt8) : ReadOutcome Frame :=
  match readExact headerBytes input with
  | (rest, .error reason) => (rest, .error reason)
  | (rest, .ok header) =>
      match decodeHeader header with
      | .error reason => (rest, .error reason)
      | .ok (tag, length) =>
          match readExact length rest with
          | (left, .error reason) => (left, .error reason)
          | (left, .ok payload) => (left, .ok (tag, payload))

/-- `decode_frame`, the given number of times. -/
def decodeFrames : Nat → List UInt8 → ReadOutcome (List Frame)
  | 0, input => (input, .ok [])
  | count + 1, input =>
      match decodeFrame input with
      | (rest, .error reason) => (rest, .error reason)
      | (rest, .ok frame) =>
          match decodeFrames count rest with
          | (left, .error reason) => (left, .error reason)
          | (left, .ok others) => (left, .ok (frame :: others))

/-- `fixed::<32>`. -/
def WireReader.fixed32 (input : List UInt8) : Except ProtocolError (Bytes32 × List UInt8) :=
  if short : input.length < 32 then .error .truncated
  else .ok (⟨input.take 32, List.length_take_of_le (not_lt.mp short)⟩, input.drop 32)

structure RosterBundle where
  revisions : List RosterRevision
deriving DecidableEq

section
variable [Blake3] [Ed25519]

def validateRosterChain (revisions : List RosterRevision) : Except ProtocolError Unit :=
  match revisions with
  | [] => .error .invalidRoster
  | genesis :: _ => do
      genesis.validateGenesis.mapError .roster
      (validateLinks revisions).mapError .roster

end

namespace RosterBundle

/-- The loop of `encode`. -/
def encodeRevisions : List RosterRevision → Except ProtocolError (List UInt8)
  | [] => .ok []
  | revision :: rest => do
      if maxRosterMembers < revision.members.size then throw .rosterLimit
      else
        let canonical ← WireWriter.bytes revision.canonicalBytes
        let others ← encodeRevisions rest
        return canonical ++ others

def encode (bundle : RosterBundle) : Except ProtocolError (List UInt8) := do
  if bundle.revisions = [] ∨ maxRosterRevisions < bundle.revisions.length then throw .rosterLimit
  else
    let count ← WireWriter.count bundle.revisions.length
    let body ← encodeRevisions bundle.revisions
    if maxRosterBytes < (count ++ body).length then throw .rosterLimit
    else return count ++ body

/-- One iteration of the loop of `decode`. -/
def decodeRevision (bytes : List UInt8) :
    Except ProtocolError (RosterRevision × List UInt8) := do
  let (canonical, rest) ← WireReader.bytes maxRosterBytes bytes
  let revision ←
    (RosterRevision.fromCanonicalWithMemberLimit canonical maxRosterMembers).mapError .roster
  if maxRosterMembers < revision.members.size then throw .rosterLimit
  else return (revision, rest)

variable [Blake3] [Ed25519]

def decode (bytes : List UInt8) : Except ProtocolError RosterBundle := do
  if maxRosterBytes < bytes.length then throw .rosterLimit
  else
    let (count, rest) ← WireReader.count maxRosterRevisions bytes
    if count = 0 then throw .invalidRoster
    else
      let (revisions, rest) ← Codec.times decodeRevision count rest
      WireReader.finish rest
      validateRosterChain revisions
      return ⟨revisions⟩

end RosterBundle

def validateRequest (request : FileRequest) : Except ProtocolError Unit := do
  validateCollection request.collection
  if maxPathBytes < (utf8 request.path).length then throw .pathLimit
  else
    let _ ← (ProtocolPath.parse request.path).mapError .path
    return ()

structure RequestBundle where
  requests : List FileRequest
deriving DecidableEq

namespace RequestBundle

/-- The loop of `encode`; `previous` is the request before. -/
def encodeRequests (previous : Option FileRequest) :
    List FileRequest → Except ProtocolError (List UInt8)
  | [] => .ok []
  | request :: rest => do
      validateRequest request
      if previous.any fun item => decide (request ≤ item) then throw .unorderedRequests
      else
        let collection ← WireWriter.string request.collection
        let path ← WireWriter.string request.path
        let others ← encodeRequests (some request) rest
        return collection ++ (path ++ (request.recordHash.bytes ++ others))

def encode (bundle : RequestBundle) : Except ProtocolError (List UInt8) := do
  if maxTransfers < bundle.requests.length then throw .transferLimit
  else
    let count ← WireWriter.count bundle.requests.length
    let body ← encodeRequests none bundle.requests
    return count ++ body

/-- The fields of one request. -/
def decodeRequest (bytes : List UInt8) : Except ProtocolError (FileRequest × List UInt8) := do
  let (collection, rest) ← WireReader.string maxCollectionNameBytes bytes
  let (path, rest) ← WireReader.string maxPathBytes rest
  let (recordHash, rest) ← WireReader.fixed32 rest
  return (⟨collection, path, recordHash⟩, rest)

/-- The loop of `decode` with its count of the requests that are left. -/
def decodeRequests : Nat → Option FileRequest → List UInt8 →
    Except ProtocolError (List FileRequest × List UInt8)
  | 0, _, bytes => .ok ([], bytes)
  | count + 1, previous, bytes => do
      let (request, rest) ← decodeRequest bytes
      validateRequest request
      if previous.any fun item => decide (request ≤ item) then throw .unorderedRequests
      else
        let (others, rest) ← decodeRequests count (some request) rest
        return (request :: others, rest)

def decode (bytes : List UInt8) : Except ProtocolError RequestBundle := do
  let (count, rest) ← WireReader.count maxTransfers bytes
  let (requests, rest) ← decodeRequests count none rest
  WireReader.finish rest
  return ⟨requests⟩

end RequestBundle

def encodeFileHeader (record : Record) : Except ProtocolError (List UInt8) := do
  validateRecord record record.collection
  match record.kind with
  | .file size _ =>
      if size ≤ maxFileBytes then return record.canonicalBytes else throw .fileLimit
  | .tombstone => throw .unexpectedTombstone

def decodeFileHeader (bytes : List UInt8) : Except ProtocolError Record := do
  let record ← (Record.fromCanonical bytes).mapError .record
  validateRecord record record.collection
  match record.kind with
  | .file size _ => if size ≤ maxFileBytes then return record else throw .fileLimit
  | .tombstone => throw .unexpectedTombstone

end Skillsync
