import Skillsync.Manifest
import Skillsync.Roster

set_option autoImplicit false

namespace Skillsync

open Fallible

def maxFrameBytes : Nat := 8 * 1024 * 1024

def maxManifestBytes : Nat := 8 * 1024 * 1024

def maxManifestRecords : Nat := 10000

def maxRosterBytes : Nat := 2 * 1024 * 1024

def maxRosterRevisions : Nat := 1024

def maxRosterMembers : Nat := 1024

def maxCollections : Nat := 64

def maxCollectionNameBytes : Nat := 255

def maxPathBytes : Nat := 4096

def maxFileBytes : Nat := 64 * 1024 * 1024

def maxTransfers : Nat := 1024

def maxSessionFileBytes : Nat := 192 * 1024 * 1024

def maxAddressHintBytes : Nat := 16 * 1024

inductive ProtocolError
  | truncated
  | trailingBytes
  | unknownFrameType
  | frameLimit
  | countLimit
  | lengthOverflow
  | invalidUtf8
  | stringLimit
  | collectionLimit
  | unorderedCollections
  | duplicateCollection
  | manifestLimit
  | rosterLimit
  | invalidRoster
  | pathLimit
  | wrongCollection
  | fileLimit
  | transferLimit
  | unorderedRequests
  | unexpectedTombstone
  | addressHintTooLarge
  | record (source : RecordError)
  | roster (source : RosterError)
  | path (source : PathError)
  /-- An `expect` of `Manifest::canonical_bytes` failed. -/
  | panicked
deriving DecidableEq

namespace WireWriter

def count (value : Nat) : Except ProtocolError (List UInt8) :=
  if value < 2 ^ 32 then .ok (Encoder.u32 value) else .error .lengthOverflow

def bytes (value : List UInt8) : Except ProtocolError (List UInt8) := do
  let length ← count value.length
  return length ++ value

def string (value : String) : Except ProtocolError (List UInt8) := bytes (utf8 value)

end WireWriter

namespace WireReader

/-- A reader is the list of the bytes after its position. -/
def take (length : Nat) (input : List UInt8) :
    Except ProtocolError (List UInt8 × List UInt8) :=
  if length ≤ input.length then .ok (input.take length, input.drop length)
  else .error .truncated

def count (limit : Nat) (input : List UInt8) : Except ProtocolError (Nat × List UInt8) := do
  let (value, rest) ← take 4 input
  if limit < fromBigEndian value then throw .countLimit
  else return (fromBigEndian value, rest)

def bytes (limit : Nat) (input : List UInt8) :
    Except ProtocolError (List UInt8 × List UInt8) := do
  let (length, rest) ← count limit input
  take length rest

def string (limit : Nat) (input : List UInt8) : Except ProtocolError (String × List UInt8) := do
  let (value, rest) ← bytes limit input
  match fromUtf8 value with
  | some text => return (text, rest)
  | none => throw .invalidUtf8

def finish (input : List UInt8) : Except ProtocolError Unit :=
  if input = [] then .ok () else .error .trailingBytes

end WireReader

def validateShortString (value : String) (limit : Nat) : Except ProtocolError Unit :=
  if value = "" ∨ limit < (utf8 value).length then .error .stringLimit else .ok ()

def validateCollection (collection : String) : Except ProtocolError Unit :=
  validateShortString collection maxCollectionNameBytes

/-- The loop of `validate_collections`. -/
def validateOrdered (previous : Option String) : List String → Except ProtocolError Unit
  | [] => .ok ()
  | collection :: rest => do
      validateCollection collection
      if previous.any fun item => decide (collection ≤ item) then throw .unorderedCollections
      else validateOrdered (some collection) rest

def validateCollections (collections : List String) : Except ProtocolError Unit :=
  if maxCollections < collections.length then .error .collectionLimit
  else validateOrdered none collections

def validateRecord (record : Record) (collection : String) : Except ProtocolError Unit := do
  validateCollection collection
  if record.collection ≠ collection then throw .wrongCollection
  else if maxPathBytes < (utf8 record.path.text).length then throw .pathLimit
  else match record.kind with
    | .tombstone => return ()
    | .file size _ => if maxFileBytes < size then throw .fileLimit else return ()

structure Hello where
  collections : List String
  endpointAddrJson : String
deriving DecidableEq

namespace Hello

def encode (hello : Hello) : Except ProtocolError (List UInt8) := do
  validateCollections hello.collections
  if maxAddressHintBytes < (utf8 hello.endpointAddrJson).length then throw .addressHintTooLarge
  else
    let count ← WireWriter.count hello.collections.length
    let names ← hello.collections.mapM WireWriter.string
    let hint ← WireWriter.string hello.endpointAddrJson
    return count ++ (names.flatten ++ hint)

def decode (bytes : List UInt8) : Except ProtocolError Hello := do
  let (count, rest) ← WireReader.count maxCollections bytes
  let (collections, rest) ← Codec.times (WireReader.string maxCollectionNameBytes) count rest
  validateCollections collections
  let (endpointAddrJson, rest) ← WireReader.string maxAddressHintBytes rest
  WireReader.finish rest
  return ⟨collections, endpointAddrJson⟩

end Hello

/-- The manifests of the shared collections. -/
structure ManifestBundle where
  manifests : List (String × Manifest)
deriving DecidableEq

namespace ManifestBundle

/-- The loop of `encode`; `seen` and `records` are its accumulators. -/
def encodeManifests (seen : List String) (records : Nat) :
    List (String × Manifest) → Except ProtocolError (List UInt8)
  | [] => .ok []
  | (collection, manifest) :: rest => do
      validateCollection collection
      if collection ∈ seen then throw .duplicateCollection
      else if maxManifestRecords < records + manifest.records.length then throw .manifestLimit
      else
        manifest.records.forM fun record => validateRecord record collection
        let name ← WireWriter.string collection
        let canonical ←
          (match manifest.canonicalBytes with
          | some canonical => .ok canonical
          | none => .error .panicked)
        let body ← WireWriter.bytes canonical
        let others ←
          encodeManifests (collection :: seen) (records + manifest.records.length) rest
        return name ++ (body ++ others)

def encode (bundle : ManifestBundle) : Except ProtocolError (List UInt8) := do
  if maxCollections < bundle.manifests.length then throw .collectionLimit
  else
    let count ← WireWriter.count bundle.manifests.length
    let body ← encodeManifests [] 0 bundle.manifests
    if maxManifestBytes < (count ++ body).length then throw .manifestLimit
    else return count ++ body

/-- The loop of `decode` with its count of the manifests that are left. -/
def decodeManifests : Nat → List String → Nat → List UInt8 →
    Except ProtocolError (List (String × Manifest) × List UInt8)
  | 0, _, _, bytes => .ok ([], bytes)
  | count + 1, seen, records, bytes => do
      let (collection, rest) ← WireReader.string maxCollectionNameBytes bytes
      validateCollection collection
      if collection ∈ seen then throw .duplicateCollection
      else
        let (canonical, rest) ← WireReader.bytes maxManifestBytes rest
        let manifest ←
          (Manifest.fromCanonicalWithLimit canonical (maxManifestRecords - records)).mapError
            .record
        if maxManifestRecords < records + manifest.records.length then throw .manifestLimit
        else
          manifest.records.forM fun record => validateRecord record collection
          let (others, rest) ←
            decodeManifests count (collection :: seen) (records + manifest.records.length) rest
          return ((collection, manifest) :: others, rest)

def decode (bytes : List UInt8) : Except ProtocolError ManifestBundle := do
  if maxManifestBytes < bytes.length then throw .manifestLimit
  else
    let (count, rest) ← WireReader.count maxCollections bytes
    let (manifests, rest) ← decodeManifests count [] 0 rest
    WireReader.finish rest
    return ⟨manifests⟩

end ManifestBundle

structure FileRequest where
  collection : String
  path : String
  recordHash : RecordHash
deriving DecidableEq

namespace FileRequest

def tuple (request : FileRequest) : String ×ₗ (String ×ₗ RecordHash) :=
  toLex (request.collection, toLex (request.path, request.recordHash))

theorem tuple_injective : Function.Injective tuple := by
  rintro ⟨collection, path, hash⟩ ⟨collection', path', hash'⟩ same
  simpa [tuple] using same

instance : LinearOrder FileRequest := LinearOrder.lift' tuple tuple_injective

end FileRequest

end Skillsync
