import Skillsync.Canonical
import Skillsync.Path

set_option autoImplicit false

namespace Skillsync

open Fallible Codec

/-- The BLAKE3 function of the `blake3` crate. -/
class Blake3 where
  hash : List UInt8 → Bytes32

/-- A checksum in the place of BLAKE3, to evaluate the model on concrete inputs. -/
@[reducible] def Blake3.checksum : Blake3 where
  hash bytes :=
    ⟨bigEndian 32 (bytes.foldl
      (fun sum byte => (sum * 257 + byte.toNat) % (2 ^ 61 - 1)) 1), by simp⟩

abbrev RecordHash := Bytes32

inductive RecordKind
  | file (size : Nat) (contentHash : Bytes32)
  | tombstone
deriving DecidableEq

namespace RecordKind

def isFile : RecordKind → Bool
  | file _ _ => true
  | tombstone => false

/-- What `i64::try_from(size)` accepts. -/
def SizeFits : RecordKind → Prop
  | file size _ => size < 2 ^ 63
  | tombstone => True

instance : DecidablePred SizeFits := fun kind => by
  cases kind <;> unfold SizeFits <;> infer_instance

end RecordKind

/-- `RecordError`. -/
inductive RecordError
  | emptyCollection
  | lengthOverflow
  | fileTooLarge
  | duplicatePath
  | manifestLimit
  | canonical (reason : CanonicalError)
  | path (reason : PathError)
deriving DecidableEq

/-- A record as `Record::new` builds it. -/
structure Record where
  collection : String
  path : ProtocolPath
  modifiedNs : I64
  author : EndpointId
  kind : RecordKind
  collection_ne : collection ≠ ""
  collection_fits : (utf8 collection).length < 2 ^ 32
  path_fits : (utf8 path.text).length < 2 ^ 32
  size_fits : kind.SizeFits
deriving DecidableEq

/-- The primary key of `path_records`, in the order manifests are sorted by. -/
structure RecordKey where
  collection : String
  path : ProtocolPath
deriving DecidableEq

namespace RecordKey

def tuple (key : RecordKey) : String ×ₗ ProtocolPath := toLex (key.collection, key.path)

theorem tuple_injective : Function.Injective tuple := by
  rintro ⟨collection, path⟩ ⟨collection', path'⟩ same
  simpa [tuple] using same

instance : LinearOrder RecordKey := LinearOrder.lift' tuple tuple_injective

instance : Std.TransOrd RecordKey := inferInstance

instance : Std.LawfulEqOrd RecordKey := ⟨fun same => compare_eq_iff_eq.mp same⟩

end RecordKey

namespace Record

/-- `Record::new`. -/
def new (collection : String) (path : ProtocolPath) (modifiedNs : I64) (author : EndpointId)
    (kind : RecordKind) : Except RecordError Record :=
  if empty : collection = "" then .error .emptyCollection
  else if collectionFits : (utf8 collection).length < 2 ^ 32 then
    if pathFits : (utf8 path.text).length < 2 ^ 32 then
      if sizeFits : kind.SizeFits then
        .ok ⟨collection, path, modifiedNs, author, kind, empty, collectionFits, pathFits,
          sizeFits⟩
      else .error .fileTooLarge
    else .error .lengthOverflow
  else .error .lengthOverflow

/-- `Record::file`. -/
def file (collection : String) (path : ProtocolPath) (modifiedNs : I64) (author : EndpointId)
    (size : Nat) (contentHash : Bytes32) : Except RecordError Record :=
  new collection path modifiedNs author (.file size contentHash)

/-- `Record::tombstone`. -/
def tombstone (collection : String) (path : ProtocolPath) (modifiedNs : I64)
    (author : EndpointId) : Except RecordError Record :=
  new collection path modifiedNs author .tombstone

def key (record : Record) : RecordKey := ⟨record.collection, record.path⟩

theorem new_ok {collection : String} {path : ProtocolPath} {modifiedNs : I64}
    {author : EndpointId} {kind : RecordKind} {record : Record}
    (built : new collection path modifiedNs author kind = .ok record) :
    record.collection = collection ∧ record.path = path ∧ record.modifiedNs = modifiedNs ∧
      record.author = author ∧ record.kind = kind := by
  unfold new at built
  split at built
  · cases built
  split at built
  · split at built
    · split at built
      · cases built
        exact ⟨rfl, rfl, rfl, rfl, rfl⟩
      · cases built
    · cases built
  · cases built

/-- A record rebuilds itself from its own fields. -/
theorem new_fields (record : Record) :
    new record.collection record.path record.modifiedNs record.author record.kind =
      .ok record := by
  simp only [new, record.collection_ne, record.collection_fits, record.path_fits,
    record.size_fits, ↓reduceDIte]

def domain : List UInt8 := utf8 "skillsync-record-v1\x00"

/-- The tag and the fields of a record kind in `canonical_bytes`. -/
def encodeKind : RecordKind → List UInt8
  | .tombstone => Encoder.u8 0
  | .file size contentHash => Encoder.u8 1 ++ (Encoder.u64 size ++ contentHash.bytes)

/-- `canonical_bytes`; the lengths of both strings were checked by `new`. -/
def canonicalBytes (record : Record) : List UInt8 :=
  domain ++ (Encoder.string record.collection ++ (Encoder.string record.path.text ++
    (Encoder.i64 record.modifiedNs ++ (record.author.bytes ++ encodeKind record.kind))))

/-- The tag and the fields of a record kind in `from_canonical`. -/
def decodeKind (bytes : List UInt8) : Except CanonicalError (RecordKind × List UInt8) := do
  let (tag, rest) ← Decoder.u8 bytes
  if tag = 0 then return (.tombstone, rest)
  else if tag = 1 then
    let (size, rest) ← Decoder.u64 rest
    let (contentHash, rest) ← Decoder.fixed32 rest
    return (.file size contentHash, rest)
  else throw .unknownTag

/-- `from_canonical`. -/
def fromCanonical (bytes : List UInt8) : Except RecordError Record := do
  let rest ← (Decoder.new bytes domain).mapError .canonical
  let (collection, rest) ← (Decoder.string rest).mapError .canonical
  let (text, rest) ← (Decoder.string rest).mapError .canonical
  let path ← (ProtocolPath.parse text).mapError .path
  let (modifiedNs, rest) ← (Decoder.i64 rest).mapError .canonical
  let (author, rest) ← (Decoder.fixed32 rest).mapError .canonical
  let (kind, rest) ← (decodeKind rest).mapError .canonical
  (Decoder.finish rest).mapError .canonical
  new collection path modifiedNs author kind

theorem decodeKind_encodeKind {kind : RecordKind} (fits : kind.SizeFits) :
    decodeKind (encodeKind kind) = .ok (kind, []) := by
  cases kind with
  | tombstone => rfl
  | file size contentHash =>
      have bound : size < 2 ^ 64 := by
        unfold RecordKind.SizeFits at fits
        omega
      have fixed := Decoder.fixed32_append [] contentHash
      rw [List.append_nil] at fixed
      simp only [decodeKind, encodeKind, Decoder.u8_append, Except.ok_bind,
        Decoder.u64_append _ bound, fixed]
      rfl

theorem decodeKind_ok {bytes rest : List UInt8} {kind : RecordKind}
    (accepted : decodeKind bytes = .ok (kind, rest)) : bytes = encodeKind kind ++ rest := by
  obtain ⟨⟨tag, fields⟩, tagged, decoded⟩ := Except.bind_ok accepted
  obtain ⟨rfl, -⟩ := u8_exact.spells tagged
  dsimp only at decoded
  split at decoded
  · rename_i zero
    cases decoded
    rw [zero]
    rfl
  split at decoded
  · rename_i one
    obtain ⟨⟨size, middle⟩, sized, remaining⟩ := Except.bind_ok decoded
    obtain ⟨⟨contentHash, last⟩, hashed, built⟩ := Except.bind_ok remaining
    cases built
    obtain ⟨rfl, -⟩ := u64_exact.spells sized
    obtain ⟨rfl, -⟩ := fixed32_exact.spells hashed
    rw [one, encodeKind]
    simp only [List.append_assoc]
  · cases decoded

theorem fromCanonical_canonicalBytes (record : Record) :
    fromCanonical record.canonicalBytes = .ok record := by
  simp only [fromCanonical, canonicalBytes, Decoder.new_append, Except.mapError, Except.ok_bind,
    Decoder.string_append _ record.collection_fits, Decoder.string_append _ record.path_fits,
    ProtocolPath.parse_text, Decoder.i64_append, Decoder.fixed32_append,
    decodeKind_encodeKind record.size_fits, Decoder.finish, ↓reduceIte, new_fields]

/-- No two byte strings are read as the same record. -/
theorem canonicalBytes_of_fromCanonical {bytes : List UInt8} {record : Record}
    (accepted : fromCanonical bytes = .ok record) : record.canonicalBytes = bytes := by
  unfold fromCanonical at accepted
  obtain ⟨start, versioned, accepted⟩ := Except.bind_ok accepted
  obtain ⟨⟨collection, afterCollection⟩, first, accepted⟩ := Except.bind_ok accepted
  obtain ⟨⟨text, afterPath⟩, second, accepted⟩ := Except.bind_ok accepted
  obtain ⟨path, parsed, accepted⟩ := Except.bind_ok accepted
  obtain ⟨⟨modifiedNs, afterTime⟩, third, accepted⟩ := Except.bind_ok accepted
  obtain ⟨⟨author, afterAuthor⟩, fourth, accepted⟩ := Except.bind_ok accepted
  obtain ⟨⟨kind, last⟩, fifth, accepted⟩ := Except.bind_ok accepted
  obtain ⟨⟨⟩, finished, built⟩ := Except.bind_ok accepted
  obtain ⟨sameCollection, samePath, sameTime, sameAuthor, sameKind⟩ := new_ok built
  obtain ⟨rfl, -⟩ := string_exact.spells (Except.mapError_ok first)
  obtain ⟨rfl, -⟩ := string_exact.spells (Except.mapError_ok second)
  obtain ⟨rfl, -⟩ := i64_exact.spells (Except.mapError_ok third)
  obtain ⟨rfl, -⟩ := fixed32_exact.spells (Except.mapError_ok fourth)
  rw [Decoder.new_ok (Except.mapError_ok versioned), decodeKind_ok (Except.mapError_ok fifth),
    Decoder.finish_ok (Except.mapError_ok finished), canonicalBytes, sameCollection, samePath,
    sameTime, sameAuthor, sameKind, ProtocolPath.parse_ok (Except.mapError_ok parsed),
    List.append_nil]

/-- Two records with the same canonical bytes are the same record. -/
theorem canonicalBytes_injective : Function.Injective canonicalBytes := by
  intro a b same
  have decoded := fromCanonical_canonicalBytes a
  rw [same, fromCanonical_canonicalBytes] at decoded
  exact (Except.ok.inj decoded).symm

section
variable [Blake3]

/-- `canonical_hash`. -/
def canonicalHash (record : Record) : RecordHash := Blake3.hash record.canonicalBytes

/-- `compare_winner`. -/
def compareWinner (record other : Record) : Ordering :=
  (compare record.modifiedNs other.modifiedNs).then
    ((compare record.author other.author).then
      (compare record.canonicalHash other.canonicalHash))

end

end Record

/-- A record of a collection `c`, to evaluate the model on. -/
def Record.sample (path : ProtocolPath) (modifiedNs : I64) (author : EndpointId)
    (kind : RecordKind) : Record :=
  match Record.new "c" path modifiedNs author kind with
  | .ok record => record
  | .error _ => ⟨"c", .sample, 0, author, .tombstone, by decide, by decide, by decide, by decide⟩

/-- A list of records sorted by key, as `Manifest::new` builds it. -/
structure Manifest where
  records : List Record
deriving DecidableEq

/-- `Manifest::new`. -/
def Manifest.new (records : List Record) : Except RecordError Manifest :=
  let sorted := records.mergeSort fun left right => decide (left.key ≤ right.key)
  if (sorted.map Record.key).Nodup then .ok ⟨sorted⟩ else .error .duplicatePath

theorem Manifest.mem_new {records : List Record} {manifest : Manifest}
    (built : Manifest.new records = .ok manifest) (record : Record) :
    record ∈ manifest.records ↔ record ∈ records := by
  unfold Manifest.new at built
  dsimp only at built
  split at built
  · cases built
    exact List.mem_mergeSort
  · cases built

end Skillsync
