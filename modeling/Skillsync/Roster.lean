import Skillsync.Record

set_option autoImplicit false

namespace Skillsync

open Fallible Codec

abbrev RosterHash := Bytes32

/-- An Ed25519 signature, `[u8; 64]`. -/
structure Signature where
  bytes : List UInt8
  length_eq : bytes.length = 64
deriving DecidableEq

/-- The Ed25519 scheme of the `ed25519_dalek` crate. -/
class Ed25519 where
  /-- The public key of a secret key. -/
  verifyingKey : Bytes32 → EndpointId
  sign : Bytes32 → List UInt8 → Signature
  /-- What `VerifyingKey::from_bytes` accepts. -/
  isVerifyingKey : EndpointId → Bool
  verifyStrict : EndpointId → List UInt8 → Signature → Bool

/-- A keyed checksum in the place of Ed25519, to evaluate the model on concrete inputs. -/
@[reducible] def Ed25519.checksum : Ed25519 where
  verifyingKey secret := secret
  sign secret message :=
    ⟨secret.bytes ++ (Blake3.checksum.hash message).bytes, by simp [Bytes32.length_eq]⟩
  isVerifyingKey _ := true
  verifyStrict key message signature :=
    signature.bytes == key.bytes ++ (Blake3.checksum.hash message).bytes

/-- `DeviceIdentity::from_secret`. -/
structure DeviceIdentity where
  secret : Bytes32
deriving DecidableEq

namespace DeviceIdentity

variable [Ed25519]

def endpointId (identity : DeviceIdentity) : EndpointId := Ed25519.verifyingKey identity.secret

def sign (identity : DeviceIdentity) (message : List UInt8) : Signature :=
  Ed25519.sign identity.secret message

end DeviceIdentity

/-- `RosterError`. -/
inductive RosterError
  | invalidGenesis
  | wrongParent
  | authorNotActive
  | wrongMembers
  | invalidChange
  | alreadyActive
  | notActive
  | invalidDeviceName
  | memberLimit
  | revisionOverflow
  | invalidSigner
  | invalidSignature
  | canonical (reason : CanonicalError)
  /-- The `expect` on the number of members panics. -/
  | panicked
deriving DecidableEq

/-- `char::is_whitespace`, the Unicode property `White_Space`. -/
def isWhitespace (c : Char) : Bool :=
  (0x09 ≤ c.toNat && c.toNat ≤ 0x0D) || c.toNat == 0x20 || c.toNat == 0x85 || c.toNat == 0xA0 ||
    c.toNat == 0x1680 || (0x2000 ≤ c.toNat && c.toNat ≤ 0x200A) || c.toNat == 0x2028 ||
    c.toNat == 0x2029 || c.toNat == 0x202F || c.toNat == 0x205F || c.toNat == 0x3000

/-- `validate_device_name`. -/
def validateDeviceName (name : String) : Except RosterError Unit :=
  if name.toList.all isWhitespace then .error .invalidDeviceName
  else if 2 ^ 32 ≤ (utf8 name).length then .error .invalidDeviceName
  else .ok ()

/-- A validated device name. -/
structure DeviceName where
  text : String
  valid : validateDeviceName text = .ok ()
deriving DecidableEq

namespace DeviceName

def parse (text : String) : Except RosterError DeviceName :=
  match valid : validateDeviceName text with
  | .ok () => .ok ⟨text, valid⟩
  | .error reason => .error reason

theorem parse_text (name : DeviceName) : parse name.text = .ok name := by
  unfold parse
  split
  · rfl
  · rename_i reason invalid
    rw [name.valid] at invalid
    cases invalid

theorem parse_ok {text : String} {name : DeviceName} (parsed : parse text = .ok name) :
    name.text = text := by
  unfold parse at parsed
  split at parsed
  · rw [← Except.ok.inj parsed]
  · cases parsed

theorem fits (name : DeviceName) : (utf8 name.text).length < 2 ^ 32 := by
  have valid := name.valid
  unfold validateDeviceName at valid
  split at valid
  · cases valid
  split at valid
  · cases valid
  · omega

end DeviceName

/-- A device name to evaluate the model on. -/
def DeviceName.sample : DeviceName := ⟨"d", by decide⟩

/-- A member as `RosterMember::new` builds it. -/
structure RosterMember where
  endpointId : EndpointId
  deviceName : DeviceName
deriving DecidableEq

/-- `RosterMember::new`. -/
def RosterMember.new (endpointId : EndpointId) (deviceName : String) :
    Except RosterError RosterMember := do
  let name ← DeviceName.parse deviceName
  return ⟨endpointId, name⟩

/-- `RosterChange`; `initial` is its `Initialize`. -/
inductive RosterChange
  | initial (member : RosterMember)
  | admitMember (member : RosterMember)
  | remove (endpointId : EndpointId)
deriving DecidableEq

namespace RosterChange

/-- `selection_priority`. -/
def selectionPriority : RosterChange → Nat
  | remove _ => 1
  | admitMember _ => 0
  | initial _ => 0

def isInitial : RosterChange → Bool
  | initial _ => true
  | _ => false

end RosterChange

abbrev Members := OrderedMap EndpointId DeviceName

/-- `apply_change`; the name of a member was validated when the member was built. -/
def applyChange (members : Members) (change : RosterChange) : Except RosterError Members :=
  match change with
  | .initial _ => .error .invalidChange
  | .admitMember member =>
      if (members[member.endpointId]?).isSome then .error .alreadyActive
      else .ok (members.insert member.endpointId member.deviceName)
  | .remove endpointId =>
      if (members[endpointId]?).isSome then .ok (members.erase endpointId)
      else .error .notActive

/-- The fields of a revision that its signature covers. -/
structure UnsignedRevision where
  groupId : GroupId
  number : UInt64
  parentHash : Option RosterHash
  members : Members
  change : RosterChange
  author : EndpointId
  members_fit : members.size < 2 ^ 32
deriving DecidableEq

structure RosterRevision extends UnsignedRevision where
  signature : Signature
deriving DecidableEq

namespace RosterFormat

def domain : List UInt8 := utf8 "skillsync-roster-v1\x00"

def encodeParent : Option RosterHash → List UInt8
  | none => Encoder.u8 0
  | some parentHash => Encoder.u8 1 ++ parentHash.bytes

def decodeParent (bytes : List UInt8) : Except RosterError (Option RosterHash × List UInt8) := do
  let (tag, rest) ← (Decoder.u8 bytes).mapError .canonical
  if tag = 0 then return (none, rest)
  else if tag = 1 then
    let (parentHash, rest) ← (Decoder.fixed32 rest).mapError .canonical
    return (some parentHash, rest)
  else throw (.canonical .unknownTag)

/-- `encode_member`, and one entry of the member map. -/
def encodeMember (member : RosterMember) : List UInt8 :=
  member.endpointId.bytes ++ Encoder.string member.deviceName.text

/-- `decode_member`. -/
def decodeMember (bytes : List UInt8) : Except RosterError (RosterMember × List UInt8) := do
  let (endpointId, rest) ← (Decoder.fixed32 bytes).mapError .canonical
  let (deviceName, rest) ← (Decoder.string rest).mapError .canonical
  let member ← RosterMember.new endpointId deviceName
  return (member, rest)

/-- `encode_change`. -/
def encodeChange : RosterChange → List UInt8
  | .initial member => Encoder.u8 0 ++ encodeMember member
  | .admitMember member => Encoder.u8 1 ++ encodeMember member
  | .remove endpointId => Encoder.u8 2 ++ endpointId.bytes

/-- `decode_change`. -/
def decodeChange (bytes : List UInt8) : Except RosterError (RosterChange × List UInt8) := do
  let (tag, rest) ← (Decoder.u8 bytes).mapError .canonical
  if tag = 0 then
    let (member, rest) ← decodeMember rest
    return (.initial member, rest)
  else if tag = 1 then
    let (member, rest) ← decodeMember rest
    return (.admitMember member, rest)
  else if tag = 2 then
    let (endpointId, rest) ← (Decoder.fixed32 rest).mapError .canonical
    return (.remove endpointId, rest)
  else throw (.canonical .unknownTag)

def encodeEntry (entry : EndpointId × DeviceName) : List UInt8 :=
  encodeMember ⟨entry.1, entry.2⟩

/-- The loop of `from_canonical_with_member_limit` over the members; `previous` is the key
before. -/
def decodeEntries : Nat → Option EndpointId → List UInt8 →
    Except RosterError (List (EndpointId × DeviceName) × List UInt8)
  | 0, _, bytes => .ok ([], bytes)
  | count + 1, previous, bytes => do
      let (endpointId, rest) ← (Decoder.fixed32 bytes).mapError .canonical
      if previous.any fun previous => decide (endpointId ≤ previous) then
        throw (.canonical .unorderedKeys)
      else
        let (deviceName, rest) ← (Decoder.string rest).mapError .canonical
        let name ← DeviceName.parse deviceName
        let (others, rest) ← decodeEntries count (some endpointId) rest
        return ((endpointId, name) :: others, rest)

end RosterFormat

open RosterFormat

/-- `unsigned_canonical_bytes`. -/
def UnsignedRevision.unsignedCanonicalBytes (revision : UnsignedRevision) : List UInt8 :=
  domain ++ (revision.groupId.bytes ++ (Encoder.u64 revision.number.toNat ++
    (encodeParent revision.parentHash ++ (Encoder.u32 revision.members.size ++
      (revision.members.toList.flatMap encodeEntry ++
        (encodeChange revision.change ++ revision.author.bytes))))))

namespace RosterRevision

/-- `canonical_bytes`. -/
def canonicalBytes (revision : RosterRevision) : List UInt8 :=
  revision.unsignedCanonicalBytes ++ revision.signature.bytes

end RosterRevision

/-- `fixed::<64>`. -/
def Decoder.fixed64 (bytes : List UInt8) : Except CanonicalError (Signature × List UInt8) :=
  if enough : 64 ≤ bytes.length then
    .ok (⟨bytes.take 64, List.length_take_of_le enough⟩, bytes.drop 64)
  else .error .truncated

/-- The fields before the signature in `from_canonical_with_member_limit`. -/
def UnsignedRevision.decode (bytes : List UInt8) (maxMembers : Nat) :
    Except RosterError (UnsignedRevision × List UInt8) := do
  let rest ← (Decoder.new bytes domain).mapError .canonical
  let (groupId, rest) ← (Decoder.fixed32 rest).mapError .canonical
  let (number, rest) ← (Decoder.u64 rest).mapError .canonical
  let (parentHash, rest) ← decodeParent rest
  let (count, rest) ← (Decoder.u32 rest).mapError .canonical
  if maxMembers < count then throw .memberLimit
  else
    let (entries, rest) ← decodeEntries count none rest
    let (change, rest) ← decodeChange rest
    let (author, rest) ← (Decoder.fixed32 rest).mapError .canonical
    let members : Members := Std.ExtTreeMap.ofList entries
    -- Always so: the count was read from four bytes.
    if fits : members.size < 2 ^ 32 then
      return (⟨groupId, UInt64.ofNat number, parentHash, members, change, author, fits⟩, rest)
    else throw .panicked

namespace RosterRevision

/-- `from_canonical_with_member_limit`. -/
def fromCanonicalWithMemberLimit (bytes : List UInt8) (maxMembers : Nat) :
    Except RosterError RosterRevision := do
  let (unsigned, rest) ← UnsignedRevision.decode bytes maxMembers
  let (signature, rest) ← (Decoder.fixed64 rest).mapError .canonical
  (Decoder.finish rest).mapError .canonical
  let revision : RosterRevision := ⟨unsigned, signature⟩
  if revision.canonicalBytes = bytes then return revision
  else throw (.canonical (.invalid "non-canonical roster revision"))

/-- `from_canonical`, with the limit `usize::MAX`. -/
def fromCanonical (bytes : List UInt8) : Except RosterError RosterRevision :=
  fromCanonicalWithMemberLimit bytes (2 ^ 64 - 1)

section
variable [Blake3]

/-- `canonical_hash`. -/
def canonicalHash (revision : RosterRevision) : RosterHash := Blake3.hash revision.canonicalBytes

variable [Ed25519]

/-- `verify_signature`. -/
def verifySignature (revision : RosterRevision) (signer : EndpointId) : Except RosterError Unit :=
  if Ed25519.isVerifyingKey signer then
    if Ed25519.verifyStrict signer revision.unsignedCanonicalBytes revision.signature then .ok ()
    else .error .invalidSignature
  else .error .invalidSigner

/-- `validate_genesis`. -/
def validateGenesis (revision : RosterRevision) : Except RosterError Unit :=
  if revision.number ≠ 0 ∨ revision.parentHash.isSome then .error .invalidGenesis
  else match revision.change with
    | .initial creator =>
        if revision.author ≠ creator.endpointId ∨ revision.members.size ≠ 1 ∨
            revision.members[creator.endpointId]? ≠ some creator.deviceName then
          .error .invalidGenesis
        else revision.verifySignature revision.author
    | _ => .error .invalidGenesis

/-- `validate_child`. -/
def validateChild (revision parent : RosterRevision) : Except RosterError Unit :=
  if revision.groupId ≠ parent.groupId then .error .wrongParent
  else if 2 ^ 64 ≤ parent.number.toNat + 1 then .error .revisionOverflow
  else if revision.number ≠ parent.number + 1 ∨
      revision.parentHash ≠ some parent.canonicalHash then .error .wrongParent
  else if (parent.members[revision.author]?).isNone then .error .authorNotActive
  else if revision.change.isInitial then .error .invalidChange
  else do
    let expectedMembers ← applyChange parent.members revision.change
    if expectedMembers ≠ revision.members then throw .wrongMembers
    else revision.verifySignature revision.author

/-- Signs the fields of a revision. -/
def signed (unsigned : UnsignedRevision) (author : DeviceIdentity) : RosterRevision :=
  ⟨unsigned, author.sign unsigned.unsignedCanonicalBytes⟩

/-- `genesis`. -/
def genesis (groupId : GroupId) (creatorName : String) (creator : DeviceIdentity) :
    Except RosterError RosterRevision := do
  let member ← RosterMember.new creator.endpointId creatorName
  let members : Members := Std.ExtTreeMap.ofList [(member.endpointId, member.deviceName)]
  if fits : members.size < 2 ^ 32 then
    let revision :=
      signed ⟨groupId, 0, none, members, .initial member, creator.endpointId, fits⟩ creator
    revision.validateGenesis
    return revision
  else throw .panicked

/-- `child`. -/
def child (parent : RosterRevision) (change : RosterChange) (author : DeviceIdentity) :
    Except RosterError RosterRevision :=
  if (parent.members[author.endpointId]?).isNone then .error .authorNotActive
  else if change.isInitial then .error .invalidChange
  else do
    let members ← applyChange parent.members change
    if 2 ^ 64 ≤ parent.number.toNat + 1 then throw .revisionOverflow
    else if fits : members.size < 2 ^ 32 then
      let revision := signed ⟨parent.groupId, parent.number + 1, some parent.canonicalHash,
        members, change, author.endpointId, fits⟩ author
      revision.validateChild parent
      return revision
    else throw .panicked

end

end RosterRevision

end Skillsync
