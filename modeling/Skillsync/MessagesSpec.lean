import Skillsync.Messages
import Skillsync.ProtocolSpec
import Skillsync.RosterTree

set_option autoImplicit false

namespace Skillsync

open Fallible Codec

namespace FrameTag

theorem fromByte_byte (tag : FrameTag) : fromByte tag.byte = .ok tag := by
  cases tag <;> rfl

theorem fromByte_eq_ok {value : UInt8} {tag : FrameTag} :
    fromByte value = .ok tag ↔ value = tag.byte := by
  constructor
  · intro known
    unfold fromByte at known
    repeat' split at known
    all_goals cases known
    all_goals assumption
  · rintro rfl
    exact tag.fromByte_byte

theorem fromByte_unknown {value : UInt8} (unknown : ∀ tag : FrameTag, value ≠ tag.byte) :
    fromByte value = .error .unknownFrameType := by
  cases result : fromByte value with
  | ok tag => exact absurd (fromByte_eq_ok.mp result) (unknown tag)
  | error reason =>
      unfold fromByte at result
      repeat' split at result
      all_goals cases result
      rfl

/-- No tag allows more than a frame may hold. -/
theorem payloadLimit_le (tag : FrameTag) : tag.payloadLimit ≤ maxFrameBytes := by
  cases tag <;> decide

end FrameTag

section
variable {tag : FrameTag} {payload bytes rest header : List UInt8} {length : Nat}

theorem encodeFrame_eq_ok : encodeFrame tag payload = .ok bytes ↔
    payload.length ≤ tag.payloadLimit ∧
      bytes = tag.byte :: (Encoder.u32 payload.length ++ payload) := by
  have below := tag.payloadLimit_le
  unfold encodeFrame
  by_cases fits : payload.length ≤ tag.payloadLimit
  · have small : payload.length < 2 ^ 32 := by
      unfold maxFrameBytes at below
      omega
    rw [if_neg (by omega), if_neg (by omega), Except.ok.injEq]
    exact ⟨fun same => ⟨fits, same.symm⟩, fun both => both.2.symm⟩
  · rw [if_pos (Or.inl (not_le.mp fits))]
    constructor
    · intro encoded
      cases encoded
    · rintro ⟨within, -⟩
      exact absurd within fits

theorem decodeHeader_of_tag (headed : header.head? = some tag.byte) :
    decodeHeader header = if tag.payloadLimit < fromBigEndian (header.drop 1) then
      .error .frameLimit else .ok (tag, fromBigEndian (header.drop 1)) := by
  have below := tag.payloadLimit_le
  have first : header.headD 0 = tag.byte := by
    rw [List.headD_eq_head?_getD, headed]
    rfl
  unfold decodeHeader
  rw [first, tag.fromByte_byte, Except.ok_bind]
  by_cases above : tag.payloadLimit < fromBigEndian (header.drop 1)
  · rw [if_pos above]
    exact if_pos (Or.inr above)
  · rw [if_neg above]
    exact if_neg (by omega)

theorem readExact_append (front rest : List UInt8) :
    readExact front.length (front ++ rest) = (rest, .ok front) := by
  simp [readExact]

/-- The header of a frame within the limit of its tag. -/
theorem decodeHeader_encoded (fits : payload.length ≤ tag.payloadLimit) :
    (tag.byte :: Encoder.u32 payload.length).length = headerBytes ∧
      decodeHeader (tag.byte :: Encoder.u32 payload.length) = .ok (tag, payload.length) := by
  have below := tag.payloadLimit_le
  have small : payload.length < 2 ^ 32 := by
    unfold maxFrameBytes at below
    omega
  have counted : fromBigEndian ((tag.byte :: Encoder.u32 payload.length).drop 1) =
      payload.length := by
    rw [List.drop_one, List.tail_cons, Encoder.u32, fromBigEndian_bigEndian,
      Nat.mod_eq_of_lt (by omega)]
  have headed : (tag.byte :: Encoder.u32 payload.length).head? = some tag.byte := rfl
  constructor
  · rw [List.length_cons, Encoder.u32, length_bigEndian]
    rfl
  · rw [decodeHeader_of_tag headed, counted, if_neg (not_lt.mpr fits)]

/-- A frame is read back, and nothing after it is touched. -/
theorem decodeFrame_append (encoded : encodeFrame tag payload = .ok bytes) :
    decodeFrame (bytes ++ rest) = (rest, .ok (tag, payload)) := by
  obtain ⟨fits, rfl⟩ := encodeFrame_eq_ok.mp encoded
  obtain ⟨five, header⟩ := decodeHeader_encoded fits
  have shape : tag.byte :: (Encoder.u32 payload.length ++ payload) ++ rest =
      (tag.byte :: Encoder.u32 payload.length) ++ (payload ++ rest) := by
    simp only [List.cons_append, List.append_assoc]
  unfold decodeFrame
  rw [shape, ← five, readExact_append]
  dsimp only
  rw [header]
  dsimp only
  rw [readExact_append]

/-- A rejected header leaves every byte after it in the reader. -/
theorem decodeFrame_rejected {reason : ProtocolError} (five : header.length = headerBytes)
    (rejected : decodeHeader header = .error reason) :
    decodeFrame (header ++ rest) = (rest, .error reason) := by
  unfold decodeFrame
  rw [← five, readExact_append]
  dsimp only
  rw [rejected]

end

theorem decodeFrames_flatten {frames : List Frame} {encoded : List (List UInt8)}
    (written : frames.mapM (fun frame => encodeFrame frame.1 frame.2) = .ok encoded)
    (rest : List UInt8) :
    decodeFrames frames.length (encoded.flatten ++ rest) = (rest, .ok frames) := by
  induction frames generalizing encoded with
  | nil =>
      cases written
      rfl
  | cons frame frames ih =>
      rw [List.mapM_cons] at written
      obtain ⟨bytes, first, written⟩ := Except.bind_ok written
      obtain ⟨others, tail, written⟩ := Except.bind_ok written
      cases written
      rw [List.flatten_cons, List.append_assoc, List.length_cons, decodeFrames,
        decodeFrame_append first]
      dsimp only
      rw [ih tail]

theorem isChain_previous {α : Type} [LinearOrder α] {previous : Option α} {item : α}
    {rest : List α} : (previous.toList ++ item :: rest).IsChain (· < ·) ↔
      ¬ (previous.any fun before => decide (item ≤ before)) = true ∧
      (item :: rest).IsChain (· < ·) := by
  cases previous with
  | none => simp
  | some before =>
      rw [Option.toList_some, List.singleton_append, List.isChain_cons_cons, Option.any_some,
        decide_eq_true_eq, not_le]

/-- A message of the wire and the tag of its frames; `valid` is what the sender keeps. -/
structure WireFormat {α : Type} (tag : FrameTag) (valid : α → Prop)
    (encode : α → Except ProtocolError (List UInt8))
    (decode : List UInt8 → Except ProtocolError α) : Prop where
  fits : ∀ {message bytes}, encode message = .ok bytes → bytes.length ≤ tag.payloadLimit
  reads : ∀ {message bytes}, valid message → encode message = .ok bytes →
    decode bytes = .ok message
  spells : ∀ {message bytes}, decode bytes = .ok message → encode message = .ok bytes

namespace Hello

theorem decode_iff {hello : Hello} {bytes : List UInt8} :
    decode bytes = .ok hello ↔ hello.encode = .ok bytes := by
  have counts := wireCount_exact (show maxCollections < 2 ^ 32 by decide)
  have names := wireString_exact (show maxCollectionNameBytes < 2 ^ 32 by decide)
  have hints := wireString_exact (show maxAddressHintBytes < 2 ^ 32 by decide)
  rw [encode_iff]
  unfold decode
  constructor
  · intro decoded
    obtain ⟨⟨count, afterCount⟩, counted, decoded⟩ := Except.bind_ok decoded
    obtain ⟨⟨collections, afterNames⟩, named, decoded⟩ := Except.bind_ok decoded
    obtain ⟨⟨⟩, valid, decoded⟩ := Except.bind_ok decoded
    obtain ⟨⟨hint, last⟩, hinted, decoded⟩ := Except.bind_ok decoded
    obtain ⟨⟨⟩, finished, decoded⟩ := Except.bind_ok decoded
    cases decoded
    obtain ⟨rfl, -⟩ := counts.spells counted
    obtain ⟨rfl, rfl, -⟩ := (names.times count).spells named
    obtain ⟨rfl, short⟩ := hints.spells hinted
    rw [WireReader.finish_ok finished, List.append_nil]
    exact ⟨valid, short, rfl⟩
  · rintro ⟨valid, short, rfl⟩
    obtain ⟨few, named, -⟩ := validateCollections_eq_ok.mp valid
    have listed := (names.times hello.collections.length).reads
      (Encoder.string hello.endpointAddrJson) ⟨rfl, fun collection member =>
        (named collection member).2⟩
    have hinted := hints.reads [] short
    rw [List.append_nil] at hinted
    rw [spelled, counts.reads _ few, Except.ok_bind]
    dsimp only
    rw [listed, Except.ok_bind]
    dsimp only
    rw [valid, Except.ok_bind, hinted, Except.ok_bind]
    rfl

theorem length_spelled {hello : Hello} (valid : validateCollections hello.collections = .ok ())
    (short : (utf8 hello.endpointAddrJson).length ≤ maxAddressHintBytes) :
    hello.spelled.length ≤ FrameTag.hello.payloadLimit := by
  obtain ⟨few, named, -⟩ := validateCollections_eq_ok.mp valid
  have names := List.sum_le_card_nsmul
    (hello.collections.map fun collection => (Encoder.string collection).length) 259
  rw [List.length_map, smul_eq_mul] at names
  have each : ∀ length ∈ hello.collections.map fun collection =>
      (Encoder.string collection).length, length ≤ 259 := by
    intro length listed
    obtain ⟨collection, member, rfl⟩ := List.mem_map.mp listed
    have name := (named collection member).2
    unfold maxCollectionNameBytes at name
    rw [Encoder.string, Encoder.sizedBytes, List.length_append, Encoder.u32, length_bigEndian]
    omega
  have total := names each
  have hint : (Encoder.string hello.endpointAddrJson).length =
      4 + (utf8 hello.endpointAddrJson).length := by
    rw [Encoder.string, Encoder.sizedBytes, List.length_append, Encoder.u32, length_bigEndian]
  rw [spelled, List.length_append, List.length_append, List.length_flatMap, hint, Encoder.u32,
    length_bigEndian]
  have limit : FrameTag.hello.payloadLimit = 65536 := rfl
  unfold maxCollections at few
  unfold maxAddressHintBytes at short
  omega

theorem wireFormat : WireFormat .hello (fun _ => True) encode decode where
  fits encoded := by
    obtain ⟨valid, short, rfl⟩ := encode_iff.mp encoded
    exact length_spelled valid short
  reads _ encoded := decode_iff.mpr encoded
  spells decoded := decode_iff.mp decoded

end Hello

namespace RosterBundle

/-- One revision of a bundle on the wire. -/
def entry (revision : RosterRevision) : List UInt8 := Encoder.sizedBytes revision.canonicalBytes

def spelled (bundle : RosterBundle) : List UInt8 :=
  Encoder.u32 bundle.revisions.length ++ bundle.revisions.flatMap entry

def encodedLength (revisions : List RosterRevision) : Nat :=
  4 + (revisions.map fun revision => 4 + revision.canonicalBytes.length).sum

theorem length_spelled (bundle : RosterBundle) :
    bundle.spelled.length = encodedLength bundle.revisions := by
  simp only [spelled, entry, encodedLength, Encoder.sizedBytes, Encoder.u32, List.length_append,
    List.length_flatMap, length_bigEndian]

/-- What `encode` asks of a chain. -/
structure Transmittable (revisions : List RosterRevision) : Prop where
  nonempty : revisions ≠ []
  few : revisions.length ≤ maxRosterRevisions
  members : ∀ revision ∈ revisions, revision.members.size ≤ maxRosterMembers
  short : encodedLength revisions ≤ maxRosterBytes

theorem Transmittable.canonicalBytes_le {revisions : List RosterRevision}
    (allowed : Transmittable revisions) {revision : RosterRevision}
    (member : revision ∈ revisions) :
    revision.canonicalBytes.length ≤ maxRosterBytes := by
  have part := List.single_le_sum
    (l := revisions.map fun revision => 4 + revision.canonicalBytes.length)
    (fun _ _ => Nat.zero_le _) _ (List.mem_map_of_mem member)
  have short := allowed.short
  unfold encodedLength at short
  omega

theorem encodeRevisions_ok {revisions : List RosterRevision} {body : List UInt8}
    (encoded : encodeRevisions revisions = .ok body) :
    (∀ revision ∈ revisions, revision.members.size ≤ maxRosterMembers) ∧
      body = revisions.flatMap entry := by
  induction revisions generalizing body with
  | nil =>
      cases encoded
      exact ⟨by simp, rfl⟩
  | cons revision rest ih =>
      unfold encodeRevisions at encoded
      split at encoded
      · cases encoded
      rename_i within
      obtain ⟨canonical, written, encoded⟩ := Except.bind_ok encoded
      obtain ⟨others, tail, encoded⟩ := Except.bind_ok encoded
      cases encoded
      obtain ⟨members, rfl⟩ := ih tail
      obtain ⟨length, counted, joined⟩ := Except.bind_ok written
      cases joined
      unfold WireWriter.count at counted
      split at counted
      · cases counted
        exact ⟨List.forall_mem_cons.mpr ⟨not_lt.mp within, members⟩, rfl⟩
      · cases counted

theorem encodeRevisions_eq {revisions : List RosterRevision}
    (members : ∀ revision ∈ revisions, revision.members.size ≤ maxRosterMembers)
    (short : ∀ revision ∈ revisions, revision.canonicalBytes.length ≤ maxRosterBytes) :
    encodeRevisions revisions = .ok (revisions.flatMap entry) := by
  induction revisions with
  | nil => rfl
  | cons revision rest ih =>
      rw [List.forall_mem_cons] at members short
      have fits := short.1
      unfold maxRosterBytes at fits
      unfold encodeRevisions
      rw [if_neg (not_lt.mpr members.1), WireWriter.bytes_ok (by omega), Except.ok_bind,
        ih members.2 short.2]
      rfl

/-- What `encode` accepts, and what it writes. -/
theorem encode_iff {bundle : RosterBundle} {bytes : List UInt8} :
    bundle.encode = .ok bytes ↔ Transmittable bundle.revisions ∧ bytes = bundle.spelled := by
  unfold encode
  constructor
  · intro encoded
    split at encoded
    · cases encoded
    rename_i limited
    obtain ⟨nonempty, few⟩ := not_or.mp limited
    have counted := not_lt.mp few
    unfold maxRosterRevisions at counted
    rw [WireWriter.count_ok (by omega), Except.ok_bind] at encoded
    obtain ⟨body, written, encoded⟩ := Except.bind_ok encoded
    obtain ⟨members, rfl⟩ := encodeRevisions_ok written
    split at encoded
    · cases encoded
    rename_i short
    cases encoded
    refine ⟨⟨nonempty, not_lt.mp few, members, ?_⟩, rfl⟩
    rw [← length_spelled]
    exact not_lt.mp short
  · rintro ⟨allowed, rfl⟩
    have few := allowed.few
    have fits : ¬ maxRosterBytes < bundle.spelled.length := by
      rw [length_spelled]
      exact not_lt.mpr allowed.short
    unfold maxRosterRevisions at few
    rw [if_neg (not_or.mpr ⟨allowed.nonempty, not_lt.mpr allowed.few⟩),
      WireWriter.count_ok (by omega), Except.ok_bind,
      encodeRevisions_eq allowed.members fun _ => allowed.canonicalBytes_le, Except.ok_bind]
    exact if_neg fits

theorem revision_exact : Exact entry decodeRevision (fun revision =>
    revision.canonicalBytes.length ≤ maxRosterBytes ∧
      revision.members.size ≤ maxRosterMembers) where
  reads rest fits := by
    have sized := wireBytes_exact (show maxRosterBytes < 2 ^ 32 by decide)
    simp only [decodeRevision, entry, sized.reads _ fits.1, Except.ok_bind,
      RosterRevision.fromCanonicalWithMemberLimit_canonicalBytes fits.2, Except.mapError]
    exact if_neg (not_lt.mpr fits.2)
  spells accepted := by
    have sized := wireBytes_exact (show maxRosterBytes < 2 ^ 32 by decide)
    obtain ⟨⟨canonical, last⟩, read, accepted⟩ := Except.bind_ok accepted
    obtain ⟨revision, decoded, accepted⟩ := Except.bind_ok accepted
    split at accepted
    · cases accepted
    cases accepted
    obtain ⟨rfl, within⟩ :=
      RosterRevision.fromCanonicalWithMemberLimit_ok (Except.mapError_ok decoded)
    obtain ⟨rfl, fits⟩ := sized.spells read
    exact ⟨rfl, fits, within⟩

variable [Blake3] [Ed25519]

theorem decode_iff {bundle : RosterBundle} {bytes : List UInt8} :
    decode bytes = .ok bundle ↔
      bundle.encode = .ok bytes ∧ validateRosterChain bundle.revisions = .ok () := by
  have counts := wireCount_exact (show maxRosterRevisions < 2 ^ 32 by decide)
  rw [encode_iff]
  unfold decode
  constructor
  · intro decoded
    split at decoded
    · cases decoded
    rename_i short
    obtain ⟨⟨count, afterCount⟩, counted, decoded⟩ := Except.bind_ok decoded
    dsimp only at decoded
    split at decoded
    · cases decoded
    rename_i positive
    obtain ⟨⟨revisions, last⟩, read, decoded⟩ := Except.bind_ok decoded
    obtain ⟨⟨⟩, finished, decoded⟩ := Except.bind_ok decoded
    obtain ⟨⟨⟩, valid, decoded⟩ := Except.bind_ok decoded
    dsimp only at finished valid
    cases decoded
    obtain ⟨rfl, few⟩ := counts.spells counted
    obtain ⟨rfl, rfl, each⟩ := (revision_exact.times count).spells read
    rw [WireReader.finish_ok finished, List.append_nil] at short ⊢
    refine ⟨⟨⟨fun empty => positive (List.length_eq_zero_iff.mpr empty), few,
      fun revision member => (each revision member).2, ?_⟩, rfl⟩, valid⟩
    rw [← length_spelled ⟨revisions⟩]
    exact not_lt.mp short
  · rintro ⟨⟨allowed, rfl⟩, valid⟩
    have short : ¬ maxRosterBytes < bundle.spelled.length := by
      rw [length_spelled]
      exact not_lt.mpr allowed.short
    have read := (revision_exact.times bundle.revisions.length).reads []
      ⟨rfl, fun revision member => ⟨allowed.canonicalBytes_le member,
        allowed.members revision member⟩⟩
    rw [List.append_nil] at read
    rw [if_neg short, spelled, counts.reads _ allowed.few, Except.ok_bind]
    dsimp only
    rw [if_neg (fun empty => allowed.nonempty (List.length_eq_zero_iff.mp empty)), read,
      Except.ok_bind]
    dsimp only [WireReader.finish]
    rw [if_pos rfl, Except.ok_bind, valid]
    rfl

theorem wireFormat : WireFormat .roster
    (fun bundle : RosterBundle => validateRosterChain bundle.revisions = .ok ()) encode decode where
  fits encoded := by
    obtain ⟨allowed, rfl⟩ := encode_iff.mp encoded
    rw [length_spelled]
    exact allowed.short
  reads valid encoded := decode_iff.mpr ⟨encoded, valid⟩
  spells decoded := (decode_iff.mp decoded).1

end RosterBundle

/-- The manifests of a bundle as the program builds them, by `Manifest::new`. -/
def ManifestBundle.Built (bundle : ManifestBundle) : Prop :=
  ∀ manifest ∈ bundle.manifests, ∃ records, Manifest.new records = .ok manifest.2

theorem ManifestBundle.wireFormat : WireFormat .manifests Built encode decode where
  fits {bundle bytes} encoded := by
    obtain ⟨-, -, short, rfl⟩ := encode_eq_ok.mp encoded
    rw [length_spelled]
    exact short
  reads {bundle bytes} built encoded := by
    refine decode_encode (fun manifest member => ?_) encoded
    obtain ⟨records, new⟩ := built manifest member
    exact Manifest.new_ordered new
  spells {bundle bytes} decoded := by
    obtain ⟨few, allowed, -, short, rfl⟩ := decode_eq_ok.mp decoded
    exact encode_eq_ok.mpr ⟨few, allowed, short, rfl⟩

theorem wireFixed32_exact : Exact Bytes32.bytes WireReader.fixed32 (fun _ => True) where
  reads {value} rest _ := by
    have length := value.length_eq
    have enough : ¬ (value.bytes ++ rest).length < 32 := by
      rw [List.length_append]
      omega
    simp only [WireReader.fixed32, enough, ↓reduceDIte, Except.ok.injEq, Prod.mk.injEq]
    refine ⟨Bytes32.ext_bytes ?_, ?_⟩
    · simp only [← length, List.take_left]
    · simp only [← length, List.drop_left]
  spells {bytes _ _} accepted := by
    unfold WireReader.fixed32 at accepted
    split at accepted
    · cases accepted
    · cases accepted
      exact ⟨(List.take_append_drop 32 bytes).symm, trivial⟩

/-- What `validate_request` asks of a request. -/
def RequestAllowed (request : FileRequest) : Prop :=
  NameAllowed request.collection ∧ (utf8 request.path).length ≤ maxPathBytes ∧
    ∃ path, ProtocolPath.parse request.path = .ok path

theorem validateRequest_eq_ok {request : FileRequest} :
    validateRequest request = .ok () ↔ RequestAllowed request := by
  unfold validateRequest RequestAllowed
  constructor
  · intro accepted
    obtain ⟨⟨⟩, named, accepted⟩ := Except.bind_ok accepted
    split at accepted
    · cases accepted
    rename_i short
    obtain ⟨path, parsed, -⟩ := Except.bind_ok accepted
    exact ⟨validateCollection_eq_ok.mp named, not_lt.mp short, path, Except.mapError_ok parsed⟩
  · rintro ⟨named, short, path, parsed⟩
    rw [validateCollection_eq_ok.mpr named, Except.ok_bind, if_neg (not_lt.mpr short), parsed]
    rfl

namespace RequestBundle

/-- One request of a bundle on the wire. -/
def entry (request : FileRequest) : List UInt8 :=
  Encoder.string request.collection ++
    (Encoder.string request.path ++ request.recordHash.bytes)

def spelled (bundle : RequestBundle) : List UInt8 :=
  Encoder.u32 bundle.requests.length ++ bundle.requests.flatMap entry

/-- What both loops ask of the requests behind `previous`. -/
def Allowed (previous : Option FileRequest) (requests : List FileRequest) : Prop :=
  (∀ request ∈ requests, RequestAllowed request) ∧
    (previous.toList ++ requests).IsChain (· < ·)

theorem allowed_nil (previous : Option FileRequest) : Allowed previous [] := by
  cases previous <;> simp [Allowed]

theorem allowed_cons {previous : Option FileRequest} {request : FileRequest}
    {rest : List FileRequest} : Allowed previous (request :: rest) ↔ RequestAllowed request ∧
      ¬ (previous.any fun before => decide (request ≤ before)) = true ∧
      Allowed (some request) rest := by
  unfold Allowed
  rw [List.forall_mem_cons, isChain_previous, Option.toList_some, List.singleton_append]
  tauto

theorem encodeRequests_iff {previous : Option FileRequest} {requests : List FileRequest}
    {body : List UInt8} : encodeRequests previous requests = .ok body ↔
      Allowed previous requests ∧ body = requests.flatMap entry := by
  induction requests generalizing previous body with
  | nil =>
      constructor
      · intro encoded
        cases encoded
        exact ⟨allowed_nil previous, rfl⟩
      · rintro ⟨-, rfl⟩
        rfl
  | cons request rest ih =>
      have written : RequestAllowed request →
          WireWriter.string request.collection = .ok (Encoder.string request.collection) ∧
          WireWriter.string request.path = .ok (Encoder.string request.path) := by
        rintro ⟨⟨-, name⟩, path, -⟩
        unfold maxCollectionNameBytes at name
        unfold maxPathBytes at path
        exact ⟨WireWriter.string_ok (by omega), WireWriter.string_ok (by omega)⟩
      rw [allowed_cons]
      unfold encodeRequests
      constructor
      · intro encoded
        obtain ⟨⟨⟩, valid, encoded⟩ := Except.bind_ok encoded
        have allowed := validateRequest_eq_ok.mp valid
        split at encoded
        · cases encoded
        rename_i ordered
        rw [(written allowed).1, Except.ok_bind, (written allowed).2, Except.ok_bind] at encoded
        obtain ⟨others, tail, encoded⟩ := Except.bind_ok encoded
        cases encoded
        obtain ⟨follow, rfl⟩ := ih.mp tail
        refine ⟨⟨allowed, ordered, follow⟩, ?_⟩
        simp only [List.flatMap_cons, entry, List.append_assoc]
      · rintro ⟨⟨allowed, ordered, follow⟩, rfl⟩
        rw [validateRequest_eq_ok.mpr allowed, Except.ok_bind, if_neg ordered,
          (written allowed).1, Except.ok_bind, (written allowed).2, Except.ok_bind,
          ih.mpr ⟨follow, rfl⟩, Except.ok_bind]
        simp only [List.flatMap_cons, entry, List.append_assoc]
        rfl

theorem encode_iff {bundle : RequestBundle} {bytes : List UInt8} :
    bundle.encode = .ok bytes ↔ bundle.requests.length ≤ maxTransfers ∧
      Allowed none bundle.requests ∧ bytes = bundle.spelled := by
  unfold encode
  by_cases few : bundle.requests.length ≤ maxTransfers
  · have fits : bundle.requests.length < 2 ^ 32 := by
      unfold maxTransfers at few
      omega
    rw [if_neg (not_lt.mpr few), WireWriter.count_ok fits, Except.ok_bind]
    constructor
    · intro encoded
      obtain ⟨body, written, encoded⟩ := Except.bind_ok encoded
      obtain ⟨allowed, rfl⟩ := encodeRequests_iff.mp written
      cases encoded
      exact ⟨few, allowed, rfl⟩
    · rintro ⟨-, allowed, rfl⟩
      rw [encodeRequests_iff.mpr ⟨allowed, rfl⟩]
      rfl
  · rw [if_pos (not_le.mp few)]
    constructor
    · intro encoded
      cases encoded
    · rintro ⟨fewer, -⟩
      exact absurd fewer few

/-- The fields of a request are read back; their limits are those of `validate_request`. -/
theorem request_exact : Exact entry decodeRequest (fun request =>
    (utf8 request.collection).length ≤ maxCollectionNameBytes ∧
      (utf8 request.path).length ≤ maxPathBytes) where
  reads rest fits := by
    have names := wireString_exact (show maxCollectionNameBytes < 2 ^ 32 by decide)
    have paths := wireString_exact (show maxPathBytes < 2 ^ 32 by decide)
    simp only [decodeRequest, entry, List.append_assoc, names.reads _ fits.1,
      paths.reads _ fits.2, wireFixed32_exact.reads _ trivial, Except.ok_bind]
    rfl
  spells accepted := by
    have names := wireString_exact (show maxCollectionNameBytes < 2 ^ 32 by decide)
    have paths := wireString_exact (show maxPathBytes < 2 ^ 32 by decide)
    obtain ⟨⟨collection, afterName⟩, named, accepted⟩ := Except.bind_ok accepted
    obtain ⟨⟨path, afterPath⟩, pathed, accepted⟩ := Except.bind_ok accepted
    obtain ⟨⟨hash, last⟩, hashed, accepted⟩ := Except.bind_ok accepted
    cases accepted
    obtain ⟨rfl, shortName⟩ := names.spells named
    obtain ⟨rfl, shortPath⟩ := paths.spells pathed
    obtain ⟨rfl, -⟩ := wireFixed32_exact.spells hashed
    exact ⟨by simp only [entry, List.append_assoc], shortName, shortPath⟩

theorem requests_exact (count : Nat) (previous : Option FileRequest) :
    Exact (List.flatMap entry) (decodeRequests count previous)
      (fun requests => requests.length = count ∧ Allowed previous requests) where
  reads {requests} rest fits := by
    obtain ⟨length, allowed⟩ := fits
    induction requests generalizing count previous with
    | nil =>
        subst length
        rfl
    | cons request others ih =>
        rw [List.length_cons] at length
        subst length
        obtain ⟨first, ordered, follow⟩ := allowed_cons.mp allowed
        have read := request_exact.reads (others.flatMap entry ++ rest) ⟨first.1.2, first.2.1⟩
        rw [decodeRequests, List.flatMap_cons, List.append_assoc, read, Except.ok_bind]
        dsimp only
        rw [validateRequest_eq_ok.mpr first, Except.ok_bind, if_neg ordered,
          ih _ _ rfl follow]
        rfl
  spells {bytes requests rest} accepted := by
    induction count generalizing bytes previous requests with
    | zero =>
        cases accepted
        exact ⟨rfl, rfl, allowed_nil previous⟩
    | succ count ih =>
        unfold decodeRequests at accepted
        obtain ⟨⟨request, middle⟩, read, accepted⟩ := Except.bind_ok accepted
        obtain ⟨⟨⟩, valid, accepted⟩ := Except.bind_ok accepted
        dsimp only at valid accepted
        split at accepted
        · cases accepted
        rename_i ordered
        obtain ⟨⟨others, last⟩, tail, accepted⟩ := Except.bind_ok accepted
        cases accepted
        obtain ⟨rfl, -⟩ := request_exact.spells read
        obtain ⟨rfl, length, follow⟩ := ih _ tail
        refine ⟨by simp only [List.flatMap_cons, List.append_assoc], ?_, ?_⟩
        · rw [List.length_cons, length]
        · exact allowed_cons.mpr ⟨validateRequest_eq_ok.mp valid, ordered, follow⟩

theorem decode_iff {bundle : RequestBundle} {bytes : List UInt8} :
    decode bytes = .ok bundle ↔ bundle.encode = .ok bytes := by
  have counts := wireCount_exact (show maxTransfers < 2 ^ 32 by decide)
  rw [encode_iff]
  unfold decode
  constructor
  · intro decoded
    obtain ⟨⟨count, afterCount⟩, counted, decoded⟩ := Except.bind_ok decoded
    obtain ⟨⟨requests, last⟩, read, decoded⟩ := Except.bind_ok decoded
    obtain ⟨⟨⟩, finished, decoded⟩ := Except.bind_ok decoded
    cases decoded
    obtain ⟨rfl, few⟩ := counts.spells counted
    obtain ⟨rfl, rfl, allowed⟩ := (requests_exact count none).spells read
    rw [WireReader.finish_ok finished, List.append_nil]
    exact ⟨few, allowed, rfl⟩
  · rintro ⟨few, allowed, rfl⟩
    have read := (requests_exact bundle.requests.length none).reads [] ⟨rfl, allowed⟩
    rw [List.append_nil] at read
    rw [spelled, counts.reads _ few, Except.ok_bind]
    dsimp only
    rw [read, Except.ok_bind]
    rfl

theorem length_spelled {bundle : RequestBundle} (few : bundle.requests.length ≤ maxTransfers)
    (allowed : Allowed none bundle.requests) :
    bundle.spelled.length ≤ FrameTag.requests.payloadLimit := by
  have bound := List.sum_le_card_nsmul (bundle.requests.map fun request => (entry request).length)
    4391
  rw [List.length_map, smul_eq_mul] at bound
  have each : ∀ length ∈ bundle.requests.map fun request => (entry request).length,
      length ≤ 4391 := by
    intro length listed
    obtain ⟨request, member, rfl⟩ := List.mem_map.mp listed
    obtain ⟨⟨-, name⟩, path, -⟩ := allowed.1 request member
    unfold maxCollectionNameBytes at name
    unfold maxPathBytes at path
    simp only [entry, Encoder.string, Encoder.sizedBytes, Encoder.u32, List.length_append,
      length_bigEndian, request.recordHash.length_eq]
    omega
  have total := bound each
  have limit : FrameTag.requests.payloadLimit = 8388608 := rfl
  rw [spelled, List.length_append, List.length_flatMap, Encoder.u32, length_bigEndian]
  unfold maxTransfers at few
  omega

theorem wireFormat : WireFormat .requests (fun _ => True) encode decode where
  fits encoded := by
    obtain ⟨few, allowed, rfl⟩ := encode_iff.mp encoded
    exact length_spelled few allowed
  reads _ encoded := decode_iff.mpr encoded
  spells decoded := decode_iff.mp decoded

end RequestBundle

theorem encodeFileHeader_iff {record : Record} {bytes : List UInt8} :
    encodeFileHeader record = .ok bytes ↔ validateRecord record record.collection = .ok () ∧
      record.kind.isFile = true ∧ bytes = record.canonicalBytes := by
  unfold encodeFileHeader
  constructor
  · intro encoded
    obtain ⟨⟨⟩, valid, encoded⟩ := Except.bind_ok encoded
    split at encoded
    · rename_i kind
      split at encoded
      · cases encoded
        exact ⟨valid, by rw [kind]; rfl, rfl⟩
      · cases encoded
    · cases encoded
  · rintro ⟨valid, file, rfl⟩
    rw [valid, Except.ok_bind]
    have name : NameAllowed record.collection := by
      obtain ⟨⟨⟩, named, -⟩ := Except.bind_ok valid
      exact validateCollection_eq_ok.mp named
    have kind := ((validateRecord_eq_ok name).mp valid).2.2
    cases shape : record.kind with
    | tombstone =>
        rw [shape] at file
        cases file
    | file size contentHash =>
        rw [shape] at kind
        exact if_pos kind

theorem decodeFileHeader_iff {record : Record} {bytes : List UInt8} :
    decodeFileHeader bytes = .ok record ↔ encodeFileHeader record = .ok bytes := by
  rw [encodeFileHeader_iff]
  unfold decodeFileHeader
  constructor
  · intro decoded
    obtain ⟨other, read, decoded⟩ := Except.bind_ok decoded
    obtain ⟨⟨⟩, valid, decoded⟩ := Except.bind_ok decoded
    have spelled := Record.canonicalBytes_of_fromCanonical (Except.mapError_ok read)
    split at decoded
    · rename_i kind
      split at decoded
      · cases decoded
        exact ⟨valid, by rw [kind]; rfl, spelled.symm⟩
      · cases decoded
    · cases decoded
  · rintro ⟨valid, file, rfl⟩
    have encoded := encodeFileHeader_iff.mpr ⟨valid, file, rfl⟩
    unfold encodeFileHeader at encoded
    rw [valid, Except.ok_bind] at encoded
    rw [Record.fromCanonical_canonicalBytes, Except.mapError, Except.ok_bind, valid,
      Except.ok_bind]
    split at encoded
    · rename_i kind
      split at encoded
      · rename_i small
        exact if_pos small
      · cases encoded
    · cases encoded

theorem fileHeader_wireFormat :
    WireFormat .file (fun _ => True) encodeFileHeader decodeFileHeader where
  fits {record bytes} encoded := by
    obtain ⟨valid, -, rfl⟩ := encodeFileHeader_iff.mp encoded
    obtain ⟨⟨⟩, named, -⟩ := Except.bind_ok valid
    have name := validateCollection_eq_ok.mp named
    have bound := ((validateRecord_eq_ok name).mp valid).encodedLength_le name
    have limit : FrameTag.file.payloadLimit = 65536 := rfl
    rw [Record.length_canonicalBytes]
    omega
  reads _ encoded := decodeFileHeader_iff.mpr encoded
  spells decoded := decodeFileHeader_iff.mp decoded

/-- Every message of the protocol is read back and written back within the limit of its tag, a
stream of frames is read back frame by frame, and a frame with an unknown tag or too long a payload
is rejected at its header. -/
theorem wire_round_trips [Blake3] [Ed25519] :
    WireFormat .hello (fun _ => True) Hello.encode Hello.decode ∧
    WireFormat .roster
      (fun bundle : RosterBundle => validateRosterChain bundle.revisions = .ok ())
      RosterBundle.encode RosterBundle.decode ∧
    WireFormat .manifests ManifestBundle.Built ManifestBundle.encode ManifestBundle.decode ∧
    WireFormat .requests (fun _ => True) RequestBundle.encode RequestBundle.decode ∧
    WireFormat .file (fun _ => True) encodeFileHeader decodeFileHeader ∧
    (∀ tag payload, payload.length ≤ tag.payloadLimit →
      ∃ frame, encodeFrame tag payload = .ok frame) ∧
    (∀ (frames : List Frame) (encoded : List (List UInt8)),
      frames.mapM (fun frame => encodeFrame frame.1 frame.2) = .ok encoded →
      decodeFrames frames.length encoded.flatten = ([], .ok frames)) ∧
    (∀ header payload : List UInt8, header.length = headerBytes →
      (∀ tag : FrameTag, header.head? ≠ some tag.byte) →
      decodeFrame (header ++ payload) = (payload, .error .unknownFrameType)) ∧
    ∀ (header payload : List UInt8) (tag : FrameTag), header.length = headerBytes →
      header.head? = some tag.byte → tag.payloadLimit < fromBigEndian (header.drop 1) →
      decodeFrame (header ++ payload) = (payload, .error .frameLimit) := by
  refine ⟨Hello.wireFormat, RosterBundle.wireFormat, ManifestBundle.wireFormat,
    RequestBundle.wireFormat, fileHeader_wireFormat, ?_, ?_, ?_, ?_⟩
  · intro tag payload fits
    exact ⟨_, encodeFrame_eq_ok.mpr ⟨fits, rfl⟩⟩
  · intro frames encoded written
    have read := decodeFrames_flatten written []
    rwa [List.append_nil] at read
  · intro header payload five unknown
    apply decodeFrame_rejected five
    cases header with
    | nil => cases five
    | cons first length =>
        unfold decodeHeader
        rw [List.headD_cons, FrameTag.fromByte_unknown fun tag same => unknown tag (by
          rw [List.head?_cons, same])]
        rfl
  · intro header payload tag five headed above
    apply decodeFrame_rejected five
    rw [decodeHeader_of_tag headed, if_pos above]

end Skillsync
