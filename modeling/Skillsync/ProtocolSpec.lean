import Mathlib.Algebra.Group.Action.Defs
import Mathlib.Algebra.Order.BigOperators.Group.List
import Skillsync.Protocol

set_option autoImplicit false

namespace Skillsync

open Fallible Codec

section
variable {limit : Nat}

theorem WireWriter.count_ok {value : Nat} (fits : value < 2 ^ 32) :
    WireWriter.count value = .ok (Encoder.u32 value) := if_pos fits

theorem WireWriter.bytes_ok {value : List UInt8} (fits : value.length < 2 ^ 32) :
    WireWriter.bytes value = .ok (Encoder.sizedBytes value) := by
  simp only [WireWriter.bytes, WireWriter.count_ok fits, Except.ok_bind]
  rfl

theorem WireWriter.string_ok {value : String} (fits : (utf8 value).length < 2 ^ 32) :
    WireWriter.string value = .ok (Encoder.string value) := WireWriter.bytes_ok fits

theorem WireReader.take_append (front rest : List UInt8) :
    WireReader.take front.length (front ++ rest) = .ok (front, rest) := by
  simp [WireReader.take]

theorem WireReader.take_ok {length : Nat} {input front rest : List UInt8}
    (accepted : WireReader.take length input = .ok (front, rest)) :
    input = front ++ rest ∧ front.length = length := by
  unfold WireReader.take at accepted
  split at accepted
  · rename_i enough
    cases accepted
    exact ⟨(List.take_append_drop length input).symm, List.length_take_of_le enough⟩
  · cases accepted

theorem WireReader.finish_ok {input : List UInt8} (accepted : WireReader.finish input = .ok ()) :
    input = [] := by
  unfold WireReader.finish at accepted
  split at accepted
  · assumption
  · cases accepted

theorem wireCount_exact (bounded : limit < 2 ^ 32) :
    Exact Encoder.u32 (WireReader.count limit) (· ≤ limit) where
  reads {value} rest fits := by
    have taken := WireReader.take_append (Encoder.u32 value) rest
    rw [Encoder.u32, length_bigEndian, ← Encoder.u32] at taken
    have read : fromBigEndian (Encoder.u32 value) = value := by
      rw [Encoder.u32, fromBigEndian_bigEndian, Nat.mod_eq_of_lt (by omega)]
    simp only [WireReader.count, taken, Except.ok_bind, read, not_lt.mpr fits, ↓reduceIte]
    rfl
  spells accepted := by
    obtain ⟨⟨front, rest⟩, taken, accepted⟩ := Except.bind_ok accepted
    dsimp only at accepted
    split at accepted
    · cases accepted
    · rename_i within
      cases accepted
      obtain ⟨rfl, length⟩ := WireReader.take_ok taken
      refine ⟨?_, not_lt.mp within⟩
      rw [Encoder.u32, ← length, bigEndian_fromBigEndian]

theorem wireBytes_exact (bounded : limit < 2 ^ 32) :
    Exact Encoder.sizedBytes (WireReader.bytes limit) (fun value => value.length ≤ limit) where
  reads rest fits := by
    simp only [WireReader.bytes, Encoder.sizedBytes, List.append_assoc,
      (wireCount_exact bounded).reads _ fits, Except.ok_bind, WireReader.take_append]
  spells accepted := by
    obtain ⟨⟨length, body⟩, counted, taken⟩ := Except.bind_ok accepted
    obtain ⟨rfl, fits⟩ := (wireCount_exact bounded).spells counted
    obtain ⟨rfl, rfl⟩ := WireReader.take_ok taken
    exact ⟨by rw [Encoder.sizedBytes, List.append_assoc], fits⟩

theorem wireString_exact (bounded : limit < 2 ^ 32) :
    Exact Encoder.string (WireReader.string limit) (fun value => (utf8 value).length ≤ limit) where
  reads rest fits := by
    simp only [WireReader.string, Encoder.string, (wireBytes_exact bounded).reads _ fits,
      Except.ok_bind, fromUtf8_utf8]
    rfl
  spells accepted := by
    obtain ⟨⟨value, body⟩, sized, read⟩ := Except.bind_ok accepted
    obtain ⟨rfl, fits⟩ := (wireBytes_exact bounded).spells sized
    dsimp only at read
    split at read
    · rename_i text decoded
      cases read
      rw [fromUtf8_eq_some decoded] at fits ⊢
      exact ⟨rfl, fits⟩
    · cases read

end

def NameAllowed (collection : String) : Prop :=
  collection ≠ "" ∧ (utf8 collection).length ≤ maxCollectionNameBytes

instance : DecidablePred NameAllowed := fun collection => by
  unfold NameAllowed
  infer_instance

def KindAllowed : RecordKind → Prop
  | .tombstone => True
  | .file size _ => size ≤ maxFileBytes

instance : DecidablePred KindAllowed := fun kind =>
  match kind with
  | .tombstone => .isTrue trivial
  | .file size _ => Nat.decLe size maxFileBytes

theorem validateCollection_eq_ok {collection : String} :
    validateCollection collection = .ok () ↔ NameAllowed collection := by
  unfold validateCollection validateShortString NameAllowed
  split
  · rename_i rejected
    constructor
    · intro accepted
      cases accepted
    · rintro ⟨named, short⟩
      rcases rejected with empty | long
      · exact absurd empty named
      · exact absurd short (not_le.mpr long)
  · rename_i accepted
    exact ⟨fun _ => ⟨fun empty => accepted (Or.inl empty), not_lt.mp fun long =>
      accepted (Or.inr long)⟩, fun _ => rfl⟩

/-- What `validate_record` asks of a record. -/
def RecordAllowed (collection : String) (record : Record) : Prop :=
  record.collection = collection ∧ (utf8 record.path.text).length ≤ maxPathBytes ∧
    KindAllowed record.kind

instance (collection : String) : DecidablePred (RecordAllowed collection) := fun record => by
  unfold RecordAllowed
  infer_instance

theorem validateRecord_eq_ok {record : Record} {collection : String}
    (named : NameAllowed collection) :
    validateRecord record collection = .ok () ↔ RecordAllowed collection record := by
  simp only [validateRecord, validateCollection_eq_ok.mpr named, Except.ok_bind, RecordAllowed]
  by_cases same : record.collection = collection
  · by_cases short : (utf8 record.path.text).length ≤ maxPathBytes
    · simp only [same, short, not_lt.mpr short, ne_eq, not_true_eq_false, ↓reduceIte, true_and]
      cases record.kind with
      | tombstone => exact ⟨fun _ => trivial, fun _ => rfl⟩
      | file size contentHash =>
          by_cases small : size ≤ maxFileBytes
          · simp only [KindAllowed, small, not_lt.mpr small, ↓reduceIte, iff_true]
            rfl
          · simp only [KindAllowed, small, not_le.mp small, ↓reduceIte, iff_false]
            intro accepted
            cases accepted
    · simp only [same, short, not_le.mp short, ne_eq, not_true_eq_false, ↓reduceIte, true_and,
        false_and, iff_false]
      intro accepted
      cases accepted
  · simp only [same, ne_eq, not_false_eq_true, ↓reduceIte, false_and, iff_false]
    intro accepted
    cases accepted

/-- What the wire asks of one manifest. -/
structure ManifestAllowed (manifest : String × Manifest) : Prop where
  name : NameAllowed manifest.1
  records : ∀ record ∈ manifest.2.records, RecordAllowed manifest.1 record

/-- What `canonical_bytes` writes where it does not panic. -/
def Manifest.spelled (manifest : Manifest) : List UInt8 :=
  Manifest.domain ++
    (Encoder.u32 manifest.records.length ++ manifest.records.flatMap Manifest.encodeRecord)

def Manifest.encodedLength (manifest : Manifest) : Nat :=
  26 + (manifest.records.map fun record => 4 + record.encodedLength).sum

theorem Manifest.length_spelled (manifest : Manifest) :
    manifest.spelled.length = manifest.encodedLength := by
  have start : Manifest.domain.length = 22 := by
    rw [Manifest.domain, length_utf8]
    decide
  have entries : (manifest.records.flatMap Manifest.encodeRecord).length =
      (manifest.records.map fun record => 4 + record.encodedLength).sum := by
    rw [List.length_flatMap]
    congr 1
    apply List.map_congr_left
    intro record _
    rw [Manifest.encodeRecord, Encoder.sizedBytes, List.length_append, Encoder.u32,
      length_bigEndian, Record.length_canonicalBytes]
  rw [Manifest.spelled, List.length_append, List.length_append, entries, Encoder.u32,
    length_bigEndian, start, Manifest.encodedLength]
  omega

theorem RecordAllowed.encodedLength_le {collection : String} {record : Record}
    (named : NameAllowed collection) (allowed : RecordAllowed collection record) :
    record.encodedLength ≤ 4460 := by
  obtain ⟨same, short, -⟩ := allowed
  have name := named.2
  rw [← same] at name
  unfold maxCollectionNameBytes at name
  unfold maxPathBytes at short
  unfold Record.encodedLength
  split <;> omega

theorem ManifestAllowed.encodedLength_le {manifest : String × Manifest}
    (allowed : ManifestAllowed manifest) :
    manifest.2.encodedLength ≤ 26 + manifest.2.records.length * 4464 := by
  have bound := List.sum_le_card_nsmul
    (manifest.2.records.map fun record => 4 + record.encodedLength) 4464
  rw [List.length_map, smul_eq_mul] at bound
  have each : ∀ length ∈ manifest.2.records.map fun record => 4 + record.encodedLength,
      length ≤ 4464 := by
    intro length listed
    obtain ⟨record, member, rfl⟩ := List.mem_map.mp listed
    have record := (allowed.records record member).encodedLength_le allowed.name
    omega
  unfold Manifest.encodedLength
  have total := bound each
  omega

/-- An allowed manifest of an allowed number of records has canonical bytes. -/
theorem ManifestAllowed.canonicalBytes {manifest : String × Manifest}
    (allowed : ManifestAllowed manifest)
    (few : manifest.2.records.length ≤ maxManifestRecords) :
    manifest.2.canonicalBytes = some manifest.2.spelled := by
  unfold maxManifestRecords at few
  apply if_pos
  refine ⟨by omega, fun record member => ?_⟩
  have length := (allowed.records record member).encodedLength_le allowed.name
  rw [Record.length_canonicalBytes]
  omega

namespace ManifestBundle

def recordCount (manifests : List (String × Manifest)) : Nat :=
  (manifests.map fun manifest => manifest.2.records.length).sum

/-- One manifest of a bundle on the wire. -/
def entry (manifest : String × Manifest) : List UInt8 :=
  Encoder.string manifest.1 ++ Encoder.sizedBytes manifest.2.spelled

/-- What `encode` asks of the manifests, and `decode` of what it reads. -/
structure Allowed (seen : List String) (records : Nat) (manifests : List (String × Manifest)) :
    Prop where
  each : ∀ manifest ∈ manifests, ManifestAllowed manifest
  fresh : ∀ manifest ∈ manifests, manifest.1 ∉ seen
  distinct : (manifests.map Prod.fst).Nodup
  few : records + recordCount manifests ≤ maxManifestRecords

theorem allowed_cons {seen : List String} {records : Nat} {manifest : String × Manifest}
    {rest : List (String × Manifest)} :
    Allowed seen records (manifest :: rest) ↔ ManifestAllowed manifest ∧ manifest.1 ∉ seen ∧
      Allowed (manifest.1 :: seen) (records + manifest.2.records.length) rest := by
  have counted : recordCount (manifest :: rest) =
      manifest.2.records.length + recordCount rest := by
    simp only [recordCount, List.map_cons, List.sum_cons]
  constructor
  · rintro ⟨each, fresh, distinct, few⟩
    rw [List.map_cons, List.nodup_cons] at distinct
    rw [List.forall_mem_cons] at each fresh
    refine ⟨each.1, fresh.1, each.2, fun other member listed => ?_, distinct.2, by omega⟩
    rcases List.mem_cons.mp listed with same | before
    · exact distinct.1 (same ▸ List.mem_map_of_mem member)
    · exact fresh.2 other member before
  · rintro ⟨first, unseen, each, fresh, distinct, few⟩
    refine ⟨List.forall_mem_cons.mpr ⟨first, each⟩, List.forall_mem_cons.mpr ⟨unseen, ?_⟩, ?_,
      by omega⟩
    · exact fun other member before => fresh other member (List.mem_cons_of_mem _ before)
    · rw [List.map_cons, List.nodup_cons]
      refine ⟨fun listed => ?_, distinct⟩
      obtain ⟨other, member, same⟩ := List.mem_map.mp listed
      exact fresh other member (same ▸ List.mem_cons_self)

theorem written {collection : String} {manifest : Manifest}
    (allowed : ManifestAllowed (collection, manifest))
    (few : manifest.records.length ≤ maxManifestRecords) :
    WireWriter.string collection = .ok (Encoder.string collection) ∧
      manifest.canonicalBytes = some manifest.spelled ∧
      WireWriter.bytes manifest.spelled = .ok (Encoder.sizedBytes manifest.spelled) := by
  have canonical := allowed.canonicalBytes few
  have short : (utf8 collection).length ≤ 255 := allowed.name.2
  have bound : manifest.encodedLength ≤ 26 + manifest.records.length * 4464 :=
    allowed.encodedLength_le
  unfold maxManifestRecords at few
  refine ⟨WireWriter.string_ok (by omega), canonical, WireWriter.bytes_ok ?_⟩
  rw [Manifest.length_spelled]
  omega

theorem encodeManifests_eq_ok {seen : List String} {records : Nat}
    {manifests : List (String × Manifest)} {body : List UInt8}
    (below : records ≤ maxManifestRecords) :
    encodeManifests seen records manifests = .ok body ↔
      Allowed seen records manifests ∧ body = manifests.flatMap entry := by
  induction manifests generalizing seen records body with
  | nil =>
      constructor
      · intro encoded
        cases encoded
        exact ⟨⟨by simp, by simp, List.nodup_nil, below⟩, rfl⟩
      · rintro ⟨-, rfl⟩
        rfl
  | cons manifest rest ih =>
      obtain ⟨collection, manifest⟩ := manifest
      rw [allowed_cons]
      constructor
      · intro encoded
        unfold encodeManifests at encoded
        obtain ⟨⟨⟩, named, encoded⟩ := Except.bind_ok encoded
        split at encoded
        · cases encoded
        rename_i unseen
        split at encoded
        · cases encoded
        rename_i few
        obtain ⟨⟨⟩, checked, encoded⟩ := Except.bind_ok encoded
        have name := validateCollection_eq_ok.mp named
        have allowed : ManifestAllowed (collection, manifest) :=
          ⟨name, fun record member =>
            (validateRecord_eq_ok name).mp (forM_eq_ok.mp checked record member)⟩
        have within : records + manifest.records.length ≤ maxManifestRecords := not_lt.mp few
        obtain ⟨spelledName, canonical, spelledBody⟩ := written allowed (by omega)
        rw [spelledName, canonical, Except.ok_bind, Except.ok_bind, spelledBody,
          Except.ok_bind] at encoded
        obtain ⟨others, tail, encoded⟩ := Except.bind_ok encoded
        cases encoded
        obtain ⟨follow, rfl⟩ := (ih within).mp tail
        refine ⟨⟨allowed, unseen, follow⟩, ?_⟩
        simp only [List.flatMap_cons, entry, List.append_assoc]
      · rintro ⟨⟨allowed, unseen, follow⟩, rfl⟩
        have few : records + manifest.records.length + recordCount rest ≤ maxManifestRecords :=
          follow.few
        have within : records + manifest.records.length ≤ maxManifestRecords := by omega
        have checked : (manifest.records.forM fun record => validateRecord record collection) =
            .ok () := forM_eq_ok.mpr fun record member =>
          (validateRecord_eq_ok allowed.name).mpr (allowed.records record member)
        obtain ⟨spelledName, canonical, spelledBody⟩ := written allowed (by omega)
        unfold encodeManifests
        rw [validateCollection_eq_ok.mpr allowed.name, Except.ok_bind, if_neg unseen,
          if_neg (not_lt.mpr within), checked, Except.ok_bind, spelledName, canonical,
          Except.ok_bind, Except.ok_bind, spelledBody, Except.ok_bind,
          (ih within).mpr ⟨follow, rfl⟩, Except.ok_bind]
        simp only [List.flatMap_cons, entry, List.append_assoc]
        rfl

/-- The bytes of a bundle on the wire. -/
def spelled (bundle : ManifestBundle) : List UInt8 :=
  Encoder.u32 bundle.manifests.length ++ bundle.manifests.flatMap entry

def encodedLength (bundle : ManifestBundle) : Nat :=
  4 + (bundle.manifests.map fun manifest =>
    8 + (utf8 manifest.1).length + manifest.2.encodedLength).sum

theorem length_spelled (bundle : ManifestBundle) :
    bundle.spelled.length = bundle.encodedLength := by
  have entries : (bundle.manifests.flatMap entry).length = (bundle.manifests.map fun manifest =>
      8 + (utf8 manifest.1).length + manifest.2.encodedLength).sum := by
    rw [List.length_flatMap]
    congr 1
    apply List.map_congr_left
    intro manifest _
    simp only [entry, Encoder.string, Encoder.sizedBytes, Encoder.u32, List.length_append,
      length_bigEndian, Manifest.length_spelled]
    omega
  rw [spelled, List.length_append, entries, Encoder.u32, length_bigEndian, encodedLength]

/-- What `encode` accepts, and what it writes. -/
theorem encode_eq_ok {bundle : ManifestBundle} {bytes : List UInt8} :
    bundle.encode = .ok bytes ↔ bundle.manifests.length ≤ maxCollections ∧
      Allowed [] 0 bundle.manifests ∧ bundle.encodedLength ≤ maxManifestBytes ∧
      bytes = bundle.spelled := by
  rw [← length_spelled]
  unfold encode
  by_cases many : maxCollections < bundle.manifests.length
  · rw [if_pos many]
    constructor
    · intro encoded
      cases encoded
    · rintro ⟨fewer, -⟩
      exact absurd fewer (not_le.mpr many)
  · have fits : bundle.manifests.length < 2 ^ 32 := by
      unfold maxCollections at many
      omega
    rw [if_neg many, WireWriter.count_ok fits, Except.ok_bind]
    constructor
    · intro encoded
      obtain ⟨body, inner, encoded⟩ := Except.bind_ok encoded
      obtain ⟨allowed, rfl⟩ := (encodeManifests_eq_ok (Nat.zero_le _)).mp inner
      split at encoded
      · cases encoded
      · rename_i short
        cases encoded
        exact ⟨not_lt.mp many, allowed, not_lt.mp short, rfl⟩
    · rintro ⟨-, allowed, short, rfl⟩
      rw [(encodeManifests_eq_ok (Nat.zero_le _)).mpr ⟨allowed, rfl⟩, Except.ok_bind]
      exact if_neg (not_lt.mpr short)

/-- What `decode` asks of one manifest beyond the validations. -/
def Canonical (manifest : String × Manifest) : Prop :=
  Manifest.Ordered manifest.2.records ∧ manifest.2.encodedLength ≤ maxManifestBytes

theorem decodeManifests_ok {count records : Nat} {seen : List String} {bytes rest : List UInt8}
    {manifests : List (String × Manifest)} (below : records ≤ maxManifestRecords)
    (decoded : decodeManifests count seen records bytes = .ok (manifests, rest)) :
    bytes = manifests.flatMap entry ++ rest ∧ manifests.length = count ∧
      Allowed seen records manifests ∧ ∀ manifest ∈ manifests, Canonical manifest := by
  induction count generalizing seen records bytes manifests with
  | zero =>
      cases decoded
      exact ⟨rfl, rfl, ⟨by simp, by simp, List.nodup_nil, below⟩, by simp⟩
  | succ count ih =>
      unfold decodeManifests at decoded
      obtain ⟨⟨collection, afterName⟩, named, decoded⟩ := Except.bind_ok decoded
      obtain ⟨⟨⟩, valid, decoded⟩ := Except.bind_ok decoded
      dsimp only at valid decoded
      split at decoded
      · cases decoded
      rename_i unseen
      obtain ⟨⟨canonical, afterBody⟩, sized, decoded⟩ := Except.bind_ok decoded
      obtain ⟨manifest, read, decoded⟩ := Except.bind_ok decoded
      dsimp only at decoded
      split at decoded
      · cases decoded
      rename_i few
      obtain ⟨⟨⟩, checked, decoded⟩ := Except.bind_ok decoded
      obtain ⟨⟨others, last⟩, tail, decoded⟩ := Except.bind_ok decoded
      cases decoded
      have name := validateCollection_eq_ok.mp valid
      have allowed : ManifestAllowed (collection, manifest) :=
        ⟨name, fun record member =>
          (validateRecord_eq_ok name).mp (forM_eq_ok.mp checked record member)⟩
      have within : records + manifest.records.length ≤ maxManifestRecords := not_lt.mp few
      obtain ⟨rfl, length, follow, canonicals⟩ := ih within tail
      obtain ⟨rfl, -⟩ := (wireString_exact (by decide)).spells named
      obtain ⟨rfl, short⟩ := (wireBytes_exact (by decide)).spells sized
      obtain ⟨encoded, ordered, -⟩ :=
        Manifest.fromCanonicalWithLimit_ok (Except.mapError_ok read)
      have same : manifest.spelled = canonical := by
        obtain ⟨-, spelled, -⟩ := written allowed (by omega)
        exact Option.some.inj (spelled.symm.trans encoded)
      rw [← same, Manifest.length_spelled] at short
      refine ⟨?_, by rw [List.length_cons, length], allowed_cons.mpr ⟨allowed, unseen, follow⟩,
        List.forall_mem_cons.mpr ⟨⟨ordered, short⟩, canonicals⟩⟩
      simp only [List.flatMap_cons, entry, same, List.append_assoc]

theorem decodeManifests_flatMap {records : Nat} {seen : List String}
    {manifests : List (String × Manifest)} (allowed : Allowed seen records manifests)
    (canonical : ∀ manifest ∈ manifests, Canonical manifest) (rest : List UInt8) :
    decodeManifests manifests.length seen records (manifests.flatMap entry ++ rest) =
      .ok (manifests, rest) := by
  induction manifests generalizing seen records with
  | nil => rfl
  | cons manifest others ih =>
      obtain ⟨collection, manifest⟩ := manifest
      obtain ⟨allowedManifest, unseen, follow⟩ := allowed_cons.mp allowed
      obtain ⟨⟨ordered, short⟩, canonicals⟩ := List.forall_mem_cons.mp canonical
      have few : records + manifest.records.length + recordCount others ≤ maxManifestRecords :=
        follow.few
      have within : ¬ maxManifestRecords < records + manifest.records.length := by omega
      obtain ⟨-, spelledBytes, -⟩ := written allowedManifest (by omega)
      rw [← Manifest.length_spelled] at short
      have read := Manifest.fromCanonicalWithLimit_canonicalBytes ordered spelledBytes
        (show manifest.records.length ≤ maxManifestRecords - records by omega)
      have checked : (manifest.records.forM fun record => validateRecord record collection) =
          .ok () := forM_eq_ok.mpr fun record member =>
        (validateRecord_eq_ok allowedManifest.name).mpr (allowedManifest.records record member)
      have name := (wireString_exact (show maxCollectionNameBytes < 2 ^ 32 by decide)).reads
        (Encoder.sizedBytes manifest.spelled ++ (others.flatMap entry ++ rest))
        allowedManifest.name.2
      have body := (wireBytes_exact (show maxManifestBytes < 2 ^ 32 by decide)).reads
        (others.flatMap entry ++ rest) short
      simp only [List.length_cons, decodeManifests, List.flatMap_cons, entry, List.append_assoc]
      rw [name, Except.ok_bind]
      dsimp only
      rw [validateCollection_eq_ok.mpr allowedManifest.name, Except.ok_bind, if_neg unseen, body,
        Except.ok_bind]
      dsimp only
      rw [read]
      simp only [Except.mapError, Except.ok_bind, within, ↓reduceIte, checked,
        ih follow canonicals]
      rfl

/-- What `decode` accepts. -/
theorem decode_eq_ok {bundle : ManifestBundle} {bytes : List UInt8} :
    decode bytes = .ok bundle ↔ bundle.manifests.length ≤ maxCollections ∧
      Allowed [] 0 bundle.manifests ∧ (∀ manifest ∈ bundle.manifests, Canonical manifest) ∧
      bundle.encodedLength ≤ maxManifestBytes ∧ bytes = bundle.spelled := by
  rw [← length_spelled]
  unfold decode
  have counts := wireCount_exact (show maxCollections < 2 ^ 32 by decide)
  constructor
  · intro decoded
    split at decoded
    · cases decoded
    rename_i short
    obtain ⟨⟨count, afterCount⟩, counted, decoded⟩ := Except.bind_ok decoded
    obtain ⟨⟨manifests, last⟩, body, decoded⟩ := Except.bind_ok decoded
    obtain ⟨⟨⟩, finished, decoded⟩ := Except.bind_ok decoded
    cases decoded
    obtain ⟨rfl, few⟩ := counts.spells counted
    obtain ⟨rfl, rfl, allowed, canonical⟩ := decodeManifests_ok (Nat.zero_le _) body
    rw [WireReader.finish_ok finished, List.append_nil] at short ⊢
    exact ⟨few, allowed, canonical, not_lt.mp short, rfl⟩
  · rintro ⟨few, allowed, canonical, short, rfl⟩
    have body := decodeManifests_flatMap allowed canonical []
    rw [List.append_nil] at body
    rw [if_neg (not_lt.mpr short), spelled, counts.reads _ few, Except.ok_bind]
    dsimp only
    rw [body]
    rfl

theorem encodedLength_member {bundle : ManifestBundle} {manifest : String × Manifest}
    (member : manifest ∈ bundle.manifests) :
    manifest.2.encodedLength ≤ bundle.encodedLength := by
  have part := List.single_le_sum
    (l := bundle.manifests.map fun manifest =>
      8 + (utf8 manifest.1).length + manifest.2.encodedLength) (fun _ _ => Nat.zero_le _) _
    (List.mem_map_of_mem member)
  unfold encodedLength
  omega

/-- `decode` reads back what `encode` wrote. -/
theorem decode_encode {bundle : ManifestBundle} {bytes : List UInt8}
    (ordered : ∀ manifest ∈ bundle.manifests, Manifest.Ordered manifest.2.records)
    (encoded : bundle.encode = .ok bytes) : decode bytes = .ok bundle := by
  obtain ⟨few, allowed, short, rfl⟩ := encode_eq_ok.mp encoded
  refine decode_eq_ok.mpr ⟨few, allowed, fun manifest member => ?_, short, rfl⟩
  exact ⟨ordered manifest member, (encodedLength_member member).trans short⟩

end ManifestBundle

theorem validateOrdered_eq_ok {previous : Option String} {collections : List String} :
    validateOrdered previous collections = .ok () ↔
      (∀ collection ∈ collections, NameAllowed collection) ∧
      (previous.toList ++ collections).IsChain (· < ·) := by
  induction collections generalizing previous with
  | nil => cases previous <;> simp [validateOrdered]
  | cons collection rest ih =>
      unfold validateOrdered
      by_cases named : NameAllowed collection
      · rw [validateCollection_eq_ok.mpr named, Except.ok_bind, List.forall_mem_cons]
        cases previous with
        | none =>
            rw [if_neg (by simp), ih]
            exact ⟨fun tail => ⟨⟨named, tail.1⟩, tail.2⟩, fun whole => ⟨whole.1.2, whole.2⟩⟩
        | some item =>
            have chained : ((some item).toList ++ collection :: rest).IsChain (· < ·) ↔
                item < collection ∧ (collection :: rest).IsChain (· < ·) :=
              List.isChain_cons_cons
            rw [chained]
            by_cases less : item < collection
            · have below : ¬ ((some item).any fun item => decide (collection ≤ item)) = true := by
                rw [Option.any_some, decide_eq_true_eq]
                exact not_le.mpr less
              rw [if_neg below, ih]
              exact ⟨fun tail => ⟨⟨named, tail.1⟩, less, tail.2⟩,
                fun whole => ⟨whole.1.2, whole.2.2⟩⟩
            · have above : ((some item).any fun item => decide (collection ≤ item)) = true := by
                rw [Option.any_some, decide_eq_true_eq]
                exact not_lt.mp less
              rw [if_pos above]
              constructor
              · intro accepted
                cases accepted
              · rintro ⟨-, first, -⟩
                exact absurd first less
      · constructor
        · intro accepted
          obtain ⟨⟨⟩, valid, -⟩ := Except.bind_ok accepted
          exact absurd (validateCollection_eq_ok.mp valid) named
        · rintro ⟨each, -⟩
          exact absurd (each collection List.mem_cons_self) named

theorem validateCollections_eq_ok {collections : List String} :
    validateCollections collections = .ok () ↔ collections.length ≤ maxCollections ∧
      (∀ collection ∈ collections, NameAllowed collection) ∧ collections.IsChain (· < ·) := by
  unfold validateCollections
  by_cases few : collections.length ≤ maxCollections
  · rw [if_neg (not_lt.mpr few), validateOrdered_eq_ok]
    exact ⟨fun accepted => ⟨few, accepted⟩, fun accepted => accepted.2⟩
  · rw [if_pos (not_le.mp few)]
    constructor
    · intro accepted
      cases accepted
    · rintro ⟨fewer, -⟩
      exact absurd fewer few

namespace Hello

/-- The bytes of a hello on the wire. -/
def spelled (hello : Hello) : List UInt8 :=
  Encoder.u32 hello.collections.length ++
    (hello.collections.flatMap Encoder.string ++ Encoder.string hello.endpointAddrJson)

theorem names_written {hello : Hello} (valid : validateCollections hello.collections = .ok ()) :
    WireWriter.count hello.collections.length = .ok (Encoder.u32 hello.collections.length) ∧
      hello.collections.mapM WireWriter.string =
        .ok (hello.collections.map Encoder.string) := by
  obtain ⟨few, named, -⟩ := validateCollections_eq_ok.mp valid
  unfold maxCollections at few
  refine ⟨WireWriter.count_ok (by omega), mapM_eq_ok fun collection member => ?_⟩
  have name := (named collection member).2
  unfold maxCollectionNameBytes at name
  exact WireWriter.string_ok (by omega)

/-- What `encode` accepts, and what it writes. -/
theorem encode_iff {hello : Hello} {bytes : List UInt8} : hello.encode = .ok bytes ↔
    validateCollections hello.collections = .ok () ∧
      (utf8 hello.endpointAddrJson).length ≤ maxAddressHintBytes ∧ bytes = hello.spelled := by
  have hinted : (utf8 hello.endpointAddrJson).length ≤ maxAddressHintBytes →
      WireWriter.string hello.endpointAddrJson = .ok (Encoder.string hello.endpointAddrJson) := by
    intro short
    unfold maxAddressHintBytes at short
    exact WireWriter.string_ok (by omega)
  unfold encode
  constructor
  · intro encoded
    obtain ⟨⟨⟩, valid, encoded⟩ := Except.bind_ok encoded
    obtain ⟨count, names⟩ := names_written valid
    split at encoded
    · cases encoded
    rename_i short
    rw [count, Except.ok_bind, names, Except.ok_bind, hinted (not_lt.mp short),
      Except.ok_bind] at encoded
    cases encoded
    exact ⟨valid, not_lt.mp short, rfl⟩
  · rintro ⟨valid, short, rfl⟩
    obtain ⟨count, names⟩ := names_written valid
    rw [valid, Except.ok_bind, if_neg (not_lt.mpr short), count, Except.ok_bind, names,
      Except.ok_bind, hinted short]
    rfl

/-- `Hello::encode` asks for what `validate_collections` asks and for a short hint. -/
theorem encode_eq_ok {hello : Hello} :
    (∃ bytes, hello.encode = .ok bytes) ↔
      validateCollections hello.collections = .ok () ∧
      (utf8 hello.endpointAddrJson).length ≤ maxAddressHintBytes := by
  simp only [encode_iff, exists_and_left, exists_eq, and_true]

end Hello

end Skillsync
