import Skillsync.Record

set_option autoImplicit false

namespace Skillsync

open Fallible Codec

namespace Manifest

def domain : List UInt8 := utf8 "skillsync-manifest-v1\x00"

/-- The counts and lengths `canonical_bytes` writes fit their four bytes. -/
def Encodable (manifest : Manifest) : Prop :=
  manifest.records.length < 2 ^ 32 ∧
    ∀ record ∈ manifest.records, record.canonicalBytes.length < 2 ^ 32

instance : DecidablePred Encodable := fun manifest => by
  unfold Encodable
  infer_instance

def encodeRecord (record : Record) : List UInt8 := Encoder.sizedBytes record.canonicalBytes

/-- `canonical_bytes`; `none` where one of its `expect` calls panics. -/
def canonicalBytes (manifest : Manifest) : Option (List UInt8) :=
  if manifest.Encodable then
    some (domain ++ (Encoder.u32 manifest.records.length ++ manifest.records.flatMap encodeRecord))
  else none

/-- One iteration of the loop of `from_canonical_with_limit`. -/
def decodeRecord (bytes : List UInt8) : Except RecordError (Record × List UInt8) := do
  let (canonical, rest) ← (Decoder.sizedBytes bytes).mapError .canonical
  let record ← Record.fromCanonical canonical
  return (record, rest)

/-- `from_canonical_with_limit`. -/
def fromCanonicalWithLimit (bytes : List UInt8) (maxRecords : Nat) :
    Except RecordError Manifest := do
  let rest ← (Decoder.new bytes domain).mapError .canonical
  let (count, rest) ← (Decoder.u32 rest).mapError .canonical
  if maxRecords < count then throw .manifestLimit
  else
    let (records, rest) ← Codec.times decodeRecord count rest
    (Decoder.finish rest).mapError .canonical
    let manifest ← Manifest.new records
    if manifest.canonicalBytes = some bytes then return manifest
    else throw (.canonical .unorderedKeys)

/-- `usize::MAX`. -/
def noLimit : Nat := 2 ^ 64 - 1

/-- `from_canonical`. -/
def fromCanonical (bytes : List UInt8) : Except RecordError Manifest :=
  fromCanonicalWithLimit bytes noLimit

theorem record_exact : Exact encodeRecord decodeRecord
    (fun record => record.canonicalBytes.length < 2 ^ 32) where
  reads rest fits := by
    simp only [decodeRecord, encodeRecord, Decoder.sizedBytes_append _ fits, Except.mapError,
      Except.ok_bind, Record.fromCanonical_canonicalBytes]
    rfl
  spells accepted := by
    obtain ⟨⟨canonical, last⟩, sized, reading⟩ := Except.bind_ok accepted
    obtain ⟨record, decoded, built⟩ := Except.bind_ok reading
    cases built
    obtain ⟨rfl, fits⟩ := sizedBytes_exact.spells (Except.mapError_ok sized)
    rw [← Record.canonicalBytes_of_fromCanonical decoded] at fits ⊢
    exact ⟨rfl, fits⟩

/-- The records of a manifest are strictly ordered by key. -/
def Ordered (records : List Record) : Prop :=
  records.Pairwise fun left right => left.key < right.key

theorem Ordered.distinct {records : List Record} (ordered : Ordered records) :
    (records.map Record.key).Nodup := by
  rw [List.nodup_iff_pairwise_ne, List.pairwise_map]
  exact ordered.imp fun less => ne_of_lt less

theorem Ordered.eq_of_perm {left right : List Record} (first : Ordered left)
    (second : Ordered right) (same : left.Perm right) : left = right := by
  unfold Ordered at first second
  apply same.eq_of_pairwise _ first second
  intro a b _ _ less greater
  exact absurd less (lt_asymm greater)

theorem sort_ordered {records : List Record} (distinct : (records.map Record.key).Nodup) :
    Ordered (records.mergeSort fun left right => decide (left.key ≤ right.key)) := by
  have sorted : (records.mergeSort fun left right => decide (left.key ≤ right.key)).Pairwise
      fun left right => decide (left.key ≤ right.key) = true := by
    apply List.pairwise_mergeSort
    · intro a b c first second
      simp only [decide_eq_true_eq] at first second ⊢
      exact le_trans first second
    · intro a b
      simpa using le_total a.key b.key
  have kept : ((records.mergeSort fun left right =>
      decide (left.key ≤ right.key)).map Record.key).Nodup :=
    ((List.mergeSort_perm records _).map Record.key).nodup_iff.mpr distinct
  rw [List.nodup_iff_pairwise_ne, List.pairwise_map] at kept
  exact sorted.imp₂ (fun _ _ below differs => lt_of_le_of_ne (of_decide_eq_true below) differs) kept

/-- The manifest of records with distinct keys. -/
def sorted (records : List Record) : Manifest :=
  ⟨records.mergeSort fun left right => decide (left.key ≤ right.key)⟩

theorem new_of_distinct {records : List Record} (distinct : (records.map Record.key).Nodup) :
    Manifest.new records = .ok (sorted records) := by
  have kept := (sort_ordered distinct).distinct
  simp only [Manifest.new, kept, ↓reduceIte, sorted]

theorem new_ordered {records : List Record} {manifest : Manifest}
    (built : Manifest.new records = .ok manifest) : Ordered manifest.records := by
  unfold Manifest.new at built
  dsimp only at built
  split at built
  · rename_i distinct
    cases built
    apply sort_ordered
    exact ((List.mergeSort_perm records _).map Record.key).nodup_iff.mp distinct
  · cases built

theorem new_perm {records : List Record} {manifest : Manifest}
    (built : Manifest.new records = .ok manifest) : manifest.records.Perm records := by
  unfold Manifest.new at built
  dsimp only at built
  split at built
  · cases built
    exact List.mergeSort_perm records _
  · cases built

theorem new_of_ordered {records : List Record} (ordered : Ordered records) :
    Manifest.new records = .ok ⟨records⟩ := by
  have built := new_of_distinct ordered.distinct
  have same := (new_ordered built).eq_of_perm ordered (new_perm built)
  rw [built]
  exact congrArg Except.ok (congrArg Manifest.mk same)

theorem new_permuted {records permuted : List Record}
    (distinct : (records.map Record.key).Nodup) (same : permuted.Perm records) :
    Manifest.new permuted = Manifest.new records := by
  have distinct' : (permuted.map Record.key).Nodup := (same.map Record.key).nodup_iff.mpr distinct
  have built := new_of_distinct distinct
  have built' := new_of_distinct distinct'
  have equal := (new_ordered built').eq_of_perm (new_ordered built)
    ((new_perm built').trans (same.trans (new_perm built).symm))
  rw [built, built']
  exact congrArg Except.ok (congrArg Manifest.mk equal)

theorem canonicalBytes_eq_some {manifest : Manifest} {bytes : List UInt8}
    (encoded : manifest.canonicalBytes = some bytes) :
    manifest.Encodable ∧ bytes = domain ++
      (Encoder.u32 manifest.records.length ++ manifest.records.flatMap encodeRecord) := by
  unfold canonicalBytes at encoded
  split at encoded
  · rename_i encodable
    cases encoded
    exact ⟨encodable, rfl⟩
  · cases encoded

theorem fromCanonicalWithLimit_canonicalBytes {manifest : Manifest} {bytes : List UInt8}
    {maxRecords : Nat} (ordered : Ordered manifest.records)
    (encoded : manifest.canonicalBytes = some bytes)
    (allowed : manifest.records.length ≤ maxRecords) :
    fromCanonicalWithLimit bytes maxRecords = .ok manifest := by
  obtain ⟨⟨countFits, recordsFit⟩, spelled⟩ := canonicalBytes_eq_some encoded
  have within : ¬ maxRecords < manifest.records.length := by omega
  have read := (record_exact.times manifest.records.length).reads [] ⟨rfl, recordsFit⟩
  rw [List.append_nil] at read
  have built := new_of_ordered ordered
  rw [fromCanonicalWithLimit, spelled]
  simp only [Decoder.new_append, Except.mapError, Except.ok_bind, Decoder.u32_append _ countFits,
    within, ↓reduceIte, read, Decoder.finish, built]
  rw [← spelled, encoded]
  simp only [↓reduceIte]
  rfl

/-- What `from_canonical_with_limit` accepts. -/
theorem fromCanonicalWithLimit_ok {bytes : List UInt8} {maxRecords : Nat} {manifest : Manifest}
    (accepted : fromCanonicalWithLimit bytes maxRecords = .ok manifest) :
    manifest.canonicalBytes = some bytes ∧ Ordered manifest.records ∧
      manifest.records.length ≤ maxRecords := by
  unfold fromCanonicalWithLimit at accepted
  obtain ⟨start, versioned, accepted⟩ := Except.bind_ok accepted
  obtain ⟨⟨count, afterCount⟩, counted, accepted⟩ := Except.bind_ok accepted
  dsimp only at accepted
  split at accepted
  · cases accepted
  rename_i within
  obtain ⟨⟨records, last⟩, read, accepted⟩ := Except.bind_ok accepted
  obtain ⟨⟨⟩, finished, accepted⟩ := Except.bind_ok accepted
  obtain ⟨built, ordering, accepted⟩ := Except.bind_ok accepted
  obtain ⟨-, length, -⟩ := (record_exact.times count).spells read
  split at accepted
  · rename_i canonical
    cases accepted
    refine ⟨canonical, new_ordered ordering, ?_⟩
    rw [(new_perm ordering).length_eq, length]
    omega
  · cases accepted

end Manifest

namespace Record

/-- The fixed fields take 69 bytes, and the size and the hash of a file 40 more. -/
def encodedLength (record : Record) : Nat :=
  (utf8 record.collection).length + (utf8 record.path.text).length +
    (if record.kind.isFile then 109 else 69)

theorem length_canonicalBytes (record : Record) :
    record.canonicalBytes.length = record.encodedLength := by
  have start : domain.length = 20 := by
    rw [domain, length_utf8]
    decide
  have author := record.author.length_eq
  simp only [canonicalBytes, encodedLength, List.length_append, Encoder.string,
    Encoder.sizedBytes, Encoder.u32, Encoder.i64, length_bigEndian, author, start]
  cases record.kind with
  | tombstone =>
      simp only [encodeKind, Encoder.u8, List.length_singleton, RecordKind.isFile]
      simp only [Bool.false_eq_true, ↓reduceIte]
      omega
  | file size contentHash =>
      simp only [encodeKind, Encoder.u8, Encoder.u64, List.length_append, List.length_singleton,
        length_bigEndian, contentHash.length_eq, RecordKind.isFile, ↓reduceIte]
      omega

end Record

/-- Reading what was written, and writing what was read, for records and for manifests; a
manifest is written exactly when its counts and lengths fit. -/
theorem canonical_formats_bijective (records : List Record) :
    ((records.map Record.key).Nodup →
      ((∃ manifest bytes,
          (∀ permuted, permuted.Perm records → Manifest.new permuted = .ok manifest) ∧
          manifest.canonicalBytes = some bytes ∧ Manifest.fromCanonical bytes = .ok manifest) ↔
        records.length < 2 ^ 32 ∧ ∀ record ∈ records, record.encodedLength < 2 ^ 32)) ∧
    (∀ record : Record, Record.fromCanonical record.canonicalBytes = .ok record) ∧
    (∀ bytes record, Record.fromCanonical bytes = .ok record → record.canonicalBytes = bytes) ∧
    (∀ bytes maxRecords manifest,
      Manifest.fromCanonicalWithLimit bytes maxRecords = .ok manifest →
        manifest.canonicalBytes = some bytes ∧
        (manifest.records.Pairwise fun left right => left.key < right.key) ∧
        manifest.records.length ≤ maxRecords) ∧
    ∀ a b : Record, a.canonicalBytes = b.canonicalBytes → a = b := by
  refine ⟨?_, Record.fromCanonical_canonicalBytes,
    fun bytes record => Record.canonicalBytes_of_fromCanonical,
    fun bytes maxRecords manifest => Manifest.fromCanonicalWithLimit_ok,
    fun a b same => Record.canonicalBytes_injective same⟩
  intro distinct
  have built := Manifest.new_of_distinct distinct
  have perm := Manifest.new_perm built
  constructor
  · rintro ⟨manifest, bytes, always, encoded, -⟩
    have same : manifest = Manifest.sorted records := by
      have direct := always records (List.Perm.refl records)
      rw [built] at direct
      exact (Except.ok.inj direct).symm
    subst same
    obtain ⟨⟨countFits, recordsFit⟩, -⟩ := Manifest.canonicalBytes_eq_some encoded
    rw [perm.length_eq] at countFits
    refine ⟨countFits, fun record member => ?_⟩
    rw [← Record.length_canonicalBytes]
    exact recordsFit record (perm.mem_iff.mpr member)
  · rintro ⟨countFits, recordsFit⟩
    have encodable : (Manifest.sorted records).Encodable := by
      refine ⟨?_, fun record member => ?_⟩
      · rw [perm.length_eq]
        exact countFits
      · rw [Record.length_canonicalBytes]
        exact recordsFit record (perm.mem_iff.mp member)
    refine ⟨Manifest.sorted records, _, fun permuted same => ?_, if_pos encodable, ?_⟩
    · rw [Manifest.new_permuted distinct same, built]
    · apply Manifest.fromCanonicalWithLimit_canonicalBytes (Manifest.new_ordered built)
        (if_pos encodable)
      have small := encodable.1
      unfold Manifest.noLimit
      omega

/-- A tombstone of the collection `c` at the path `a`, and one at `b`. -/
def firstTombstone : Record := .sample ⟨"a", by decide⟩ 0 (.fill 0) .tombstone

def secondTombstone : Record := .sample ⟨"b", by decide⟩ 0 (.fill 0) .tombstone

example : ∃ bytes,
    (∀ permuted ∈ [[firstTombstone, secondTombstone], [secondTombstone, firstTombstone]],
      Manifest.new permuted = .ok ⟨[firstTombstone, secondTombstone]⟩) ∧
    (Manifest.mk [firstTombstone, secondTombstone]).canonicalBytes = some bytes ∧
    Manifest.fromCanonical bytes = .ok ⟨[firstTombstone, secondTombstone]⟩ := by
  have ordered : Manifest.Ordered [firstTombstone, secondTombstone] := by
    simp [Manifest.Ordered, show firstTombstone.key < secondTombstone.key by decide +kernel]
  have built := Manifest.new_of_ordered ordered
  have encodable : (Manifest.mk [firstTombstone, secondTombstone]).Encodable := by decide +kernel
  refine ⟨_, ?_, if_pos encodable, ?_⟩
  · intro permuted listed
    have same : permuted.Perm [firstTombstone, secondTombstone] := by
      simp only [List.mem_cons, List.not_mem_nil, or_false] at listed
      rcases listed with rfl | rfl
      · exact List.Perm.refl _
      · exact List.Perm.swap _ _ _
    rw [Manifest.new_permuted ordered.distinct same, built]
  · exact Manifest.fromCanonicalWithLimit_canonicalBytes ordered (if_pos encodable)
      (by decide)

/-- A collection name of the given length. -/
def longName (length : Nat) : String := String.ofList (List.replicate length 'a')

theorem length_longName (length : Nat) : (utf8 (longName length)).length = length := by
  have one : 'a'.utf8Size = 1 := by decide
  simp only [length_utf8, longName, String.toList_ofList, List.map_replicate, one,
    List.sum_replicate_nat, Nat.mul_one]

/-- The longest collection name makes a record whose length does not fit the four bytes of a
manifest entry. -/
theorem longest_name_not_encoded :
    ∃ record manifest, Record.tombstone (longName (2 ^ 32 - 1)) .sample 0 (.fill 0) = .ok record ∧
      Manifest.new [record] = .ok manifest ∧ manifest.canonicalBytes = none := by
  have length := length_longName (2 ^ 32 - 1)
  have fits : (utf8 (longName (2 ^ 32 - 1))).length < 2 ^ 32 := by omega
  have named : longName (2 ^ 32 - 1) ≠ "" := by
    intro empty
    rw [empty] at length
    exact absurd length (by decide)
  have pathFits : (utf8 ProtocolPath.sample.text).length < 2 ^ 32 := by decide
  let record : Record :=
    ⟨longName (2 ^ 32 - 1), .sample, 0, .fill 0, .tombstone, named, fits, pathFits, trivial⟩
  refine ⟨record, ⟨[record]⟩, record.new_fields, ?_, ?_⟩
  · exact Manifest.new_of_ordered (List.pairwise_singleton _ _)
  · apply if_neg
    rintro ⟨-, small⟩
    have bound := small record (List.mem_singleton.mpr rfl)
    rw [Record.length_canonicalBytes] at bound
    unfold Record.encodedLength at bound
    have tooLong : (utf8 record.collection).length = 2 ^ 32 - 1 := length
    have fixed : (if record.kind.isFile then 109 else 69) = 69 := rfl
    omega

end Skillsync
