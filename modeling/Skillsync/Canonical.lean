import Skillsync.Scalars
import Skillsync.Codec

set_option autoImplicit false

namespace Skillsync

open Fallible Codec

/-- The UTF-8 bytes of a string. -/
def utf8 (value : String) : List UInt8 := value.toByteArray.data.toList

/-- `String::from_utf8`. -/
def fromUtf8 (bytes : List UInt8) : Option String := String.fromUTF8? ⟨bytes.toArray⟩

theorem length_utf8 (value : String) :
    (utf8 value).length = (value.toList.map Char.utf8Size).sum := by
  have encoded : (utf8 (String.ofList value.toList)).length =
      (value.toList.map Char.utf8Size).sum := by
    show (String.ofList value.toList).toByteArray.data.toList.length = _
    rw [String.toByteArray_ofList]
    show value.toList.utf8Encode.size = _
    induction value.toList with
    | nil => simp
    | cons c rest ih =>
        rw [List.utf8Encode_cons, ByteArray.size_append, ih, List.utf8Encode_singleton]
        simp
  rwa [String.ofList_toList] at encoded

theorem fromUtf8_utf8 (value : String) : fromUtf8 (utf8 value) = some value := by
  have valid : (ByteArray.mk (utf8 value).toArray).IsValidUTF8 := value.isValidUTF8
  simp only [fromUtf8, String.fromUTF8?, valid, ↓reduceDIte]
  rfl

theorem utf8_injective : Function.Injective utf8 := by
  intro a b same
  have decoded := fromUtf8_utf8 a
  rw [same, fromUtf8_utf8] at decoded
  exact (Option.some.inj decoded).symm

theorem fromUtf8_eq_some {bytes : List UInt8} {text : String}
    (decoded : fromUtf8 bytes = some text) : bytes = utf8 text := by
  unfold fromUtf8 String.fromUTF8? at decoded
  split at decoded
  · cases decoded
    rfl
  · cases decoded

/-- `to_be_bytes` at the given width. -/
def bigEndian : Nat → Nat → List UInt8
  | 0, _ => []
  | width + 1, n => bigEndian width (n / 256) ++ [UInt8.ofNat n]

/-- `from_be_bytes`. -/
def fromBigEndian (bytes : List UInt8) : Nat :=
  bytes.foldl (fun value byte => value * 256 + byte.toNat) 0

@[simp] theorem length_bigEndian (width n : Nat) : (bigEndian width n).length = width := by
  induction width generalizing n with
  | zero => rfl
  | succ width ih => simp only [bigEndian, List.length_append, ih, List.length_singleton]

theorem fromBigEndian_bigEndian (width n : Nat) :
    fromBigEndian (bigEndian width n) = n % 256 ^ width := by
  induction width generalizing n with
  | zero => simp [bigEndian, fromBigEndian, Nat.mod_one]
  | succ width ih =>
      have high := ih (n / 256)
      simp only [fromBigEndian] at high
      simp only [bigEndian, fromBigEndian, List.foldl_append, List.foldl_cons, List.foldl_nil,
        high, UInt8.toNat_ofNat', Nat.reducePow]
      rw [Nat.pow_succ', Nat.mod_mul]
      omega

theorem fromBigEndian_append (bytes : List UInt8) (byte : UInt8) :
    fromBigEndian (bytes ++ [byte]) = fromBigEndian bytes * 256 + byte.toNat := by
  simp only [fromBigEndian, List.foldl_append, List.foldl_cons, List.foldl_nil]

theorem bigEndian_fromBigEndian (bytes : List UInt8) :
    bigEndian bytes.length (fromBigEndian bytes) = bytes := by
  induction bytes using List.reverseRecOn with
  | nil => rfl
  | append_singleton front byte ih =>
      have below := byte.toNat_lt
      have high : (fromBigEndian front * 256 + byte.toNat) / 256 = fromBigEndian front := by omega
      have low : UInt8.ofNat (fromBigEndian front * 256 + byte.toNat) = byte := by
        apply UInt8.toNat_inj.mp
        rw [UInt8.toNat_ofNat']
        omega
      rw [fromBigEndian_append, List.length_append, List.length_singleton, bigEndian, high, low,
        ih]

theorem fromBigEndian_lt (bytes : List UInt8) : fromBigEndian bytes < 256 ^ bytes.length := by
  induction bytes using List.reverseRecOn with
  | nil => decide
  | append_singleton front byte ih =>
      have below := byte.toNat_lt
      rw [fromBigEndian_append, List.length_append, List.length_singleton, Nat.pow_succ]
      omega

/-- `CanonicalError`. -/
inductive CanonicalError
  | truncated
  | trailingBytes
  | invalidUtf8
  | lengthOverflow
  | unknownTag
  | unorderedKeys
  | invalid (reason : String)
deriving DecidableEq

namespace Encoder

def u8 (value : UInt8) : List UInt8 := [value]
def u32 (value : Nat) : List UInt8 := bigEndian 4 value
def u64 (value : Nat) : List UInt8 := bigEndian 8 value
def i64 (value : I64) : List UInt8 := bigEndian 8 (value.val % 2 ^ 64).toNat

/-- `sized_bytes` of a value whose length the caller has checked against `u32`. -/
def sizedBytes (value : List UInt8) : List UInt8 := u32 value.length ++ value

def string (value : String) : List UInt8 := sizedBytes (utf8 value)

end Encoder

namespace Decoder

/-- `Decoder::new`; a decoder is the list of the bytes after its position. -/
def new (bytes domain : List UInt8) : Except CanonicalError (List UInt8) :=
  if domain <+: bytes then .ok (bytes.drop domain.length)
  else .error (.invalid "wrong domain or version")

def take (length : Nat) (bytes : List UInt8) : Except CanonicalError (List UInt8 × List UInt8) :=
  if length ≤ bytes.length then .ok (bytes.take length, bytes.drop length)
  else .error .truncated

def u8 (bytes : List UInt8) : Except CanonicalError (UInt8 × List UInt8) :=
  match bytes with
  | [] => .error .truncated
  | byte :: rest => .ok (byte, rest)

def u32 (bytes : List UInt8) : Except CanonicalError (Nat × List UInt8) := do
  let (value, rest) ← take 4 bytes
  return (fromBigEndian value, rest)

def u64 (bytes : List UInt8) : Except CanonicalError (Nat × List UInt8) := do
  let (value, rest) ← take 8 bytes
  return (fromBigEndian value, rest)

/-- The two's complement reading of eight bytes. -/
def i64 (bytes : List UInt8) : Except CanonicalError (I64 × List UInt8) := do
  let (value, rest) ← u64 bytes
  return (I64.clamp ((value : Int).bmod (2 ^ 64)), rest)

/-- `fixed::<32>`. -/
def fixed32 (bytes : List UInt8) : Except CanonicalError (Bytes32 × List UInt8) :=
  if enough : 32 ≤ bytes.length then
    .ok (⟨bytes.take 32, List.length_take_of_le enough⟩, bytes.drop 32)
  else .error .truncated

def sizedBytes (bytes : List UInt8) : Except CanonicalError (List UInt8 × List UInt8) := do
  let (length, rest) ← u32 bytes
  take length rest

def string (bytes : List UInt8) : Except CanonicalError (String × List UInt8) := do
  let (value, rest) ← sizedBytes bytes
  match fromUtf8 value with
  | some text => return (text, rest)
  | none => throw .invalidUtf8

def finish (bytes : List UInt8) : Except CanonicalError Unit :=
  if bytes = [] then .ok () else .error .trailingBytes

end Decoder

section
variable (rest : List UInt8)

@[simp] theorem Decoder.new_append (domain : List UInt8) :
    Decoder.new (domain ++ rest) domain = .ok rest := by
  simp [Decoder.new]

@[simp] theorem Decoder.take_append (front : List UInt8) :
    Decoder.take front.length (front ++ rest) = .ok (front, rest) := by
  simp [Decoder.take]

@[simp] theorem Decoder.u8_append (value : UInt8) :
    Decoder.u8 (Encoder.u8 value ++ rest) = .ok (value, rest) := rfl

theorem Decoder.u32_append {value : Nat} (fits : value < 2 ^ 32) :
    Decoder.u32 (Encoder.u32 value ++ rest) = .ok (value, rest) := by
  have taken := Decoder.take_append rest (Encoder.u32 value)
  rw [Encoder.u32, length_bigEndian, ← Encoder.u32] at taken
  simp only [Decoder.u32, taken, Except.ok_bind]
  rw [Encoder.u32, fromBigEndian_bigEndian, Nat.mod_eq_of_lt (by omega)]
  rfl

theorem Decoder.u64_append {value : Nat} (fits : value < 2 ^ 64) :
    Decoder.u64 (Encoder.u64 value ++ rest) = .ok (value, rest) := by
  have taken := Decoder.take_append rest (Encoder.u64 value)
  rw [Encoder.u64, length_bigEndian, ← Encoder.u64] at taken
  simp only [Decoder.u64, taken, Except.ok_bind]
  rw [Encoder.u64, fromBigEndian_bigEndian, Nat.mod_eq_of_lt (by omega)]
  rfl

@[simp] theorem Decoder.i64_append (value : I64) :
    Decoder.i64 (Encoder.i64 value ++ rest) = .ok (value, rest) := by
  obtain ⟨value, low, high⟩ := value
  have fits : (value % 2 ^ 64).toNat < 2 ^ 64 := by omega
  have decoded := Decoder.u64_append rest fits
  rw [Encoder.u64] at decoded
  simp only [Decoder.i64, Encoder.i64, decoded, Except.ok_bind]
  have wrapped : ((value % 2 ^ 64).toNat : Int).bmod (2 ^ 64) = value := by
    rw [Int.toNat_of_nonneg (by omega), Int.bmod_def]
    split <;> omega
  have same : I64.clamp value = ⟨value, low, high⟩ :=
    I64.val_injective (I64.clamp_val_of_mem low high)
  simp only [wrapped, same]
  rfl

@[simp] theorem Decoder.fixed32_append (value : Bytes32) :
    Decoder.fixed32 (value.bytes ++ rest) = .ok (value, rest) := by
  have length := value.length_eq
  have enough : 32 ≤ (value.bytes ++ rest).length := by
    rw [List.length_append]
    omega
  simp only [Decoder.fixed32, enough, ↓reduceDIte, Except.ok.injEq, Prod.mk.injEq]
  refine ⟨Bytes32.ext_bytes ?_, ?_⟩
  · simp only [← length, List.take_left]
  · simp only [← length, List.drop_left]

theorem Decoder.sizedBytes_append {value : List UInt8} (fits : value.length < 2 ^ 32) :
    Decoder.sizedBytes (Encoder.sizedBytes value ++ rest) = .ok (value, rest) := by
  simp only [Decoder.sizedBytes, Encoder.sizedBytes, List.append_assoc,
    Decoder.u32_append _ fits, Except.ok_bind, Decoder.take_append]

theorem Decoder.string_append {value : String} (fits : (utf8 value).length < 2 ^ 32) :
    Decoder.string (Encoder.string value ++ rest) = .ok (value, rest) := by
  simp only [Decoder.string, Encoder.string, Decoder.sizedBytes_append _ fits,
    Except.ok_bind, fromUtf8_utf8]
  rfl

end

theorem Decoder.new_ok {bytes domain rest : List UInt8}
    (accepted : Decoder.new bytes domain = .ok rest) : bytes = domain ++ rest := by
  unfold Decoder.new at accepted
  split at accepted
  · rename_i starts
    cases accepted
    exact (List.prefix_iff_eq_append.mp starts).symm
  · cases accepted

theorem Decoder.take_ok {length : Nat} {bytes front rest : List UInt8}
    (accepted : Decoder.take length bytes = .ok (front, rest)) :
    bytes = front ++ rest ∧ front.length = length := by
  unfold Decoder.take at accepted
  split at accepted
  · rename_i enough
    cases accepted
    exact ⟨(List.take_append_drop length bytes).symm, List.length_take_of_le enough⟩
  · cases accepted

theorem Decoder.finish_ok {bytes : List UInt8} (accepted : Decoder.finish bytes = .ok ()) :
    bytes = [] := by
  unfold Decoder.finish at accepted
  split at accepted
  · assumption
  · cases accepted

theorem u8_exact : Exact Encoder.u8 Decoder.u8 (fun _ => True) where
  reads rest _ := Decoder.u8_append rest _
  spells {bytes _ _} accepted := by
    cases bytes with
    | nil => cases accepted
    | cons byte rest =>
        cases accepted
        exact ⟨rfl, trivial⟩

theorem u32_exact : Exact Encoder.u32 Decoder.u32 (· < 2 ^ 32) where
  reads rest fits := Decoder.u32_append rest fits
  spells accepted := by
    obtain ⟨⟨front, rest⟩, taken, accepted⟩ := Except.bind_ok accepted
    cases accepted
    obtain ⟨rfl, length⟩ := Decoder.take_ok taken
    have bound := fromBigEndian_lt front
    rw [length] at bound
    refine ⟨?_, by omega⟩
    rw [Encoder.u32, ← length, bigEndian_fromBigEndian]

theorem u64_exact : Exact Encoder.u64 Decoder.u64 (· < 2 ^ 64) where
  reads rest fits := Decoder.u64_append rest fits
  spells accepted := by
    obtain ⟨⟨front, rest⟩, taken, accepted⟩ := Except.bind_ok accepted
    cases accepted
    obtain ⟨rfl, length⟩ := Decoder.take_ok taken
    have bound := fromBigEndian_lt front
    rw [length] at bound
    refine ⟨?_, by omega⟩
    rw [Encoder.u64, ← length, bigEndian_fromBigEndian]

theorem i64_exact : Exact Encoder.i64 Decoder.i64 (fun _ => True) where
  reads rest _ := Decoder.i64_append rest _
  spells {bytes time last} accepted := by
    obtain ⟨⟨value, rest⟩, unsigned, signed⟩ := Except.bind_ok accepted
    obtain ⟨rfl, bound⟩ := u64_exact.spells unsigned
    obtain ⟨same, rfl⟩ : I64.clamp ((value : Int).bmod (2 ^ 64)) = time ∧ rest = last :=
      Prod.mk.inj (Except.ok.inj signed)
    have wrapped : -2 ^ 63 ≤ (value : Int).bmod (2 ^ 64) ∧
        (value : Int).bmod (2 ^ 64) ≤ 2 ^ 63 - 1 := by
      rw [Int.bmod_def]
      split <;> omega
    have unwrapped : ((value : Int).bmod (2 ^ 64) % 2 ^ 64).toNat = value := by
      rw [Int.bmod_def]
      split <;> omega
    rw [← same, Encoder.i64, I64.clamp_val_of_mem wrapped.1 wrapped.2, unwrapped]
    exact ⟨rfl, trivial⟩

theorem fixed32_exact : Exact Bytes32.bytes Decoder.fixed32 (fun _ => True) where
  reads rest _ := Decoder.fixed32_append rest _
  spells {bytes _ _} accepted := by
    unfold Decoder.fixed32 at accepted
    split at accepted
    · cases accepted
      exact ⟨(List.take_append_drop 32 bytes).symm, trivial⟩
    · cases accepted

theorem sizedBytes_exact :
    Exact Encoder.sizedBytes Decoder.sizedBytes (fun value => value.length < 2 ^ 32) where
  reads rest fits := Decoder.sizedBytes_append rest fits
  spells {bytes value rest} accepted := by
    obtain ⟨⟨length, body⟩, counted, taken⟩ := Except.bind_ok accepted
    obtain ⟨rfl, bound⟩ := u32_exact.spells counted
    change Decoder.take length body = .ok (value, rest) at taken
    obtain ⟨rfl, rfl⟩ := Decoder.take_ok taken
    exact ⟨by rw [Encoder.sizedBytes, List.append_assoc], bound⟩

theorem string_exact :
    Exact Encoder.string Decoder.string (fun value => (utf8 value).length < 2 ^ 32) where
  reads rest fits := Decoder.string_append rest fits
  spells accepted := by
    obtain ⟨⟨value, body⟩, sized, read⟩ := Except.bind_ok accepted
    obtain ⟨rfl, bound⟩ := sizedBytes_exact.spells sized
    dsimp only at read
    split at read
    · rename_i text decoded
      cases read
      rw [fromUtf8_eq_some decoded] at bound ⊢
      exact ⟨rfl, bound⟩
    · cases read

end Skillsync
