import Mathlib.Algebra.Order.Ring.Int
import Mathlib.Data.Finset.Dedup
import Mathlib.Data.List.Destutter
import Mathlib.Data.List.Lex
import Mathlib.Data.Prod.Lex
import Mathlib.Data.Set.Function
import Mathlib.Data.String.Basic
import Mathlib.Logic.Function.Basic
import Mathlib.Order.Lattice
import Mathlib.Order.Std

set_option autoImplicit false

namespace Skillsync

/-- A signed 64-bit count of nanoseconds. -/
structure I64 where
  val : Int
  low : -2 ^ 63 ≤ val
  high : val ≤ 2 ^ 63 - 1
deriving DecidableEq

namespace I64

theorem val_injective : Function.Injective val := by
  intro a b same
  cases a
  cases b
  simpa using same

-- The order of the integers is named, as a found instance may not be computable.
instance : LinearOrder I64 := @LinearOrder.lift' I64 Int Int.instLinearOrder val val_injective

theorem lt_iff {a b : I64} : a < b ↔ a.val < b.val := Iff.rfl

theorem le_iff {a b : I64} : a ≤ b ↔ a.val ≤ b.val := Iff.rfl

def max : I64 := ⟨2 ^ 63 - 1, by omega, by omega⟩

/-- The nearest representable value. -/
def clamp (n : Int) : I64 :=
  if low : n < -2 ^ 63 then ⟨-2 ^ 63, by omega, by omega⟩
  else if high : 2 ^ 63 - 1 < n then max
  else ⟨n, by omega, by omega⟩

instance (n : Nat) : OfNat I64 n := ⟨clamp n⟩

def saturatingAdd (a b : I64) : I64 := clamp (a.val + b.val)

/-- `saturating_add(1)`. -/
def saturatingSucc (a : I64) : I64 := saturatingAdd a ⟨1, by omega, by omega⟩

theorem le_max (a : I64) : a ≤ max := a.high

theorem clamp_val_of_mem {n : Int} (low : -2 ^ 63 ≤ n) (high : n ≤ 2 ^ 63 - 1) :
    (clamp n).val = n := by
  have notLow : ¬ n < -2 ^ 63 := by omega
  have notHigh : ¬ 2 ^ 63 - 1 < n := by omega
  simp only [clamp, notLow, notHigh, ↓reduceDIte]

theorem clamp_val (n : Int) : (clamp n).val = Max.max (-2 ^ 63) (Min.min n (2 ^ 63 - 1)) := by
  unfold clamp
  split
  · show (-2 ^ 63 : Int) = _
    omega
  split
  · show (2 ^ 63 - 1 : Int) = _
    omega
  · show n = _
    omega

theorem saturatingAdd_le_saturatingAdd {a b c d : I64} (first : a ≤ b) (second : c ≤ d) :
    a.saturatingAdd c ≤ b.saturatingAdd d := by
  rw [le_iff] at first second ⊢
  rw [saturatingAdd, saturatingAdd, clamp_val, clamp_val]
  omega

theorem saturatingSucc_le_saturatingSucc {a b : I64} (ordered : a ≤ b) :
    a.saturatingSucc ≤ b.saturatingSucc :=
  saturatingAdd_le_saturatingAdd ordered (le_refl _)

theorem le_saturatingAdd {a b : I64} (positive : 0 ≤ b.val) : a ≤ a.saturatingAdd b := by
  have low := a.low
  have high := a.high
  rw [le_iff, saturatingAdd, clamp_val]
  omega

theorem lt_saturatingSucc {a : I64} (room : a < max) : a < a.saturatingSucc := by
  have bound : a.val < 2 ^ 63 - 1 := room
  have low := a.low
  have next : (saturatingSucc a).val = a.val + 1 := by
    apply clamp_val_of_mem
    · show -2 ^ 63 ≤ a.val + 1
      omega
    · show a.val + 1 ≤ 2 ^ 63 - 1
      omega
  show a.val < (saturatingSucc a).val
  omega

theorem le_saturatingSucc (a : I64) : a ≤ a.saturatingSucc := by
  by_cases room : a < max
  · exact le_of_lt (lt_saturatingSucc room)
  · have top : a = max := le_antisymm (le_max a) (not_lt.mp room)
    rw [top]
    decide

end I64

/-- `[u8; 32]`, ordered byte by byte. -/
structure Bytes32 where
  bytes : List UInt8
  length_eq : bytes.length = 32
deriving DecidableEq

namespace Bytes32

/-- `[byte; 32]` -/
def fill (byte : UInt8) : Bytes32 := ⟨List.replicate 32 byte, List.length_replicate⟩

theorem ext_bytes {a b : Bytes32} (same : a.bytes = b.bytes) : a = b := by
  cases a
  cases b
  simpa using same

private def key (a : Bytes32) : List Nat := a.bytes.map UInt8.toNat

private theorem key_injective : Function.Injective key := by
  intro a b same
  apply ext_bytes
  exact List.map_injective_iff.mpr (fun _ _ equal => UInt8.toNat_inj.mp equal) same

instance : LinearOrder Bytes32 := LinearOrder.lift' key key_injective

instance : Std.TransOrd Bytes32 := inferInstance

instance : Std.LawfulEqOrd Bytes32 := ⟨fun same => compare_eq_iff_eq.mp same⟩

end Bytes32

abbrev EndpointId := Bytes32
abbrev GroupId := Bytes32

/-- Tables of the database and ordered maps of the source. -/
abbrev OrderedMap (Key Value : Type) [Ord Key] := Std.ExtTreeMap Key Value

namespace OrderedMap

variable {Key Value : Type} [LinearOrder Key]

instance [Std.LawfulEqOrd Key] [DecidableEq Value] : DecidableEq (OrderedMap Key Value) :=
  fun a b => decidable_of_iff (a == b) beq_iff_eq

theorem nodup_keys (map : OrderedMap Key Value) : (map.toList.map Prod.fst).Nodup := by
  rw [List.nodup_iff_pairwise_ne, List.pairwise_map]
  refine Std.ExtTreeMap.distinct_keys_toList.imp fun differs same => differs ?_
  rw [same]
  exact Std.ReflCmp.compare_self

theorem mem_keys {map : OrderedMap Key Value} {key : Key} :
    key ∈ map.toList.map Prod.fst ↔ (map[key]?).isSome = true := by
  rw [List.mem_map, Option.isSome_iff_exists]
  constructor
  · rintro ⟨⟨found, value⟩, listed, rfl⟩
    exact ⟨value, Std.ExtTreeMap.mem_toList_iff_getElem?_eq_some.mp listed⟩
  · rintro ⟨value, found⟩
    exact ⟨(key, value), Std.ExtTreeMap.mem_toList_iff_getElem?_eq_some.mpr found, rfl⟩

-- The keys' own decidable equality, which need not be the one of their order.
variable [DecidableEq Key]

theorem getElem?_insert (map : OrderedMap Key Value) (key other : Key) (value : Value) :
    (map.insert key value)[other]? = if key = other then some value else map[other]? := by
  simp only [Std.ExtTreeMap.getElem?_insert, compare_eq_iff_eq]

theorem getElem?_erase (map : OrderedMap Key Value) (key other : Key) :
    (map.erase key)[other]? = if key = other then none else map[other]? := by
  simp only [Std.ExtTreeMap.getElem?_erase, compare_eq_iff_eq]

end OrderedMap

end Skillsync
