import Skillsync.StateSpec
import Skillsync.RankedMaximum

set_option autoImplicit false

namespace Skillsync

open RankedMaximum

namespace Record

variable [Blake3]

/-- What `compare_winner` compares, the most significant part first. -/
def rank (record : Record) : I64 ×ₗ (EndpointId ×ₗ RecordHash) :=
  toLex (record.modifiedNs, toLex (record.author, record.canonicalHash))

theorem compareWinner_eq (record other : Record) :
    record.compareWinner other = compare record.rank other.rank := rfl

theorem compareWinner_eq_gt {record other : Record} :
    record.compareWinner other = .gt ↔ other.rank < record.rank := by
  rw [compareWinner_eq, compare_gt_iff_gt]

theorem compareWinner_swap (record other : Record) :
    other.compareWinner record = (record.compareWinner other).swap := by
  rw [compareWinner_eq, compareWinner_eq]
  exact Std.OrientedCmp.eq_swap

/-- Records whose canonical bytes BLAKE3 tells apart. -/
def HashesApart (records : Set Record) : Prop := Set.InjOn canonicalHash records

theorem HashesApart.of_injOn {records : Set Record}
    (injective : Set.InjOn Blake3.hash (canonicalBytes '' records)) : HashesApart records := by
  intro a inA b inB same
  exact canonicalBytes_injective
    (injective (Set.mem_image_of_mem _ inA) (Set.mem_image_of_mem _ inB) same)

theorem HashesApart.rank_injOn {records : Set Record} (apart : HashesApart records) :
    Set.InjOn rank records := by
  intro a inA b inB same
  have parts : (a.modifiedNs, (a.author, a.canonicalHash)) =
      (b.modifiedNs, (b.author, b.canonicalHash)) := by
    simpa [rank] using same
  simp only [Prod.mk.injEq] at parts
  exact apart inA inB parts.2.2

theorem HashesApart.mono {records fewer : Set Record} (apart : HashesApart records)
    (subset : fewer ⊆ records) : HashesApart fewer := Set.InjOn.mono subset apart

/-- A strict total order given by its comparison, on some of the records. -/
structure StrictTotal (comparison : Record → Record → Ordering) (records : Set Record) :
    Prop where
  equal : ∀ a ∈ records, ∀ b ∈ records, comparison a b = .eq ↔ a = b
  swapped : ∀ a ∈ records, ∀ b ∈ records, comparison b a = (comparison a b).swap
  transitive : ∀ a ∈ records, ∀ b ∈ records, ∀ c ∈ records,
    comparison a b = .gt → comparison b c = .gt → comparison a c = .gt

/-- Only equal records compare as equal. -/
theorem HashesApart.compareWinner_eq_eq {records : Set Record} (apart : HashesApart records)
    {a b : Record} (inA : a ∈ records) (inB : b ∈ records) :
    a.compareWinner b = .eq ↔ a = b := by
  rw [compareWinner_eq, compare_eq_iff_eq]
  exact ⟨fun same => apart.rank_injOn inA inB same, fun same => by rw [same]⟩

theorem HashesApart.strictTotal {records : Set Record} (apart : HashesApart records) :
    StrictTotal compareWinner records where
  equal _ inA _ inB := apart.compareWinner_eq_eq inA inB
  swapped a _ b _ := compareWinner_swap a b
  transitive a _ b _ c _ above below := by
    rw [compareWinner_eq_gt] at above below ⊢
    exact lt_trans below above

end Record

namespace StateStore

variable [Blake3]

theorem accepts_iff (current : Option Record) (record : Record) :
    (if accepts current record = true then some record else current) =
      join Record.rank current record := by
  cases current with
  | none => rfl
  | some winner =>
      simp only [accepts, beq_iff_eq, Record.compareWinner_eq_gt, join]

/-- A committed merge is one join of the register at the record's key. -/
theorem mergeRecord_record {store after : StateStore} {record : Record} {observedNs : I64}
    {sourcePeer : Option EndpointId} {maxLogs : Nat} {accepted : Bool}
    (committed : store.mergeRecord record observedNs sourcePeer maxLogs = .ok (after, accepted))
    (key : RecordKey) :
    after.record key =
      if record.key = key then join Record.rank (store.record key) record
      else store.record key := by
  obtain ⟨decision, -, rows⟩ := mergeRecord_ok committed
  by_cases same : record.key = key
  · subst same
    rw [if_pos rfl, ← accepts_iff, ← decision]
    simp only [StateStore.record, rows, and_true]
    cases accepted <;> rfl
  · simp only [StateStore.record, rows, same, and_false, ↓reduceIte]

end StateStore

end Skillsync
