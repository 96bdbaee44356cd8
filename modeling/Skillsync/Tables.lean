import Mathlib.Data.List.Nodup

set_option autoImplicit false

namespace Tables

/-- A condition of SQL; `none` is NULL. -/
abbrev Condition := Option Bool

namespace Condition

variable {Value : Type}

/-- `AND`. -/
def both : Condition → Condition → Condition
  | some true, other => other
  | some false, _ => some false
  | none, some false => some false
  | none, _ => none

/-- `OR`. -/
def either : Condition → Condition → Condition
  | some false, other => other
  | some true, _ => some true
  | none, some true => some true
  | none, _ => none

def all (conditions : List Condition) : Condition := conditions.foldr both (some true)

def any (conditions : List Condition) : Condition := conditions.foldr either (some false)

/-- A test of NULL is NULL. -/
def test (holds : Value → Bool) (value : Option Value) : Condition := value.map holds

def isNull (value : Option Value) : Condition := some value.isNone

def notNull (value : Option Value) : Condition := some value.isSome

/-- A `CHECK` fails on false only. -/
def passes (condition : Condition) : Bool := condition != some false

section
variable (condition : Condition) (rest : List Condition) (holds : Value → Bool) (value : Value)
  (truth : Bool)

@[simp] theorem all_nil : all [] = some true := rfl

@[simp] theorem all_cons_true : all (some true :: rest) = all rest := rfl

@[simp] theorem all_cons_false : all (some false :: rest) = some false := rfl

@[simp] theorem any_nil : any [] = some false := rfl

@[simp] theorem any_cons_true : any (some true :: rest) = some true := rfl

@[simp] theorem any_cons_false : any (some false :: rest) = any rest := rfl

@[simp] theorem test_some : test holds (some value) = some (holds value) := rfl

@[simp] theorem isNull_none : isNull (none : Option Value) = some true := rfl

@[simp] theorem notNull_some : notNull (some value) = some true := rfl

@[simp] theorem passes_some : passes (some truth) = truth := by cases truth <;> rfl

end

end Condition

/-- A table: the columns of its primary key and its `CHECK` constraints. -/
structure Schema (Row Key : Type) where
  key : Row → Key
  checks : Row → List Condition

namespace Schema

variable {Row Key : Type} (schema : Schema Row Key)

def admits (row : Row) : Bool := (schema.checks row).all Condition.passes

def changed (selects : Row → Bool) (set : Row → Row) (row : Row) : Row :=
  if selects row then set row else row

/-- `UPDATE … SET … WHERE …` of columns outside the key: the rows after it and how many it
selected. -/
def update (selects : Row → Bool) (set : Row → Row) (rows : List Row) : Option (List Row × Nat) :=
  if (rows.filter selects).all fun row => schema.admits (set row) then
    some (rows.map (changed selects set), rows.countP selects)
  else none

/-- The keys are distinct, and every row is one of those that the statements write. -/
structure Sound (written : Row → Prop) (rows : List Row) : Prop where
  distinct : (rows.map schema.key).Nodup
  written : ∀ row ∈ rows, written row

variable {schema} {written : Row → Prop} {rows : List Row} {selects : Row → Bool} {set : Row → Row}
  {row : Row}

theorem key_changed (keeps : ∀ row, schema.key (set row) = schema.key row) (row : Row) :
    schema.key (changed selects set row) = schema.key row := by
  unfold changed
  split
  · exact keeps row
  · rfl

theorem keys_map {change : Row → Row} (keeps : ∀ row, schema.key (change row) = schema.key row) :
    (rows.map change).map schema.key = rows.map schema.key := by
  rw [List.map_map]
  exact List.map_congr_left fun row _ => keeps row

theorem Sound.nil : schema.Sound written [] := ⟨List.nodup_nil, by simp⟩

/-- An `UPDATE` whose results are admitted succeeds. -/
theorem Sound.update (sound : schema.Sound written rows)
    (keeps : ∀ row, schema.key (set row) = schema.key row)
    (admitted : ∀ row, written row → schema.admits row = true)
    (writes : ∀ row, written row → selects row = true → written (set row)) :
    schema.update selects set rows =
        some (rows.map (changed selects set), rows.countP selects) ∧
      schema.Sound written (rows.map (changed selects set)) := by
  refine ⟨?_, ?_, ?_⟩
  · apply if_pos
    rw [List.all_eq_true]
    intro row selected
    obtain ⟨listed, met⟩ := List.mem_filter.mp selected
    exact admitted _ (writes row (sound.written row listed) met)
  · rw [keys_map (key_changed keeps)]
    exact sound.distinct
  · intro row listed
    obtain ⟨old, oldListed, rfl⟩ := List.mem_map.mp listed
    unfold changed
    split
    · exact writes old (sound.written old oldListed) ‹_›
    · exact sound.written old oldListed

/-- `DELETE FROM … WHERE …` leaves the other rows. -/
theorem Sound.filter (sound : schema.Sound written rows) (stays : Row → Bool) :
    schema.Sound written (rows.filter stays) :=
  ⟨(List.filter_sublist.map schema.key).nodup sound.distinct,
    fun row listed => sound.written row (List.mem_filter.mp listed).1⟩

section
variable [DecidableEq Key]

variable (schema) in
/-- The row of one key is replaced. -/
def replaced (row : Row) : Row → Row :=
  changed (fun old => decide (schema.key old = schema.key row)) fun _ => row

variable (schema) in
/-- `INSERT … ON CONFLICT(…) DO UPDATE SET …` of all columns outside the key. -/
def upsert (row : Row) (rows : List Row) : Option (List Row) :=
  if schema.admits row then
    some (if schema.key row ∈ rows.map schema.key then rows.map (schema.replaced row)
    else rows ++ [row])
  else none

variable (schema) in
/-- The row of a key. -/
def find (rows : List Row) (key : Key) : Option Row :=
  rows.find? fun row => decide (schema.key row = key)

variable {key : Key}

theorem find_some (found : schema.find rows key = some row) :
    row ∈ rows ∧ schema.key row = key := by
  refine ⟨List.mem_of_find?_eq_some found, ?_⟩
  exact of_decide_eq_true (List.find?_some (p := fun row => decide (schema.key row = key)) found)

theorem find_none : schema.find rows key = none ↔ key ∉ rows.map schema.key := by
  simp [find]

/-- A row is the one of its key. -/
theorem Sound.find_key (sound : schema.Sound written rows) (listed : row ∈ rows) :
    schema.find rows (schema.key row) = some row := by
  cases found : schema.find rows (schema.key row) with
  | none => exact absurd (List.mem_map_of_mem listed) (find_none.mp found)
  | some other =>
      obtain ⟨otherListed, same⟩ := find_some found
      rw [List.inj_on_of_nodup_map sound.distinct otherListed listed same]

theorem find_map {change : Row → Row} (keeps : ∀ row, schema.key (change row) = schema.key row) :
    schema.find (rows.map change) key = (schema.find rows key).map change := by
  have same : ((fun row => decide (schema.key row = key)) ∘ change) =
      fun row => decide (schema.key row = key) := by
    funext row
    simp only [Function.comp_apply, keeps]
  rw [find, List.find?_map, same]
  rfl

theorem key_replaced (old : Row) : schema.key (schema.replaced row old) = schema.key old := by
  unfold replaced changed
  split
  · rename_i same
    exact (of_decide_eq_true same).symm
  · rfl

/-- A `WHERE` that names a key selects the row of this key at most. -/
theorem countP_key (distinct : (rows.map schema.key).Nodup)
    (named : ∀ row, selects row = true → schema.key row = key) :
    rows.countP selects = if (schema.find rows key).any selects then 1 else 0 := by
  induction rows with
  | nil => rfl
  | cons row rest ih =>
      rw [List.map_cons, List.nodup_cons] at distinct
      rw [List.countP_cons, ih distinct.2]
      by_cases here : schema.key row = key
      · have absent := find_none.mpr (here ▸ distinct.1)
        have found : schema.find (row :: rest) key = some row := by simp [find, here]
        rw [absent, found]
        simp
      · have skipped : selects row = false := by
          rw [Bool.eq_false_iff]
          exact fun selected => here (named row selected)
        have same : schema.find (row :: rest) key = schema.find rest key := by
          simp [find, here]
        rw [same, skipped]
        simp

theorem Sound.find_filter (sound : schema.Sound written rows) (stays : Row → Bool) :
    schema.find (rows.filter stays) key = (schema.find rows key).filter stays := by
  ext row
  rw [Option.filter_eq_some_iff]
  constructor
  · intro found
    obtain ⟨listed, rfl⟩ := find_some found
    obtain ⟨member, kept⟩ := List.mem_filter.mp listed
    exact ⟨sound.find_key member, kept⟩
  · rintro ⟨found, kept⟩
    obtain ⟨listed, rfl⟩ := find_some found
    exact (sound.filter stays).find_key (List.mem_filter.mpr ⟨listed, kept⟩)

/-- An `INSERT … ON CONFLICT` sets the row of its key. -/
theorem find_upsert {after : List Row} (upserted : schema.upsert row rows = some after) :
    schema.find after key = if schema.key row = key then some row else schema.find rows key := by
  unfold upsert at upserted
  split at upserted
  · obtain rfl := Option.some.inj upserted
    split
    · rename_i present
      rw [find_map key_replaced]
      cases found : schema.find rows key with
      | none =>
          have other : schema.key row ≠ key := fun same => find_none.mp found (same ▸ present)
          rw [Option.map_none, if_neg other]
      | some old =>
          have named := (find_some found).2
          rw [Option.map_some, replaced, changed]
          by_cases same : schema.key row = key
          · rw [if_pos same, if_pos (by simp [named, same])]
          · rw [if_neg same, if_neg (by simp [named, Ne.symm same])]
    · rename_i absent
      rw [find, List.find?_append]
      by_cases same : schema.key row = key
      · have none := find_none.mpr (same ▸ absent)
        rw [find] at none
        simp [none, same]
      · cases found : rows.find? fun row => decide (schema.key row = key) with
        | none => simp [same, find, found]
        | some old => simp [same, find, found]
  · cases upserted

/-- An `INSERT … ON CONFLICT` of an admitted row succeeds. -/
theorem Sound.upsert (sound : schema.Sound written rows) (fresh : written row)
    (admitted : schema.admits row = true) :
    ∃ after, schema.upsert row rows = some after ∧ schema.Sound written after := by
  refine ⟨_, if_pos admitted, ?_⟩
  split
  · constructor
    · rw [keys_map key_replaced]
      exact sound.distinct
    · intro other listed
      obtain ⟨old, oldListed, rfl⟩ := List.mem_map.mp listed
      unfold replaced changed
      split
      · exact fresh
      · exact sound.written old oldListed
  · rename_i absent
    constructor
    · rw [List.map_append, List.map_singleton, List.nodup_append]
      refine ⟨sound.distinct, List.nodup_singleton _, fun key listed other one same => ?_⟩
      rw [List.mem_singleton] at one
      exact absent (one ▸ same ▸ listed)
    · intro other listed
      rcases List.mem_append.mp listed with old | new
      · exact sound.written other old
      · rw [List.mem_singleton.mp new]
        exact fresh

end

end Schema

end Tables
