import Mathlib.Algebra.Order.BigOperators.Group.List
import Mathlib.Algebra.Order.Group.Nat
import Mathlib.Algebra.Ring.Nat
import Mathlib.Data.List.Basic
import Mathlib.Logic.Function.Iterate

set_option autoImplicit false

namespace Rationing

variable {Item : Type}

/-- What a budget allows. -/
structure Budget (Item : Type) where
  count : Nat
  weight : Nat
  weigh : Item → Nat

/-- The front part of a queue; `count` and `weight` were taken before. -/
def Budget.take (budget : Budget Item) (count weight : Nat) : List Item → List Item
  | [] => []
  | item :: rest =>
      if count = budget.count then []
      else if budget.weight < weight + budget.weigh item then []
      else item :: budget.take (count + 1) (weight + budget.weigh item) rest

def Budget.stays [DecidableEq Item] (budget : Budget Item) (fails : Item → Bool)
    (queue : List Item) (item : Item) : Bool :=
  fails item || !(budget.take 0 0 queue).contains item

/-- The queue after a round. -/
def Budget.round [DecidableEq Item] (budget : Budget Item) (fails : Item → Bool)
    (queue : List Item) : List Item :=
  queue.filter (budget.stays fails queue)

def Budget.total (budget : Budget Item) (items : List Item) : Nat :=
  (items.map budget.weigh).sum

/-- The failing items before an item leave room for it. -/
def Budget.Admits (budget : Budget Item) (fails : Item → Bool) (front : List Item) (item : Item) :
    Prop :=
  (front.filter fails).length < budget.count ∧
    budget.total (front.filter fails) + budget.weigh item ≤ budget.weight

section
variable {budget : Budget Item} {count weight : Nat} {front back : List Item} {item : Item}

@[simp] theorem total_cons (items : List Item) :
    budget.total (item :: items) = budget.weigh item + budget.total items := by
  simp only [Budget.total, List.map_cons, List.sum_cons]

@[simp] theorem total_nil : budget.total [] = 0 := rfl

theorem mem_take {queue : List Item} (taken : item ∈ budget.take count weight queue) :
    item ∈ queue := by
  induction queue generalizing count weight with
  | nil => cases taken
  | cons first rest ih =>
      rw [Budget.take] at taken
      split at taken
      · cases taken
      split at taken
      · cases taken
      · rcases List.mem_cons.mp taken with same | later
        · exact same ▸ List.mem_cons_self
        · exact List.mem_cons_of_mem _ (ih later)

theorem take_isPrefix (items : List Item) : budget.take count weight items <+: items := by
  induction items generalizing count weight with
  | nil => exact List.nil_prefix
  | cons first rest ih =>
      rw [Budget.take]
      split
      · exact List.nil_prefix
      split
      · exact List.nil_prefix
      · exact (List.prefix_cons_inj first).mpr ih

/-- What is taken is within the budget. -/
theorem take_within (items : List Item) (few : count ≤ budget.count)
    (light : weight ≤ budget.weight) :
    count + (budget.take count weight items).length ≤ budget.count ∧
      weight + budget.total (budget.take count weight items) ≤ budget.weight := by
  induction items generalizing count weight with
  | nil =>
      rw [Budget.take, List.length_nil, total_nil]
      omega
  | cons first rest ih =>
      rw [Budget.take]
      split
      · rw [List.length_nil, total_nil]
        omega
      split
      · rw [List.length_nil, total_nil]
        omega
      · rw [List.length_cons, total_cons]
        have later := @ih (count + 1) (weight + budget.weigh first) (by omega) (by omega)
        omega

/-- All items are taken when all of them fit. -/
theorem take_eq_self {items : List Item} (few : count + items.length ≤ budget.count)
    (light : weight + budget.total items ≤ budget.weight) :
    budget.take count weight items = items := by
  induction items generalizing count weight with
  | nil => rfl
  | cons first rest ih =>
      rw [List.length_cons] at few
      rw [total_cons] at light
      rw [Budget.take, if_neg (by omega), if_neg (by omega), ih (by omega) (by omega)]

/-- What stays behind does not fit any more. -/
theorem take_maximal {items : List Item} (bounded : count ≤ budget.count)
    (split : items = budget.take count weight items ++ item :: back) :
    count + (budget.take count weight items).length = budget.count ∨
      budget.weight < weight + budget.total (budget.take count weight items) +
        budget.weigh item := by
  induction items generalizing count weight with
  | nil => cases split
  | cons first rest ih =>
      rw [Budget.take] at split ⊢
      split at split
      · rename_i full
        rw [if_pos full, List.length_nil]
        exact Or.inl full
      rename_i open'
      rw [if_neg open']
      split at split
      · rename_i heavy
        rw [if_pos heavy, total_nil]
        obtain ⟨rfl, -⟩ := List.cons.inj split
        exact Or.inr heavy
      · rename_i light
        rw [if_neg light, List.length_cons, total_cons]
        have later := @ih (count + 1) (weight + budget.weigh first) (by omega)
          (List.cons.inj split).2
        omega

/-- An item is taken when all items up to it fit. -/
theorem take_of_fits (few : count + front.length < budget.count)
    (light : weight + budget.total front + budget.weigh item ≤ budget.weight) :
    item ∈ budget.take count weight (front ++ item :: back) := by
  induction front generalizing count weight with
  | nil =>
      simp only [List.length_nil, Nat.add_zero, total_nil] at few light
      rw [List.nil_append, Budget.take, if_neg (by omega), if_neg (by omega)]
      exact List.mem_cons_self
  | cons first rest ih =>
      rw [List.length_cons] at few
      rw [total_cons] at light
      rw [List.cons_append, Budget.take, if_neg (by omega), if_neg (by omega)]
      apply List.mem_cons_of_mem
      apply ih <;> omega

/-- Only an item that fits with all items before it is taken. -/
theorem fits_of_take (first : item ∉ front) (bounded : count ≤ budget.count)
    (taken : item ∈ budget.take count weight (front ++ item :: back)) :
    count + front.length < budget.count ∧
      weight + budget.total front + budget.weigh item ≤ budget.weight := by
  induction front generalizing count weight with
  | nil =>
      rw [List.nil_append, Budget.take] at taken
      split at taken
      · cases taken
      split at taken
      · cases taken
      · simp only [List.length_nil, total_nil]
        omega
  | cons other rest ih =>
      rw [List.mem_cons, not_or] at first
      rw [List.cons_append, Budget.take] at taken
      split at taken
      · cases taken
      split at taken
      · cases taken
      · have later := (List.mem_cons.mp taken).resolve_left first.1
        have fits := ih first.2 (by omega) later
        rw [List.length_cons, total_cons]
        omega

end

section
variable [DecidableEq Item] {budget : Budget Item} {fails : Item → Bool}
  {queue front back : List Item} {item : Item}

omit [DecidableEq Item] in
theorem notMem_front (distinct : (front ++ item :: back).Nodup) : item ∉ front :=
  fun before => (List.nodup_append.mp distinct).2.2 item before item List.mem_cons_self rfl

omit [DecidableEq Item] in
theorem front_unique {front' back' : List Item} (distinct : (front ++ item :: back).Nodup)
    (same : front ++ item :: back = front' ++ item :: back') : front = front' := by
  have last : item ∉ back := (List.nodup_cons.mp (List.nodup_append.mp distinct).2.1).1
  exact ((List.append_cons_inj_of_notMem (notMem_front distinct) last).mp same).1

theorem stays_iff : budget.stays fails queue item = true ↔
    fails item = true ∨ item ∉ budget.take 0 0 queue := by
  simp [Budget.stays]

theorem mem_round : item ∈ budget.round fails queue ↔
    item ∈ queue ∧ (fails item = true ∨ item ∉ budget.take 0 0 queue) := by
  rw [Budget.round, List.mem_filter, stays_iff]

theorem nodup_round (distinct : queue.Nodup) : (budget.round fails queue).Nodup :=
  distinct.filter _

/-- A round keeps the failing items and the order. -/
theorem round_split (kept : item ∈ budget.round fails (front ++ item :: back)) :
    ∃ front' back', budget.round fails (front ++ item :: back) = front' ++ item :: back' ∧
      front'.filter fails = front.filter fails := by
  have stays := stays_iff.mpr (mem_round.mp kept).2
  refine ⟨front.filter (budget.stays fails (front ++ item :: back)),
    back.filter (budget.stays fails (front ++ item :: back)), ?_, ?_⟩
  · rw [Budget.round, List.filter_append, List.filter_cons_of_pos stays]
  · rw [List.filter_filter]
    apply List.filter_congr
    intro other _
    cases failing : fails other with
    | true => simp [Budget.stays, failing]
    | false => rfl

/-- An item that the failing items before it leave no room for is never served. -/
theorem never_served (distinct : (front ++ item :: back).Nodup)
    (blocked : ¬ budget.Admits fails front item) (rounds : Nat) :
    item ∈ (budget.round fails)^[rounds] (front ++ item :: back) := by
  induction rounds generalizing front back with
  | zero => simp
  | succ rounds ih =>
      have missed : item ∉ budget.take 0 0 (front ++ item :: back) := by
        intro taken
        obtain ⟨few, light⟩ := fits_of_take (notMem_front distinct) (Nat.zero_le _) taken
        have fewer := List.length_filter_le fails front
        have lighter := (List.filter_sublist (p := fails) (l := front)).map budget.weigh
        have total := lighter.sum_le_sum (fun _ _ => Nat.zero_le _)
        apply blocked
        unfold Budget.Admits Budget.total at *
        omega
      have kept : item ∈ budget.round fails (front ++ item :: back) :=
        mem_round.mpr ⟨by simp, Or.inr missed⟩
      obtain ⟨front', back', split, same⟩ := round_split kept
      rw [Function.iterate_succ_apply, split]
      apply ih
      · exact split ▸ nodup_round distinct
      · rwa [Budget.Admits, same]

/-- A queue in which the failing items leave room for all others. -/
def Budget.Open (budget : Budget Item) (fails : Item → Bool) (queue : List Item) : Prop :=
  ∀ front item back, queue = front ++ item :: back → fails item = false →
    budget.Admits fails front item

theorem open_round (distinct : queue.Nodup) (unblocked : budget.Open fails queue) :
    budget.Open fails (budget.round fails queue) := by
  intro front item back split works
  have kept : item ∈ budget.round fails queue := by
    rw [split]
    simp
  obtain ⟨front', back', rfl⟩ := List.append_of_mem (mem_round.mp kept).1
  obtain ⟨front'', back'', split', same⟩ := round_split kept
  have equal : front = front'' := by
    have distinct' : (budget.round fails _).Nodup := nodup_round distinct
    rw [split] at distinct'
    exact front_unique distinct' (split.symm.trans split')
  rw [equal, Budget.Admits, same]
  exact unblocked front' item back' rfl works

theorem iterate_round_subset (rounds : Nat) :
    ∀ other ∈ (budget.round fails)^[rounds] queue, other ∈ queue := by
  induction rounds generalizing queue with
  | zero => exact fun _ member => member
  | succ rounds ih =>
      intro other member
      rw [Function.iterate_succ_apply] at member
      exact (mem_round.mp (ih other member)).1

/-- A round serves the first item that does not fail. -/
theorem exists_served (unblocked : budget.Open fails queue) (waiting : item ∈ queue)
    (works : fails item = false) :
    ∃ served ∈ queue, fails served = false ∧ served ∉ budget.round fails queue := by
  obtain ⟨front, first, back, rfl, before, worksFirst⟩ :
      ∃ front first back, queue = front ++ first :: back ∧ (∀ other ∈ front, fails other = true) ∧
        fails first = false := by
    cases found : queue.find? fun other => !fails other with
    | none =>
        have failing := List.find?_eq_none.mp found item waiting
        simp [works] at failing
    | some first =>
        obtain ⟨worksFirst, front, back, split, before⟩ := List.find?_eq_some_iff_append.mp found
        exact ⟨front, first, back, split, by simpa using before, by simpa using worksFirst⟩
  have all : front.filter fails = front := List.filter_eq_self.mpr before
  obtain ⟨few, light⟩ := unblocked front first back rfl worksFirst
  rw [all] at few light
  have taken : first ∈ budget.take 0 0 (front ++ first :: back) :=
    take_of_fits (by omega) (by omega)
  refine ⟨first, by simp, worksFirst, fun kept => ?_⟩
  rcases (mem_round.mp kept).2 with failing | missed
  · rw [worksFirst] at failing
    cases failing
  · exact missed taken

/-- Every item is served at last: each round serves one, by induction on their number. -/
theorem all_served (distinct : queue.Nodup) (unblocked : budget.Open fails queue) :
    ∃ rounds, ∀ item ∈ queue, fails item = false →
      item ∉ (budget.round fails)^[rounds] queue := by
  induction left : (queue.filter fun item => !fails item).length using Nat.strong_induction_on
    generalizing queue with
  | _ number ih =>
      by_cases waiting : ∃ item ∈ queue, fails item = false
      · obtain ⟨item, member, works⟩ := waiting
        obtain ⟨served, present, worksServed, gone⟩ := exists_served unblocked member works
        have fewer : ((budget.round fails queue).filter fun item => !fails item).length <
            number := by
          have part : ((budget.round fails queue).filter fun item => !fails item).Sublist
              (queue.filter fun item => !fails item) :=
            (List.filter_sublist (p := budget.stays fails queue)).filter _
          rw [← left]
          apply lt_of_le_of_ne part.length_le
          intro equal
          have inside : served ∈ queue.filter fun item => !fails item :=
            List.mem_filter.mpr ⟨present, by simp [worksServed]⟩
          rw [← part.eq_of_length equal] at inside
          exact gone (List.mem_filter.mp inside).1
        obtain ⟨rounds, rest⟩ :=
          ih _ fewer (nodup_round distinct) (open_round distinct unblocked) rfl
        refine ⟨rounds + 1, fun other inside worksOther => ?_⟩
        rw [Function.iterate_succ_apply]
        by_cases remains : other ∈ budget.round fails queue
        · exact rest other remains worksOther
        · exact fun later => remains (iterate_round_subset rounds other later)
      · exact ⟨0, fun item member works => absurd ⟨item, member, works⟩ waiting⟩

/-- Exactly the queues in which the failing items leave room for all others are served. -/
theorem served_iff (distinct : queue.Nodup) :
    (∃ rounds, ∀ item ∈ queue, fails item = false →
      item ∉ (budget.round fails)^[rounds] queue) ↔ budget.Open fails queue := by
  constructor
  · rintro ⟨rounds, served⟩ front item back rfl works
    by_contra blocked
    exact served item (by simp) works (never_served distinct blocked rounds)
  · exact all_served distinct

end

end Rationing
