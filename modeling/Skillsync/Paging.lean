import Mathlib.Data.List.Induction
import Mathlib.Order.Lattice

set_option autoImplicit false

namespace Paging

variable {Entry Id : Type} [LinearOrder Id] {id : Entry → Id}

/-- The entries are in the strict order of their ids. -/
def Ascending (id : Entry → Id) (entries : List Entry) : Prop :=
  entries.Pairwise fun earlier later => id earlier < id later

/-- The newest entries, as many as the limit allows. -/
def retain (limit : Nat) (entries : List Entry) : List Entry :=
  entries.drop (entries.length - limit)

/-- The first entries after an id. -/
def page (id : Entry → Id) (after : Id) (count : Nat) (entries : List Entry) : List Entry :=
  (entries.filter fun entry => decide (after < id entry)).take count

/-- Where the reader of a page goes on. -/
def next (id : Entry → Id) (after : Id) (listed : List Entry) : Id :=
  (listed.getLast?.map id).getD after

variable {entries listed seen : List Entry} {entry : Entry} {after start : Id} {count : Nat}

omit [LinearOrder Id] in
theorem retain_suffix (limit : Nat) (entries : List Entry) : retain limit entries <:+ entries :=
  List.drop_suffix _ _

theorem length_retain (limit : Nat) (entries : List Entry) :
    (retain limit entries).length = min limit entries.length := by
  rw [retain, List.length_drop]
  omega

theorem Ascending.suffix (ascending : Ascending id entries) (ends : listed <:+ entries) :
    Ascending id listed :=
  ascending.sublist ends.sublist

theorem Ascending.concat (ascending : Ascending id entries)
    (newest : ∀ other ∈ entries, id other < id entry) : Ascending id (entries ++ [entry]) := by
  apply List.pairwise_append.mpr ⟨ascending, List.pairwise_singleton _ _, ?_⟩
  intro other member last own
  rw [List.mem_singleton.mp own]
  exact newest other member

theorem page_sublist (id : Entry → Id) (after : Id) (count : Nat) (entries : List Entry) :
    (page id after count entries).Sublist entries :=
  (List.take_sublist _ _).trans List.filter_sublist

theorem after_page (member : entry ∈ page id after count entries) : after < id entry := by
  have kept := List.mem_of_mem_take member
  simpa using (List.mem_filter.mp kept).2

theorem Ascending.page (ascending : Ascending id entries) (after : Id) (count : Nat) :
    Ascending id (page id after count entries) :=
  ascending.sublist (page_sublist id after count entries)

omit [LinearOrder Id] in
theorem next_concat (front : List Entry) (last : Entry) :
    next id after (front ++ [last]) = id last := by
  simp [next]

omit [LinearOrder Id] in
theorem next_eq (id : Entry → Id) (after : Id) (listed : List Entry) :
    next id after listed = after ∨ ∃ entry ∈ listed, next id after listed = id entry := by
  induction listed using List.reverseRecOn with
  | nil => exact Or.inl rfl
  | append_singleton front last _ =>
      right
      exact ⟨last, by simp, next_concat front last⟩

/-- The reader goes on at the greatest id of the page. -/
theorem Ascending.le_next (ascending : Ascending id listed) (member : entry ∈ listed) :
    id entry ≤ next id after listed := by
  induction listed using List.reverseRecOn with
  | nil => cases member
  | append_singleton front last _ =>
      rw [next_concat]
      rcases List.mem_append.mp member with earlier | own
      · exact le_of_lt ((List.pairwise_append.mp ascending).2.2 entry earlier last (by simp))
      · rw [List.mem_singleton.mp own]

theorem lt_next (listed_after : ∀ other ∈ listed, after < id other) (present : listed ≠ []) :
    after < next id after listed := by
  induction listed using List.reverseRecOn with
  | nil => exact absurd rfl present
  | append_singleton front last _ =>
      rw [next_concat]
      exact listed_after last (by simp)

theorem le_next (listed_after : ∀ other ∈ listed, after < id other) :
    after ≤ next id after listed := by
  by_cases empty : listed = []
  · rw [empty]
    exact le_refl after
  · exact le_of_lt (lt_next listed_after empty)

/-- A page has every entry up to where its reader goes on. -/
theorem Ascending.mem_page (ascending : Ascending id entries) (member : entry ∈ entries)
    (later : after < id entry)
    (passed : id entry ≤ next id after (Paging.page id after count entries)) :
    entry ∈ Paging.page id after count entries := by
  have kept : entry ∈ entries.filter fun entry => decide (after < id entry) :=
    List.mem_filter.mpr ⟨member, decide_eq_true later⟩
  have ordered : Ascending id (entries.filter fun entry => decide (after < id entry)) :=
    ascending.sublist List.filter_sublist
  unfold Paging.page at passed ⊢
  generalize (entries.filter fun entry => decide (after < id entry)) = filtered at *
  rw [← List.take_append_drop count filtered] at kept ordered
  rcases List.mem_append.mp kept with inside | beyond
  · exact inside
  · -- The entry comes after the page, so its id is greater than where the reader goes on.
    have above : ∀ other ∈ filtered.take count, id other < id entry := fun other listed =>
      (List.pairwise_append.mp ordered).2.2 other listed entry beyond
    by_cases empty : filtered.take count = []
    · rw [empty] at passed
      exact absurd later (not_lt.mpr passed)
    · have ends := List.dropLast_concat_getLast empty
      rw [← ends, next_concat] at passed
      exact absurd (above _ (List.getLast_mem empty)) (not_lt.mpr passed)

/-- The entries that a reader was given since a first id, in the order of the pages. -/
structure Followed (id : Entry → Id) (start cursor : Id) (seen : List Entry) : Prop where
  ascending : Ascending id seen
  within : ∀ entry ∈ seen, start < id entry ∧ id entry ≤ cursor
  start_le : start ≤ cursor

theorem Followed.nothing (id : Entry → Id) (start : Id) : Followed id start start [] :=
  ⟨List.Pairwise.nil, fun _ member => absurd member List.not_mem_nil, le_refl start⟩

/-- One more page keeps the order of what was given. -/
theorem Followed.page {cursor : Id} (followed : Followed id start cursor seen)
    (ascending : Ascending id entries) (count : Nat) :
    Followed id start (next id cursor (Paging.page id cursor count entries))
      (seen ++ Paging.page id cursor count entries) := by
  have later : ∀ entry ∈ Paging.page id cursor count entries, cursor < id entry :=
    fun entry member => after_page member
  have forward := le_next later
  refine ⟨?_, ?_, le_trans followed.start_le forward⟩
  · apply List.pairwise_append.mpr ⟨followed.ascending, ascending.page cursor count, ?_⟩
    intro earlier member entry listed
    exact lt_of_le_of_lt (followed.within earlier member).2 (later entry listed)
  · intro entry member
    rcases List.mem_append.mp member with before | listed
    · obtain ⟨above, below⟩ := followed.within entry before
      exact ⟨above, le_trans below forward⟩
    · exact ⟨lt_of_le_of_lt followed.start_le (later entry listed),
        (ascending.page cursor count).le_next listed⟩

end Paging
