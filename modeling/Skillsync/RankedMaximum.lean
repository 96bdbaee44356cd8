import Mathlib.Data.Set.Function
import Mathlib.Order.Basic

set_option autoImplicit false

namespace RankedMaximum

variable {Value Rank : Type} [LinearOrder Rank] {rank : Value → Rank}

/-- The register after seeing one more value; the current value wins a tie. -/
def join (rank : Value → Rank) (current : Option Value) (candidate : Value) : Option Value :=
  match current with
  | none => some candidate
  | some winner => if rank winner < rank candidate then some candidate else some winner

/-- The register after seeing the content of another one. -/
def joinOption (rank : Value → Rank) (current : Option Value) : Option Value → Option Value
  | none => current
  | some candidate => join rank current candidate

/-- `winner` is the greatest value of `history`, and `none` is the winner of no history. -/
def IsWinner (rank : Value → Rank) (history : Set Value) : Option Value → Prop
  | none => history = ∅
  | some winner => winner ∈ history ∧ ∀ value ∈ history, rank value ≤ rank winner

/-- The register never moves down. -/
def Below (rank : Value → Rank) : Option Value → Option Value → Prop
  | none, _ => True
  | some _, none => False
  | some lower, some upper => rank lower ≤ rank upper

theorem Below.refl (current : Option Value) : Below rank current current := by
  cases current with
  | none => trivial
  | some winner => exact le_refl (rank winner)

theorem Below.trans {first second third : Option Value} (lower : Below rank first second)
    (upper : Below rank second third) : Below rank first third := by
  cases first with
  | none => trivial
  | some a =>
      cases second with
      | none => cases lower
      | some b =>
          cases third with
          | none => cases upper
          | some c => exact le_trans (show rank a ≤ rank b from lower) upper

theorem below_join (current : Option Value) (candidate : Value) :
    Below rank current (join rank current candidate) := by
  cases current with
  | none => trivial
  | some winner =>
      unfold join
      dsimp only
      split
      · rename_i less
        exact le_of_lt less
      · exact le_refl (rank winner)

theorem below_joinOption (current other : Option Value) :
    Below rank current (joinOption rank current other) := by
  cases other with
  | none => exact Below.refl current
  | some candidate => exact below_join current candidate

/-- A value is below a join if it is below one of its sides. -/
theorem below_joinOption_iff {value : Value} {current other : Option Value} :
    Below rank (some value) (joinOption rank current other) ↔
      Below rank (some value) current ∨ Below rank (some value) other := by
  cases current with
  | none =>
      cases other with
      | none => exact (or_self_iff).symm
      | some candidate => exact ⟨Or.inr, fun below => below.elim False.elim id⟩
  | some winner =>
      cases other with
      | none => exact ⟨Or.inl, fun below => below.elim id False.elim⟩
      | some candidate =>
          simp only [joinOption, join]
          split
          · rename_i less
            exact ⟨Or.inr, fun below => below.elim (fun le => le_trans le less.le) id⟩
          · rename_i notLess
            exact ⟨Or.inl, fun below => below.elim id fun le => le_trans le (not_lt.mp notLess)⟩

theorem join_mem {current : Option Value} {candidate value : Value}
    (kept : join rank current candidate = some value) :
    current = some value ∨ candidate = value := by
  cases current with
  | none => exact Or.inr (Option.some.inj kept)
  | some winner =>
      unfold join at kept
      dsimp only at kept
      split at kept
      · exact Or.inr (Option.some.inj kept)
      · exact Or.inl kept

theorem IsWinner.empty : IsWinner rank ∅ none := rfl

/-- A register is the winner of what it holds. -/
theorem IsWinner.held (current : Option Value) :
    IsWinner rank { value | current = some value } current := by
  cases current with
  | none => simp [IsWinner]
  | some winner => simp [IsWinner]

theorem IsWinner.congr {history other : Set Value} {current : Option Value}
    (wins : IsWinner rank history current) (same : history = other) :
    IsWinner rank other current := same ▸ wins

/-- A value that is not above the winner is not above some value of the history. -/
theorem IsWinner.bounds {history : Set Value} {current : Option Value} {value : Value}
    (wins : IsWinner rank history current) (below : Below rank (some value) current) :
    ∃ other ∈ history, rank value ≤ rank other := by
  cases current with
  | none => cases below
  | some winner => exact ⟨winner, wins.1, below⟩

/-- Values that others of the history dominate do not change its winner. -/
theorem IsWinner.dominated {history larger : Set Value} {current : Option Value}
    (wins : IsWinner rank history current) (subset : history ⊆ larger)
    (bounded : ∀ value ∈ larger, ∃ other ∈ history, rank value ≤ rank other) :
    IsWinner rank larger current := by
  cases current with
  | none =>
      have nothing : history = ∅ := wins
      refine Set.eq_empty_of_forall_notMem fun value seen => ?_
      obtain ⟨other, member, _⟩ := bounded value seen
      exact absurd (nothing ▸ member) (Set.notMem_empty other)
  | some winner =>
      refine ⟨subset wins.1, fun value seen => ?_⟩
      obtain ⟨other, member, le⟩ := bounded value seen
      exact le_trans le (wins.2 other member)

/-- A longer history has a winner that is not below. -/
theorem IsWinner.below {history longer : Set Value} {current later : Option Value}
    (wins : IsWinner rank history current) (laterWins : IsWinner rank longer later)
    (subset : history ⊆ longer) : Below rank current later := by
  cases current with
  | none => trivial
  | some winner =>
      cases later with
      | none =>
          have nothing : longer = ∅ := laterWins
          exact absurd (nothing ▸ subset wins.1) (Set.notMem_empty winner)
      | some upper => exact laterWins.2 winner (subset wins.1)

theorem IsWinner.join {history : Set Value} {current : Option Value}
    (wins : IsWinner rank history current) (candidate : Value) :
    IsWinner rank (insert candidate history) (join rank current candidate) := by
  cases current with
  | none =>
      have nothing : history = ∅ := wins
      subst nothing
      refine ⟨Set.mem_insert _ _, ?_⟩
      rintro value (rfl | absent)
      · exact le_refl _
      · cases absent
  | some winner =>
      obtain ⟨member, greatest⟩ := wins
      unfold RankedMaximum.join
      dsimp only
      split
      · rename_i less
        refine ⟨Set.mem_insert _ _, ?_⟩
        rintro value (rfl | seen)
        · exact le_refl _
        · exact le_trans (greatest value seen) (le_of_lt less)
      · rename_i notLess
        refine ⟨Set.mem_insert_of_mem _ member, ?_⟩
        rintro value (rfl | seen)
        · exact not_lt.mp notLess
        · exact greatest value seen

/-- Joining two registers gives the winner of the union of what they have seen. -/
theorem IsWinner.joinOption {history remote : Set Value} {current other : Option Value}
    (wins : IsWinner rank history current) (remoteWins : IsWinner rank remote other) :
    IsWinner rank (history ∪ remote) (joinOption rank current other) := by
  cases other with
  | none =>
      have nothing : remote = ∅ := remoteWins
      rw [nothing, Set.union_empty]
      exact wins
  | some candidate =>
      obtain ⟨member, greatest⟩ := remoteWins
      have joined := wins.join candidate
      change IsWinner rank (history ∪ remote) (RankedMaximum.join rank current candidate)
      cases result : RankedMaximum.join rank current candidate with
      | none =>
          rw [result] at joined
          have member : candidate ∈ (∅ : Set Value) := joined ▸ Set.mem_insert candidate history
          exact absurd member (Set.notMem_empty candidate)
      | some winner =>
          rw [result] at joined
          obtain ⟨winnerMember, winnerGreatest⟩ := joined
          refine ⟨?_, ?_⟩
          · rcases winnerMember with rfl | seen
            · exact Set.mem_union_right _ member
            · exact Set.mem_union_left _ seen
          · rintro value (seen | seen)
            · exact winnerGreatest value (Set.mem_insert_of_mem _ seen)
            · exact le_trans (greatest value seen) (winnerGreatest candidate (Set.mem_insert _ _))

theorem IsWinner.unique {history : Set Value} {first second : Option Value}
    (injective : Set.InjOn rank history) (wins : IsWinner rank history first)
    (alsoWins : IsWinner rank history second) : first = second := by
  cases first with
  | none =>
      have nothing : history = ∅ := wins
      subst nothing
      cases second with
      | none => rfl
      | some winner => exact absurd alsoWins.1 (Set.notMem_empty winner)
  | some a =>
      cases second with
      | none =>
          have nothing : history = ∅ := alsoWins
          subst nothing
          exact absurd wins.1 (Set.notMem_empty a)
      | some b =>
          exact congrArg some (injective wins.1 alsoWins.1
            (le_antisymm (alsoWins.2 a wins.1) (wins.2 b alsoWins.1)))

end RankedMaximum
