import Skillsync.RankedMaximum

set_option autoImplicit false

namespace Gossip

open RankedMaximum

variable {Node Value Rank : Type} [LinearOrder Rank] {rank : Value → Rank}
  {before after : Node → Option Value}

theorem above_of_winner {history : Set Value} {current : Option Value}
    (wins : IsWinner rank history current) {value : Value} (seen : value ∈ history) :
    Below rank (some value) current := by
  cases current with
  | none =>
      rw [show history = ∅ from wins] at seen
      exact seen
  | some winner => exact wins.2 value seen

/-- One exchange: `told node other` when `node` learns all that `other` has. -/
structure Exchange (rank : Value → Rank) (before after : Node → Option Value)
    (told : Node → Node → Prop) : Prop where
  keeps : ∀ node, Below rank (before node) (after node)
  learns : ∀ node other, told node other → Below rank (before other) (after node)
  origin : ∀ node value, after node = some value → ∃ other, before other = some value

/-- Exchanges one after the other. -/
inductive Exchanges (rank : Value → Rank) :
    (Node → Option Value) → List (Node → Node → Prop) → (Node → Option Value) → Prop
  | nil (values : Node → Option Value) : Exchanges rank values [] values
  | cons {before middle after : Node → Option Value} {told : Node → Node → Prop}
      {rest : List (Node → Node → Prop)} (first : Exchange rank before middle told)
      (later : Exchanges rank middle rest after) : Exchanges rank before (told :: rest) after

/-- What `source` has before the exchanges has come to `node` after them, over a chain of exchanges
in their order. -/
def Hears : List (Node → Node → Prop) → Node → Node → Prop
  | [], node, source => node = source
  | told :: rest, node, source =>
      ∃ middle, Hears rest node middle ∧ (middle = source ∨ told middle source)

theorem Hears.self (told : List (Node → Node → Prop)) (node : Node) : Hears told node node := by
  induction told with
  | nil => rfl
  | cons first rest ih => exact ⟨node, ih, Or.inl rfl⟩

theorem Exchange.hears {told : Node → Node → Prop} (exchange : Exchange rank before after told)
    {node source : Node} (heard : node = source ∨ told node source) :
    Below rank (before source) (after node) := by
  rcases heard with rfl | learned
  · exact exchange.keeps node
  · exact exchange.learns node source learned

namespace Exchanges

variable {told : List (Node → Node → Prop)} (exchanges : Exchanges rank before told after)

include exchanges

/-- What a node has heard of is not above what it has. -/
theorem hears {node source : Node} (heard : Hears told node source) :
    Below rank (before source) (after node) := by
  induction exchanges generalizing source with
  | nil values =>
      rw [show node = source from heard]
      exact Below.refl _
  | cons first later ih =>
      obtain ⟨middle, rest, heard⟩ := heard
      exact (first.hears heard).trans (ih rest)

/-- Every value was there before. -/
theorem origin {node : Node} {value : Value} (held : after node = some value) :
    ∃ other, before other = some value := by
  induction exchanges generalizing node with
  | nil values => exact ⟨node, held⟩
  | cons first later ih =>
      obtain ⟨other, found⟩ := ih held
      exact first.origin other value found

/-- A node that has heard of all the others has the greatest value of all. -/
theorem winner {node : Node} (all : ∀ source, Hears told node source) :
    IsWinner rank { value | ∃ source, before source = some value } (after node) := by
  have above : ∀ source, Below rank (before source) (after node) :=
    fun source => exchanges.hears (all source)
  cases held : after node with
  | none =>
      apply Set.eq_empty_of_forall_notMem
      intro value ⟨source, found⟩
      have lower := above source
      rw [found, held] at lower
      exact lower
  | some winner =>
      refine ⟨exchanges.origin held, ?_⟩
      intro value ⟨source, found⟩
      have lower := above source
      rw [found, held] at lower
      exact lower

end Exchanges

end Gossip
