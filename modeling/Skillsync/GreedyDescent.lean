import Mathlib.Data.List.Chain
import Mathlib.Data.List.Lex
import Mathlib.Order.Lattice

set_option autoImplicit false

namespace GreedyDescent

variable {Node Rank : Type}

/-- The path of the choices of `pick` below a root. -/
inductive Descent (pick : Node → Option Node) : Node → List Node → Prop
  | stop {root : Node} (none : pick root = none) : Descent pick root []
  | step {root child : Node} {path : List Node} (picked : pick root = some child)
      (below : Descent pick child path) : Descent pick root (child :: path)

/-- A descent that stops when its fuel is used up. -/
def descend (pick : Node → Option Node) : Nat → Node → List Node
  | 0, _ => []
  | fuel + 1, root =>
      match pick root with
      | none => []
      | some child => child :: descend pick fuel child

/-- The candidates above a level, and so the longest descent from that level. -/
def above (level : Node → Nat) (candidates : List Node) (root : Node) : Nat :=
  candidates.countP fun node => decide (level root < level node)

theorem above_lt {level : Node → Nat} {candidates : List Node} {root child : Node}
    (listed : child ∈ candidates) (higher : level root < level child) :
    above level candidates child < above level candidates root := by
  induction candidates with
  | nil => cases listed
  | cons node rest ih =>
      have others : above level rest child ≤ above level rest root := by
        apply List.countP_mono_left
        intro other _ further
        simp only [decide_eq_true_eq] at further ⊢
        omega
      simp only [above, List.countP_cons, decide_eq_true_eq] at others ih ⊢
      rcases List.mem_cons.mp listed with rfl | later
      · simp only [lt_irrefl, ↓reduceIte, higher]
        omega
      · have fewer := ih later
        split <;> split <;> omega

/-- Enough fuel gives a complete descent. -/
theorem descend_complete {pick : Node → Option Node} (level : Node → Nat)
    {candidates : List Node}
    (climbs : ∀ {root child}, pick root = some child →
      child ∈ candidates ∧ level root < level child)
    {fuel : Nat} {root : Node} (enough : above level candidates root ≤ fuel) :
    Descent pick root (descend pick fuel root) := by
  induction fuel generalizing root with
  | zero =>
      apply Descent.stop
      cases picked : pick root with
      | none => rfl
      | some child =>
          have fewer := above_lt (climbs picked).1 (climbs picked).2
          omega
  | succ fuel ih =>
      unfold descend
      cases picked : pick root with
      | none => exact .stop picked
      | some child =>
          apply Descent.step picked
          apply ih
          have fewer := above_lt (climbs picked).1 (climbs picked).2
          omega

namespace Descent

variable {pick : Node → Option Node} {root : Node} {path : List Node}

/-- Every step of a descent is a choice. -/
theorem chain {link : Node → Node → Prop} (descent : Descent pick root path)
    (picks : ∀ {parent child}, pick parent = some child → link parent child) :
    List.IsChain link (root :: path) := by
  induction descent with
  | stop none => exact List.isChain_singleton _
  | step picked below ih => exact List.isChain_cons_cons.mpr ⟨picks picked, ih⟩

theorem subset {candidates : List Node} (descent : Descent pick root path)
    (picks : ∀ {parent child}, pick parent = some child → child ∈ candidates) :
    ∀ node ∈ path, node ∈ candidates := by
  induction descent with
  | stop none => simp
  | step picked below ih => exact List.forall_mem_cons.mpr ⟨picks picked, ih⟩

variable [LinearOrder Rank] {rank : Node → Rank}

/-- A greedy descent is the greatest path below its root. -/
theorem greatest (link : Node → Node → Prop) {candidates : List Node}
    (descent : Descent pick root path)
    (injective : ∀ a ∈ candidates, ∀ b ∈ candidates, rank a = rank b → a = b)
    (picks : ∀ {parent child}, pick parent = some child → child ∈ candidates)
    (maximal : ∀ parent, ∀ node ∈ candidates, link parent node →
      ∃ child, pick parent = some child ∧ rank node ≤ rank child)
    {other : List Node} (linked : List.IsChain link (root :: other))
    (listed : ∀ node ∈ other, node ∈ candidates) :
    other.map rank ≤ path.map rank := by
  induction descent generalizing other with
  | @stop root none =>
      cases other with
      | nil => exact le_refl _
      | cons node rest =>
          obtain ⟨first, -⟩ := List.isChain_cons_cons.mp linked
          obtain ⟨child, picked, -⟩ := maximal root node (listed node List.mem_cons_self) first
          rw [none] at picked
          cases picked
  | @step root child path picked below ih =>
      cases other with
      | nil =>
          rw [List.map_nil, ← not_lt]
          exact List.not_lt_nil _
      | cons node rest =>
          obtain ⟨first, later⟩ := List.isChain_cons_cons.mp linked
          obtain ⟨nodeListed, restListed⟩ := List.forall_mem_cons.mp listed
          obtain ⟨best, chosen, bound⟩ := maximal root node nodeListed first
          rw [picked, Option.some.injEq] at chosen
          subst chosen
          rw [List.map_cons, List.map_cons, ← not_lt, List.cons_lt_cons_iff]
          rintro (greater | ⟨same, longer⟩)
          · exact absurd greater (not_lt.mpr bound)
          · have equal := injective child (picks picked) node nodeListed same
            subst equal
            exact absurd longer (not_lt.mpr (ih later restListed))

end Descent

end GreedyDescent
