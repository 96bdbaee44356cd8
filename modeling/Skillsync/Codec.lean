import Skillsync.Fallible

set_option autoImplicit false

namespace Codec

open Fallible

variable {ε ε' β α : Type}

/-- A decoder that reads back what is encoded and accepts nothing else. -/
structure Exact (encode : α → List β) (decode : List β → Except ε (α × List β))
    (fits : α → Prop) : Prop where
  reads : ∀ {a : α} (rest : List β), fits a → decode (encode a ++ rest) = .ok (a, rest)
  spells : ∀ {bytes : List β} {a : α} {rest : List β}, decode bytes = .ok (a, rest) →
    bytes = encode a ++ rest ∧ fits a

namespace Exact

variable {encode : α → List β} {decode : List β → Except ε (α × List β)} {fits : α → Prop}

/-- No encoding is a proper prefix of another one. -/
theorem cancel (exact : Exact encode decode fits) {a b : α} {left right : List β}
    (fitsA : fits a) (fitsB : fits b) (same : encode a ++ left = encode b ++ right) :
    a = b ∧ left = right := by
  have first := exact.reads left fitsA
  rw [same, exact.reads right fitsB] at first
  have pair := Except.ok.inj first
  exact ⟨(congrArg Prod.fst pair).symm, (congrArg Prod.snd pair).symm⟩

theorem mapError (exact : Exact encode decode fits) (f : ε → ε') :
    Exact encode (fun bytes => (decode bytes).mapError f) fits where
  reads rest fitsA := by
    rw [exact.reads rest fitsA]
    rfl
  spells accepted := exact.spells (Except.mapError_ok accepted)

end Exact

/-- Reads the given number of values, one after the other. -/
def times (decode : List β → Except ε (α × List β)) :
    Nat → List β → Except ε (List α × List β)
  | 0, bytes => .ok ([], bytes)
  | count + 1, bytes => do
      let (item, rest) ← decode bytes
      let (others, rest) ← times decode count rest
      return (item :: others, rest)

theorem Exact.times {encode : α → List β} {decode : List β → Except ε (α × List β)}
    {fits : α → Prop} (exact : Exact encode decode fits) (count : Nat) :
    Exact (List.flatMap encode) (Codec.times decode count)
      (fun items => items.length = count ∧ ∀ item ∈ items, fits item) where
  reads {items} rest fitting := by
    obtain ⟨length, fitting⟩ := fitting
    induction items generalizing count with
    | nil =>
        subst length
        rfl
    | cons item others ih =>
        rw [List.length_cons] at length
        subst length
        rw [List.forall_mem_cons] at fitting
        simp only [Codec.times, List.flatMap_cons, List.append_assoc,
          exact.reads _ fitting.1, Except.ok_bind, ih _ rfl fitting.2]
        rfl
  spells {bytes items rest} accepted := by
    induction count generalizing bytes items with
    | zero =>
        cases accepted
        simp
    | succ count ih =>
        obtain ⟨⟨item, middle⟩, first, accepted⟩ := Except.bind_ok accepted
        obtain ⟨⟨others, last⟩, tail, accepted⟩ := Except.bind_ok accepted
        cases accepted
        obtain ⟨rfl, fitsItem⟩ := exact.spells first
        obtain ⟨rfl, length, fitsOthers⟩ := ih tail
        refine ⟨by simp only [List.flatMap_cons, List.append_assoc], ?_, ?_⟩
        · rw [List.length_cons, length]
        · exact List.forall_mem_cons.mpr ⟨fitsItem, fitsOthers⟩

end Codec
