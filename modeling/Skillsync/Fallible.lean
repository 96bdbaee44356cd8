import Mathlib.Data.List.Basic

set_option autoImplicit false

namespace Fallible

variable {ε ε' α β σ κ : Type}

@[simp] theorem Except.ok_bind (a : α) (next : α → Except ε β) :
    ((Except.ok a : Except ε α) >>= next) = next a := rfl

@[simp] theorem Except.error_bind (reason : ε) (next : α → Except ε β) :
    ((Except.error reason : Except ε α) >>= next) = .error reason := rfl

theorem Except.bind_ok {first : Except ε α} {next : α → Except ε β} {b : β}
    (success : (first >>= next) = .ok b) : ∃ a, first = .ok a ∧ next a = .ok b := by
  cases first with
  | error reason => cases success
  | ok a => exact ⟨a, rfl, success⟩

theorem Except.mapError_ok {f : ε → ε'} {x : Except ε α} {a : α}
    (success : x.mapError f = .ok a) : x = .ok a := by
  cases x with
  | error reason => cases success
  | ok b => exact congrArg Except.ok (Except.ok.inj success)

theorem Except.toOption_eq_some {x : Except ε α} {a : α} : x.toOption = some a ↔ x = .ok a := by
  cases x with
  | error reason => simp [Except.toOption]
  | ok b => simp [Except.toOption]

theorem Except.eq_ok_getD {x : Except ε α} (succeeds : x.isOk = true) (other : α) :
    x = .ok (x.toOption.getD other) := by
  cases x with
  | error reason => cases succeeds
  | ok a => rfl

theorem Except.of_map_ok {f : α → β} {x : Except ε α} {b : β}
    (success : x.map f = .ok b) : ∃ a, x = .ok a ∧ f a = b := by
  cases x with
  | error reason => cases success
  | ok a => exact ⟨a, rfl, Except.ok.inj success⟩

theorem mapM_ok {f : α → Except ε β} {items : List α} {results : List β}
    (success : items.mapM f = .ok results) :
    List.Forall₂ (fun item result => f item = .ok result) items results := by
  induction items generalizing results with
  | nil =>
      cases success
      exact .nil
  | cons item rest ih =>
      rw [List.mapM_cons] at success
      obtain ⟨result, first, success⟩ := Except.bind_ok success
      obtain ⟨others, tail, success⟩ := Except.bind_ok success
      cases success
      exact .cons first (ih tail)

theorem mapM_eq_ok {f : α → Except ε β} {g : α → β} {items : List α}
    (each : ∀ item ∈ items, f item = .ok (g item)) : items.mapM f = .ok (items.map g) := by
  induction items with
  | nil => rfl
  | cons item rest ih =>
      obtain ⟨first, others⟩ := List.forall_mem_cons.mp each
      rw [List.mapM_cons, first, Except.ok_bind, ih others]
      rfl

theorem forM_eq_ok {f : α → Except ε Unit} {items : List α} :
    items.forM f = .ok () ↔ ∀ item ∈ items, f item = .ok () := by
  induction items with
  | nil =>
      simp only [List.forM_eq_forM, List.forM_nil, List.not_mem_nil, false_imp_iff, implies_true,
        iff_true]
      rfl
  | cons item rest ih =>
      simp only [List.forM_eq_forM, List.forM_cons, List.forall_mem_cons] at ih ⊢
      rw [← ih]
      cases first : f item with
      | error reason =>
          constructor
          · intro success
            cases success
          · rintro ⟨impossible, -⟩
            cases impossible
      | ok done =>
          rw [Except.ok_bind]
          exact ⟨fun success => ⟨rfl, success⟩, fun success => success.2⟩

theorem foldlM_cons_ok {f : σ → α → Except ε σ} {s t : σ} {item : α} {rest : List α}
    (success : (item :: rest).foldlM f s = .ok t) :
    ∃ middle, f s item = .ok middle ∧ rest.foldlM f middle = .ok t := by
  rw [List.foldlM_cons] at success
  exact Except.bind_ok success

theorem foldlM_append_ok {f : σ → α → Except ε σ} {s t : σ} {front back : List α}
    (success : (front ++ back).foldlM f s = .ok t) :
    ∃ middle, front.foldlM f s = .ok middle ∧ back.foldlM f middle = .ok t := by
  rw [List.foldlM_append] at success
  exact Except.bind_ok success

/-- A loop fails in one of its iterations. -/
theorem foldlM_error {f : σ → α → Except ε σ} {items : List α} {s : σ} {reason : ε}
    (failure : items.foldlM f s = .error reason) :
    ∃ middle, ∃ item ∈ items, f middle item = .error reason := by
  induction items generalizing s with
  | nil => cases failure
  | cons item rest ih =>
      rw [List.foldlM_cons] at failure
      cases first : f s item with
      | error other =>
          rw [first] at failure
          cases failure
          exact ⟨s, item, List.mem_cons_self, first⟩
      | ok middle =>
          rw [first] at failure
          obtain ⟨later, other, member, failed⟩ := ih failure
          exact ⟨later, other, List.mem_cons_of_mem _ member, failed⟩

/-- The loop rule: what every iteration keeps, the loop keeps. -/
theorem foldlM_invariant {f : σ → α → Except ε σ} (invariant : σ → Prop) {items : List α}
    {s t : σ} (start : invariant s)
    (keeps : ∀ s item next, item ∈ items → invariant s → f s item = .ok next → invariant next)
    (success : items.foldlM f s = .ok t) : invariant t := by
  induction items generalizing s with
  | nil =>
      cases success
      exact start
  | cons item rest ih =>
      obtain ⟨middle, first, success⟩ := foldlM_cons_ok success
      exact ih (keeps s item middle List.mem_cons_self start first)
        (fun s other next member => keeps s other next (List.mem_cons_of_mem _ member)) success

/-- What no iteration changes, the loop does not change. -/
theorem foldlM_keeps {f : σ → α → Except ε σ} (view : σ → β) {items : List α} {s t : σ}
    (keeps : ∀ s item next, item ∈ items → f s item = .ok next → view next = view s)
    (success : items.foldlM f s = .ok t) : view t = view s :=
  foldlM_invariant (fun middle => view middle = view s) rfl
    (fun current item next member same step => (keeps current item next member step).trans same)
    success

/-- In a loop that succeeds, every iteration does. -/
theorem foldlM_each {f : σ → α → Except ε σ} {items : List α} {s t : σ}
    (success : items.foldlM f s = .ok t) :
    ∀ item ∈ items, ∃ before after, f before item = .ok after := by
  induction items generalizing s with
  | nil => simp
  | cons item rest ih =>
      obtain ⟨middle, first, tail⟩ := foldlM_cons_ok success
      exact List.forall_mem_cons.mpr ⟨⟨s, middle, first⟩, ih tail⟩

/-- In a loop over items with distinct keys, only the item of a key changes what is seen
there. -/
theorem foldlM_at {f : σ → α → Except ε σ} (key : α → κ) (view : σ → β) {items : List α}
    {s t : σ} (distinct : (items.map key).Nodup) {item : α} (member : item ∈ items)
    (keeps : ∀ s other next, key other ≠ key item → f s other = .ok next →
      view next = view s)
    (success : items.foldlM f s = .ok t) :
    ∃ before after, view before = view s ∧ f before item = .ok after ∧ view t = view after := by
  obtain ⟨front, back, rfl⟩ := List.append_of_mem member
  obtain ⟨before, start, success⟩ := foldlM_append_ok success
  obtain ⟨after, step, rest⟩ := foldlM_cons_ok success
  rw [List.map_append, List.map_cons, List.nodup_append] at distinct
  obtain ⟨-, tail, apart⟩ := distinct
  refine ⟨before, after, foldlM_keeps view (fun s other next inFront => ?_) start, step,
    foldlM_keeps view (fun s other next inBack => ?_) rest⟩
  · exact keeps s other next (apart _ (List.mem_map_of_mem inFront) _ List.mem_cons_self)
  · refine keeps s other next fun same => ?_
    exact (List.nodup_cons.mp tail).1 (same ▸ List.mem_map_of_mem inBack)

/-- What a loop leaves behind: `failing` gives it for the iteration that fails. -/
def leftBehind (f : σ → α → Except ε σ) (failing : σ → α → β) (finished : σ → β) :
    σ → List α → β
  | s, [] => finished s
  | s, item :: rest =>
      match f s item with
      | .ok next => leftBehind f failing finished next rest
      | .error _ => failing s item

theorem leftBehind_ok {f : σ → α → Except ε σ} {failing : σ → α → β} {finished : σ → β}
    {items : List α} {s t : σ} (success : items.foldlM f s = .ok t) :
    leftBehind f failing finished s items = finished t := by
  induction items generalizing s with
  | nil =>
      cases success
      rfl
  | cons item rest ih =>
      obtain ⟨middle, first, success⟩ := foldlM_cons_ok success
      rw [leftBehind, first]
      exact ih success

theorem leftBehind_keeps (invariant : σ → Prop) {f : σ → α → Except ε σ} {failing : σ → α → β}
    {finished : σ → β} {left : β → Prop} {items : List α} {s : σ} (start : invariant s)
    (keeps : ∀ s item next, item ∈ items → invariant s → f s item = .ok next → invariant next)
    (fails : ∀ s item, item ∈ items → invariant s → left (failing s item))
    (finishes : ∀ s, invariant s → left (finished s)) :
    left (leftBehind f failing finished s items) := by
  induction items generalizing s with
  | nil => exact finishes s start
  | cons item rest ih =>
      unfold leftBehind
      split
      · rename_i next first
        exact ih (keeps s item next List.mem_cons_self start first)
          (fun s other next member => keeps s other next (List.mem_cons_of_mem _ member))
          (fun s other member => fails s other (List.mem_cons_of_mem _ member))
      · exact fails s item List.mem_cons_self start

/-- What holds of every result of a computation, successful or not. -/
def Always (success : α → Prop) (failure : ε → Prop) : Except ε α → Prop
  | .ok a => success a
  | .error reason => failure reason

theorem Always.succeeds {p : α → Prop} {x : Except ε α} (always : Always p (fun _ => False) x) :
    ∃ a, x = .ok a ∧ p a := by
  cases x with
  | error reason => exact always.elim
  | ok a => exact ⟨a, rfl, always⟩

theorem Always.bind {p : α → Prop} {goal : β → Prop} {failure : ε → Prop}
    {first : Except ε α} {next : α → Except ε β} (always : Always p failure first)
    (continues : ∀ a, p a → Always goal failure (next a)) :
    Always goal failure (first >>= next) := by
  cases first with
  | error reason => exact always
  | ok a => exact continues a always

theorem Always.map {p : α → Prop} {goal : β → Prop} {failure : ε → Prop} {x : Except ε α}
    {f : α → β}
    (always : Always p failure x) (weaker : ∀ a, p a → goal (f a)) :
    Always goal failure (x.map f) := by
  cases x with
  | error reason => exact always
  | ok a => exact weaker a always

/-- The loop rule for loops that may fail half way. -/
theorem Always.foldlM {f : σ → α → Except ε σ} {invariant : σ → Prop} {failure : ε → Prop}
    {items : List α} {s : σ} (start : invariant s)
    (keeps : ∀ s item, item ∈ items → invariant s → Always invariant failure (f s item)) :
    Always invariant failure (items.foldlM f s) := by
  induction items generalizing s with
  | nil => exact start
  | cons item rest ih =>
      rw [List.foldlM_cons]
      exact (keeps s item List.mem_cons_self start).bind fun middle holds =>
        ih holds fun s other member => keeps s other (List.mem_cons_of_mem _ member)

end Fallible
