import Mathlib.Data.List.Basic

set_option autoImplicit false

namespace Runs

variable {State Label : Type}

/-- Takes the labels in order; `none` when one of them is not enabled. -/
def run (step : State → Label → Option State) : State → List Label → Option State
  | s, [] => some s
  | s, label :: rest => (step s label).bind fun t => run step t rest

/-- Every label is taken from a state that allows it. -/
def Along (step : State → Label → Option State) (allowed : State → Label → Prop) :
    State → List Label → Prop
  | _, [] => True
  | s, label :: rest =>
      allowed s label ∧ ∀ t, step s label = some t → Along step allowed t rest

/-- One allowed step keeps the invariant. -/
def Preserves (step : State → Label → Option State) (allowed : State → Label → Prop)
    (invariant : State → Prop) : Prop :=
  ∀ s label t, invariant s → allowed s label → step s label = some t → invariant t

/-- `t` is one of the states a run passes, its two ends included. -/
def Passes (step : State → Label → Option State) (s : State) (labels : List Label)
    (t : State) : Prop :=
  ∃ front back, labels = front ++ back ∧ run step s front = some t

/-- A marked step was taken, and the property held in every state after it. -/
def Since (step : State → Label → Option State) (marked : State → Label → Prop)
    (holds : State → Prop) (s : State) (labels : List Label) : Prop :=
  ∃ front label back before after, labels = front ++ label :: back ∧
    run step s front = some before ∧ step before label = some after ∧ marked before label ∧
    ∀ t, Passes step after back t → holds t

section
variable {step : State → Label → Option State} {allowed permitted : State → Label → Prop}

@[simp] theorem run_nil (s : State) : run step s [] = some s := rfl

theorem run_cons {s t : State} {label : Label} {rest : List Label} :
    run step s (label :: rest) = some t ↔
      ∃ middle, step s label = some middle ∧ run step middle rest = some t := by
  simp only [run, Option.bind_eq_some_iff]

theorem run_append {s t : State} {front back : List Label} :
    run step s (front ++ back) = some t ↔
      ∃ middle, run step s front = some middle ∧ run step middle back = some t := by
  induction front generalizing s with
  | nil => simp
  | cons label front ih =>
      simp only [List.cons_append, run_cons, ih]
      constructor
      · rintro ⟨next, taken, middle, reached, ends⟩
        exact ⟨middle, ⟨next, taken, reached⟩, ends⟩
      · rintro ⟨middle, ⟨next, taken, reached⟩, ends⟩
        exact ⟨next, taken, middle, reached, ends⟩

theorem run_snoc {s t : State} {front : List Label} {label : Label} :
    run step s (front ++ [label]) = some t ↔
      ∃ middle, run step s front = some middle ∧ step middle label = some t := by
  simp only [run_append, run_cons, run_nil, Option.some.injEq, exists_eq_right]

theorem Along.append_left {s : State} {front back : List Label}
    (along : Along step allowed s (front ++ back)) : Along step allowed s front := by
  induction front generalizing s with
  | nil => trivial
  | cons label front ih => exact ⟨along.1, fun t taken => ih (along.2 t taken)⟩

theorem Along.append_right {s t : State} {front back : List Label}
    (along : Along step allowed s (front ++ back)) (reached : run step s front = some t) :
    Along step allowed t back := by
  induction front generalizing s with
  | nil =>
      rw [run_nil, Option.some.injEq] at reached
      exact reached ▸ along
  | cons label front ih =>
      obtain ⟨middle, taken, rest⟩ := run_cons.mp reached
      exact ih (along.2 middle taken) rest

theorem Along.append {s : State} {front back : List Label} (first : Along step allowed s front)
    (second : ∀ t, run step s front = some t → Along step allowed t back) :
    Along step allowed s (front ++ back) := by
  induction front generalizing s with
  | nil => exact second s rfl
  | cons label front ih =>
      refine ⟨first.1, fun t taken => ih (first.2 t taken) fun u reached => ?_⟩
      exact second u (run_cons.mpr ⟨t, taken, reached⟩)

/-- One more label in front of a run. -/
theorem Along.cons_run {s t u : State} {label : Label} {rest : List Label}
    (holds : allowed s label) (taken : step s label = some t)
    (remaining : Along step allowed t rest ∧ run step t rest = some u) :
    Along step allowed s (label :: rest) ∧ run step s (label :: rest) = some u := by
  refine ⟨⟨holds, fun next other => ?_⟩, run_cons.mpr ⟨t, taken, remaining.2⟩⟩
  rw [taken, Option.some.injEq] at other
  exact other ▸ remaining.1

theorem Along.of_forall {s : State} {labels : List Label}
    (all : ∀ label ∈ labels, ∀ t, allowed t label) : Along step allowed s labels := by
  induction labels generalizing s with
  | nil => trivial
  | cons label rest ih =>
      exact ⟨all label List.mem_cons_self s, fun t _ => ih fun other member =>
        all other (List.mem_cons_of_mem _ member)⟩

theorem Along.imp {q : State → Label → Prop} {s : State} {labels : List Label}
    (along : Along step allowed s labels) (weaker : ∀ s label, allowed s label → q s label) :
    Along step q s labels := by
  induction labels generalizing s with
  | nil => trivial
  | cons label rest ih =>
      exact ⟨weaker s label along.1, fun t taken => ih (along.2 t taken)⟩

theorem Along.and {s : State} {labels : List Label} (first : Along step allowed s labels)
    (second : Along step permitted s labels) :
    Along step (fun s label => allowed s label ∧ permitted s label) s labels := by
  induction labels generalizing s with
  | nil => trivial
  | cons label rest ih =>
      exact ⟨⟨first.1, second.1⟩, fun t taken => ih (first.2 t taken) (second.2 t taken)⟩

/-- The run rule: what every allowed step keeps, a whole run keeps. -/
theorem Preserves.run {invariant : State → Prop} (keeps : Preserves step allowed invariant)
    {s t : State} {labels : List Label} (start : invariant s)
    (along : Along step allowed s labels) (reached : run step s labels = some t) :
    invariant t := by
  induction labels generalizing s with
  | nil =>
      rw [run_nil, Option.some.injEq] at reached
      exact reached ▸ start
  | cons label rest ih =>
      obtain ⟨middle, taken, ends⟩ := run_cons.mp reached
      exact ih (keeps s label middle start along.1 taken) (along.2 middle taken) ends

section
variable {Plain : Type} {plain : Plain → Label → Option Plain} {project : State → Plain}

/-- A state that carries more than the steps need runs as its plain part does. -/
theorem run_project (follows : ∀ s label, (step s label).map project = plain (project s) label)
    (s : State) (labels : List Label) :
    (run step s labels).map project = run plain (project s) labels := by
  induction labels generalizing s with
  | nil => rfl
  | cons label rest ih =>
      simp only [run, ← follows s label]
      cases step s label with
      | none => rfl
      | some t => exact ih t

theorem Along.of_project (follows : ∀ s label, (step s label).map project = plain (project s) label)
    {allowed : Plain → Label → Prop} {s : State} {labels : List Label}
    (along : Along plain allowed (project s) labels) :
    Along step (fun s label => allowed (project s) label) s labels := by
  induction labels generalizing s with
  | nil => trivial
  | cons label rest ih =>
      refine ⟨along.1, fun t taken => ih (along.2 (project t) ?_)⟩
      rw [← follows, taken, Option.map_some]

end

theorem Since.now {marked : State → Label → Prop} {holds : State → Prop} {s before after : State}
    {front : List Label} {label : Label} (reached : run step s front = some before)
    (taken : step before label = some after) (mark : marked before label) (now : holds after) :
    Since step marked holds s (front ++ [label]) := by
  refine ⟨front, label, [], before, after, rfl, reached, taken, mark, ?_⟩
  rintro t ⟨back', back'', split, ends⟩
  obtain ⟨rfl, -⟩ := List.append_eq_nil_iff.mp split.symm
  rw [run_nil, Option.some.injEq] at ends
  exact ends ▸ now

theorem Since.extend {marked : State → Label → Prop} {holds : State → Prop} {s middle t : State}
    {labels : List Label} {label : Label} (since : Since step marked holds s labels)
    (reached : run step s labels = some middle) (taken : step middle label = some t)
    (now : holds t) : Since step marked holds s (labels ++ [label]) := by
  obtain ⟨front, first, back, before, after, rfl, start, marks, mark, always⟩ := since
  refine ⟨front, first, back ++ [label], before, after, by simp, start, marks, mark, ?_⟩
  rintro u ⟨back', back'', split, ends⟩
  rcases List.append_eq_append_iff.mp split with ⟨tail, whole, rest⟩ | ⟨tail, part, -⟩
  · cases tail with
    | nil =>
        rw [List.append_nil] at whole
        exact always u ⟨back, [], (List.append_nil back).symm, whole ▸ ends⟩
    | cons last tail =>
        obtain ⟨rfl, empty⟩ := List.cons.inj rest
        obtain ⟨rfl, -⟩ := List.append_eq_nil_iff.mp empty.symm
        obtain ⟨middle', reached', taken'⟩ := run_snoc.mp (whole ▸ ends)
        obtain ⟨start', begins, follows⟩ := run_append.mp reached
        obtain rfl : start' = before := Option.some.inj (begins.symm.trans start)
        obtain ⟨after', marks', follows⟩ := run_cons.mp follows
        obtain rfl : after' = after := Option.some.inj (marks'.symm.trans marks)
        obtain rfl : middle' = middle := Option.some.inj (reached'.symm.trans follows)
        obtain rfl : u = t := Option.some.inj (taken'.symm.trans taken)
        exact now
  · exact always u ⟨back', tail, part, ends⟩

theorem Preserves.passes {invariant : State → Prop} (keeps : Preserves step allowed invariant)
    {s t : State} {labels : List Label} (start : invariant s)
    (along : Along step allowed s labels) (passed : Passes step s labels t) :
    invariant t := by
  obtain ⟨front, back, rfl, reached⟩ := passed
  exact keeps.run start along.append_left reached

theorem Preserves.imp {invariant : State → Prop} (keeps : Preserves step allowed invariant)
    (stronger : ∀ s label, permitted s label → allowed s label) :
    Preserves step permitted invariant :=
  fun s label t holds permits taken => keeps s label t holds (stronger s label permits) taken

end

instance decidableAlong (step : State → Label → Option State)
    (allowed : State → Label → Prop) [∀ s label, Decidable (allowed s label)] :
    ∀ s labels, Decidable (Along step allowed s labels)
  | _, [] => .isTrue trivial
  | s, label :: rest =>
      match taken : step s label with
      | none => decidable_of_iff (allowed s label) (by simp [Along, taken])
      | some t =>
          have := decidableAlong step allowed t rest
          decidable_of_iff (allowed s label ∧ Along step allowed t rest)
            (by simp [Along, taken])

end Runs
