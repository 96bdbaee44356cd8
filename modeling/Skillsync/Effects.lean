import Mathlib.Logic.Basic

set_option autoImplicit false

namespace Effects

/-- A computation with a state that a failure leaves as it is. -/
structure Effect (State Reason Value : Type) where
  run : State → Except Reason Value × State

variable {State Reason Value Result : Type}

def Effect.andThen (first : Effect State Reason Value)
    (next : Value → Effect State Reason Result) : Effect State Reason Result where
  run state :=
    match first.run state with
    | (.ok value, after) => (next value).run after
    | (.error reason, after) => (.error reason, after)

instance : Monad (Effect State Reason) where
  pure value := ⟨fun state => (.ok value, state)⟩
  bind := Effect.andThen

def fail (reason : Reason) : Effect State Reason Value := ⟨fun state => (.error reason, state)⟩

def readState : Effect State Reason State := ⟨fun state => (.ok state, state)⟩

def change (alter : State → State) : Effect State Reason Unit :=
  ⟨fun state => (.ok (), alter state)⟩

/-- A result that is known already. -/
def settle (outcome : Except Reason Value) : Effect State Reason Value :=
  ⟨fun state => (outcome, state)⟩

/-- A check that leaves the state as it is. -/
def require (passes : Prop) [Decidable passes] (reason : Reason) : Effect State Reason Unit :=
  ⟨fun state => (if passes then .ok () else .error reason, state)⟩

/-- The same computation with other reasons for its failures. -/
def Effect.mapError (relabel : Reason → Reason) (computation : Effect State Reason Value) :
    Effect State Reason Value where
  run state :=
    match computation.run state with
    | (.ok value, after) => (.ok value, after)
    | (.error reason, after) => (.error (relabel reason), after)

/-- What comes last whatever the outcome is, and does not change it. -/
def Effect.finish (computation : Effect State Reason Value)
    (last : Except Reason Value → Effect State Reason Result) : Effect State Reason Value where
  run state :=
    match computation.run state with
    | (outcome, after) => (outcome, ((last outcome).run after).2)

/-- A computation on a part of a state. -/
def Effect.focus {Whole : Type} (get : Whole → State) (put : Whole → State → Whole)
    (computation : Effect State Reason Value) : Effect Whole Reason Value where
  run whole :=
    match computation.run (get whole) with
    | (outcome, part) => (outcome, put whole part)

/-- A failure is answered by another computation. -/
def Effect.recover {Other : Type} (computation : Effect State Reason Value)
    (answer : Reason → Effect State Other Value) : Effect State Other Value where
  run state :=
    match computation.run state with
    | (.ok value, after) => (.ok value, after)
    | (.error reason, after) => (answer reason).run after

/-- A transaction commits, or it changes nothing. -/
def transaction (alter : State → Except Reason State) : Effect State Reason Unit where
  run state :=
    match alter state with
    | .ok after => (.ok (), after)
    | .error reason => (.error reason, state)

theorem bind_ok {first : Effect State Reason Value} {next : Value → Effect State Reason Result}
    {state after : State} {value : Value} (done : first.run state = (.ok value, after)) :
    (first >>= next).run state = (next value).run after := by
  show (first.andThen next).run state = _
  simp only [Effect.andThen, done]

theorem bind_error {first : Effect State Reason Value} {next : Value → Effect State Reason Result}
    {state after : State} {reason : Reason} (failed : first.run state = (.error reason, after)) :
    (first >>= next).run state = (.error reason, after) := by
  show (first.andThen next).run state = _
  simp only [Effect.andThen, failed]

theorem bind_eq_ok {first : Effect State Reason Value}
    {next : Value → Effect State Reason Result} {state after : State} {result : Result}
    (done : (first >>= next).run state = (.ok result, after)) :
    ∃ value middle, first.run state = (.ok value, middle) ∧
      (next value).run middle = (.ok result, after) := by
  cases outcome : first.run state with
  | mk answer middle =>
      cases answer with
      | ok value =>
          rw [bind_ok outcome] at done
          exact ⟨value, middle, rfl, done⟩
      | error reason =>
          rw [bind_error outcome] at done
          cases done

@[simp] theorem readState_bind (next : State → Effect State Reason Result) (state : State) :
    (readState >>= next).run state = (next state).run state := rfl

@[simp] theorem change_bind (alter : State → State) (next : Unit → Effect State Reason Result)
    (state : State) : (change alter >>= next).run state = (next ()).run (alter state) := rfl

@[simp] theorem pure_run (value : Value) (state : State) :
    (pure value : Effect State Reason Value).run state = (.ok value, state) := rfl

theorem require_bind {passes : Prop} [Decidable passes] {reason : Reason}
    {next : Unit → Effect State Reason Result} {state : State} (holds : passes) :
    (require passes reason >>= next).run state = (next ()).run state := by
  rw [bind_ok]
  exact Prod.ext (if_pos holds) rfl

theorem require_bind_error {passes : Prop} [Decidable passes] {reason : Reason}
    {next : Unit → Effect State Reason Result} {state : State} (fails : ¬ passes) :
    (require passes reason >>= next).run state = (.error reason, state) := by
  rw [bind_error]
  exact Prod.ext (if_neg fails) rfl

/-- From a state with `pre` a computation returns with `post`, or fails with `fails`. -/
def Triple (pre : State → Prop) (computation : Effect State Reason Value)
    (post : Value → State → Prop) (fails : Reason → State → Prop) : Prop :=
  ∀ state, pre state →
    match computation.run state with
    | (.ok value, after) => post value after
    | (.error reason, after) => fails reason after

variable {pre : State → Prop} {post : Value → State → Prop} {final : Result → State → Prop}
  {fails : Reason → State → Prop}

theorem Triple.ok {computation : Effect State Reason Value}
    (triple : Triple pre computation post fails) {state after : State} {value : Value}
    (holds : pre state) (done : computation.run state = (.ok value, after)) : post value after := by
  have result := triple state holds
  rw [done] at result
  exact result

theorem Triple.error {computation : Effect State Reason Value}
    (triple : Triple pre computation post fails) {state after : State} {reason : Reason}
    (holds : pre state) (failed : computation.run state = (.error reason, after)) :
    fails reason after := by
  have result := triple state holds
  rw [failed] at result
  exact result

theorem Triple.pure {value : Value} (holds : ∀ state, pre state → post value state) :
    Triple pre (pure value) post fails := holds

theorem Triple.fail {reason : Reason} (holds : ∀ state, pre state → fails reason state) :
    Triple pre (fail reason) post fails := holds

theorem Triple.bind {first : Effect State Reason Value}
    {next : Value → Effect State Reason Result} (front : Triple pre first post fails)
    (back : ∀ value, Triple (post value) (next value) final fails) :
    Triple pre (first >>= next) final fails := by
  intro state holds
  have result := front state holds
  cases outcome : first.run state with
  | mk done after =>
      rw [outcome] at result
      cases done with
      | ok value =>
          rw [bind_ok outcome]
          exact back value after result
      | error reason =>
          rw [bind_error outcome]
          exact result

theorem Triple.weaken {computation : Effect State Reason Value} {pre' : State → Prop}
    {post' : Value → State → Prop} {fails' : Reason → State → Prop}
    (triple : Triple pre computation post fails) (stronger : ∀ state, pre' state → pre state)
    (weaker : ∀ value state, post value state → post' value state)
    (weakerFails : ∀ reason state, fails reason state → fails' reason state) :
    Triple pre' computation post' fails' := by
  intro state holds
  have result := triple state (stronger state holds)
  cases outcome : computation.run state with
  | mk done after =>
      rw [outcome] at result
      cases done with
      | ok value => exact weaker value after result
      | error reason => exact weakerFails reason after result

/-- The state that is read is the one in which the computation goes on. -/
theorem Triple.read_bind {next : State → Effect State Reason Result}
    (back : ∀ seen, pre seen → Triple (fun state => state = seen) (next seen) final fails) :
    Triple pre (readState >>= next) final fails := by
  intro state holds
  exact back state holds state rfl

theorem Triple.change {alter : State → State} {post : Unit → State → Prop}
    (holds : ∀ state, pre state → post () (alter state)) :
    Triple pre (change alter) post fails := holds

theorem Triple.settle_bind {outcome : Except Reason Value}
    {next : Value → Effect State Reason Result}
    (stops : ∀ state reason, pre state → outcome = .error reason → fails reason state)
    (back : ∀ value, outcome = .ok value → Triple pre (next value) final fails) :
    Triple pre (settle outcome >>= next) final fails := by
  intro state holds
  cases outcome with
  | ok value => exact back value rfl state holds
  | error reason => exact stops state reason holds rfl

theorem Triple.require {passes : Prop} [Decidable passes] {reason : Reason}
    {post : Unit → State → Prop} (stops : ∀ state, pre state → ¬ passes → fails reason state)
    (succeeds : ∀ state, pre state → passes → post () state) :
    Triple pre (require passes reason) post fails := by
  intro state holds
  unfold Effects.require
  by_cases decided : passes
  · simp only [if_pos decided]
    exact succeeds state holds decided
  · simp only [if_neg decided]
    exact stops state holds decided

theorem Triple.require_bind {passes : Prop} [Decidable passes] {reason : Reason}
    {next : Unit → Effect State Reason Result}
    (stops : ∀ state, pre state → ¬ passes → fails reason state)
    (back : passes → Triple pre (next ()) final fails) :
    Triple pre (Effects.require passes reason >>= next) final fails := by
  by_cases decided : passes
  · have front : Triple pre (Effects.require passes reason) (fun _ => pre) fails :=
      .require stops fun state holds _ => holds
    exact front.bind fun _ => back decided
  · have front : Triple pre (Effects.require passes reason) (fun _ _ => False) fails :=
      .require stops fun state _ passed => decided passed
    exact front.bind fun _ _ impossible => impossible.elim

/-- The loop rule: what every iteration keeps, the loop keeps. -/
theorem Triple.forM {Item : Type} {items : List Item} {body : Item → Effect State Reason Unit}
    {invariant : State → Prop}
    (keeps : ∀ item ∈ items, Triple invariant (body item) (fun _ => invariant) fails) :
    Triple invariant (items.forM body) (fun _ => invariant) fails := by
  induction items with
  | nil => exact Triple.pure fun _ holds => holds
  | cons item rest ih =>
      rw [List.forall_mem_cons] at keeps
      exact keeps.1.bind fun _ => ih keeps.2

/-- The loop rule for a loop with a result. -/
theorem Triple.foldlM {Item : Type} {items : List Item}
    {body : Value → Item → Effect State Reason Value} {invariant : State → Prop}
    (keeps : ∀ value, ∀ item ∈ items,
      Triple invariant (body value item) (fun _ => invariant) fails) (value : Value) :
    Triple invariant (items.foldlM body value) (fun _ => invariant) fails := by
  induction items generalizing value with
  | nil => exact Triple.pure fun _ holds => holds
  | cons item rest ih =>
      have front := keeps value item List.mem_cons_self
      have back : ∀ next, Triple invariant (rest.foldlM body next) (fun _ => invariant) fails :=
        fun next => ih (fun value other member =>
          keeps value other (List.mem_cons_of_mem _ member)) next
      exact front.bind back

theorem Triple.focus {Whole : Type} {get : Whole → State} {put : Whole → State → Whole}
    {computation : Effect State Reason Value} {pre : Whole → Prop} {post : Value → Whole → Prop}
    {fails : Reason → Whole → Prop}
    (triple : ∀ whole, pre whole → Triple (fun part => part = get whole) computation
      (fun value part => post value (put whole part)) fun reason part =>
        fails reason (put whole part)) :
    Triple pre (computation.focus get put) post fails := by
  intro whole holds
  cases outcome : computation.run (get whole) with
  | mk done part =>
      cases done with
      | ok value =>
          simp only [Effect.focus, outcome]
          exact (triple whole holds).ok rfl outcome
      | error reason =>
          simp only [Effect.focus, outcome]
          exact (triple whole holds).error rfl outcome

theorem Triple.recover {Other : Type} {computation : Effect State Reason Value}
    {answer : Reason → Effect State Other Value} {stopped : Other → State → Prop}
    (triple : Triple pre computation post fails)
    (answered : ∀ reason, Triple (fails reason) (answer reason) post stopped) :
    Triple pre (computation.recover answer) post stopped := by
  intro state holds
  cases outcome : computation.run state with
  | mk done after =>
      cases done with
      | ok value =>
          simp only [Effect.recover, outcome]
          exact triple.ok holds outcome
      | error reason =>
          simp only [Effect.recover, outcome]
          exact answered reason after (triple.error holds outcome)

theorem Triple.transaction {alter : State → Except Reason State} {post : Unit → State → Prop}
    (commits : ∀ state after, pre state → alter state = .ok after → post () after)
    (stops : ∀ state reason, pre state → alter state = .error reason → fails reason state) :
    Triple pre (Effects.transaction alter) post fails := by
  intro state holds
  unfold Effects.transaction
  cases outcome : alter state with
  | ok after =>
      simp only [outcome]
      exact commits state after holds outcome
  | error reason =>
      simp only [outcome]
      exact stops state reason holds outcome

theorem Triple.of_pre {computation : Effect State Reason Value} {pre' : State → Prop}
    (triple : Triple pre computation post fails) (stronger : ∀ state, pre' state → pre state) :
    Triple pre' computation post fails :=
  fun state holds => triple state (stronger state holds)

/-- What is known when a computation begins. -/
theorem Triple.knowing {fact : Prop} {computation : Effect State Reason Value}
    (triple : fact → Triple pre computation post fails) :
    Triple (fun state => pre state ∧ fact) computation post fails :=
  fun state holds => triple holds.2 state holds.1

/-- What holds whatever the outcome is. -/
theorem Triple.always {computation : Effect State Reason Value} {result : State → Prop}
    (triple : Triple pre computation (fun _ => result) fun _ => result) {state : State}
    (holds : pre state) : result (computation.run state).2 := by
  have outcome := triple state holds
  split at outcome
  · rename_i same
    rw [same]
    exact outcome
  · rename_i same
    rw [same]
    exact outcome

theorem Triple.mapError {computation : Effect State Reason Value} {relabel : Reason → Reason}
    (triple : Triple pre computation post fun reason => fails (relabel reason)) :
    Triple pre (computation.mapError relabel) post fails := by
  intro state holds
  cases outcome : computation.run state with
  | mk done after =>
      cases done with
      | ok value =>
          simp only [Effect.mapError, outcome]
          exact triple.ok holds outcome
      | error reason =>
          simp only [Effect.mapError, outcome]
          exact triple.error holds outcome

theorem Triple.finish {computation : Effect State Reason Value} {before : Value → State → Prop}
    {failed : Reason → State → Prop} {last : Except Reason Value → Effect State Reason Result}
    (triple : Triple pre computation before failed)
    (done : ∀ value state, before value state → post value ((last (.ok value)).run state).2)
    (undone : ∀ reason state, failed reason state →
      fails reason ((last (.error reason)).run state).2) :
    Triple pre (computation.finish last) post fails := by
  intro state holds
  cases outcome : computation.run state with
  | mk answer after =>
      cases answer with
      | ok value =>
          simp only [Effect.finish, outcome]
          exact done value after (triple.ok holds outcome)
      | error reason =>
          simp only [Effect.finish, outcome]
          exact undone reason after (triple.error holds outcome)

/-- Whatever the outcome is, the state at the end is related to the one at the start. -/
def Moves (related : State → State → Prop) (computation : Effect State Reason Value) : Prop :=
  ∀ state, related state (computation.run state).2

/-- Steps that can be taken one after the other, or not at all. -/
structure Chained (related : State → State → Prop) : Prop where
  refl : ∀ state, related state state
  trans : ∀ first second third, related first second → related second third → related first third

section
variable {related : State → State → Prop} (chained : Chained related)

include chained

theorem Moves.pure (value : Value) : Moves related (pure value : Effect State Reason Value) :=
  chained.refl

theorem Moves.fail (reason : Reason) : Moves related (fail reason : Effect State Reason Value) :=
  chained.refl

theorem Moves.settle (outcome : Except Reason Value) : Moves related (settle outcome) :=
  chained.refl

theorem Moves.require (passes : Prop) [Decidable passes] (reason : Reason) :
    Moves related (require passes reason) := chained.refl

theorem Moves.bind {first : Effect State Reason Value} {next : Value → Effect State Reason Result}
    (front : Moves related first) (back : ∀ value, Moves related (next value)) :
    Moves related (first >>= next) := by
  intro state
  cases outcome : first.run state with
  | mk done middle =>
      have reached := front state
      rw [outcome] at reached
      cases done with
      | ok value =>
          rw [bind_ok outcome]
          exact chained.trans _ _ _ reached (back value middle)
      | error reason =>
          rw [bind_error outcome]
          exact reached

theorem Moves.forM {Item : Type} {items : List Item} {body : Item → Effect State Reason Unit}
    (each : ∀ item, Moves related (body item)) : Moves related (items.forM body) := by
  induction items with
  | nil => exact Moves.pure chained ()
  | cons item rest ih => exact Moves.bind chained (each item) fun _ => ih

end

theorem Moves.mono {related weaker : State → State → Prop}
    {computation : Effect State Reason Value} (moves : Moves related computation)
    (implies : ∀ first second, related first second → weaker first second) :
    Moves weaker computation := fun state => implies _ _ (moves state)

/-- The rest of a computation may know the state it begins in. -/
theorem Moves.read_bind {related : State → State → Prop}
    {next : State → Effect State Reason Result}
    (back : ∀ seen, related seen ((next seen).run seen).2) : Moves related (readState >>= next) :=
  back

/-- What a chain of steps keeps, it keeps whatever the outcome is. -/
theorem Moves.triple {related : State → State → Prop} {computation : Effect State Reason Value}
    {result : State → Prop} (moves : Moves related computation)
    (done : ∀ first second, pre first → related first second → result second)
    (undone : ∀ first second reason, pre first → related first second → fails reason second) :
    Triple pre computation (fun _ => result) fails := by
  intro state holds
  have reached := moves state
  cases outcome : computation.run state with
  | mk answer after =>
      rw [outcome] at reached
      cases answer with
      | ok value => exact done state after holds reached
      | error reason => exact undone state after reason holds reached

end Effects
