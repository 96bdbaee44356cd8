import Skillsync.Runs
import Mathlib.Algebra.Order.Group.Nat

set_option autoImplicit false

namespace Duplex

inductive Side
  | first
  | second
deriving DecidableEq

namespace Side

def other : Side → Side
  | first => second
  | second => first

@[simp] theorem other_other (side : Side) : side.other.other = side := by
  cases side <;> rfl

end Side

/-- The items that each party writes, round by round. A party goes on to the next round when it has
written and read everything of this one. -/
abbrev Script (α : Type) := List (Side → List α)

namespace Script

variable {α : Type} (script : Script α) (side : Side)

/-- What a party writes in a round; nothing when the script is over. -/
def turn (round : Nat) : List α := (script[round]?.map fun items => items side).getD []

/-- What a party writes before a round. -/
def upTo (round : Nat) : List α := (script.take round).flatMap fun items => items side

/-- Everything that a party writes. -/
def whole : List α := script.flatMap fun items => items side

end Script

/-- A party in a round: what it still has to write, how many items it still has to read, and
everything that it has read. -/
structure Party (α : Type) where
  round : Nat
  writes : List α
  reads : Nat
  received : List α

/-- The parties and what each has written and the other has not read. A party that is not awake
does nothing. -/
structure State (α : Type) where
  party : Side → Party α
  pipe : Side → List α
  awake : Side → Bool

inductive Action
  /-- A party is woken by the first items that reach it. -/
  | wake (side : Side)
  | write (side : Side) (count : Nat)
  | read (side : Side) (count : Nat)
  | next (side : Side)
deriving DecidableEq

section
variable {α : Type} (script : Script α) (room : Side → Nat)

/-- A party at the beginning of a round. -/
def Party.enter (side : Side) (round : Nat) (received : List α) : Party α where
  round := round
  writes := script.turn side round
  reads := (script.turn side.other round).length
  received := received

/-- The first party begins; the second one sleeps. -/
def start : State α where
  party side := .enter script side 0 []
  pipe _ := []
  awake side := decide (side = .first)

def State.setParty (state : State α) (side : Side) (party : Party α) : State α :=
  { state with party := Function.update state.party side party }

def State.setPipe (state : State α) (side : Side) (pipe : List α) : State α :=
  { state with pipe := Function.update state.pipe side pipe }

def step (state : State α) : Action → Option (State α)
  | .wake side =>
      if state.awake side = false ∧ state.pipe side.other ≠ [] then
        some { state with awake := Function.update state.awake side true }
      else none
  | .write side count =>
      let party := state.party side
      if state.awake side = true ∧ 0 < count ∧ count ≤ party.writes.length ∧
          (state.pipe side).length + count ≤ room side then
        some ((state.setParty side { party with writes := party.writes.drop count }).setPipe side
          (state.pipe side ++ party.writes.take count))
      else none
  | .read side count =>
      let party := state.party side
      let pipe := state.pipe side.other
      if state.awake side = true ∧ 0 < count ∧ count ≤ party.reads ∧ count ≤ pipe.length then
        some ((state.setParty side { party with
          reads := party.reads - count
          received := party.received ++ pipe.take count }).setPipe side.other (pipe.drop count))
      else none
  | .next side =>
      let party := state.party side
      if state.awake side = true ∧ party.writes = [] ∧ party.reads = 0 ∧
          party.round < script.length then
        some (state.setParty side (.enter script side (party.round + 1) party.received))
      else none

/-- Both parties are through the script. -/
def Finished (state : State α) : Prop := ∀ side, (state.party side).round = script.length

end

section
variable {α : Type} (script : Script α) (side : Side)

theorem upTo_succ (round : Nat) :
    script.upTo side (round + 1) = script.upTo side round ++ script.turn side round := by
  unfold Script.upTo Script.turn
  rw [List.take_add_one, List.flatMap_append]
  cases script[round]? <;> simp

theorem turn_end : script.turn side script.length = [] := by
  simp [Script.turn]

theorem upTo_end {round : Nat} (ended : script.length ≤ round) :
    script.upTo side round = script.whole side := by
  unfold Script.upTo
  rw [List.take_of_length_le ended]
  rfl

theorem upTo_initial {early late : Nat} (before : early ≤ late) :
    script.upTo side early <+: script.upTo side late := by
  induction late, before using Nat.le_induction with
  | base => exact List.prefix_rfl
  | succ late _ ih =>
      rw [upTo_succ]
      exact ih.trans (List.prefix_append _ _)

theorem lt_of_upTo_lt {early late : Nat}
    (shorter : (script.upTo side early).length < (script.upTo side late).length) :
    early < late := by
  by_contra after
  have := (upTo_initial script side (not_lt.mp after)).length_le
  omega

end

section
variable {α : Type} (state : State α) (side : Side) (party : Party α) (pipe : List α)

theorem Side.eq_or_other (any : Side) : any = side ∨ any = side.other := by
  cases any <;> cases side <;> decide

theorem Side.other_ne : side.other ≠ side := by
  cases side <;> decide

@[simp] theorem setParty_party_self : (state.setParty side party).party side = party :=
  Function.update_self _ _ _

@[simp] theorem setParty_party_other :
    (state.setParty side party).party side.other = state.party side.other :=
  Function.update_of_ne side.other_ne _ _

@[simp] theorem setParty_pipe : (state.setParty side party).pipe = state.pipe := rfl

@[simp] theorem setParty_awake : (state.setParty side party).awake = state.awake := rfl

@[simp] theorem setPipe_pipe_self : (state.setPipe side pipe).pipe side = pipe :=
  Function.update_self _ _ _

@[simp] theorem setPipe_pipe_other :
    (state.setPipe side pipe).pipe side.other = state.pipe side.other :=
  Function.update_of_ne side.other_ne _ _

@[simp] theorem setPipe_party : (state.setPipe side pipe).party = state.party := rfl

@[simp] theorem setPipe_awake : (state.setPipe side pipe).awake = state.awake := rfl

end

/-- One of the two streams: nothing is lost between the parties, and the reader waits for as many
items as the writer has in its rounds. -/
structure Stream {α : Type} (script : Script α) (room : Nat) (side : Side) (writer : Party α)
    (pipe : List α) (reader : Party α) : Prop where
  sent : reader.received ++ pipe ++ writer.writes = script.upTo side (writer.round + 1)
  awaited : reader.received.length + reader.reads = (script.upTo side (reader.round + 1)).length
  reads_le : reader.reads ≤ (script.turn side reader.round).length
  room_le : pipe.length ≤ room

namespace Stream

variable {α : Type} {script : Script α} {room : Nat} {side : Side} {writer reader : Party α}
  {pipe : List α}

theorem enter : Stream script room side (.enter script side 0 []) []
    (.enter script side.other 0 []) where
  sent := by
    rw [upTo_succ]
    simp [Party.enter, Script.upTo]
  awaited := by
    rw [upTo_succ]
    simp [Party.enter, Script.upTo]
  reads_le := by
    rw [Party.enter, Side.other_other]
  room_le := Nat.zero_le _

theorem write (stream : Stream script room side writer pipe reader) {count : Nat}
    (fits : pipe.length + count ≤ room) :
    Stream script room side { writer with writes := writer.writes.drop count }
      (pipe ++ writer.writes.take count) reader where
  sent := by
    rw [← stream.sent]
    simp only [List.append_assoc, List.take_append_drop]
  awaited := stream.awaited
  reads_le := stream.reads_le
  room_le := by
    rw [List.length_append, List.length_take]
    omega

theorem read (stream : Stream script room side writer pipe reader) {count : Nat}
    (awaited : count ≤ reader.reads) (present : count ≤ pipe.length) :
    Stream script room side writer (pipe.drop count)
      { reader with
        reads := reader.reads - count
        received := reader.received ++ pipe.take count } where
  sent := by
    rw [← stream.sent]
    simp only [List.append_assoc]
    rw [← List.append_assoc (pipe.take count), List.take_append_drop]
  awaited := by
    have same := stream.awaited
    simp only [List.length_append, List.length_take]
    omega
  reads_le := (Nat.sub_le _ _).trans stream.reads_le
  room_le := by
    have bound := stream.room_le
    rw [List.length_drop]
    omega

theorem writer_next (stream : Stream script room side writer pipe reader)
    (wrote : writer.writes = []) (received : List α) :
    Stream script room side (.enter script side (writer.round + 1) received) pipe reader where
  sent := by
    have same := stream.sent
    rw [wrote, List.append_nil] at same
    simp only [Party.enter]
    rw [same, ← upTo_succ]
  awaited := stream.awaited
  reads_le := stream.reads_le
  room_le := stream.room_le

theorem reader_next (stream : Stream script room side writer pipe reader)
    (read : reader.reads = 0) :
    Stream script room side writer pipe
      (.enter script side.other (reader.round + 1) reader.received) where
  sent := stream.sent
  awaited := by
    have same := stream.awaited
    rw [read, Nat.add_zero] at same
    simp only [Party.enter, Side.other_other]
    rw [same, ← List.length_append, ← upTo_succ]
  reads_le := by
    rw [Party.enter, Side.other_other]
  room_le := stream.room_le

/-- What a party writes does not change what it reads. -/
theorem reader_writes (stream : Stream script room side writer pipe reader) (writes : List α) :
    Stream script room side writer pipe { reader with writes := writes } :=
  ⟨stream.sent, stream.awaited, stream.reads_le, stream.room_le⟩

/-- What a party reads does not change what it writes. -/
theorem writer_reads (stream : Stream script room side writer pipe reader) (reads : Nat)
    (received : List α) :
    Stream script room side { writer with reads := reads, received := received } pipe reader :=
  ⟨stream.sent, stream.awaited, stream.reads_le, stream.room_le⟩

/-- A reader that has read its rounds while items are on their way is behind the writer. -/
theorem reader_behind (stream : Stream script room side writer pipe reader)
    (read : reader.reads = 0) (more : pipe ++ writer.writes ≠ []) :
    reader.round < writer.round := by
  have sent := congrArg List.length stream.sent
  have awaited := stream.awaited
  have positive := List.length_pos_of_ne_nil more
  simp only [List.length_append] at sent positive
  have : reader.round + 1 < writer.round + 1 := lt_of_upTo_lt script side (by omega)
  omega

/-- A writer that has nothing left for a reader that waits is behind it. -/
theorem writer_behind (stream : Stream script room side writer pipe reader)
    (wrote : writer.writes = []) (empty : pipe = []) (waits : 0 < reader.reads) :
    writer.round < reader.round := by
  have sent := congrArg List.length stream.sent
  have awaited := stream.awaited
  rw [wrote, empty, List.append_nil, List.append_nil] at sent
  have : writer.round + 1 < reader.round + 1 := lt_of_upTo_lt script side (by omega)
  omega

theorem received_pipe_le (stream : Stream script room side writer pipe reader) :
    reader.received.length + pipe.length ≤ (script.whole side).length := by
  have sent := congrArg List.length stream.sent
  simp only [List.length_append] at sent
  have part := (upTo_initial script side (le_max_left (writer.round + 1) script.length)).length_le
  rw [upTo_end script side (le_max_right _ _)] at part
  omega

/-- When both are through, the reader has the whole stream. -/
theorem whole (stream : Stream script room side writer pipe reader)
    (wrote : writer.round = script.length) (read : reader.round = script.length) :
    reader.received = script.whole side := by
  have sent := stream.sent
  have awaited := stream.awaited
  have waits := stream.reads_le
  rw [read, turn_end, List.length_nil, Nat.le_zero] at waits
  rw [wrote, upTo_end script side (Nat.le_succ _)] at sent
  rw [waits, read, upTo_end script side (Nat.le_succ _), ← sent] at awaited
  have nothing : pipe ++ writer.writes = [] := by
    apply List.eq_nil_of_length_eq_zero
    simp only [List.length_append] at awaited ⊢
    omega
  rw [← sent, List.append_assoc, nothing, List.append_nil]

end Stream

section
variable {α : Type}

/-- What holds in every state. -/
structure Invariant (script : Script α) (room : Side → Nat) (state : State α) : Prop where
  streams : ∀ side, Stream script (room side) side (state.party side) (state.pipe side)
    (state.party side.other)
  round_le : ∀ side, (state.party side).round ≤ script.length
  idle : ∀ side, state.awake side = false → side = .second ∧ (state.party side).received = []

variable {script : Script α} {room : Side → Nat} {state after : State α}

theorem start_invariant : Invariant script room (start script) where
  streams _ := .enter
  round_le _ := Nat.zero_le _
  idle side asleep := by
    cases side
    · cases asleep
    · exact ⟨rfl, rfl⟩

/-- To show the invariant after a step of one side, its own stream and the one that it reads. -/
theorem Invariant.of_sides (side : Side)
    (own : Stream script (room side) side (state.party side) (state.pipe side)
      (state.party side.other))
    (others : Stream script (room side.other) side.other (state.party side.other)
      (state.pipe side.other) (state.party side))
    (round_le : ∀ side, (state.party side).round ≤ script.length)
    (idle : ∀ side, state.awake side = false →
      side = .second ∧ (state.party side).received = []) :
    Invariant script room state where
  streams any := by
    rcases side.eq_or_other any with rfl | rfl
    · exact own
    · rwa [Side.other_other]
  round_le := round_le
  idle := idle

theorem Invariant.others (holds : Invariant script room state) (side : Side) :
    Stream script (room side.other) side.other (state.party side.other) (state.pipe side.other)
      (state.party side) := by
  have stream := holds.streams side.other
  rwa [Side.other_other] at stream

theorem wake_invariant {side : Side} (holds : Invariant script room state)
    (taken : step script room state (.wake side) = some after) : Invariant script room after := by
  simp only [step, Option.ite_none_right_eq_some, Option.some.injEq] at taken
  obtain ⟨-, rfl⟩ := taken
  refine ⟨holds.streams, holds.round_le, fun any asleep => holds.idle any ?_⟩
  by_cases mine : any = side
  · subst mine
    simp at asleep
  · simpa only [Function.update_of_ne mine] using asleep

theorem write_invariant {side : Side} {count : Nat} (holds : Invariant script room state)
    (taken : step script room state (.write side count) = some after) :
    Invariant script room after := by
  simp only [step, Option.ite_none_right_eq_some, Option.some.injEq] at taken
  obtain ⟨⟨awake, -, -, fits⟩, rfl⟩ := taken
  apply Invariant.of_sides side
  · simpa using (holds.streams side).write fits
  · simpa using (holds.others side).reader_writes ((state.party side).writes.drop count)
  · intro any
    rcases side.eq_or_other any with rfl | rfl <;> simpa using holds.round_le _
  · intro any asleep
    rcases side.eq_or_other any with rfl | rfl
    · simp [awake] at asleep
    · simpa using holds.idle _ (by simpa using asleep)

theorem read_invariant {side : Side} {count : Nat} (holds : Invariant script room state)
    (taken : step script room state (.read side count) = some after) :
    Invariant script room after := by
  simp only [step, Option.ite_none_right_eq_some, Option.some.injEq] at taken
  obtain ⟨⟨awake, -, awaited, present⟩, rfl⟩ := taken
  have untouched : ∀ pipe party,
      ((state.setParty side party).setPipe side.other pipe).pipe side = state.pipe side :=
    fun pipe party => Function.update_of_ne side.other_ne.symm _ _
  apply Invariant.of_sides side
  · rw [untouched]
    simpa using (holds.streams side).writer_reads _ _
  · simpa using (holds.others side).read awaited present
  · intro any
    rcases side.eq_or_other any with rfl | rfl <;> simpa using holds.round_le _
  · intro any asleep
    rcases side.eq_or_other any with rfl | rfl
    · simp [awake] at asleep
    · simpa using holds.idle _ (by simpa using asleep)

theorem next_invariant {side : Side} (holds : Invariant script room state)
    (taken : step script room state (.next side) = some after) : Invariant script room after := by
  simp only [step, Option.ite_none_right_eq_some, Option.some.injEq] at taken
  obtain ⟨⟨awake, wrote, read, before⟩, rfl⟩ := taken
  apply Invariant.of_sides side
  · simpa using (holds.streams side).writer_next wrote (state.party side).received
  · have next := (holds.others side).reader_next read
    rw [Side.other_other] at next
    simpa using next
  · intro any
    rcases side.eq_or_other any with rfl | rfl
    · simpa [Party.enter, Nat.succ_le_iff] using before
    · simpa using holds.round_le _
  · intro any asleep
    rcases side.eq_or_other any with rfl | rfl
    · simp [awake] at asleep
    · simpa using holds.idle _ (by simpa using asleep)

theorem step_invariant {action : Action} (holds : Invariant script room state)
    (taken : step script room state action = some after) : Invariant script room after := by
  cases action with
  | wake side => exact wake_invariant holds taken
  | write side count => exact write_invariant holds taken
  | read side count => exact read_invariant holds taken
  | next side => exact next_invariant holds taken

theorem run_invariant {actions : List Action} (holds : Invariant script room state)
    (reached : Runs.run (step script room) state actions = some after) :
    Invariant script room after := by
  have keeps : Runs.Preserves (step script room) (fun _ _ => True) (Invariant script room) :=
    fun _ _ _ before _ taken => step_invariant before taken
  exact keeps.run holds (.of_forall fun _ _ _ => trivial) reached

/-- A side that is awake and cannot step has filled its pipe or written everything, and has emptied
the other's pipe or read everything. -/
theorem stuck_side {side : Side} (awake : state.awake side = true) (positive : 0 < room side)
    (stuck : ∀ action, step script room state action = none) :
    ((state.party side).writes ≠ [] → state.pipe side ≠ []) ∧
      (0 < (state.party side).reads → state.pipe side.other = []) ∧
      ((state.party side).writes = [] → (state.party side).reads = 0 →
        script.length ≤ (state.party side).round) := by
  refine ⟨fun some_writes empty => ?_, fun waits => ?_, fun wrote read => ?_⟩
  · have writing := stuck (.write side 1)
    have left := List.length_pos_of_ne_nil some_writes
    simp only [step, awake, empty, List.length_nil] at writing
    rw [if_pos (by simp; omega)] at writing
    cases writing
  · by_contra more
    have reading := stuck (.read side 1)
    have left := List.length_pos_of_ne_nil more
    simp only [step, awake] at reading
    rw [if_pos (by simp; omega)] at reading
    cases reading
  · by_contra before
    have going := stuck (.next side)
    simp only [step, awake, wrote, read] at going
    rw [if_pos (by simp; omega)] at going
    cases going

/-- A party that cannot write to a full pipe is behind a reader that is behind it: no party has
anything left to write. -/
theorem stuck_wrote (holds : Invariant script room state) (awake : ∀ side, state.awake side = true)
    (positive : ∀ side, 0 < room side) (stuck : ∀ action, step script room state action = none)
    (side : Side) : (state.party side).writes = [] := by
  have ahead : ∀ side, (state.party side).writes ≠ [] →
      (state.party side.other).round < (state.party side).round ∧
        (state.party side.other).reads = 0 := by
    intro side left
    obtain ⟨full, -, -⟩ := stuck_side (awake side) (positive side) stuck
    obtain ⟨-, empty, -⟩ := stuck_side (awake side.other) (positive side.other) stuck
    rw [Side.other_other] at empty
    have read : (state.party side.other).reads = 0 := by
      by_contra waits
      exact full left (empty (Nat.pos_of_ne_zero waits))
    exact ⟨(holds.streams side).reader_behind read (by simp [left]), read⟩
  by_contra left
  obtain ⟨behind, read⟩ := ahead side left
  obtain ⟨-, -, ended⟩ := stuck_side (awake side.other) (positive side.other) stuck
  by_cases wrote : (state.party side.other).writes = []
  · have through := ended wrote read
    have bound := holds.round_le side
    omega
  · have := (ahead side.other wrote).1
    rw [Side.other_other] at this
    omega

/-- No party waits for items. -/
theorem stuck_read (holds : Invariant script room state) (awake : ∀ side, state.awake side = true)
    (positive : ∀ side, 0 < room side) (stuck : ∀ action, step script room state action = none)
    (side : Side) : (state.party side).reads = 0 := by
  have wrote := stuck_wrote holds awake positive stuck
  have ahead : ∀ side, 0 < (state.party side).reads →
      (state.party side.other).round < (state.party side).round := by
    intro side waits
    obtain ⟨-, empty, -⟩ := stuck_side (awake side) (positive side) stuck
    exact (holds.others side).writer_behind (wrote side.other) (empty waits) waits
  by_contra waits
  have behind := ahead side (Nat.pos_of_ne_zero waits)
  obtain ⟨-, -, ended⟩ := stuck_side (awake side.other) (positive side.other) stuck
  by_cases read : (state.party side.other).reads = 0
  · have through := ended (wrote side.other) read
    have bound := holds.round_le side
    omega
  · have := ahead side.other (Nat.pos_of_ne_zero read)
    rw [Side.other_other] at this
    omega

/-- No deadlock: as long as a party is not through, one of them can step. The second party sleeps
until it is written to, so the first one must have something to write in the first round. -/
theorem progress (holds : Invariant script room state) (positive : ∀ side, 0 < room side)
    (opens : script.upTo .first 1 ≠ []) :
    Finished script state ∨ ∃ action after, step script room state action = some after := by
  by_contra neither
  rw [not_or] at neither
  obtain ⟨unfinished, stopped⟩ := neither
  have stuck : ∀ action, step script room state action = none := by
    intro action
    by_contra taken
    exact stopped ⟨action, Option.ne_none_iff_exists'.mp taken⟩
  have first : state.awake .first = true := by
    by_contra asleep
    cases (holds.idle .first (by simpa using asleep)).1
  have second : state.awake .second = true := by
    by_contra asleep
    rw [Bool.not_eq_true] at asleep
    have received := (holds.idle .second asleep).2
    have empty : state.pipe .first = [] := by
      by_contra reached
      have waking := stuck (.wake .second)
      simp only [step, asleep] at waking
      rw [if_pos ⟨trivial, reached⟩] at waking
      cases waking
    have sent : (state.party .second).received ++ state.pipe .first ++ (state.party .first).writes =
      script.upTo .first ((state.party .first).round + 1) := (holds.streams .first).sent
    rw [received, empty, List.nil_append, List.nil_append] at sent
    have wrote : (state.party .first).writes = [] := by
      by_contra left
      exact (stuck_side first (positive .first) stuck).1 left empty
    rw [wrote] at sent
    have part := upTo_initial script .first
      (Nat.succ_le_succ (Nat.zero_le (state.party .first).round))
    rw [← sent] at part
    exact opens (List.prefix_nil.mp part)
  have awake : ∀ side, state.awake side = true := by
    rintro (_ | _)
    · exact first
    · exact second
  apply unfinished
  intro side
  obtain ⟨-, -, ended⟩ := stuck_side (awake side) (positive side) stuck
  exact le_antisymm (holds.round_le side) (ended (stuck_wrote holds awake positive stuck side)
    (stuck_read holds awake positive stuck side))

/-- A finished run has carried everything. -/
theorem complete (holds : Invariant script room state) (finished : Finished script state)
    (side : Side) : (state.party side.other).received = script.whole side :=
  (holds.streams side).whole (finished side) (finished side.other)

end

section
variable {α : Type} {script : Script α} {room : Side → Nat} {state after : State α}

/-- What a side has done. An item counts once when it is written and once more when it is read. -/
def State.doneBy (state : State α) (side : Side) : Nat :=
  2 * (state.party side.other).received.length + (state.pipe side).length +
    (state.party side).round + (state.awake side).toNat

def State.done (state : State α) : Nat := state.doneBy .first + state.doneBy .second

/-- The most that can be done. -/
def Script.work (script : Script α) : Nat :=
  2 * (script.whole .first).length + 2 * (script.whole .second).length + 2 * script.length + 2

theorem done_eq (state : State α) (side : Side) :
    state.done = state.doneBy side + state.doneBy side.other := by
  cases side
  · rfl
  · exact Nat.add_comm _ _

theorem doneBy_le (holds : Invariant script room state) (side : Side) :
    state.doneBy side ≤ 2 * (script.whole side).length + script.length + 1 := by
  have carried := (holds.streams side).received_pipe_le
  have round := holds.round_le side
  have awake := Bool.toNat_le (state.awake side)
  unfold State.doneBy
  omega

theorem done_le (holds : Invariant script room state) : state.done ≤ script.work := by
  have first := doneBy_le holds .first
  have second := doneBy_le holds .second
  unfold State.done Script.work
  omega

theorem step_done {action : Action} (taken : step script room state action = some after) :
    state.done < after.done := by
  cases action with
  | wake side =>
      simp only [step, Option.ite_none_right_eq_some, Option.some.injEq] at taken
      obtain ⟨⟨asleep, -⟩, rfl⟩ := taken
      simp only [done_eq _ side, State.doneBy, Function.update_self,
        Function.update_of_ne side.other_ne, asleep, Bool.toNat_false, Bool.toNat_true]
      omega
  | write side count =>
      simp only [step, Option.ite_none_right_eq_some, Option.some.injEq] at taken
      obtain ⟨⟨-, positive, part, -⟩, rfl⟩ := taken
      simp [done_eq _ side, State.doneBy]
      omega
  | read side count =>
      simp only [step, Option.ite_none_right_eq_some, Option.some.injEq] at taken
      obtain ⟨⟨-, positive, -, part⟩, rfl⟩ := taken
      have untouched : ∀ pipe party,
          ((state.setParty side party).setPipe side.other pipe).pipe side = state.pipe side :=
        fun pipe party => Function.update_of_ne side.other_ne.symm _ _
      simp [done_eq _ side, State.doneBy, untouched]
      omega
  | next side =>
      simp only [step, Option.ite_none_right_eq_some, Option.some.injEq] at taken
      obtain ⟨-, rfl⟩ := taken
      simp [done_eq _ side, State.doneBy, Party.enter]

theorem run_done {actions : List Action}
    (reached : Runs.run (step script room) state actions = some after) :
    state.done + actions.length ≤ after.done := by
  induction actions generalizing state with
  | nil =>
      cases reached
      exact le_rfl
  | cons action rest tail =>
      obtain ⟨middle, taken, reached⟩ := Runs.run_cons.mp reached
      have one := step_done taken
      have others := tail reached
      simp only [List.length_cons]
      omega

/-- No run is longer than the work that there is. -/
theorem bounded {actions : List Action}
    (reached : Runs.run (step script room) (start script) actions = some after) :
    actions.length ≤ script.work := by
  have bound := done_le (run_invariant start_invariant reached)
  have length := run_done reached
  omega

/-- Every run can be continued until both parties are through. -/
theorem finishes (positive : ∀ side, 0 < room side) (opens : script.upTo .first 1 ≠ [])
    (holds : Invariant script room state) :
    ∃ actions finished, Runs.run (step script room) state actions = some finished ∧
      Finished script finished := by
  induction left : script.work - state.done using Nat.strong_induction_on generalizing state with
  | _ left tail =>
      rcases progress holds positive opens with finished | ⟨action, next, taken⟩
      · exact ⟨[], state, rfl, finished⟩
      · have onward := step_invariant holds taken
        have more := step_done taken
        have bound := done_le onward
        obtain ⟨actions, finished, reached, through⟩ :=
          tail (script.work - next.done) (by omega) onward rfl
        exact ⟨action :: actions, finished, Runs.run_cons.mpr ⟨next, taken, reached⟩,
          through⟩

end

end Duplex
