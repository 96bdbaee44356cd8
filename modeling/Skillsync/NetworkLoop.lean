import Mathlib.Data.Finset.Card
import Skillsync.Runs
import Skillsync.Scalars

set_option autoImplicit false

namespace Skillsync

open Runs

/-- `TaskOutcome`. -/
inductive TaskOutcome
  | synchronized (reconcileAgain : Bool)
  | unreachable
  | rejected (reconcileAgain : Bool)
  | localFailure
deriving DecidableEq

namespace TaskOutcome

def succeeded : TaskOutcome → Bool
  | synchronized _ => true
  | _ => false

def reconcileAgain : TaskOutcome → Bool
  | synchronized again => again
  | rejected again => again
  | _ => false

end TaskOutcome

/-- The commands that do not end the loop; a `Sync` carries the channel of its answer. -/
inductive NetworkCommand
  | trigger
  | sync (completed : Nat)
deriving DecidableEq

structure SyncSummary where
  attempted : Nat
  succeeded : Nat
deriving DecidableEq

/-- `saturating_add(1)` on `usize`. -/
def saturatingSucc (n : Nat) : Nat := min (n + 1) (2 ^ 64 - 1)

/-- Where an iteration of `run_network_loop` is. -/
inductive LoopPhase
  | receiving
  | passing
  | answering
  | selecting
deriving DecidableEq

/-- The variables of `run_network_loop`, with the tasks of its `JoinSet`: the peers of the
running outgoing sessions and the number of the incoming ones. `spawned` and `answered` list the
calls of `spawn_outgoing` and the sent summaries. -/
structure NetworkLoop where
  phase : LoopPhase
  outgoing : Finset EndpointId
  waiters : List Nat
  pendingTrigger : Bool
  deferredTrigger : Bool
  summary : SyncSummary
  running : Finset EndpointId
  incoming : Nat
  spawned : List EndpointId
  answered : List (Nat × SyncSummary)

/-- What the environment decides. The outcome of a task that panicked is missing. -/
inductive LoopLabel
  | command (command : NetworkCommand)
  /-- No command is left; whether the periodic deadline is over. -/
  | drained (periodic : Bool)
  | pass
  | answer
  | accepted
  | incomingDone (outcome : Option TaskOutcome)
  | outgoingDone (peer : EndpointId) (outcome : Option TaskOutcome)
  | tick
deriving DecidableEq

namespace NetworkLoop

def start : NetworkLoop := ⟨.receiving, ∅, [], true, false, ⟨0, 0⟩, ∅, 0, [], []⟩

def receive (loop : NetworkLoop) : NetworkCommand → NetworkLoop
  | .trigger =>
      if loop.waiters = [] then { loop with pendingTrigger := true }
      else { loop with deferredTrigger := true }
  | .sync completed =>
      if loop.waiters = [] then
        { loop with
          summary := ⟨loop.outgoing.card, 0⟩
          pendingTrigger := true
          waiters := loop.waiters ++ [completed] }
      else { loop with waiters := loop.waiters ++ [completed] }

/-- One active peer in a pass: a peer with an outgoing session is skipped. -/
def contact (loop : NetworkLoop) (peer : EndpointId) : NetworkLoop :=
  if peer ∈ loop.outgoing then loop
  else
    { loop with
      outgoing := insert peer loop.outgoing
      summary :=
        if loop.waiters = [] then loop.summary
        else { loop.summary with attempted := saturatingSucc loop.summary.attempted }
      running := insert peer loop.running
      spawned := loop.spawned ++ [peer] }

def passOver (active : List EndpointId) (loop : NetworkLoop) : NetworkLoop :=
  if loop.pendingTrigger then active.foldl contact { loop with pendingTrigger := false } else loop

def answerWaiters (loop : NetworkLoop) : NetworkLoop :=
  if loop.outgoing = ∅ ∧ loop.waiters ≠ [] then
    { loop with
      waiters := []
      answered := loop.answered ++ loop.waiters.map fun waiter => (waiter, loop.summary)
      summary := ⟨0, 0⟩
      pendingTrigger := loop.pendingTrigger || loop.deferredTrigger
      deferredTrigger := false }
  else loop

/-- The effect of a task result on the loop, its peer apart. -/
def reconcile (loop : NetworkLoop) (outcome : TaskOutcome) : NetworkLoop :=
  if outcome.reconcileAgain then { loop with pendingTrigger := true } else loop

/-- The result of an outgoing session. -/
def complete (loop : NetworkLoop) (peer : EndpointId) (outcome : TaskOutcome) : NetworkLoop :=
  reconcile
    { loop with
      outgoing := loop.outgoing.erase peer
      summary :=
        if outcome.succeeded ∧ loop.waiters ≠ [] then
          { loop.summary with succeeded := saturatingSucc loop.summary.succeeded }
        else loop.summary } outcome

/-- The next step of the loop; `active` is what `active_peers` returns. -/
def step (active : List EndpointId) (loop : NetworkLoop) (label : LoopLabel) :
    Option NetworkLoop :=
  match loop.phase, label with
  | .receiving, .command command => some (loop.receive command)
  | .receiving, .drained periodic =>
      some { loop with
        phase := .passing
        pendingTrigger := loop.pendingTrigger || (periodic && decide (loop.waiters = [])) }
  | .passing, .pass => some { loop.passOver active with phase := .answering }
  | .answering, .answer => some { loop.answerWaiters with phase := .selecting }
  | .selecting, .accepted => some { loop with phase := .receiving, incoming := loop.incoming + 1 }
  | .selecting, .incomingDone outcome =>
      if loop.incoming = 0 then none
      else
        let ended := { loop with phase := .receiving, incoming := loop.incoming - 1 }
        some (outcome.elim ended ended.reconcile)
  | .selecting, .outgoingDone peer outcome =>
      if peer ∈ loop.running then
        let ended := { loop with phase := .receiving, running := loop.running.erase peer }
        some (outcome.elim ended (ended.complete peer))
      else none
  | .selecting, .tick => some { loop with phase := .receiving }
  | _, _ => none

variable {active : List EndpointId} {loop after : NetworkLoop} {peer : EndpointId}

/-- The peers of a pass are contacted, except for those that have a session. -/
structure Contacted (peers : List EndpointId) (loop after : NetworkLoop) : Prop where
  outgoing : ∀ peer, peer ∈ after.outgoing ↔ peer ∈ loop.outgoing ∨ peer ∈ peers
  running : ∀ peer, peer ∈ after.running ↔
    peer ∈ loop.running ∨ (peer ∈ peers ∧ peer ∉ loop.outgoing)
  waiters : after.waiters = loop.waiters
  answered : after.answered = loop.answered
  pending : after.pendingTrigger = loop.pendingTrigger
  deferred : after.deferredTrigger = loop.deferredTrigger
  phase : after.phase = loop.phase
  kept : ∀ peer, loop.spawned.count peer ≤ after.spawned.count peer
  skipped : ∀ peer ∈ loop.outgoing, after.spawned.count peer = loop.spawned.count peer
  fresh : ∀ peer ∈ peers, peer ∉ loop.outgoing →
    loop.spawned.count peer < after.spawned.count peer

theorem contacted_busy (busy : peer ∈ loop.outgoing) :
    Contacted [peer] loop (loop.contact peer) := by
  have same : loop.contact peer = loop := if_pos busy
  rw [same]
  refine ⟨fun other => ?_, fun other => ?_, rfl, rfl, rfl, rfl, rfl, fun _ => le_rfl,
    fun _ _ => rfl, fun other listed idle => ?_⟩
  · rw [List.mem_singleton]
    exact ⟨Or.inl, fun either => either.elim id fun equal => equal ▸ busy⟩
  · rw [List.mem_singleton]
    exact ⟨Or.inl, fun either => either.resolve_right fun idle => idle.2 (idle.1 ▸ busy)⟩
  · rw [List.mem_singleton] at listed
    exact absurd (listed ▸ busy) idle

theorem contacted_idle (idle : peer ∉ loop.outgoing) :
    Contacted [peer] loop (loop.contact peer) := by
  have listed : (loop.contact peer).spawned = loop.spawned ++ [peer] := by
    simp only [contact, idle, ↓reduceIte]
  have opened : (loop.contact peer).outgoing = insert peer loop.outgoing := by
    simp only [contact, idle, ↓reduceIte]
  have started : (loop.contact peer).running = insert peer loop.running := by
    simp only [contact, idle, ↓reduceIte]
  obtain ⟨waiters, answered, pending, deferred, phase⟩ :
      (loop.contact peer).waiters = loop.waiters ∧
      (loop.contact peer).answered = loop.answered ∧
      (loop.contact peer).pendingTrigger = loop.pendingTrigger ∧
      (loop.contact peer).deferredTrigger = loop.deferredTrigger ∧
      (loop.contact peer).phase = loop.phase := by
    simp only [contact, idle, ↓reduceIte, and_self]
  refine ⟨fun other => ?_, fun other => ?_, waiters, answered, pending, deferred, phase,
    fun other => ?_, fun other busy => ?_, fun other member _ => ?_⟩
  · rw [opened, Finset.mem_insert, List.mem_singleton, or_comm]
  · rw [started, Finset.mem_insert, List.mem_singleton]
    constructor
    · rintro (rfl | before)
      · exact Or.inr ⟨rfl, idle⟩
      · exact Or.inl before
    · rintro (before | ⟨rfl, -⟩)
      · exact Or.inr before
      · exact Or.inl rfl
  · rw [listed, List.count_append]
    exact Nat.le_add_right _ _
  · have differs : peer ≠ other := fun same => idle (same ▸ busy)
    rw [listed, List.count_append, List.count_singleton, beq_eq_false_iff_ne.mpr differs]
    rfl
  · rw [List.mem_singleton.mp member, listed, List.count_append, List.count_singleton_self]
    exact Nat.lt_succ_self _

theorem contacted_nil : Contacted [] loop loop := by
  refine ⟨fun _ => ?_, fun _ => ?_, rfl, rfl, rfl, rfl, rfl, fun _ => le_rfl, fun _ _ => rfl,
    fun _ listed _ => absurd listed List.not_mem_nil⟩ <;> simp

theorem Contacted.trans {middle : NetworkLoop} {front back : List EndpointId}
    (first : Contacted front loop middle) (second : Contacted back middle after) :
    Contacted (front ++ back) loop after := by
  refine ⟨fun other => ?_, fun other => ?_, second.waiters.trans first.waiters,
    second.answered.trans first.answered, second.pending.trans first.pending,
    second.deferred.trans first.deferred, second.phase.trans first.phase,
    fun other => (first.kept other).trans (second.kept other), fun other busy => ?_,
    fun other listed idle => ?_⟩
  · rw [second.outgoing, first.outgoing, List.mem_append, or_assoc]
  · rw [second.running, first.running, first.outgoing, List.mem_append]
    tauto
  · rw [second.skipped other ((first.outgoing other).mpr (Or.inl busy)),
      first.skipped other busy]
  · by_cases inFront : other ∈ front
    · exact (first.fresh other inFront idle).trans_le (second.kept other)
    · have inBack := (List.mem_append.mp listed).resolve_left inFront
      have still : other ∉ middle.outgoing := by
        rw [first.outgoing, not_or]
        exact ⟨idle, inFront⟩
      exact (first.kept other).trans_lt (second.fresh other inBack still)

theorem contacted_fold (peers : List EndpointId) (loop : NetworkLoop) :
    Contacted peers loop (peers.foldl contact loop) := by
  induction peers generalizing loop with
  | nil => exact contacted_nil
  | cons peer rest ih =>
      have first : Contacted [peer] loop (loop.contact peer) := by
        by_cases busy : peer ∈ loop.outgoing
        · exact contacted_busy busy
        · exact contacted_idle busy
      exact first.trans (ih (loop.contact peer))

/-- The branches of `tokio::select!` end sessions and may set the pending trigger. -/
structure Selected (loop after : NetworkLoop) : Prop where
  phase : after.phase = .receiving
  waiters : after.waiters = loop.waiters
  deferred : after.deferredTrigger = loop.deferredTrigger
  spawned : after.spawned = loop.spawned
  pending : loop.pendingTrigger = true → after.pendingTrigger = true
  outgoing : after.outgoing ⊆ loop.outgoing
  running : loop.running ⊆ loop.outgoing → after.running ⊆ after.outgoing
  stuck : ∀ peer ∈ loop.outgoing, peer ∉ loop.running →
    peer ∈ after.outgoing ∧ peer ∉ after.running

theorem Selected.reconcile (selected : Selected loop after) (outcome : TaskOutcome) :
    Selected loop (after.reconcile outcome) := by
  unfold NetworkLoop.reconcile
  split
  · exact { selected with pending := fun _ => rfl }
  · exact selected

theorem selected_same {incoming : Nat} :
    Selected loop { loop with phase := .receiving, incoming := incoming } :=
  ⟨rfl, rfl, rfl, rfl, id, subset_rfl, id, fun _ open_ idle => ⟨open_, idle⟩⟩

theorem selected_incoming (outcome : Option TaskOutcome) :
    Selected loop (outcome.elim
      { loop with phase := .receiving, incoming := loop.incoming - 1 }
      (NetworkLoop.reconcile
        { loop with phase := .receiving, incoming := loop.incoming - 1 })) := by
  cases outcome with
  | none => exact selected_same
  | some outcome => exact selected_same.reconcile outcome

theorem selected_outgoing (outcome : Option TaskOutcome) (busy : peer ∈ loop.running) :
    Selected loop (outcome.elim
      { loop with phase := .receiving, running := loop.running.erase peer }
      (complete { loop with phase := .receiving, running := loop.running.erase peer } peer)) := by
  have idle : ∀ other ∉ loop.running, other ∉ loop.running.erase peer :=
    fun other outside inside => outside (Finset.mem_of_mem_erase inside)
  cases outcome with
  | none =>
      exact ⟨rfl, rfl, rfl, rfl, id, subset_rfl, fun part => (Finset.erase_subset _ _).trans part,
        fun other held outside => ⟨held, idle other outside⟩⟩
  | some outcome =>
      apply Selected.reconcile
      refine ⟨rfl, rfl, rfl, rfl, id, Finset.erase_subset _ _, Finset.erase_subset_erase peer,
        fun other held outside => ⟨Finset.mem_erase.mpr ⟨?_, held⟩, idle other outside⟩⟩
      rintro rfl
      exact outside busy

/-- The step of each label. -/
inductive Stepped (active : List EndpointId) (loop : NetworkLoop) : NetworkLoop → Prop
  | command (command : NetworkCommand) (phase : loop.phase = .receiving) :
      Stepped active loop (loop.receive command)
  | drained (periodic : Bool) (phase : loop.phase = .receiving) :
      Stepped active loop
        { loop with
          phase := .passing
          pendingTrigger := loop.pendingTrigger || (periodic && decide (loop.waiters = [])) }
  | pass (phase : loop.phase = .passing) :
      Stepped active loop { loop.passOver active with phase := .answering }
  | answer (phase : loop.phase = .answering) :
      Stepped active loop { loop.answerWaiters with phase := .selecting }
  | select {after : NetworkLoop} (phase : loop.phase = .selecting)
      (selected : Selected loop after) : Stepped active loop after

theorem stepped_of_step {label : LoopLabel} (taken : step active loop label = some after) :
    Stepped active loop after := by
  unfold step at taken
  split at taken
  · cases taken
    exact .command _ ‹_›
  · cases taken
    exact .drained _ ‹_›
  · cases taken
    exact .pass ‹_›
  · cases taken
    exact .answer ‹_›
  · cases taken
    exact .select ‹_› selected_same
  · split at taken
    · cases taken
    · cases taken
      exact .select ‹_› (selected_incoming _)
  · split at taken
    · cases taken
      exact .select ‹_› (selected_outgoing _ ‹_›)
    · cases taken
  · cases taken
    exact .select ‹_› selected_same
  · cases taken

/-- A pass does nothing, or contacts the active peers. -/
theorem passOver_cases (active : List EndpointId) (loop : NetworkLoop) :
    (loop.pendingTrigger = false ∧ loop.passOver active = loop) ∨
      (loop.pendingTrigger = true ∧
        Contacted active { loop with pendingTrigger := false } (loop.passOver active)) := by
  unfold passOver
  cases pending : loop.pendingTrigger with
  | false => exact Or.inl ⟨rfl, by simp⟩
  | true => exact Or.inr ⟨rfl, by simpa using contacted_fold active _⟩

/-- In every reached state a deferred trigger has a waiter, and running sessions are outgoing. -/
structure Consistent (loop : NetworkLoop) : Prop where
  deferred : loop.deferredTrigger = true → loop.waiters ≠ []
  running : loop.running ⊆ loop.outgoing

theorem consistent_start : Consistent start :=
  ⟨fun deferred => absurd deferred Bool.false_ne_true, subset_rfl⟩

theorem Consistent.step {label : LoopLabel} (holds : Consistent loop)
    (taken : step active loop label = some after) : Consistent after := by
  obtain ⟨deferred, running⟩ := holds
  cases stepped_of_step taken with
  | command command phase =>
      cases command with
      | trigger =>
          unfold receive
          dsimp only
          split
          · exact ⟨deferred, running⟩
          · rename_i waited
            exact ⟨fun _ => waited, running⟩
      | sync completed =>
          unfold receive
          dsimp only
          split <;> exact ⟨fun _ => List.append_ne_nil_of_right_ne_nil _ (List.cons_ne_nil _ _),
            running⟩
  | drained periodic phase => exact ⟨deferred, running⟩
  | pass phase =>
      rcases passOver_cases active loop with ⟨-, same⟩ | ⟨-, contacted⟩
      · rw [same]
        exact ⟨deferred, running⟩
      · refine ⟨fun held => ?_, fun peer member => ?_⟩
        · show (loop.passOver active).waiters ≠ []
          rw [contacted.waiters]
          exact deferred (contacted.deferred ▸ held)
        · show peer ∈ (loop.passOver active).outgoing
          rw [contacted.outgoing]
          rcases (contacted.running peer).mp member with before | ⟨listed, -⟩
          · exact Or.inl (running before)
          · exact Or.inr listed
  | answer phase =>
      unfold answerWaiters
      split
      · exact ⟨fun held => absurd held Bool.false_ne_true, running⟩
      · exact ⟨deferred, running⟩
  | select phase selected =>
      refine ⟨fun held => ?_, selected.running running⟩
      rw [selected.waiters]
      exact deferred (selected.deferred ▸ held)

/-- What was spawned stays listed. -/
theorem spawned_mono (stepped : Stepped active loop after) (peer : EndpointId) :
    loop.spawned.count peer ≤ after.spawned.count peer := by
  cases stepped with
  | command command phase =>
      cases command <;> unfold receive <;> dsimp only <;> split <;> exact le_rfl
  | drained periodic phase => exact le_rfl
  | pass phase =>
      rcases passOver_cases active loop with ⟨-, same⟩ | ⟨-, contacted⟩
      · rw [same]
      · exact contacted.kept peer
  | answer phase => unfold answerWaiters; split <;> exact le_rfl
  | select phase selected => rw [selected.spawned]

/-- A pass that will come finds no session to the peer, or a trigger is deferred. -/
def Due (peer : EndpointId) (loop : NetworkLoop) : Prop :=
  (loop.pendingTrigger = true ∧ peer ∉ loop.outgoing) ∨ loop.deferredTrigger = true

theorem Due.step (member : peer ∈ active) (due : Due peer loop)
    (stepped : Stepped active loop after) :
    loop.spawned.count peer < after.spawned.count peer ∨ Due peer after := by
  cases stepped with
  | command command phase =>
      refine Or.inr ?_
      cases command with
      | trigger =>
          unfold receive
          dsimp only
          split
          · exact due.imp_left fun pass => ⟨rfl, pass.2⟩
          · exact Or.inr rfl
      | sync completed =>
          unfold receive
          dsimp only
          split
          · exact due.imp_left fun pass => ⟨rfl, pass.2⟩
          · exact due
  | drained periodic phase =>
      refine Or.inr (due.imp_left fun pass => ⟨?_, pass.2⟩)
      show (loop.pendingTrigger || (periodic && decide (loop.waiters = []))) = true
      rw [pass.1, Bool.true_or]
  | pass phase =>
      rcases passOver_cases active loop with
        ⟨resting, same⟩ | ⟨-, contacted⟩
      · rw [same]
        exact Or.inr due
      · rcases due with ⟨-, idle⟩ | deferred
        · exact Or.inl (contacted.fresh peer member idle)
        · exact Or.inr (Or.inr (contacted.deferred.trans deferred))
  | answer phase =>
      refine Or.inr ?_
      unfold answerWaiters
      split
      · rename_i settled
        have idle : peer ∉ loop.outgoing := settled.1 ▸ Finset.notMem_empty peer
        refine Or.inl ⟨?_, idle⟩
        show (loop.pendingTrigger || loop.deferredTrigger) = true
        rcases due with ⟨pending, -⟩ | deferred
        · rw [pending, Bool.true_or]
        · rw [deferred, Bool.or_true]
      · exact due
  | select phase selected =>
      refine Or.inr ?_
      rcases due with ⟨pending, idle⟩ | deferred
      · exact Or.inl ⟨selected.pending pending, fun busy => idle (selected.outgoing busy)⟩
      · exact Or.inr (selected.deferred.trans deferred)

def Quiet (loop : NetworkLoop) : Prop :=
  loop.pendingTrigger = false ∧ loop.deferredTrigger = false

/-- From here on, no state in which no trigger is left and no session to the peer is running comes
before a new session to it. -/
def Delivered (active : List EndpointId) (loop : NetworkLoop) (peer : EndpointId) : Prop :=
  ∀ labels after, run (step active) loop labels = some after → after.Quiet →
    peer ∉ after.running → loop.spawned.count peer < after.spawned.count peer

/-- From here on, the waiter is not answered before a new session to the peer. -/
def AnsweredAfter (active : List EndpointId) (loop : NetworkLoop) (waiter : Nat)
    (peer : EndpointId) : Prop :=
  ∀ labels after, run (step active) loop labels = some after → waiter ∉ after.waiters →
    loop.spawned.count peer < after.spawned.count peer

/-- What a step keeps until a session to the peer is spawned holds at the end of a run without
one. -/
theorem run_until (peer : EndpointId) {invariant : NetworkLoop → Prop}
    (keeps : ∀ loop after, invariant loop → Stepped active loop after →
      loop.spawned.count peer < after.spawned.count peer ∨ invariant after)
    {count : Nat} (least : count ≤ loop.spawned.count peer)
    (start : count < loop.spawned.count peer ∨ invariant loop) {labels : List LoopLabel}
    (reached : run (step active) loop labels = some after) :
    count < after.spawned.count peer ∨ invariant after := by
  induction labels generalizing loop with
  | nil =>
      rw [run_nil, Option.some.injEq] at reached
      exact reached ▸ start
  | cons label rest ih =>
      obtain ⟨middle, taken, ends⟩ := run_cons.mp reached
      have stepped := stepped_of_step taken
      have more := spawned_mono stepped peer
      apply ih (least.trans more) _ ends
      rcases start with served | holds
      · exact Or.inl (served.trans_le more)
      · exact (keeps loop middle holds stepped).imp_left least.trans_lt

theorem delivered_of_due (member : peer ∈ active) (due : Due peer loop) :
    Delivered active loop peer := by
  intro labels after reached quiet _
  have outcome := run_until peer (fun _ _ => Due.step member) le_rfl (Or.inr due) reached
  refine outcome.resolve_right ?_
  rintro (⟨pending, -⟩ | deferred)
  · rw [quiet.1] at pending
    cases pending
  · rw [quiet.2] at deferred
    cases deferred

/-- The waiter is in line for the pass that comes next. -/
structure InLine (peer : EndpointId) (waiter : Nat) (loop : NetworkLoop) : Prop where
  phase : loop.phase = .receiving ∨ loop.phase = .passing
  pending : loop.pendingTrigger = true
  idle : peer ∉ loop.outgoing
  waits : waiter ∈ loop.waiters

theorem InLine.step {waiter : Nat} (member : peer ∈ active) (line : InLine peer waiter loop)
    (stepped : Stepped active loop after) :
    loop.spawned.count peer < after.spawned.count peer ∨ InLine peer waiter after := by
  obtain ⟨phase, pending, idle, waits⟩ := line
  cases stepped with
  | command command receiving =>
      refine Or.inr ?_
      cases command with
      | trigger =>
          unfold receive
          dsimp only
          split
          · exact ⟨phase, rfl, idle, waits⟩
          · exact ⟨phase, pending, idle, waits⟩
      | sync completed =>
          have listed : waiter ∈ loop.waiters ++ [completed] := List.mem_append_left _ waits
          unfold receive
          dsimp only
          split
          · exact ⟨phase, rfl, idle, listed⟩
          · exact ⟨phase, pending, idle, listed⟩
  | drained periodic receiving =>
      refine Or.inr ⟨Or.inr rfl, ?_, idle, waits⟩
      show (loop.pendingTrigger || (periodic && decide (loop.waiters = []))) = true
      rw [pending, Bool.true_or]
  | pass passing =>
      rcases passOver_cases active loop with
        ⟨resting, -⟩ | ⟨-, contacted⟩
      · rw [pending] at resting
        cases resting
      · exact Or.inl (contacted.fresh peer member idle)
  | answer answering =>
      rw [answering] at phase
      exact absurd phase (by decide)
  | select selecting selected =>
      rw [selecting] at phase
      exact absurd phase (by decide)

/-- A session ended without leaving `outgoing`: its task panicked. -/
def Stuck (loop : NetworkLoop) : Prop := ∃ peer ∈ loop.outgoing, peer ∉ loop.running

/-- The waiter is kept by a session that panicked. -/
def Held (waiter : Nat) (loop : NetworkLoop) : Prop := loop.Stuck ∧ waiter ∈ loop.waiters

theorem Held.step {waiter : Nat} (held : Held waiter loop) (stepped : Stepped active loop after) :
    Held waiter after := by
  obtain ⟨⟨stuck, opened, idle⟩, waits⟩ := held
  cases stepped with
  | command command receiving =>
      cases command with
      | trigger => unfold receive; dsimp only; split <;> exact ⟨⟨stuck, opened, idle⟩, waits⟩
      | sync completed =>
          have listed : waiter ∈ loop.waiters ++ [completed] := List.mem_append_left _ waits
          unfold receive
          dsimp only
          split <;> exact ⟨⟨stuck, opened, idle⟩, listed⟩
  | drained periodic receiving => exact ⟨⟨stuck, opened, idle⟩, waits⟩
  | pass passing =>
      rcases passOver_cases active loop with ⟨-, same⟩ | ⟨-, contacted⟩
      · rw [same]
        exact ⟨⟨stuck, opened, idle⟩, waits⟩
      · refine ⟨⟨stuck, (contacted.outgoing stuck).mpr (Or.inl opened), fun busy => ?_⟩, ?_⟩
        · exact ((contacted.running stuck).mp busy).elim idle fun fresh => fresh.2 opened
        · show waiter ∈ (loop.passOver active).waiters
          rw [contacted.waiters]
          exact waits
  | answer answering =>
      have busy : ¬ (loop.outgoing = ∅ ∧ loop.waiters ≠ []) := by
        rintro ⟨none, -⟩
        rw [none] at opened
        exact Finset.notMem_empty _ opened
      rw [answerWaiters, if_neg busy]
      exact ⟨⟨stuck, opened, idle⟩, waits⟩
  | select selecting selected =>
      exact ⟨⟨stuck, selected.stuck stuck opened idle⟩, selected.waiters ▸ waits⟩

theorem answeredAfter_of_inLine {waiter : Nat} (member : peer ∈ active)
    (line : InLine peer waiter loop) : AnsweredAfter active loop waiter peer := by
  intro labels after reached answered
  have outcome := run_until peer (fun _ _ => InLine.step member) le_rfl (Or.inr line) reached
  exact outcome.resolve_right fun still => answered still.waits

theorem answeredAfter_of_held {waiter : Nat} (held : Held waiter loop) :
    AnsweredAfter active loop waiter peer := by
  intro labels after reached answered
  have outcome := run_until peer
    (fun _ _ held stepped => Or.inr (Held.step held stepped)) le_rfl (Or.inr held) reached
  exact outcome.resolve_right fun still => answered still.2

/-- The next pass does not start a session to the peer. -/
def Passed (peer : EndpointId) (loop : NetworkLoop) : Prop :=
  loop.pendingTrigger = true → peer ∈ loop.outgoing

/-- The rest of the phase in which commands are received, and a pass. -/
theorem reach_answering (active : List EndpointId) (peer : EndpointId) (loop : NetworkLoop)
    (phase : loop.phase = .receiving) (passed : Passed peer loop) :
    ∃ labels after, run (step active) loop labels = some after ∧ after.phase = .answering ∧
      after.pendingTrigger = false ∧ after.deferredTrigger = loop.deferredTrigger ∧
      after.waiters = loop.waiters ∧
      after.spawned.count peer = loop.spawned.count peer ∧
      (loop.running = loop.outgoing → after.running = after.outgoing) ∧
      (loop.pendingTrigger = false → after.outgoing = loop.outgoing) := by
  let ready : NetworkLoop := { loop with phase := .passing }
  have drained : step active loop (.drained false) = some ready := by
    simp only [step, phase, Bool.false_and, Bool.or_false, ready]
  have pass : step active ready .pass = some { ready.passOver active with phase := .answering } :=
    rfl
  refine ⟨[.drained false, .pass], _,
    run_cons.mpr ⟨ready, drained, run_cons.mpr ⟨_, pass, run_nil _⟩⟩, rfl, ?_⟩
  rcases passOver_cases active ready with
    ⟨resting, same⟩ | ⟨pending, contacted⟩
  · rw [same]
    exact ⟨resting, rfl, rfl, rfl, id, fun _ => rfl⟩
  · refine ⟨contacted.pending, contacted.deferred, contacted.waiters,
      contacted.skipped peer (passed pending), fun equal => ?_,
      fun resting => absurd (pending.symm.trans resting) Bool.noConfusion⟩
    ext other
    show other ∈ (ready.passOver active).running ↔ other ∈ (ready.passOver active).outgoing
    rw [contacted.running, contacted.outgoing]
    show other ∈ loop.running ∨ _ ↔ other ∈ loop.outgoing ∨ _
    rw [equal]
    show _ ∨ _ ∧ other ∉ loop.outgoing ↔ _
    tauto

/-- A session that ends as unreachable. -/
def ended (loop : NetworkLoop) (peer : EndpointId) : NetworkLoop :=
  { loop with
    phase := .receiving
    outgoing := loop.outgoing.erase peer
    running := loop.running.erase peer }

theorem step_ended (phase : loop.phase = .selecting) (busy : peer ∈ loop.running) :
    step active loop (.outgoingDone peer (some .unreachable)) = some (loop.ended peer) := by
  simp only [step, phase, busy, ↓reduceIte, Option.elim_some, complete, reconcile,
    TaskOutcome.succeeded, TaskOutcome.reconcileAgain, Bool.false_eq_true, false_and, ended]

theorem step_answer (phase : loop.phase = .answering) :
    step active loop .answer = some { loop.answerWaiters with phase := .selecting } := by
  simp only [step, phase]

theorem not_delivered (phase : loop.phase = .receiving) (passed : Passed peer loop)
    (direct : loop.deferredTrigger = false) : ¬ Delivered active loop peer := by
  intro delivered
  obtain ⟨labels, middle, reached, answering, resting, deferred, -, count, -⟩ :=
    reach_answering active peer loop phase passed
  rw [direct] at deferred
  obtain ⟨pending', deferred', running', spawned'⟩ :
      middle.answerWaiters.pendingTrigger = false ∧
      middle.answerWaiters.deferredTrigger = false ∧
      middle.answerWaiters.running = middle.running ∧
      middle.answerWaiters.spawned = middle.spawned := by
    unfold answerWaiters
    split
    · refine ⟨?_, rfl, rfl, rfl⟩
      show (middle.pendingTrigger || middle.deferredTrigger) = false
      rw [resting, deferred, Bool.or_false]
    · exact ⟨resting, deferred, rfl, rfl⟩
  let selecting : NetworkLoop := { middle.answerWaiters with phase := .selecting }
  have answered : run (step active) loop (labels ++ [.answer]) = some selecting :=
    run_snoc.mpr ⟨middle, reached, step_answer answering⟩
  by_cases busy : peer ∈ selecting.running
  · have last : run (step active) loop
        (labels ++ [.answer] ++ [.outgoingDone peer (some .unreachable)]) =
          some (selecting.ended peer) :=
      run_snoc.mpr ⟨selecting, answered, step_ended rfl busy⟩
    have more := delivered _ _ last ⟨pending', deferred'⟩ (Finset.notMem_erase peer _)
    exact absurd more (by rw [← count, ← spawned']; exact lt_irrefl _)
  · have more := delivered _ _ answered ⟨pending', deferred'⟩ busy
    exact absurd more (by rw [← count, ← spawned']; exact lt_irrefl _)

/-- Sessions that end one after the other let the waiters be answered: induction on the number of
the sessions. -/
theorem reach_answered (active : List EndpointId) (peer : EndpointId)
    (phase : loop.phase = .answering) (resting : loop.pendingTrigger = false)
    (healthy : loop.running = loop.outgoing) :
    ∃ labels after, run (step active) loop labels = some after ∧ after.waiters = [] ∧
      after.spawned.count peer = loop.spawned.count peer := by
  induction left : loop.outgoing.card generalizing loop with
  | zero =>
      have none := Finset.card_eq_zero.mp left
      refine ⟨[.answer], _, run_cons.mpr ⟨_, step_answer phase, run_nil _⟩, ?_⟩
      unfold answerWaiters
      split
      · exact ⟨rfl, rfl⟩
      · rename_i settled
        rw [not_and, not_not] at settled
        exact ⟨settled none, rfl⟩
  | succ left' ih =>
      have some_ : loop.outgoing.Nonempty := Finset.card_pos.mp (left ▸ Nat.succ_pos left')
      obtain ⟨next, opened⟩ := some_
      have busy : next ∈ loop.running := healthy ▸ opened
      have waits : loop.answerWaiters = loop :=
        if_neg fun settled => Finset.ne_empty_of_mem opened settled.1
      let selecting : NetworkLoop := { loop with phase := .selecting }
      have first : step active loop .answer = some selecting := by
        rw [step_answer phase, waits]
      have second : step active selecting (.outgoingDone next (some .unreachable)) =
          some (selecting.ended next) := step_ended rfl busy
      obtain ⟨rest, middle, reached, answering, rested, -, -, count, same, opens⟩ :=
        reach_answering active peer (selecting.ended next) rfl
          fun pending => absurd (resting.symm.trans pending) Bool.noConfusion
      have healthy' : middle.running = middle.outgoing := by
        apply same
        show loop.running.erase next = loop.outgoing.erase next
        rw [healthy]
      have left'' : middle.outgoing.card = left' := by
        rw [opens resting]
        show (loop.outgoing.erase next).card = left'
        rw [Finset.card_erase_of_mem opened, left, Nat.add_sub_cancel]
      obtain ⟨labels, after, ends, answered, count'⟩ := ih answering rested healthy' left''
      refine ⟨.answer :: .outgoingDone next (some .unreachable) :: (rest ++ labels), after, ?_,
        answered, count'.trans count⟩
      apply run_cons.mpr ⟨selecting, first, run_cons.mpr ⟨_, second, ?_⟩⟩
      exact run_append.mpr ⟨middle, reached, ends⟩

theorem consistent_reached {labels : List LoopLabel}
    (reached : run (step active) start labels = some loop) : Consistent loop := by
  have keeps : Preserves (step active) (fun _ _ => True) Consistent :=
    fun _ _ _ holds _ taken => Consistent.step holds taken
  exact keeps.run consistent_start (Along.of_forall fun _ _ _ => trivial) reached

theorem received {command : NetworkCommand}
    (taken : step active loop (.command command) = some after) :
    loop.phase = .receiving ∧ after = loop.receive command := by
  cases phase : loop.phase with
  | receiving =>
      simp only [step, phase, Option.some.injEq] at taken
      exact ⟨rfl, taken.symm⟩
  | passing => simp [step, phase] at taken
  | answering => simp [step, phase] at taken
  | selecting => simp [step, phase] at taken

/-- A trigger is delivered when the peer is idle or someone waits. -/
theorem trigger_delivered (consistent : Consistent loop) (member : peer ∈ active)
    (taken : step active loop (.command .trigger) = some after) :
    Delivered active after peer ↔ peer ∉ loop.outgoing ∨ loop.waiters ≠ [] := by
  obtain ⟨receiving, rfl⟩ := received taken
  by_cases none : loop.waiters = []
  · have now : loop.receive .trigger = { loop with pendingTrigger := true } := if_pos none
    rw [now]
    constructor
    · intro delivered
      refine Or.inl fun busy => ?_
      have direct : loop.deferredTrigger = false := by
        cases held : loop.deferredTrigger with
        | false => rfl
        | true => exact absurd none (consistent.deferred held)
      exact absurd delivered (not_delivered receiving (fun _ => busy) direct)
    · intro either
      have idle := either.resolve_right fun some_ => some_ none
      exact delivered_of_due member (Or.inl ⟨rfl, idle⟩)
  · have later : loop.receive .trigger = { loop with deferredTrigger := true } := if_neg none
    rw [later]
    exact ⟨fun _ => Or.inr none, fun _ => delivered_of_due member (Or.inr rfl)⟩

/-- A sync that finds no pass to wait for, while every session still answers. -/
theorem answered_before {waiter : Nat} (phase : loop.phase = .receiving)
    (passed : Passed peer loop) (healthy : loop.running = loop.outgoing) :
    ¬ AnsweredAfter active loop waiter peer := by
  intro answered
  obtain ⟨front, middle, reached, answering, rested, -, -, count, same, -⟩ :=
    reach_answering active peer loop phase passed
  obtain ⟨back, last, ends, none, count'⟩ :=
    reach_answered active peer answering rested (same healthy)
  have gone : waiter ∉ last.waiters := none ▸ List.not_mem_nil
  have more := answered _ _ (run_append.mpr ⟨middle, reached, ends⟩) gone
  rw [count', count] at more
  exact lt_irrefl _ more

theorem sync_delivered {waiter : Nat} (consistent : Consistent loop) (member : peer ∈ active)
    (taken : step active loop (.command (.sync waiter)) = some after) :
    Delivered active after peer ∧ AnsweredAfter active after waiter peer ↔
      peer ∉ loop.outgoing ∧ (loop.waiters = [] ∨ loop.pendingTrigger = true) ∨
      loop.deferredTrigger = true ∧ loop.running ≠ loop.outgoing := by
  obtain ⟨receiving, rfl⟩ := received taken
  by_cases none : loop.waiters = []
  · have direct : loop.deferredTrigger = false := by
      cases held : loop.deferredTrigger with
      | false => rfl
      | true => exact absurd none (consistent.deferred held)
    have now : loop.receive (.sync waiter) = { loop with
        summary := ⟨loop.outgoing.card, 0⟩
        pendingTrigger := true
        waiters := loop.waiters ++ [waiter] } := if_pos none
    rw [now]
    constructor
    · intro both
      refine Or.inl ⟨fun busy => ?_, Or.inl none⟩
      exact absurd both.1 (not_delivered receiving (fun _ => busy) direct)
    · intro either
      have idle : peer ∉ loop.outgoing := by
        rcases either with ⟨idle, -⟩ | ⟨held, -⟩
        · exact idle
        · exact absurd (direct.symm.trans held) Bool.noConfusion
      have listed : waiter ∈ loop.waiters ++ [waiter] :=
        List.mem_append_right _ List.mem_cons_self
      exact ⟨delivered_of_due member (Or.inl ⟨rfl, idle⟩),
        answeredAfter_of_inLine member ⟨Or.inl receiving, rfl, idle, listed⟩⟩
  · have joined : loop.receive (.sync waiter) =
        { loop with waiters := loop.waiters ++ [waiter] } := if_neg none
    have listed : waiter ∈ loop.waiters ++ [waiter] :=
      List.mem_append_right _ List.mem_cons_self
    rw [joined]
    constructor
    · intro both
      by_cases inTime : loop.pendingTrigger = true ∧ peer ∉ loop.outgoing
      · exact Or.inl ⟨inTime.2, Or.inr inTime.1⟩
      · have passed : Passed peer loop := by
          intro pending
          by_contra idle
          exact inTime ⟨pending, idle⟩
        refine Or.inr ⟨?_, fun healthy => ?_⟩
        · by_contra direct
          exact absurd both.1 (not_delivered receiving passed (Bool.eq_false_iff.mpr direct))
        · exact absurd both.2 (answered_before receiving passed healthy)
    · rintro (⟨idle, either⟩ | ⟨held, sick⟩)
      · have pending := either.resolve_left none
        exact ⟨delivered_of_due member (Or.inl ⟨pending, idle⟩),
          answeredAfter_of_inLine member ⟨Or.inl receiving, pending, idle, listed⟩⟩
      · have stuck : loop.Stuck := by
          by_contra sound
          apply sick
          apply Finset.Subset.antisymm consistent.running
          intro other opened
          by_contra idle
          exact sound ⟨other, opened, idle⟩
        exact ⟨delivered_of_due member (Or.inr held), answeredAfter_of_held ⟨stuck, listed⟩⟩

end NetworkLoop

open NetworkLoop in
/-- Which notifications a session that already runs does not swallow. -/
theorem change_notifications_delivered (active : List EndpointId) (labels : List LoopLabel)
    (loop : NetworkLoop) (reached : run (step active) start labels = some loop)
    (peer : EndpointId) (member : peer ∈ active) :
    (∀ after, step active loop (.command .trigger) = some after →
      (Delivered active after peer ↔ peer ∉ loop.outgoing ∨ loop.waiters ≠ [])) ∧
    ∀ waiter after, step active loop (.command (.sync waiter)) = some after →
      (Delivered active after peer ∧ AnsweredAfter active after waiter peer ↔
        peer ∉ loop.outgoing ∧ (loop.waiters = [] ∨ loop.pendingTrigger = true) ∨
        loop.deferredTrigger = true ∧ loop.running ≠ loop.outgoing) :=
  ⟨fun _ taken => trigger_delivered (consistent_reached reached) member taken,
    fun _ _ taken => sync_delivered (consistent_reached reached) member taken⟩

/-- A first contact that runs, and one that ended. -/
def contacting : List LoopLabel := [.drained false, .pass, .answer, .tick]

def contactEnded : List LoopLabel :=
  [.drained false, .pass, .answer, .outgoingDone (.fill 1) (some (.synchronized false))]

open NetworkLoop in
/-- The pass after the trigger skips the peer and clears the flag; the session that was running
read its records before the change. -/
theorem running_session_swallows_trigger :
    ∃ loop after last, run (step [.fill 1]) start contacting = some loop ∧
      step [.fill 1] loop (.command .trigger) = some after ∧
      run (step [.fill 1]) after contactEnded = some last ∧ last.Quiet ∧
      .fill 1 ∉ last.running ∧ last.spawned.count (.fill 1) = after.spawned.count (.fill 1) := by
  refine ⟨_, _, _, rfl, rfl, rfl, ⟨rfl, rfl⟩, ?_, ?_⟩ <;> decide +kernel

open NetworkLoop in
theorem idle_peer_notified :
    ∃ loop after, run (step [.fill 1]) start contactEnded = some loop ∧
      step [.fill 1] loop (.command .trigger) = some after ∧
      Delivered [.fill 1] after (.fill 1) := by
  refine ⟨_, _, rfl, rfl, ?_⟩
  apply ((change_notifications_delivered [.fill 1] contactEnded _ rfl (.fill 1)
    List.mem_cons_self).1 _ rfl).mpr
  exact Or.inl (by decide +kernel)

end Skillsync
