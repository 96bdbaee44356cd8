import Skillsync.NetworkLoop

set_option autoImplicit false

namespace Skillsync

open Runs NetworkLoop

/-- A label of an iteration, with what `active_peers` returns in it, or the `Shutdown` command. -/
inductive NetworkEvent
  | label (active : List EndpointId) (label : LoopLabel)
  | shutdown

namespace NetworkEvent

/-- A task ends by a panic. -/
def panics : NetworkEvent → Bool
  | label _ (.incomingDone none) => true
  | label _ (.outgoingDone _ none) => true
  | _ => false

/-- The channel that a `Sync` registers. -/
def registers : NetworkEvent → Option Nat
  | label _ (.command (.sync completed)) => some completed
  | _ => none

/-- An outgoing session to the peer ends. -/
def ends (peer : EndpointId) : NetworkEvent → Bool
  | label _ (.outgoingDone other _) => decide (other = peer)
  | _ => false

def succeeds : NetworkEvent → Bool
  | label _ (.outgoingDone _ (some outcome)) => outcome.succeeded
  | _ => false

def fails : NetworkEvent → Bool
  | label _ (.outgoingDone _ (some outcome)) => !outcome.succeeded
  | _ => false

end NetworkEvent

/-- The variables of `run_network_loop` with `stopping`; after its end they keep their last
values. -/
structure NetworkTask where
  loop : NetworkLoop
  stopping : Bool
  finished : Bool

namespace NetworkTask

def start : NetworkTask := ⟨.start, false, false⟩

/-- The next step: the loop ends when no command is left after a shutdown. -/
def step (task : NetworkTask) : NetworkEvent → Option NetworkTask
  | .shutdown =>
      if task.finished ∨ task.loop.phase ≠ .receiving then none
      else some { task with stopping := true }
  | .label active label =>
      if task.finished then none
      else
        match task.stopping, label with
        | true, .drained _ => some { task with finished := true }
        | _, label => (NetworkLoop.step active task.loop label).map fun loop => { task with loop }

end NetworkTask

/-- The channels that were registered. -/
def registered (events : List NetworkEvent) : List Nat := events.filterMap NetworkEvent.registers

/-- Sessions to some peers are started, and nothing else changes that is counted. -/
structure Grew (loop : NetworkLoop) (fresh : List EndpointId) (after : NetworkLoop) : Prop where
  spawned : after.spawned = loop.spawned ++ fresh
  outgoing : after.outgoing = loop.outgoing ∪ fresh.toFinset
  running : after.running = loop.running ∪ fresh.toFinset
  idle : ∀ peer ∈ fresh, peer ∉ loop.outgoing
  distinct : fresh.Nodup
  waiters : after.waiters = loop.waiters
  answered : after.answered = loop.answered
  succeeded : after.summary.succeeded = loop.summary.succeeded
  attempted : loop.waiters ≠ [] →
    after.summary.attempted = saturatingSucc^[fresh.length] loop.summary.attempted

/-- An outgoing session ends. -/
structure Ended (loop : NetworkLoop) (peer : EndpointId) (outcome : TaskOutcome)
    (after : NetworkLoop) : Prop where
  busy : peer ∈ loop.running
  spawned : after.spawned = loop.spawned
  outgoing : after.outgoing = loop.outgoing.erase peer
  running : after.running = loop.running.erase peer
  waiters : after.waiters = loop.waiters
  answered : after.answered = loop.answered
  attempted : after.summary.attempted = loop.summary.attempted
  succeeded : loop.waiters ≠ [] → after.summary.succeeded =
    if outcome.succeeded then saturatingSucc loop.summary.succeeded else loop.summary.succeeded

/-- An event that neither registers a channel nor ends an outgoing session. -/
structure Silent (event : NetworkEvent) : Prop where
  registers : event.registers = none
  ends : ∀ peer, event.ends peer = false
  succeeds : event.succeeds = false
  fails : event.fails = false

inductive Counted (loop : NetworkLoop) : NetworkEvent → NetworkLoop → Prop
  | grew {event : NetworkEvent} {fresh : List EndpointId} {after : NetworkLoop}
      (silent : Silent event) (grew : Grew loop fresh after) : Counted loop event after
  | registered (active : List EndpointId) (completed : Nat) {after : NetworkLoop}
      (same : after = loop.receive (.sync completed)) :
      Counted loop (.label active (.command (.sync completed))) after
  | answered (active : List EndpointId) {after : NetworkLoop} (none : loop.outgoing = ∅)
      (waiting : loop.waiters ≠ [])
      (same : after = { loop.answerWaiters with phase := .selecting }) :
      Counted loop (.label active .answer) after
  | ended (active : List EndpointId) {peer : EndpointId} {outcome : TaskOutcome}
      {after : NetworkLoop} (ended : Ended loop peer outcome after) :
      Counted loop (.label active (.outgoingDone peer (some outcome))) after

variable {loop after middle : NetworkLoop} {peer : EndpointId}

theorem Grew.trans {front back : List EndpointId} (first : Grew loop front middle)
    (second : Grew middle back after) : Grew loop (front ++ back) after := by
  refine ⟨?_, ?_, ?_, ?_, ?_, ?_, ?_, ?_, ?_⟩
  · rw [second.spawned, first.spawned, List.append_assoc]
  · rw [second.outgoing, first.outgoing, List.toFinset_append, Finset.union_assoc]
  · rw [second.running, first.running, List.toFinset_append, Finset.union_assoc]
  · intro peer listed busy
    rcases List.mem_append.mp listed with inFront | inBack
    · exact first.idle peer inFront busy
    · apply second.idle peer inBack
      rw [first.outgoing]
      exact Finset.mem_union_left _ busy
  · apply List.nodup_append.mpr ⟨first.distinct, second.distinct, ?_⟩
    intro peer inFront other inBack same
    apply second.idle other inBack
    rw [first.outgoing, ← same]
    exact Finset.mem_union_right _ (List.mem_toFinset.mpr inFront)
  · rw [second.waiters, first.waiters]
  · rw [second.answered, first.answered]
  · rw [second.succeeded, first.succeeded]
  · intro waiting
    rw [second.attempted (first.waiters ▸ waiting), first.attempted waiting, List.length_append,
      Nat.add_comm, Function.iterate_add_apply]

/-- Nothing that is counted changes. -/
theorem grew_none (spawned : after.spawned = loop.spawned)
    (outgoing : after.outgoing = loop.outgoing)
    (running : after.running = loop.running) (waiters : after.waiters = loop.waiters)
    (answered : after.answered = loop.answered) (summary : after.summary = loop.summary) :
    Grew loop [] after := by
  refine ⟨?_, ?_, ?_, by simp, List.nodup_nil, waiters, answered, by rw [summary], fun _ => ?_⟩
  · rw [spawned, List.append_nil]
  · simpa using outgoing
  · simpa using running
  · rw [summary]
    rfl

theorem insert_eq_union (peers : Finset EndpointId) (peer : EndpointId) :
    insert peer peers = peers ∪ [peer].toFinset := by
  ext other
  simp only [Finset.mem_insert, Finset.mem_union, List.mem_toFinset, List.mem_singleton]
  exact or_comm

theorem grew_contact (peer : EndpointId) (loop : NetworkLoop) :
    ∃ fresh, Grew loop fresh (loop.contact peer) := by
  by_cases busy : peer ∈ loop.outgoing
  · refine ⟨[], ?_⟩
    have same : loop.contact peer = loop := if_pos busy
    rw [same]
    exact grew_none rfl rfl rfl rfl rfl rfl
  · refine ⟨[peer], ?_⟩
    unfold contact
    rw [if_neg busy]
    refine ⟨rfl, ?_, ?_, ?_, List.nodup_singleton peer, rfl, rfl, ?_, fun waiting => ?_⟩
    · exact insert_eq_union loop.outgoing peer
    · exact insert_eq_union loop.running peer
    · simpa using busy
    · dsimp only
      split <;> rfl
    · dsimp only
      rw [if_neg waiting]
      rfl

theorem grew_fold (peers : List EndpointId) (loop : NetworkLoop) :
    ∃ fresh, Grew loop fresh (peers.foldl contact loop) := by
  induction peers generalizing loop with
  | nil => exact ⟨[], grew_none rfl rfl rfl rfl rfl rfl⟩
  | cons peer rest ih =>
      obtain ⟨front, first⟩ := grew_contact peer loop
      obtain ⟨back, second⟩ := ih (loop.contact peer)
      exact ⟨front ++ back, first.trans second⟩

theorem grew_passOver (active : List EndpointId) (loop : NetworkLoop) :
    ∃ fresh, Grew loop fresh { loop.passOver active with phase := .answering } := by
  unfold passOver
  split
  · obtain ⟨fresh, grew⟩ := grew_fold active { loop with pendingTrigger := false }
    exact ⟨fresh, grew.spawned, grew.outgoing, grew.running, grew.idle, grew.distinct, grew.waiters,
      grew.answered, grew.succeeded, grew.attempted⟩
  · exact ⟨[], grew_none rfl rfl rfl rfl rfl rfl⟩

theorem counted_command (active : List EndpointId) (loop : NetworkLoop) (command : NetworkCommand) :
    Counted loop (.label active (.command command)) (loop.receive command) := by
  cases command with
  | trigger =>
      have grew : Grew loop [] (loop.receive .trigger) := by
        unfold receive
        dsimp only
        split <;> exact grew_none rfl rfl rfl rfl rfl rfl
      exact .grew ⟨rfl, fun _ => rfl, rfl, rfl⟩ grew
  | sync completed => exact .registered active completed rfl

theorem counted_answer (active : List EndpointId) (loop : NetworkLoop) :
    Counted loop (.label active .answer) { loop.answerWaiters with phase := .selecting } := by
  by_cases settled : loop.outgoing = ∅ ∧ loop.waiters ≠ []
  · exact .answered active settled.1 settled.2 rfl
  · have same : loop.answerWaiters = loop := if_neg settled
    rw [same]
    exact .grew ⟨rfl, fun _ => rfl, rfl, rfl⟩ (grew_none rfl rfl rfl rfl rfl rfl)

theorem grew_reconcile {fresh : List EndpointId} (grew : Grew loop fresh after)
    (outcome : TaskOutcome) : Grew loop fresh (after.reconcile outcome) := by
  unfold reconcile
  split
  · exact ⟨grew.spawned, grew.outgoing, grew.running, grew.idle, grew.distinct, grew.waiters,
      grew.answered, grew.succeeded, grew.attempted⟩
  · exact grew

theorem ended_complete (busy : peer ∈ loop.running) (outcome : TaskOutcome) :
    Ended loop peer outcome
      (complete { loop with phase := .receiving, running := loop.running.erase peer } peer
        outcome) := by
  unfold complete reconcile
  split <;>
    (refine ⟨busy, rfl, rfl, rfl, rfl, rfl, ?_, fun waiting => ?_⟩
     · dsimp only
       split <;> rfl
     · dsimp only
       cases outcome.succeeded with
       | false => simp
       | true => simp [waiting])

theorem counted_label {active : List EndpointId} {label : LoopLabel}
    (taken : NetworkLoop.step active loop label = some after)
    (calm : (NetworkEvent.label active label).panics = false) :
    Counted loop (.label active label) after := by
  unfold NetworkLoop.step at taken
  split at taken
  · cases taken
    exact counted_command active loop _
  · cases taken
    exact .grew ⟨rfl, fun _ => rfl, rfl, rfl⟩ (grew_none rfl rfl rfl rfl rfl rfl)
  · cases taken
    obtain ⟨fresh, grew⟩ := grew_passOver active loop
    exact .grew ⟨rfl, fun _ => rfl, rfl, rfl⟩ grew
  · cases taken
    exact counted_answer active loop
  · cases taken
    exact .grew ⟨rfl, fun _ => rfl, rfl, rfl⟩ (grew_none rfl rfl rfl rfl rfl rfl)
  · rename_i outcome phase
    split at taken
    · cases taken
    · cases outcome with
      | none => cases calm
      | some outcome =>
          cases taken
          refine .grew ⟨rfl, fun _ => rfl, rfl, rfl⟩
            (show Grew loop [] (reconcile _ outcome) from ?_)
          apply grew_reconcile
          exact grew_none rfl rfl rfl rfl rfl rfl
  · rename_i peer outcome phase
    split at taken
    · rename_i busy
      cases outcome with
      | none => cases calm
      | some outcome =>
          cases taken
          exact .ended active (ended_complete busy outcome)
    · cases taken
  · cases taken
    exact .grew ⟨rfl, fun _ => rfl, rfl, rfl⟩ (grew_none rfl rfl rfl rfl rfl rfl)
  · cases taken

/-- What is counted at each step without panics. -/
theorem counted_step {task next : NetworkTask} {event : NetworkEvent}
    (taken : task.step event = some next) (calm : event.panics = false) :
    Counted task.loop event next.loop := by
  unfold NetworkTask.step at taken
  split at taken
  · split at taken
    · cases taken
    · cases taken
      exact .grew ⟨rfl, fun _ => rfl, rfl, rfl⟩ (grew_none rfl rfl rfl rfl rfl rfl)
  · split at taken
    · cases taken
    split at taken
    · cases taken
      exact .grew ⟨rfl, fun _ => rfl, rfl, rfl⟩ (grew_none rfl rfl rfl rfl rfl rfl)
    · obtain ⟨loop, stepped, rfl⟩ := Option.map_eq_some_iff.mp taken
      exact counted_label stepped calm

/-- A counter that saturates shows a number that fits. -/
structure Shows (number counter : Nat) : Prop where
  exact : number < 2 ^ 64 → counter = number
  full : 2 ^ 64 ≤ number → 2 ^ 64 - 1 ≤ counter

theorem Shows.succ {number counter : Nat} (shows' : Shows number counter) :
    Shows (number + 1) (saturatingSucc counter) := by
  obtain ⟨exact', full⟩ := shows'
  unfold saturatingSucc
  constructor
  · intro fits
    have same := exact' (by omega)
    omega
  · intro large
    by_cases before : number < 2 ^ 64
    · have same := exact' before
      omega
    · have above := full (by omega)
      omega

theorem Shows.add {number counter : Nat} (shows' : Shows number counter) (more : Nat) :
    Shows (number + more) (saturatingSucc^[more] counter) := by
  induction more with
  | zero => exact shows'
  | succ more ih =>
      rw [Function.iterate_succ_apply']
      exact ih.succ

/-- The counts since a channel was registered while no one waited. -/
structure Tally (front : List NetworkEvent) (before : NetworkTask) (completed : Nat)
    (back : List NetworkEvent) (fresh : List EndpointId) (loop : NetworkLoop) : Prop where
  begun : run NetworkTask.step .start front = some before
  alone : before.loop.waiters = []
  waiters : loop.waiters = completed :: registered back
  answered : loop.answered = before.loop.answered
  spawned : loop.spawned = before.loop.spawned ++ fresh
  balance : before.loop.running.card + fresh.length =
    back.countP NetworkEvent.succeeds + back.countP NetworkEvent.fails + loop.outgoing.card
  attempted : Shows (before.loop.running.card + fresh.length) loop.summary.attempted
  succeeded : loop.summary.succeeded = min (back.countP NetworkEvent.succeeds) (2 ^ 64 - 1)

theorem Tally.succeeded_le {front back : List NetworkEvent} {before : NetworkTask} {completed : Nat}
    {fresh : List EndpointId} (tally : Tally front before completed back fresh loop) :
    loop.summary.succeeded ≤ loop.summary.attempted := by
  have balance := tally.balance
  have succeeded := tally.succeeded
  by_cases fits : before.loop.running.card + fresh.length < 2 ^ 64
  · have attempted := tally.attempted.exact fits
    omega
  · have attempted := tally.attempted.full (not_lt.mp fits)
    omega

/-- What is counted in every state of a run. -/
structure Ledger (events : List NetworkEvent) (loop : NetworkLoop) : Prop where
  healthy : loop.running = loop.outgoing
  tallied : loop.waiters ≠ [] → ∃ front active completed back before fresh,
    events = front ++ .label active (.command (.sync completed)) :: back ∧
      Tally front before completed back fresh loop
  sessions : ∀ peer, loop.spawned.count peer =
    events.countP (NetworkEvent.ends peer) + if peer ∈ loop.running then 1 else 0
  channels : ∀ completed, (loop.answered.map Prod.fst).count completed +
    loop.waiters.count completed = (registered events).count completed

theorem ledger_start : Ledger [] NetworkTask.start.loop :=
  ⟨rfl, fun waiting => absurd rfl waiting, fun _ => rfl, fun _ => rfl⟩

theorem registered_snoc (events : List NetworkEvent) (event : NetworkEvent) :
    registered (events ++ [event]) = registered events ++ event.registers.toList := by
  rw [registered, List.filterMap_append]
  cases register : event.registers with
  | none =>
      rw [List.filterMap_cons_none register]
      rfl
  | some completed =>
      rw [List.filterMap_cons_some register]
      rfl

theorem Tally.grew {front back : List NetworkEvent} {before : NetworkTask} {completed : Nat}
    {fresh started : List EndpointId} {event : NetworkEvent}
    (tally : Tally front before completed back fresh loop) (silent : Silent event)
    (grew : Grew loop started after) :
    Tally front before completed (back ++ [event]) (fresh ++ started) after := by
  have waiting : loop.waiters ≠ [] := by
    rw [tally.waiters]
    exact List.cons_ne_nil _ _
  have disjoint : Disjoint loop.outgoing started.toFinset := by
    apply Finset.disjoint_right.mpr
    intro peer listed
    exact grew.idle peer (List.mem_toFinset.mp listed)
  have size : after.outgoing.card = loop.outgoing.card + started.length := by
    rw [grew.outgoing, Finset.card_union_of_disjoint disjoint,
      List.toFinset_card_of_nodup grew.distinct]
  have balance := tally.balance
  refine ⟨tally.begun, tally.alone, ?_, ?_, ?_, ?_, ?_, ?_⟩
  · rw [grew.waiters, tally.waiters, registered_snoc, silent.registers, Option.toList_none,
      List.append_nil]
  · rw [grew.answered, tally.answered]
  · rw [grew.spawned, tally.spawned, List.append_assoc]
  · rw [List.length_append, List.countP_append, List.countP_append, List.countP_singleton,
      List.countP_singleton, silent.succeeds, silent.fails, size]
    simp only [Bool.false_eq_true, ↓reduceIte]
    omega
  · rw [grew.attempted waiting, List.length_append, ← Nat.add_assoc]
    exact tally.attempted.add started.length
  · rw [grew.succeeded, List.countP_append, List.countP_singleton, silent.succeeds]
    exact tally.succeeded

theorem Tally.ended {front back : List NetworkEvent} {before : NetworkTask} {completed : Nat}
    {fresh : List EndpointId} {outcome : TaskOutcome} (active : List EndpointId)
    (tally : Tally front before completed back fresh loop) (healthy : loop.running = loop.outgoing)
    (ended : Ended loop peer outcome after) :
    Tally front before completed (back ++ [.label active (.outgoingDone peer (some outcome))]) fresh
      after := by
  have waiting : loop.waiters ≠ [] := by
    rw [tally.waiters]
    exact List.cons_ne_nil _ _
  have busy : peer ∈ loop.outgoing := healthy ▸ ended.busy
  have size : after.outgoing.card + 1 = loop.outgoing.card := by
    rw [ended.outgoing, Finset.card_erase_add_one busy]
  have balance := tally.balance
  refine ⟨tally.begun, tally.alone, ?_, ?_, ?_, ?_, ?_, ?_⟩
  · rw [ended.waiters, tally.waiters, registered_snoc]
    simp only [NetworkEvent.registers, Option.toList_none, List.append_nil]
  · rw [ended.answered, tally.answered]
  · rw [ended.spawned, tally.spawned]
  · rw [List.countP_append, List.countP_append, List.countP_singleton, List.countP_singleton]
    simp only [NetworkEvent.succeeds, NetworkEvent.fails]
    by_cases done : outcome.succeeded = true
    · simp only [done, Bool.not_true, Bool.false_eq_true, ↓reduceIte]
      omega
    · simp only [done, Bool.not_false, Bool.false_eq_true, ↓reduceIte]
      omega
  · rw [ended.attempted]
    exact tally.attempted
  · have succeeded := tally.succeeded
    rw [ended.succeeded waiting, List.countP_append, List.countP_singleton]
    simp only [NetworkEvent.succeeds]
    by_cases done : outcome.succeeded = true
    · simp only [done, ↓reduceIte]
      unfold saturatingSucc
      omega
    · simp only [done, Bool.false_eq_true, ↓reduceIte]
      omega

theorem Ledger.grew {events : List NetworkEvent} {event : NetworkEvent} {fresh : List EndpointId}
    (ledger : Ledger events loop) (silent : Silent event) (grew : Grew loop fresh after) :
    Ledger (events ++ [event]) after := by
  refine ⟨?_, fun waiting => ?_, fun peer => ?_, fun completed => ?_⟩
  · rw [grew.running, grew.outgoing, ledger.healthy]
  · obtain ⟨front, active, completed, back, before, earlier, rfl, tally⟩ :=
      ledger.tallied (grew.waiters ▸ waiting)
    exact ⟨front, active, completed, _, before, _, by simp, tally.grew silent grew⟩
  · have kept := ledger.sessions peer
    rw [grew.spawned, List.count_append, List.countP_append, List.countP_singleton,
      silent.ends peer, grew.running, ledger.healthy]
    rw [ledger.healthy] at kept
    by_cases started : peer ∈ fresh
    · have idle := grew.idle peer started
      have once := List.count_eq_one_of_mem grew.distinct started
      simp [started, idle] at kept ⊢
      omega
    · have none := List.count_eq_zero_of_not_mem started
      simp [started, none] at kept ⊢
      omega
  · rw [grew.answered, grew.waiters, registered_snoc, silent.registers, Option.toList_none,
      List.append_nil]
    exact ledger.channels completed

theorem Ledger.ended {events : List NetworkEvent} {outcome : TaskOutcome}
    (active : List EndpointId) (ledger : Ledger events loop)
    (ended : Ended loop peer outcome after) :
    Ledger (events ++ [.label active (.outgoingDone peer (some outcome))]) after := by
  refine ⟨?_, fun waiting => ?_, fun other => ?_, fun completed => ?_⟩
  · rw [ended.running, ended.outgoing, ledger.healthy]
  · obtain ⟨front, others, completed, back, before, fresh, rfl, tally⟩ :=
      ledger.tallied (ended.waiters ▸ waiting)
    exact ⟨front, others, completed, _, before, fresh, by simp,
      tally.ended active ledger.healthy ended⟩
  · have kept := ledger.sessions other
    rw [ended.spawned, kept, List.countP_append, List.countP_singleton, ended.running]
    simp only [NetworkEvent.ends, Finset.mem_erase, decide_eq_true_eq]
    by_cases same : peer = other
    · have busy : other ∈ loop.running := same ▸ ended.busy
      simp [same, busy]
    · have differs : other ≠ peer := Ne.symm same
      simp [same, differs]
  · rw [ended.answered, ended.waiters, registered_snoc]
    simp only [NetworkEvent.registers, Option.toList_none, List.append_nil]
    exact ledger.channels completed

theorem Ledger.registered {events : List NetworkEvent} {task : NetworkTask}
    (reached : run NetworkTask.step .start events = some task) (ledger : Ledger events task.loop)
    (active : List EndpointId) (completed : Nat) :
    Ledger (events ++ [.label active (.command (.sync completed))])
      (task.loop.receive (.sync completed)) := by
  have kept : ∀ loop : NetworkLoop, (loop.receive (.sync completed)).running = loop.running ∧
      (loop.receive (.sync completed)).outgoing = loop.outgoing ∧
      (loop.receive (.sync completed)).spawned = loop.spawned ∧
      (loop.receive (.sync completed)).answered = loop.answered ∧
      (loop.receive (.sync completed)).waiters = loop.waiters ++ [completed] := by
    intro loop
    unfold receive
    dsimp only
    split <;> exact ⟨rfl, rfl, rfl, rfl, rfl⟩
  obtain ⟨running, outgoing, spawned, answered, waiters⟩ := kept task.loop
  refine ⟨?_, fun _ => ?_, fun peer => ?_, fun other => ?_⟩
  · rw [running, outgoing, ledger.healthy]
  · by_cases none : task.loop.waiters = []
    · have summary : (task.loop.receive (.sync completed)).summary =
          ⟨task.loop.outgoing.card, 0⟩ := by
        unfold receive
        dsimp only
        rw [if_pos none]
      refine ⟨events, active, completed, [], task, [], rfl, reached, none, ?_, answered, ?_,
        ?_, ?_, ?_⟩
      · rw [waiters, none]
        rfl
      · rw [spawned, List.append_nil]
      · rw [outgoing, ledger.healthy]
        simp
      · rw [summary, ledger.healthy]
        refine ⟨fun _ => rfl, fun large => ?_⟩
        rw [List.length_nil, Nat.add_zero] at large
        show 2 ^ 64 - 1 ≤ task.loop.outgoing.card
        omega
      · rw [summary]
        simp
    · obtain ⟨front, others, first, back, before, fresh, rfl, tally⟩ := ledger.tallied none
      have same : task.loop.receive (.sync completed) =
          { task.loop with waiters := task.loop.waiters ++ [completed] } := if_neg none
      refine ⟨front, others, first, back ++ [.label active (.command (.sync completed))],
        before, fresh, by simp, tally.begun, tally.alone, ?_, ?_, ?_, ?_, ?_, ?_⟩
      · rw [waiters, tally.waiters, registered_snoc]
        rfl
      · rw [answered, tally.answered]
      · rw [spawned, tally.spawned]
      · rw [outgoing, List.countP_append, List.countP_append]
        exact tally.balance
      · rw [same]
        exact tally.attempted
      · rw [same, List.countP_append]
        exact tally.succeeded
  · rw [spawned, running, List.countP_append]
    exact ledger.sessions peer
  · have channels := ledger.channels other
    rw [answered, waiters, registered_snoc, List.count_append, List.count_append]
    simp only [NetworkEvent.registers, Option.toList_some]
    omega

theorem Ledger.answered {events : List NetworkEvent} (active : List EndpointId)
    (ledger : Ledger events loop) (none : loop.outgoing = ∅) (waiting : loop.waiters ≠ []) :
    Ledger (events ++ [.label active .answer]) { loop.answerWaiters with phase := .selecting } := by
  have same : loop.answerWaiters = { loop with
      waiters := []
      answered := loop.answered ++ loop.waiters.map fun waiter => (waiter, loop.summary)
      summary := ⟨0, 0⟩
      pendingTrigger := loop.pendingTrigger || loop.deferredTrigger
      deferredTrigger := false } := if_pos ⟨none, waiting⟩
  rw [same]
  refine ⟨ledger.healthy, fun impossible => absurd rfl impossible, fun peer => ?_,
    fun completed => ?_⟩
  · rw [List.countP_append]
    exact ledger.sessions peer
  · have channels := ledger.channels completed
    rw [registered_snoc]
    simp only [NetworkEvent.registers, Option.toList_none, List.append_nil, List.map_append,
      List.count_append, List.map_map, List.count_nil, Nat.add_zero]
    rw [← channels]
    congr 2
    exact List.map_id _

theorem ledger_reached {events : List NetworkEvent} {task : NetworkTask}
    (reached : run NetworkTask.step .start events = some task)
    (calm : ∀ event ∈ events, event.panics = false) : Ledger events task.loop := by
  induction events using List.reverseRecOn generalizing task with
  | nil =>
      cases reached
      exact ledger_start
  | append_singleton front event ih =>
      obtain ⟨middle, before, taken⟩ := run_snoc.mp reached
      have ledger := ih before fun other listed => calm other (List.mem_append_left _ listed)
      have last := calm event (List.mem_append_right _ List.mem_cons_self)
      cases counted_step taken last with
      | grew silent grew => exact ledger.grew silent grew
      | registered active completed same =>
          rw [same]
          exact ledger.registered before active completed
      | answered active none waiting same =>
          rw [same]
          exact ledger.answered active none waiting
      | ended active ended => exact ledger.ended active ended

/-- Waiters are answered together, when no outgoing session is left. -/
theorem answered_together {events : List NetworkEvent} (ledger : Ledger events loop)
    {event : NetworkEvent} (counted : Counted loop event after) :
    after.answered = loop.answered ∨
      loop.running = ∅ ∧ after.waiters = [] ∧
        after.answered = loop.answered ++ loop.waiters.map (fun waiter => (waiter, loop.summary)) ∧
        loop.summary.succeeded ≤ loop.summary.attempted := by
  cases counted with
  | grew silent grew => exact Or.inl grew.answered
  | registered active completed same =>
      left
      rw [same]
      unfold receive
      dsimp only
      split <;> rfl
  | answered active none waiting same =>
      right
      obtain ⟨_, _, _, _, _, _, _, tally⟩ := ledger.tallied waiting
      have settled : loop.answerWaiters = _ := if_pos ⟨none, waiting⟩
      rw [same, settled]
      exact ⟨ledger.healthy.trans none, rfl, rfl, tally.succeeded_le⟩
  | ended active ended => exact Or.inl ended.answered

/-- In a run without panics the summary counts every session once, as long as the number of the
sessions fits the counter. -/
theorem sessions_counted_once {events : List NetworkEvent} {task : NetworkTask}
    (reached : run NetworkTask.step .start events = some task)
    (calm : ∀ event ∈ events, event.panics = false) :
    (task.loop.waiters ≠ [] → ∃ front active completed back before fresh,
      events = front ++ .label active (.command (.sync completed)) :: back ∧
      run NetworkTask.step .start front = some before ∧ before.loop.waiters = [] ∧
      task.loop.waiters = completed :: registered back ∧
      task.loop.answered = before.loop.answered ∧
      task.loop.spawned = before.loop.spawned ++ fresh ∧
      before.loop.running.card + fresh.length =
        back.countP NetworkEvent.succeeds + back.countP NetworkEvent.fails +
          task.loop.outgoing.card ∧
      (before.loop.running.card + fresh.length < 2 ^ 64 →
        task.loop.summary =
          ⟨before.loop.running.card + fresh.length, back.countP NetworkEvent.succeeds⟩)) ∧
    (∀ peer, task.loop.spawned.count peer =
      events.countP (NetworkEvent.ends peer) + if peer ∈ task.loop.running then 1 else 0) ∧
    (∀ completed, (task.loop.answered.map Prod.fst).count completed +
      task.loop.waiters.count completed = (registered events).count completed) ∧
    ∀ event after, event.panics = false → task.step event = some after →
      after.loop.answered = task.loop.answered ∨
      task.loop.running = ∅ ∧ after.loop.waiters = [] ∧
        after.loop.answered =
          task.loop.answered ++ task.loop.waiters.map (fun waiter => (waiter, task.loop.summary)) ∧
        task.loop.summary.succeeded ≤ task.loop.summary.attempted := by
  have ledger := ledger_reached reached calm
  refine ⟨fun waiting => ?_, ledger.sessions, ledger.channels, fun event after quiet taken =>
    answered_together ledger (counted_step taken quiet)⟩
  obtain ⟨front, active, completed, back, before, fresh, split, tally⟩ := ledger.tallied waiting
  refine ⟨front, active, completed, back, before, fresh, split, tally.begun, tally.alone,
    tally.waiters, tally.answered, tally.spawned, tally.balance, fun fits => ?_⟩
  have attempted := tally.attempted.exact fits
  have succeeded := tally.succeeded
  have balance := tally.balance
  have few : back.countP NetworkEvent.succeeds < 2 ^ 64 := by omega
  cases summary : task.loop.summary with
  | mk shown done =>
      rw [summary] at attempted succeeded
      dsimp only at attempted succeeded
      rw [attempted, succeeded, Nat.min_eq_left (by omega)]

/-- A channel is registered, and sessions to both peers are started. -/
def opening : List NetworkEvent :=
  [.label [] (.command (.sync 0)), .label [] (.drained false), .label [.fill 1, .fill 2] .pass,
    .label [] .answer]

/-- The session to the second peer ends and is started again. -/
def cycle : List NetworkEvent :=
  [.label [] (.outgoingDone (.fill 2) (some (.synchronized true))), .label [] (.drained false),
    .label [.fill 1, .fill 2] .pass, .label [] .answer]

/-- The state between two cycles. -/
def cycling (summary : SyncSummary) (spawned : List EndpointId) : NetworkTask :=
  ⟨⟨.selecting, {.fill 2, .fill 1}, [0], false, false, summary, {.fill 2, .fill 1}, 0, spawned, []⟩,
    false, false⟩

theorem cycle_run (attempted succeeded : Nat) (spawned : List EndpointId) :
    run NetworkTask.step (cycling ⟨attempted, succeeded⟩ spawned) cycle =
      some (cycling ⟨saturatingSucc attempted, saturatingSucc succeeded⟩
        (spawned ++ [.fill 2])) := rfl

theorem cycles_run (count : Nat) :
    run NetworkTask.step .start (opening ++ (List.replicate count cycle).flatten) =
      some (cycling ⟨saturatingSucc^[count] 2, saturatingSucc^[count] 0⟩
        ([.fill 1, .fill 2] ++ List.replicate count (.fill 2))) := by
  induction count with
  | zero => rfl
  | succ count ih =>
      rw [List.replicate_succ', List.flatten_append, List.flatten_singleton, ← List.append_assoc]
      rw [run_append.mpr ⟨_, ih, cycle_run _ _ _⟩, Function.iterate_succ_apply',
        Function.iterate_succ_apply', List.replicate_succ', List.append_assoc]

theorem registered_cycles (count : Nat) :
    registered (opening ++ (List.replicate count cycle).flatten) = [0] := by
  have quiet : ∀ event ∈ (List.replicate count cycle).flatten, event.registers = none := by
    intro event listed
    obtain ⟨part, repeated, inside⟩ := List.mem_flatten.mp listed
    rw [List.eq_of_mem_replicate repeated] at inside
    simp only [cycle, List.mem_cons, List.not_mem_nil, or_false] at inside
    rcases inside with rfl | rfl | rfl | rfl <;> rfl
  rw [registered, List.filterMap_append, List.filterMap_eq_nil_iff.mpr quiet]
  rfl

theorem cycles_calm (count : Nat) :
    ∀ event ∈ opening ++ (List.replicate count cycle).flatten, event.panics = false := by
  intro event listed
  rcases List.mem_append.mp listed with first | later
  · simp only [opening, List.mem_cons, List.not_mem_nil, or_false] at first
    rcases first with rfl | rfl | rfl | rfl <;> rfl
  · obtain ⟨part, repeated, inside⟩ := List.mem_flatten.mp later
    rw [List.eq_of_mem_replicate repeated] at inside
    simp only [cycle, List.mem_cons, List.not_mem_nil, or_false] at inside
    rcases inside with rfl | rfl | rfl | rfl <;> rfl

/-- After 2^64 sessions the counter stays at its greatest value. -/
theorem counter_saturates :
    ¬ ∀ (events : List NetworkEvent) (task : NetworkTask),
      run NetworkTask.step .start events = some task →
      (∀ event ∈ events, event.panics = false) → task.loop.waiters ≠ [] →
      ∃ front active completed back before fresh,
        events = front ++ .label active (.command (.sync completed)) :: back ∧
        run NetworkTask.step .start front = some before ∧ before.loop.waiters = [] ∧
        task.loop.spawned = before.loop.spawned ++ fresh ∧
        task.loop.summary.attempted = before.loop.running.card + fresh.length := by
  intro claimed
  obtain ⟨count, large⟩ : ∃ count, count = 2 ^ 64 := ⟨_, rfl⟩
  obtain ⟨front, active, completed, back, before, fresh, split, begun, -, spawned, attempted⟩ :=
    claimed _ _ (cycles_run count) (cycles_calm count) (List.cons_ne_nil _ _)
  have alone : front = [] := by
    have channels := registered_cycles count
    cases front with
    | nil => rfl
    | cons event rest =>
        have first := (List.cons.inj split).1
        rw [split, registered, List.filterMap_append, ← first] at channels
        simp [NetworkEvent.registers] at channels
  subst alone
  cases begun
  have shown : saturatingSucc^[count] 2 ≤ 2 ^ 64 - 1 := by
    cases count with
    | zero => simp
    | succ less =>
        rw [Function.iterate_succ_apply']
        exact min_le_right _ _
  have size := congrArg List.length spawned
  simp only [cycling, NetworkTask.start, NetworkLoop.start, List.nil_append, List.length_append,
    List.length_cons, List.length_nil, List.length_replicate] at size
  have equal : saturatingSucc^[count] 2 = 0 + fresh.length := attempted
  omega

/-- A session that succeeds, before the answer is sent. -/
def single : List NetworkEvent :=
  [.label [] (.command (.sync 0)), .label [] (.drained false), .label [.fill 1] .pass,
    .label [] .answer, .label [] (.outgoingDone (.fill 1) (some (.synchronized false)))]

theorem one_session_counted :
    ∃ task front active completed back before fresh,
      run NetworkTask.step .start single = some task ∧
      single = front ++ .label active (.command (.sync completed)) :: back ∧
      run NetworkTask.step .start front = some before ∧
      task.loop.spawned = before.loop.spawned ++ fresh ∧
      before.loop.running.card + fresh.length = back.countP NetworkEvent.succeeds +
        back.countP NetworkEvent.fails + task.loop.outgoing.card := by
  have calm : ∀ event ∈ single, event.panics = false := by simp [single, NetworkEvent.panics]
  obtain ⟨front, active, completed, back, before, fresh, split, begun, -, -, -, spawned,
      balance, -⟩ :=
    (@sessions_counted_once single _ rfl calm).1 (List.cons_ne_nil _ _)
  exact ⟨_, front, active, completed, back, before, fresh, rfl, split, begun, spawned, balance⟩

end Skillsync
