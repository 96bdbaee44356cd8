import Skillsync.RosterSelection
import Skillsync.Runs

set_option autoImplicit false

namespace Skillsync

open Fallible Runs

/-- Where a call of `merge_selected_roster_chain` is. -/
inductive MergePhase
  | starting (revisions : List RosterRevision)
  /-- The existence check of the next revision comes next. -/
  | checking (rest : List RosterRevision)
  /-- The check found no row; the transaction that inserts the revision comes next. -/
  | inserting (revision : RosterRevision) (rest : List RosterRevision)
  | done (result : Except RosterStoreError Unit)
  deriving DecidableEq

/-- A bound of the steps that are left. -/
def MergePhase.steps : MergePhase → Nat
  | starting revisions => 2 * revisions.length + 2
  | checking rest => 2 * rest.length + 1
  | inserting _ rest => 2 * rest.length + 2
  | done _ => 0

/-- Calls of several sessions on one database, each with its own connection. -/
structure MergeCalls where
  store : RosterStore
  calls : Nat → MergePhase

section
variable [Blake3] [Ed25519]

namespace MergeCalls

/-- A call for each chain. -/
def start (store : RosterStore) (chains : List (List RosterRevision)) : MergeCalls :=
  ⟨store, fun call => match chains[call]? with
    | some revisions => .starting revisions
    | none => .done (.ok ())⟩

/-- The next read or transaction of a call. -/
def step (state : MergeCalls) (call : Nat) : Option MergeCalls :=
  let next := fun store phase =>
    some (⟨store, Function.update state.calls call phase⟩ : MergeCalls)
  match state.calls call with
  | .starting revisions =>
      match state.store.checkMerge revisions with
      | .error reason => next state.store (.done (.error reason))
      | .ok () => next state.store (.checking revisions.tail)
  | .checking [] => next state.store (.done (.ok ()))
  | .checking (revision :: rest) =>
      match state.store.rosterRevision revision.canonicalHash with
      | .error reason => next state.store (.done (.error reason))
      | .ok (some _) => next state.store (.checking rest)
      | .ok none => next state.store (.inserting revision rest)
  | .inserting revision rest =>
      match state.store.insertRosterRevision revision with
      | .error reason => next state.store (.done (.error reason))
      | .ok inserted => next inserted (.checking rest)
  | .done _ => none

omit [Ed25519] in
/-- The transaction of a call finds its revision still missing. -/
def Unraced (state : MergeCalls) (call : Nat) : Prop :=
  match state.calls call with
  | .inserting revision _ => state.store.rosterRevisions[revision.canonicalHash]? = none
  | _ => True

instance (state : MergeCalls) (call : Nat) : Decidable (state.Unraced call) := by
  unfold Unraced
  split <;> infer_instance

end MergeCalls

/-- What is left of a chain: its next revision extends a stored one, and the others are
stored. -/
structure Remaining (store : RosterStore) (chain rest : List RosterRevision) : Prop where
  below : ∃ parent, store.Stored parent ∧ Linked (parent :: rest)
  inside : ∀ revision ∈ rest, revision ∈ chain
  stored : ∀ revision ∈ chain, store.Stored revision ∨ revision ∈ rest

/-- The progress of a call with a chain, while no transaction has failed. -/
def Progress (genesis : RosterRevision) (store : RosterStore) (chain : List RosterRevision) :
    MergePhase → Prop
  | .starting revisions => revisions = chain ∧ ∃ rest, chain = genesis :: rest ∧ Linked chain
  | .checking rest => Remaining store chain rest
  | .inserting revision rest => Remaining store chain (revision :: rest)
  | .done result => result = .ok () ∧ ∀ revision ∈ chain, store.Stored revision

structure MergeInvariant (genesis : RosterRevision) (before : RosterStore)
    (chains : List (List RosterRevision)) (state : MergeCalls) : Prop where
  tree : RosterTree genesis state.store
  kept : ∀ revision, before.Stored revision → state.store.Stored revision
  added : ∀ revision, state.store.Stored revision →
    before.Stored revision ∨ ∃ chain ∈ chains, revision ∈ chain
  calls : ∀ call, Progress genesis state.store (chains[call]?.getD []) (state.calls call)

variable {genesis : RosterRevision} {before store next : RosterStore}
  {chain rest : List RosterRevision} {chains : List (List RosterRevision)}
  {state after : MergeCalls} {call : Nat}

theorem Remaining.mono (remaining : Remaining store chain rest)
    (kept : ∀ revision, store.Stored revision → next.Stored revision) :
    Remaining next chain rest := by
  obtain ⟨⟨parent, held, linked⟩, inside, stored⟩ := remaining
  exact ⟨⟨parent, kept parent held, linked⟩, inside,
    fun revision member => (stored revision member).imp_left (kept revision)⟩

theorem Progress.mono {phase : MergePhase} (progress : Progress genesis store chain phase)
    (kept : ∀ revision, store.Stored revision → next.Stored revision) :
    Progress genesis next chain phase := by
  cases phase with
  | starting revisions => exact progress
  | checking rest => exact Remaining.mono progress kept
  | inserting revision rest => exact Remaining.mono progress kept
  | done result =>
      exact ⟨progress.1, fun revision member => kept revision (progress.2 revision member)⟩

/-- The next revision of a chain is stored. -/
theorem Remaining.advance {revision : RosterRevision}
    (remaining : Remaining store chain (revision :: rest)) (stored : store.Stored revision) :
    Remaining store chain rest := by
  obtain ⟨⟨parent, -, linked⟩, inside, held⟩ := remaining
  refine ⟨⟨revision, stored, (List.isChain_cons_cons.mp linked).2⟩,
    fun other member => inside other (List.mem_cons_of_mem _ member), fun other member => ?_⟩
  rcases held other member with before | listed
  · exact Or.inl before
  · rcases List.mem_cons.mp listed with rfl | later
    · exact Or.inl stored
    · exact Or.inr later

namespace MergeInvariant

/-- A step of one call that changes no row. -/
theorem advance (holds : MergeInvariant genesis before chains state) {phase : MergePhase}
    (progress : Progress genesis state.store (chains[call]?.getD []) phase) :
    MergeInvariant genesis before chains
      ⟨state.store, Function.update state.calls call phase⟩ := by
  refine ⟨holds.tree, holds.kept, holds.added, fun other => ?_⟩
  by_cases same : other = call
  · subst same
    dsimp only
    rw [Function.update_self]
    exact progress
  · dsimp only
    rw [Function.update_of_ne same]
    exact holds.calls other

omit [Blake3] [Ed25519] in
theorem mem_chains {revision : RosterRevision} (member : revision ∈ chains[call]?.getD []) :
    ∃ chain ∈ chains, revision ∈ chain := by
  cases found : chains[call]? with
  | none =>
      rw [found] at member
      cases member
  | some chain =>
      rw [found] at member
      exact ⟨chain, List.mem_of_getElem? found, member⟩

/-- The step lemma. -/
theorem step (distinguished : Distinguished fun revision =>
      before.Stored revision ∨ ∃ chain ∈ chains, revision ∈ chain)
    (holds : MergeInvariant genesis before chains state) (unraced : state.Unraced call)
    (taken : state.step call = some after) : MergeInvariant genesis before chains after := by
  have progress := holds.calls call
  unfold MergeCalls.step at taken
  unfold MergeCalls.Unraced at unraced
  cases phase : state.calls call with
  | starting revisions =>
      rw [phase] at taken progress
      obtain ⟨rfl, rest, whole, linked⟩ := progress
      rw [whole] at linked
      simp only [whole, holds.tree.checkMerge_of_valid linked] at taken
      cases taken
      apply holds.advance
      refine ⟨⟨genesis, holds.tree.genesis_stored, linked⟩, ?_, ?_⟩
      · intro revision member
        rw [whole]
        exact List.mem_cons_of_mem _ member
      · intro revision member
        rw [whole] at member
        rcases List.mem_cons.mp member with rfl | later
        · exact Or.inl holds.tree.genesis_stored
        · exact Or.inr later
  | checking rest =>
      rw [phase] at taken progress
      cases rest with
      | nil =>
          cases taken
          apply holds.advance
          exact ⟨rfl, fun revision member =>
            (progress.stored revision member).resolve_right List.not_mem_nil⟩
      | cons revision rest =>
          dsimp only at taken
          rcases RosterStore.rosterRevision_cases holds.tree.encoded revision.canonicalHash with
            ⟨absent, loaded⟩ | ⟨held, stored, sameHash, loaded⟩
          · rw [loaded] at taken
            cases taken
            exact holds.advance progress
          · rw [loaded] at taken
            cases taken
            have same : held = revision := distinguished held revision (holds.added held stored)
              (Or.inr (mem_chains (progress.inside revision List.mem_cons_self))) sameHash
            exact holds.advance (Remaining.advance progress (same ▸ stored))
  | inserting revision rest =>
      rw [phase] at taken progress unraced
      dsimp only at taken
      obtain ⟨parent, stored, linked⟩ := progress.below
      have valid := (List.isChain_cons_cons.mp linked).1
      rw [holds.tree.insertRosterRevision_of_valid stored valid unraced] at taken
      cases taken
      obtain ⟨grown, exactly'⟩ := holds.tree.grown_insertRow stored valid
        (RosterStore.insertRosterRevisionRow_of_absent holds.tree.encoded unraced)
      have own := (exactly' revision).mpr (Or.inr rfl)
      refine ⟨grown.tree, fun other held => grown.kept other (holds.kept other held), ?_, ?_⟩
      · intro other held
        rcases (exactly' other).mp held with old | rfl
        · exact holds.added other old
        · exact Or.inr (mem_chains (progress.inside other List.mem_cons_self))
      · intro other
        by_cases same : other = call
        · subst same
          dsimp only
          rw [Function.update_self]
          exact (progress.mono grown.kept).advance own
        · dsimp only
          rw [Function.update_of_ne same]
          exact (holds.calls other).mono grown.kept
  | done result =>
      rw [phase] at taken
      cases taken

theorem start (tree : RosterTree genesis before)
    (valid : ∀ chain ∈ chains, chain.head? = some genesis ∧ Linked chain) :
    MergeInvariant genesis before chains (MergeCalls.start before chains) := by
  refine ⟨tree, fun _ held => held, fun _ => Or.inl, fun call => ?_⟩
  dsimp only [MergeCalls.start]
  cases found : chains[call]? with
  | none => exact ⟨rfl, fun _ inside => absurd inside List.not_mem_nil⟩
  | some chain =>
      obtain ⟨head, linked⟩ := valid chain (List.mem_of_getElem? found)
      cases chain with
      | nil => cases head
      | cons first rest => exact ⟨rfl, rest, by rw [← Option.some.inj head]; rfl, linked⟩

theorem preserves (distinguished : Distinguished fun revision =>
      before.Stored revision ∨ ∃ chain ∈ chains, revision ∈ chain) :
    Preserves MergeCalls.step MergeCalls.Unraced (MergeInvariant genesis before chains) :=
  fun _ _ _ holds unraced taken => holds.step distinguished unraced taken

end MergeInvariant

namespace MergeCalls

theorem step_eq_none : state.step call = none ↔ ∃ result, state.calls call = .done result := by
  constructor
  · intro stuck
    unfold step at stuck
    split at stuck
    · split at stuck <;> cases stuck
    · cases stuck
    · split at stuck <;> cases stuck
    · split at stuck <;> cases stuck
    · exact ⟨_, ‹_›⟩
  · rintro ⟨result, returned⟩
    simp only [step, returned]

omit [Blake3] [Ed25519] in
theorem moved {phase : MergePhase} (less : phase.steps < (state.calls call).steps) :
    (∀ other, other ≠ call → Function.update state.calls call phase other = state.calls other) ∧
      (Function.update state.calls call phase call).steps < (state.calls call).steps := by
  rw [Function.update_self]
  exact ⟨fun other differs => Function.update_of_ne differs _ _, less⟩

/-- A step moves its own call forward and no other. -/
theorem step_moves (taken : state.step call = some after) :
    (∀ other, other ≠ call → after.calls other = state.calls other) ∧
      (after.calls call).steps < (state.calls call).steps := by
  unfold step at taken
  cases phase : state.calls call with
  | starting revisions =>
      rw [phase] at taken
      dsimp only at taken
      have shorter : 2 * revisions.tail.length + 1 < 2 * revisions.length + 2 := by
        rw [List.length_tail]
        omega
      split at taken <;> cases taken <;> rw [← phase] <;> apply moved <;> rw [phase]
      · exact Nat.succ_pos _
      · exact shorter
  | checking rest =>
      rw [phase] at taken
      cases rest with
      | nil =>
          cases taken
          rw [← phase]
          apply moved
          rw [phase]
          exact Nat.succ_pos _
      | cons revision rest =>
          dsimp only at taken
          split at taken <;> cases taken <;> rw [← phase] <;> apply moved <;> rw [phase] <;>
            simp only [MergePhase.steps, List.length_cons] <;> omega
  | inserting revision rest =>
      rw [phase] at taken
      dsimp only at taken
      split at taken <;> cases taken <;> rw [← phase] <;> apply moved <;> rw [phase] <;>
        simp only [MergePhase.steps] <;> omega
  | done result =>
      rw [phase] at taken
      cases taken

/-- A call that returned stays where it is. -/
theorem step_done {result : Except RosterStoreError Unit} {other : Nat}
    (returned : state.calls call = .done result) (taken : state.step other = some after) :
    after.calls call = .done result := by
  by_cases same : call = other
  · subst same
    rw [step_eq_none.mpr ⟨result, returned⟩] at taken
    cases taken
  · rw [(step_moves taken).1 call same, returned]

theorem run_done {result : Except RosterStoreError Unit} {labels : List Nat}
    (returned : state.calls call = .done result) (reached : run step state labels = some after) :
    after.calls call = .done result := by
  induction labels generalizing state with
  | nil =>
      rw [run_nil, Option.some.injEq] at reached
      exact reached ▸ returned
  | cons label rest ih =>
      obtain ⟨middle, taken, ends⟩ := run_cons.mp reached
      exact ih (step_done returned taken) ends

/-- No call takes more steps than its chain asks for. -/
theorem run_steps {labels : List Nat} (reached : run step state labels = some after) :
    labels.count call + (after.calls call).steps ≤ (state.calls call).steps := by
  induction labels generalizing state with
  | nil =>
      rw [run_nil, Option.some.injEq] at reached
      rw [reached, List.count_nil, Nat.zero_add]
  | cons label rest ih =>
      obtain ⟨middle, taken, ends⟩ := run_cons.mp reached
      have others := ih ends
      obtain ⟨kept, less⟩ := step_moves taken
      by_cases same : label = call
      · subst same
        rw [List.count_cons_self]
        omega
      · rw [List.count_cons_of_ne same, ← kept call fun equal => same equal.symm]
        exact others

/-- A stale check ends its call: the insertion meets the unique hash. -/
theorem step_raced (holds : MergeInvariant genesis before chains state)
    (raced : ¬ state.Unraced call) (taken : state.step call = some after) :
    after.calls call = .done (.error (.state .sqlite)) := by
  have progress := holds.calls call
  unfold step at taken
  unfold Unraced at raced
  cases phase : state.calls call with
  | starting revisions =>
      rw [phase] at raced
      exact absurd trivial raced
  | checking rest =>
      rw [phase] at raced
      exact absurd trivial raced
  | inserting revision rest =>
      rw [phase] at taken progress raced
      dsimp only at taken
      obtain ⟨parent, stored, linked⟩ := progress.below
      have valid := (List.isChain_cons_cons.mp linked).1
      have present := Option.isSome_iff_ne_none.mpr raced
      rw [holds.tree.insertRosterRevision_row stored valid, RosterStore.insertRosterRevisionRow,
        if_pos (Or.inl present)] at taken
      cases taken
      exact Function.update_self ..
  | done result =>
      rw [phase] at taken
      cases taken

/-- The calls return no error exactly in the runs without a stale check. -/
theorem along_unraced (distinguished : Distinguished fun revision =>
      before.Stored revision ∨ ∃ chain ∈ chains, revision ∈ chain)
    {labels : List Nat} (holds : MergeInvariant genesis before chains state)
    (reached : run step state labels = some after) :
    Along step Unraced state labels ↔
      ∀ call result, after.calls call = .done result → result = .ok () := by
  constructor
  · intro along call result returned
    have progress :=
      ((MergeInvariant.preserves distinguished).run holds along reached).calls call
    rw [returned] at progress
    exact progress.1
  · intro succeeded
    induction labels generalizing state with
    | nil => trivial
    | cons label rest ih =>
        obtain ⟨middle, taken, ends⟩ := run_cons.mp reached
        have unraced : state.Unraced label := by
          by_contra raced
          cases succeeded label _ (run_done (step_raced holds raced taken) ends)
        refine ⟨unraced, fun next other => ?_⟩
        rw [taken, Option.some.injEq] at other
        subst other
        exact ih (holds.step distinguished unraced taken) ends

/-- From the loop on, a call that runs alone does what `mergeRevisions` says. -/
theorem run_loop_alone {rest : List RosterRevision} (phase : state.calls call = .checking rest) :
    ∃ count, run step state (List.replicate count call) =
      some ⟨(state.store.mergeRevisions rest).1,
        Function.update state.calls call (.done (state.store.mergeRevisions rest).2)⟩ := by
  induction rest generalizing state with
  | nil =>
      refine ⟨1, ?_⟩
      simp only [List.replicate_one, run, step, phase, RosterStore.mergeRevisions, Option.bind]
  | cons revision rest ih =>
      unfold RosterStore.mergeRevisions
      cases loaded : state.store.rosterRevision revision.canonicalHash with
      | error reason =>
          refine ⟨1, ?_⟩
          simp only [List.replicate_one, run, step, phase, loaded, Option.bind]
      | ok found =>
          cases found with
          | some held =>
              have checked : state.step call =
                  some ⟨state.store, Function.update state.calls call (.checking rest)⟩ := by
                simp only [step, phase, loaded]
              obtain ⟨count, reached⟩ :=
                @ih ⟨state.store, Function.update state.calls call (.checking rest)⟩
                  (Function.update_self ..)
              refine ⟨count + 1, ?_⟩
              rw [List.replicate_succ, run_cons]
              refine ⟨_, checked, ?_⟩
              rw [reached, Function.update_idem]
          | none =>
              have checked : state.step call =
                  some ⟨state.store, Function.update state.calls call
                    (.inserting revision rest)⟩ := by
                simp only [step, phase, loaded]
              cases inserted : state.store.insertRosterRevision revision with
              | error reason =>
                  refine ⟨2, ?_⟩
                  rw [List.replicate_succ, run_cons]
                  refine ⟨_, checked, ?_⟩
                  simp only [List.replicate_one, run, step, Function.update_self, inserted,
                    Option.bind, Function.update_idem]
              | ok next =>
                  obtain ⟨count, reached⟩ :=
                    @ih ⟨next, Function.update state.calls call (.checking rest)⟩
                      (Function.update_self ..)
                  refine ⟨count + 1 + 1, ?_⟩
                  rw [List.replicate_succ, run_cons]
                  refine ⟨_, checked, ?_⟩
                  rw [List.replicate_succ, run_cons]
                  refine ⟨⟨next, Function.update state.calls call (.checking rest)⟩, ?_, ?_⟩
                  · simp only [step, Function.update_self, inserted, Function.update_idem]
                  · rw [reached, Function.update_idem]

/-- A call that runs alone is `merge_selected_roster_chain`. -/
theorem run_alone {revisions : List RosterRevision}
    (phase : state.calls call = .starting revisions) :
    ∃ count, run step state (List.replicate count call) =
      some ⟨(state.store.mergeSelectedRosterChain revisions).1, Function.update state.calls call
        (.done (state.store.mergeSelectedRosterChain revisions).2)⟩ := by
  unfold RosterStore.mergeSelectedRosterChain
  cases checked : state.store.checkMerge revisions with
  | error reason =>
      refine ⟨1, ?_⟩
      simp only [List.replicate_one, run, step, phase, checked, Option.bind]
  | ok =>
      have started : state.step call =
          some ⟨state.store, Function.update state.calls call (.checking revisions.tail)⟩ := by
        simp only [step, phase, checked]
      obtain ⟨count, reached⟩ :=
        @run_loop_alone _ _ ⟨state.store, Function.update state.calls call
          (.checking revisions.tail)⟩
          call _ (Function.update_self ..)
      refine ⟨count + 1, ?_⟩
      rw [List.replicate_succ, run_cons]
      refine ⟨_, started, ?_⟩
      rw [reached, Function.update_idem]

end MergeCalls

omit [Ed25519] in
/-- Every stored revision is in one row. -/
theorem row_unique (encoded : store.Encoded) {revision : RosterRevision}
    (stored : store.Stored revision) :
    (store.rosterRevisions.toList.map Prod.snd).count revision.canonicalBytes = 1 := by
  obtain ⟨revisions, rows, distinct⟩ := RosterStore.rows_of_encoded encoded
  have listed : revision ∈ revisions := by
    rw [RosterStore.Stored, ← Std.ExtTreeMap.mem_toList_iff_getElem?_eq_some, ← rows] at stored
    exact (List.mem_map_of_injective RosterRevision.row_injective).mp stored
  have bytes : store.rosterRevisions.toList.map Prod.snd =
      revisions.map RosterRevision.canonicalBytes := by
    rw [← rows, List.map_map]
    rfl
  rw [bytes, List.count_map_of_injective revisions _ RosterRevision.canonicalBytes_injective]
  exact List.count_eq_one_of_mem distinct.of_map listed

/-- Calls that all succeeded leave the tables of the calls one after the other. -/
theorem MergeInvariant.finished (tree : RosterTree genesis before)
    (distinguished : Distinguished fun revision =>
      before.Stored revision ∨ ∃ chain ∈ chains, revision ∈ chain)
    (valid : ∀ chain ∈ chains, chain.head? = some genesis ∧ Linked chain)
    (holds : MergeInvariant genesis before chains state)
    (returned : ∀ call, state.calls call = .done (.ok ())) :
    state.store.rosterRevisions = (chains.foldl
      (fun store chain => (store.mergeSelectedRosterChain chain).1) before).rosterRevisions := by
  obtain ⟨tails, rfl⟩ : chains ∈ Set.range (List.map (List.cons genesis)) := by
    rw [Set.range_list_map]
    intro chain member
    have head := (valid chain member).1
    cases chain with
    | nil => cases head
    | cons first rest => exact ⟨rest, by rw [← Option.some.inj head]⟩
  obtain ⟨merged, stored⟩ := tree.merge_run distinguished
    (fun rest member => (valid _ (List.mem_map_of_mem member)).2) (fun _ => Or.inl)
    (fun rest member revision inside => Or.inr
      ⟨_, List.mem_map_of_mem member, List.mem_cons_of_mem _ inside⟩)
  rw [List.foldl_map]
  apply RosterStore.table_eq holds.tree.encoded merged.encoded
  intro revision
  rw [stored revision]
  constructor
  · intro held
    rcases holds.added revision held with old | ⟨chain, member, inside⟩
    · exact Or.inl old
    · obtain ⟨rest, inTails, rfl⟩ := List.mem_map.mp member
      rcases List.mem_cons.mp inside with rfl | later
      · exact Or.inl tree.genesis_stored
      · exact Or.inr ⟨rest, inTails, later⟩
  · rintro (old | ⟨rest, inTails, inside⟩)
    · exact holds.kept revision old
    · obtain ⟨call, bound, found⟩ := List.getElem_of_mem (List.mem_map_of_mem inTails)
      have progress := holds.calls call
      rw [returned call, List.getElem?_eq_getElem bound, found] at progress
      exact progress.2 revision (List.mem_cons_of_mem _ inside)

/-- Calls that overlap succeed, and leave the tables of the calls one after the other, exactly in
the runs in which no transaction comes after another call stored its revision. -/
theorem concurrent_merges {genesis : RosterRevision} {start : RosterStore}
    {operations : List RosterOperation} {chains : List (List RosterRevision)}
    {labels : List Nat} {final : MergeCalls}
    (inserted : RosterStore.empty.insertRosterRevision genesis = .ok start)
    (collisionFree : CollisionFree start operations)
    (valid : ∀ chain ∈ chains, chain.head? = some genesis ∧ Linked chain)
    (distinguished : Distinguished fun revision =>
      (operations.foldl RosterOperation.perform start).Stored revision ∨
      ∃ chain ∈ chains, revision ∈ chain)
    (reached : run MergeCalls.step
      (MergeCalls.start (operations.foldl RosterOperation.perform start) chains) labels =
        some final) :
    let store := operations.foldl RosterOperation.perform start
    let sequential :=
      chains.foldl (fun store chain => (store.mergeSelectedRosterChain chain).1) store
    (∀ call, labels.count call ≤ 2 * (chains[call]?.getD []).length + 2 ∧
      (final.step call = none ↔ ∃ result, final.calls call = .done result)) ∧
    (Along MergeCalls.step MergeCalls.Unraced (MergeCalls.start store chains) labels ↔
      (∀ call result, final.calls call = .done result → result = .ok ()) ∧
      ((∀ call, ∃ result, final.calls call = .done result) →
        (∀ chain ∈ chains, ∀ revision ∈ chain,
          (final.store.rosterRevisions.toList.map Prod.snd).count revision.canonicalBytes = 1) ∧
        final.store.rosterRevisions = sequential.rosterRevisions ∧
        final.store.selectedRosterChain = sequential.selectedRosterChain)) := by
  intro store sequential
  have tree : RosterTree genesis store :=
    ((RosterTree.of_genesis inserted).grown_run collisionFree).tree
  have holds := MergeInvariant.start tree valid
  have succeeded := MergeCalls.along_unraced distinguished holds reached
  refine ⟨fun call => ⟨?_, MergeCalls.step_eq_none⟩, fun along => ⟨succeeded.mp along, ?_⟩,
    fun outcome => succeeded.mpr outcome.1⟩
  · have bound := @MergeCalls.run_steps _ _ _ _ call _ reached
    have first : ((MergeCalls.start store chains).calls call).steps ≤
        2 * (chains[call]?.getD []).length + 2 := by
      dsimp only [MergeCalls.start]
      cases chains[call]? with
      | none => exact Nat.zero_le _
      | some revisions => exact Nat.le_refl _
    exact le_trans (Nat.le_add_right _ _) (le_trans bound first)
  · intro returned
    have last := (MergeInvariant.preserves distinguished).run holds along reached
    have all : ∀ call, final.calls call = .done (.ok ()) := by
      intro call
      obtain ⟨result, done⟩ := returned call
      rw [done, succeeded.mp along call result done]
    have same := last.finished tree distinguished valid all
    refine ⟨fun chain member revision inside => ?_, same, ?_⟩
    · obtain ⟨call, bound, found⟩ := List.getElem_of_mem member
      have progress := last.calls call
      rw [all call, List.getElem?_eq_getElem bound, found] at progress
      exact row_unique last.tree.encoded (progress.2 revision inside)
    · rw [RosterStore.selectedRosterChain, RosterStore.selectedRosterChain, same]

end

section
attribute [local instance] Blake3.checksum Ed25519.checksum

open RosterSample

/-- The chain that two sessions receive. -/
def news : List RosterRevision := [genesis, admitted 2]

def newsCalls : MergeCalls := MergeCalls.start start [news, news]

theorem news_valid : ∀ chain ∈ [news, news], chain.head? = some genesis ∧ Linked chain := by
  have valid : (admitted 2).validateChild genesis = .ok () := by decide +kernel
  intro chain listed
  have same : chain = news := by simpa using listed
  rw [same]
  exact ⟨rfl, List.isChain_cons_cons.mpr ⟨valid, List.isChain_singleton _⟩⟩

/-- Both calls check for the revision before one of them inserts it: the other one fails. -/
theorem overlapping_merge_fails :
    RosterStore.empty.insertRosterRevision genesis = .ok start ∧
      (∀ chain ∈ [news, news], chain.head? = some genesis ∧ Linked chain) ∧
      ∃ final, run MergeCalls.step newsCalls [0, 1, 0, 1, 0, 1] = some final ∧
        final.calls 1 = .done (.error (.state .sqlite)) := by
  have ended : ((run MergeCalls.step newsCalls [0, 1, 0, 1, 0, 1]).map fun final =>
      final.calls 1) = some (.done (.error (.state .sqlite))) := by decide +kernel
  exact ⟨by decide +kernel, news_valid, Option.map_eq_some_iff.mp ended⟩

theorem mem_repeated {revision root left : RosterRevision}
    (held : revision = root ∨ ∃ chain ∈ [[root, left], [root, left]], revision ∈ chain) :
    revision ∈ [root, left] := by
  rcases held with rfl | ⟨chain, listed, inside⟩
  · exact List.mem_cons_self
  · have same : chain = [root, left] := by simpa using listed
    exact same ▸ inside

theorem separate_merges_succeed :
    ∃ final, run MergeCalls.step newsCalls [0, 0, 0, 0, 1, 1, 1] = some final ∧
      final.store.selectedRosterChain = ([news, news].foldl
        (fun store chain => (store.mergeSelectedRosterChain chain).1)
          start).selectedRosterChain := by
  have inserted : RosterStore.empty.insertRosterRevision genesis = .ok start := by decide +kernel
  have apart : ∀ a ∈ news, ∀ b ∈ news, a.canonicalHash = b.canonicalHash → a = b := by
    decide +kernel
  have known : ∀ revision, start.Stored revision ∨ (∃ chain ∈ [news, news], revision ∈ chain) →
      revision ∈ news := by
    intro revision held
    rw [RosterTree.stored_start inserted] at held
    exact mem_repeated held
  have distinguished : Distinguished fun revision =>
      (([] : List RosterOperation).foldl RosterOperation.perform start).Stored revision ∨
        ∃ chain ∈ [news, news], revision ∈ chain := by
    rw [List.foldl_nil]
    exact fun a b heldA heldB same => apart a (known a heldA) b (known b heldB) same
  have along : Along MergeCalls.step MergeCalls.Unraced newsCalls [0, 0, 0, 0, 1, 1, 1] := by
    decide +kernel
  have ended : ((run MergeCalls.step newsCalls [0, 0, 0, 0, 1, 1, 1]).map fun final =>
      [final.calls 0, final.calls 1]) = some [.done (.ok ()), .done (.ok ())] := by decide +kernel
  obtain ⟨final, reached, both⟩ := Option.map_eq_some_iff.mp ended
  have reached' : run MergeCalls.step (MergeCalls.start
      (([] : List RosterOperation).foldl RosterOperation.perform start) [news, news])
        [0, 0, 0, 0, 1, 1, 1] = some final := by
    rw [List.foldl_nil]
    exact reached
  obtain ⟨-, merges⟩ := @concurrent_merges _ _ genesis start [] [news, news] _ final inserted
    trivial news_valid distinguished reached'
  rw [List.foldl_nil] at merges
  obtain ⟨-, agreed⟩ := merges.mp along
  have returned : ∀ call, ∃ result, final.calls call = .done result := by
    intro call
    match call with
    | 0 => exact ⟨_, (List.cons.inj both).1⟩
    | 1 => exact ⟨_, (List.cons.inj (List.cons.inj both).2).1⟩
    | call + 2 => exact ⟨_, MergeCalls.run_done (by rfl) reached⟩
  exact ⟨final, reached, (agreed returned).2.2⟩

end

end Skillsync
