import Skillsync.DirectoryTree
import Skillsync.Fallible

set_option autoImplicit false

namespace Skillsync.DirectoryTree

open Effects FileTree Fallible

variable {comparison : Comparison String} {α : Type} {faults : Faults}

section calls
variable {kind : Call} {reason : InstallError} {tree : Files comparison} {n : Nat}

theorem call_ok {act : Files comparison → Option (α × Files comparison)} {value : α}
    {after : Files comparison} (works : faults kind n = false)
    (acts : act tree = some (value, after)) :
    (call faults kind reason act).run ⟨tree, n⟩ = (.ok value, ⟨after, n + 1⟩) := by
  simp [call, works, acts]

theorem call_eq_ok {act : Files comparison → Option (α × Files comparison)} {value : α}
    {after : CallState comparison}
    (done : (call faults kind reason act).run ⟨tree, n⟩ = (.ok value, after)) :
    faults kind n = false ∧ act tree = some (value, after.tree) ∧ after.calls = n + 1 := by
  unfold call at done
  dsimp only at done
  split at done
  · cases done
  · rename_i works
    split at done
    · rename_i outcome
      cases done
      exact ⟨Bool.eq_false_iff.mpr works, outcome, rfl⟩
    · cases done

/-- A call that fails has changed nothing. -/
theorem call_error {act : Files comparison → Option (α × Files comparison)}
    {failure : InstallError} {after : CallState comparison}
    (failed : (call faults kind reason act).run ⟨tree, n⟩ = (.error failure, after)) :
    failure = reason ∧ after.tree = tree := by
  unfold call at failed
  dsimp only at failed
  split at failed
  · cases failed
    exact ⟨rfl, rfl⟩
  · split at failed <;> cases failed
    exact ⟨rfl, rfl⟩

theorem observe_ok {read : Files comparison → Option α} {value : α}
    (works : faults kind n = false) (reads : read tree = some value) :
    (observe faults kind reason read).run ⟨tree, n⟩ = (.ok value, ⟨tree, n + 1⟩) := by
  apply call_ok works
  rw [reads]
  rfl

theorem observe_eq_ok {read : Files comparison → Option α} {value : α}
    {after : CallState comparison}
    (done : (observe faults kind reason read).run ⟨tree, n⟩ = (.ok value, after)) :
    faults kind n = false ∧ read tree = some value ∧ after = ⟨tree, n + 1⟩ := by
  obtain ⟨works, acts, calls⟩ := call_eq_ok done
  obtain ⟨result, reads, same⟩ := Option.map_eq_some_iff.mp acts
  obtain ⟨after, counted⟩ := after
  cases same
  cases calls
  exact ⟨works, reads, rfl⟩

end calls

/-- A computation that leaves the tree as it is. -/
def ReadOnly (tree : Files comparison) (computation : InstallM comparison α) : Prop :=
  Triple (fun state => state.tree = tree) computation (fun _ state => state.tree = tree)
    fun _ state => state.tree = tree

section readOnly
variable {tree : Files comparison}

theorem ReadOnly.pure (value : α) : ReadOnly tree (pure value) := Triple.pure fun _ => id

theorem ReadOnly.bind {β : Type} {first : InstallM comparison α} {next : α → InstallM comparison β}
    (front : ReadOnly tree first) (back : ∀ value, ReadOnly tree (next value)) :
    ReadOnly tree (first >>= next) := Triple.bind front back

theorem ReadOnly.observe (kind : Call) (reason : InstallError)
    (read : Files comparison → Option α) : ReadOnly tree (observe faults kind reason read) := by
  rintro ⟨current, n⟩ rfl
  cases outcome : (DirectoryTree.observe faults kind reason read).run ⟨current, n⟩ with
  | mk result after =>
      cases result with
      | ok value =>
          obtain ⟨-, -, rfl⟩ := observe_eq_ok outcome
          rfl
      | error failure => exact (call_error outcome).2

theorem ReadOnly.run_tree {computation : InstallM comparison α}
    (readOnly : ReadOnly tree computation) (n : Nat) :
    (computation.run ⟨tree, n⟩).2.tree = tree := by
  cases outcome : computation.run ⟨tree, n⟩ with
  | mk result after =>
      cases result with
      | ok value => exact readOnly.ok rfl outcome
      | error reason => exact readOnly.error rfl outcome

theorem openRelativeDir_readOnly (relative : List String) :
    ReadOnly tree (openRelativeDir faults relative) := by
  unfold openRelativeDir
  split
  · exact .observe _ _ _
  · exact .observe _ _ _

end readOnly

/-- The path that is opened from the root leads on from where the loop stands. -/
theorem resolve_next {tree : Files comparison} {current : Nat} {logical : List String}
    (leads : tree.Leads 0 logical current) (component : String) :
    tree.resolve 0 (logical ++ [component]) = tree.enter current component := by
  rw [Tree.resolve_append, leads.resolve, Option.bind_some, Tree.resolve]
  simp [Tree.resolve]

/-- From a tree a computation returns with `post`, or fails with `fails`. -/
def Ends (tree : Files comparison) (computation : InstallM comparison α)
    (post : α → Files comparison → Prop) (fails : InstallError → Files comparison → Prop) : Prop :=
  Triple (fun state => state.tree = tree) computation (fun value state => post value state.tree)
    fun reason state => fails reason state.tree

section ends
variable {β : Type} {tree : Files comparison} {post : α → Files comparison → Prop}
  {final : β → Files comparison → Prop} {fails : InstallError → Files comparison → Prop}

theorem Ends.pure {value : α} (holds : post value tree) : Ends tree (pure value) post fails :=
  Triple.pure fun _ same => same ▸ holds

theorem Ends.fail {reason : InstallError} (holds : fails reason tree) :
    Ends tree (fail reason) post fails := Triple.fail fun _ same => same ▸ holds

theorem Ends.bind {first : InstallM comparison α} {next : α → InstallM comparison β}
    (front : Ends tree first post fails)
    (back : ∀ value after, post value after → Ends after (next value) final fails) :
    Ends tree (first >>= next) final fails :=
  Triple.bind front fun value state holds => back value state.tree holds state rfl

theorem Ends.weaken {computation : InstallM comparison α} {post' : α → Files comparison → Prop}
    {fails' : InstallError → Files comparison → Prop} (ends : Ends tree computation post fails)
    (weaker : ∀ value after, post value after → post' value after)
    (weakerFails : ∀ reason after, fails reason after → fails' reason after) :
    Ends tree computation post' fails' :=
  Triple.weaken ends (fun _ => id) (fun value state => weaker value state.tree)
    fun reason state => weakerFails reason state.tree

theorem Ends.call (faults : Faults) (kind : Call) (reason : InstallError)
    (act : Files comparison → Option (α × Files comparison)) :
    Ends tree (call faults kind reason act) (fun value after => act tree = some (value, after))
      fun failure after => failure = reason ∧ after = tree := by
  rintro ⟨current, n⟩ rfl
  cases outcome : (DirectoryTree.call faults kind reason act).run ⟨current, n⟩ with
  | mk result after =>
      cases result with
      | ok value => exact (call_eq_ok outcome).2.1
      | error failure => exact call_error outcome

theorem Ends.observe (faults : Faults) (kind : Call) (reason : InstallError)
    (read : Files comparison → Option α) :
    Ends tree (observe faults kind reason read)
      (fun value after => after = tree ∧ read tree = some value)
      fun failure after => failure = reason ∧ after = tree := by
  apply Ends.weaken (Ends.call faults kind reason _)
  · intro value after acts
    obtain ⟨result, reads, same⟩ := Option.map_eq_some_iff.mp acts
    cases same
    exact ⟨rfl, reads⟩
  · exact fun _ _ => id

theorem Ends.call_bind {kind : Call} {reason : InstallError}
    {act : Files comparison → Option (α × Files comparison)}
    {next : α → InstallM comparison β} (stopped : fails reason tree)
    (back : ∀ value after, act tree = some (value, after) → Ends after (next value) final fails) :
    Ends tree (DirectoryTree.call faults kind reason act >>= next) final fails := by
  apply Ends.bind ((Ends.call faults kind reason act).weaken (fun _ _ => id) ?_) back
  rintro failure _ ⟨rfl, rfl⟩
  exact stopped

theorem Ends.observe_bind {kind : Call} {reason : InstallError}
    {read : Files comparison → Option α} {next : α → InstallM comparison β}
    (stopped : fails reason tree)
    (back : ∀ value, read tree = some value → Ends tree (next value) final fails) :
    Ends tree (DirectoryTree.observe faults kind reason read >>= next) final fails := by
  apply Ends.bind ((Ends.observe faults kind reason read).weaken (fun _ _ => id) ?_)
  · rintro value after ⟨rfl, reads⟩
    exact back value reads
  · rintro failure _ ⟨rfl, rfl⟩
    exact stopped

end ends

/-- A failure that comes before the rename. -/
def EarlyFailure (reason : InstallError) : Prop :=
  ∀ installed, reason ≠ .postRenameDurability installed

theorem early_io : EarlyFailure .io := by simp [EarlyFailure]

theorem early_escape : EarlyFailure .unsafeDestination := by simp [EarlyFailure]

theorem early_collision : EarlyFailure .localNameCollision := by simp [EarlyFailure]

/-- The loop goes on in the directory that it has made. -/
theorem made_grows {tree : Files comparison} {current : Nat} {logical rest : List String}
    {component : String} (leads : tree.Leads 0 logical current)
    (listed : current < tree.directories.length) (absent : tree.lookup current component = none)
    (later : ∀ {tree : Files comparison} {current : Nat} {logical : List String},
      tree.Leads 0 logical current → current < tree.directories.length →
      Ends tree (ensureSafeParentIn faults current logical rest)
        (fun _ after => tree.Grows current rest after ∧ ∃ parent, after.Leads current rest parent)
        fun reason after => EarlyFailure reason ∧ tree.Grows current rest after) :
    Ends (tree.addDirectory current component)
      (do
        let created ← openDir faults current [component] .io
        hook faults .beforeAncestorSync
        syncDir faults
        syncDir faults
        ensureSafeParentIn faults created (logical ++ [component]) rest)
      (fun _ after => tree.Grows current (component :: rest) after ∧
        ∃ parent, after.Leads current (component :: rest) parent)
      fun reason after => EarlyFailure reason ∧ tree.Grows current (component :: rest) after := by
  have present : (tree.addDirectory current component).get current component =
      some (.directory tree.directories.length) := by
    rw [Tree.get_addDirectory listed absent, if_pos ⟨rfl, rfl⟩]
  have inside : tree.directories.length <
      (tree.addDirectory current component).directories.length := by
    simp
  have leadsIn := Tree.leads_addDirectory listed absent
  have grown : ∀ names, tree.Grows current (component :: names)
      (tree.addDirectory current component) := fun _ => .made _ _ _ _ _ listed absent (.stop _ _ _)
  apply Ends.observe_bind ⟨early_io, grown rest⟩
  intro created opened
  rw [leadsIn.resolve] at opened
  cases opened
  apply Ends.observe_bind ⟨early_io, grown rest⟩
  intro _ _
  apply Ends.observe_bind ⟨early_io, grown rest⟩
  intro _ _
  apply Ends.observe_bind ⟨early_io, grown rest⟩
  intro _ _
  have further := (leads.mono (grown []).kept (grown []).size).append leadsIn
  apply (later further inside).weaken
  · rintro _ after ⟨grows, parent, reached⟩
    refine ⟨.made _ _ _ _ _ listed absent grows, parent, ?_⟩
    have size := grows.size
    exact .through _ _ _ _ _ _ (grows.kept _ _ _ present) rfl (by omega) reached
  · rintro reason after ⟨early, grows⟩
    exact ⟨early, .made _ _ _ _ _ listed absent grows⟩

/-- The parents are there when the loop succeeds; all it makes are directories on the path. -/
theorem ensureSafeParentIn_grows {names : List String} {tree : Files comparison} {current : Nat}
    {logical : List String} (leads : tree.Leads 0 logical current)
    (listed : current < tree.directories.length) :
    Ends tree (ensureSafeParentIn faults current logical names)
      (fun _ after => tree.Grows current names after ∧ ∃ parent, after.Leads current names parent)
      fun reason after => EarlyFailure reason ∧ tree.Grows current names after := by
  induction names generalizing tree current logical with
  | nil => exact Ends.pure ⟨.stop _ _ _, current, .here current⟩
  | cons component rest ih =>
      unfold ensureSafeParentIn
      have unmade : tree.Grows current (component :: rest) tree := .stop _ _ _
      apply Ends.observe_bind ⟨early_io, unmade⟩
      intro present found
      cases Option.some.inj found
      cases exact_ : tree.get current component with
      | some entry =>
          rw [if_pos (show (some entry).isSome = true from rfl)]
          apply Ends.observe_bind ⟨early_escape, unmade⟩
          intro next opened
          rw [resolve_next leads] at opened
          obtain ⟨target, inside⟩ := (Tree.enter_eq_some exact_).mp opened
          have through := Tree.Leads.through current next next component [] entry exact_ target
            inside (.here next)
          apply (ih (leads.append through) inside).weaken
          · rintro _ after ⟨grows, parent, reached⟩
            refine ⟨.through _ _ _ _ _ _ entry exact_ target inside grows, parent, ?_⟩
            have size := grows.size
            exact .through current next parent component rest entry (grows.kept _ _ _ exact_)
              target (by omega) reached
          · rintro reason after ⟨early, grows⟩
            exact ⟨early, .through _ _ _ _ _ _ entry exact_ target inside grows⟩
      | none =>
          rw [if_neg (show ¬ (none : Option (Entry RegularFile)).isSome = true by simp)]
          apply Ends.observe_bind ⟨early_io, unmade⟩
          intro taken looked
          cases Option.some.inj looked
          cases absent : tree.lookup current component with
          | some found =>
              rw [if_pos (show (some found).isSome = true from rfl)]
              exact Ends.fail ⟨early_collision, unmade⟩
          | none =>
              rw [if_neg (show ¬ (none : Option (String × Entry RegularFile)).isSome = true
                by simp)]
              apply Ends.call_bind ⟨early_io, unmade⟩
              intro _ made acts
              rw [absent, if_neg (show ¬ (none : Option (String × Entry RegularFile)).isSome = true
                by simp)] at acts
              cases acts
              exact made_grows leads listed absent ih

theorem ensureSafeParent_grows (faults : Faults) (tree : Files comparison) (names : List String) :
    Ends tree (ensureSafeParent faults names)
      (fun _ after => tree.Grows 0 names after ∧ ∃ parent, after.Leads 0 names parent)
      fun reason after => EarlyFailure reason ∧ tree.Grows 0 names after := by
  apply Ends.observe_bind ⟨early_io, .stop _ _ _⟩
  exact fun _ _ => ensureSafeParentIn_grows (.here 0) tree.rooted

/-- Where the parents are there already, nothing is made. -/
theorem ensureSafeParent_unchanged (faults : Faults) {tree : Files comparison}
    {names : List String} {parent : Nat} (leads : tree.Leads 0 names parent) :
    Ends tree (ensureSafeParent faults names) (fun _ after => after = tree)
      fun reason after => EarlyFailure reason ∧ after = tree :=
  (ensureSafeParent_grows faults tree names).weaken (fun _ _ holds => holds.1.unchanged leads)
    fun _ _ holds => ⟨holds.1, holds.2.unchanged leads⟩

theorem openRelativeDir_ends (faults : Faults) {tree : Files comparison} {names : List String}
    {parent : Nat} (leads : tree.Leads 0 names parent) :
    Ends tree (openRelativeDir faults names) (fun opened after => after = tree ∧ opened = parent)
      fun reason after => EarlyFailure reason ∧ after = tree := by
  have early : ∀ reason (after : Files comparison), reason = .io ∧ after = tree →
      EarlyFailure reason ∧ after = tree := by
    rintro _ after ⟨rfl, same⟩
    exact ⟨early_io, same⟩
  unfold openRelativeDir
  split
  · rename_i root
    subst root
    cases leads
    apply (Ends.observe faults .clone .io _).weaken _ early
    rintro opened after ⟨rfl, reads⟩
    exact ⟨rfl, (Option.some.inj reads).symm⟩
  · apply (Ends.observe faults .openDirectory .io _).weaken _ early
    rintro opened after ⟨rfl, reads⟩
    rw [leads.resolve] at reads
    exact ⟨rfl, (Option.some.inj reads).symm⟩

/-- The name is free, or taken exactly. -/
theorem rejectConcreteCollision_fits (faults : Faults) {tree : Files comparison}
    {names : List String} {parent : Nat} (leads : tree.Leads 0 names parent) (name : String) :
    Ends tree (rejectConcreteCollision faults names name)
      (fun _ after => after = tree ∧ tree.Fits parent name)
      fun reason after => EarlyFailure reason ∧ after = tree := by
  unfold rejectConcreteCollision
  apply Ends.bind (openRelativeDir_ends faults leads)
  rintro opened after ⟨rfl, rfl⟩
  apply Ends.observe_bind ⟨early_io, rfl⟩
  intro present found
  cases Option.some.inj found
  by_cases exact_ : (after.get opened name).isSome = true
  · rw [if_pos exact_]
    exact Ends.pure ⟨rfl, Or.inr exact_⟩
  · rw [if_neg exact_]
    apply Ends.observe_bind ⟨early_io, rfl⟩
    intro taken looked
    cases Option.some.inj looked
    by_cases same : (after.lookup opened name).isSome = true
    · rw [if_pos same]
      exact Ends.fail ⟨early_collision, rfl⟩
    · rw [if_neg same]
      exact Ends.pure ⟨rfl, Or.inl (by simpa using same)⟩

end Skillsync.DirectoryTree
