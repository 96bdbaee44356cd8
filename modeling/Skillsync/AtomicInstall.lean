import Skillsync.DirectoryTreeSpec
import Skillsync.StateSpec

set_option autoImplicit false

namespace Skillsync.DirectoryTree

open Effects FileTree

variable {comparison : Comparison String} {around : Surroundings} {tree base : Files comparison}

theorem early_random : EarlyFailure .random := by simp [EarlyFailure]

theorem early_temporaryName : EarlyFailure .temporaryName := by simp [EarlyFailure]

theorem early_sizeMismatch : EarlyFailure .sizeMismatch := by simp [EarlyFailure]

theorem early_hashMismatch : EarlyFailure .hashMismatch := by simp [EarlyFailure]

/-- A temporary name is one of those that were drawn, and no entry has it. -/
theorem temporaryNameIn_free (attempts : List Nat) :
    Ends tree (around.temporaryNameIn attempts)
      (fun name after => after = tree ∧ tree.lookup 0 name = none ∧
        ∃ attempt ∈ attempts, around.temporaryPath attempt = name)
      fun reason after => EarlyFailure reason ∧ after = tree := by
  induction attempts with
  | nil => exact Ends.fail ⟨early_temporaryName, rfl⟩
  | cons attempt rest ih =>
      unfold Surroundings.temporaryNameIn
      apply Ends.observe_bind ⟨early_random, rfl⟩
      intro _ _
      apply Ends.observe_bind ⟨early_io, rfl⟩
      intro taken looked
      cases Option.some.inj looked
      cases free : tree.lookup 0 (around.temporaryPath attempt) with
      | none => exact Ends.pure ⟨rfl, free, attempt, List.mem_cons_self, rfl⟩
      | some found =>
          apply ih.weaken _ fun _ _ => id
          rintro name after ⟨same, unused, other, tried, drawn⟩
          exact ⟨same, unused, other, List.mem_cons_of_mem _ tried, drawn⟩

section temporary
variable {temporary : String} {file : RegularFile}

/-- The tree with a temporary file. -/
def holding (base : Files comparison) (temporary : String) (file : RegularFile) :
    Files comparison := base.put 0 temporary (.file file)

theorem get_holding (free : base.lookup 0 temporary = none) (identity : Nat) (name : String) :
    (holding base temporary file).get identity name =
      if identity = 0 ∧ name = temporary then some (.file file) else base.get identity name :=
  Tree.get_put base.rooted (Or.inl free)

theorem get_temporary (free : base.lookup 0 temporary = none) :
    (holding base temporary file).get 0 temporary = some (.file file) := by
  rw [get_holding free, if_pos ⟨rfl, rfl⟩]

theorem lookup_holding (free : base.lookup 0 temporary = none) :
    (holding base temporary file).lookup 0 temporary = some (temporary, .file file) :=
  Tree.lookup_of_get (get_temporary free)

/-- The other entries are there beside the temporary file. -/
theorem holding_kept (free : base.lookup 0 temporary = none) (identity : Nat) (name : String)
    (entry : Entry RegularFile) (present : base.get identity name = some entry) :
    (holding base temporary file).get identity name = some entry := by
  rw [get_holding free, if_neg]
  · exact present
  · rintro ⟨rfl, rfl⟩
    rw [Tree.get_eq_none_of_lookup free] at present
    cases present

/-- A temporary file leads nowhere. -/
theorem leads_holding (free : base.lookup 0 temporary = none) {identity last : Nat}
    {names : List String} :
    (holding base temporary file).Leads identity names last ↔ base.Leads identity names last := by
  constructor
  · intro leads
    induction leads with
    | here identity => exact .here identity
    | through identity next last name rest entry present target listed _ ih =>
        rw [get_holding free] at present
        split at present
        · cases present
          cases target
        · exact .through identity next last name rest entry present target
            (by simpa [holding] using listed) ih
  · intro leads
    exact leads.mono (holding_kept free) (by simp [holding])

theorem changeFile_holding (free : base.lookup 0 temporary = none) (kind : Call)
    (change : RegularFile → RegularFile) :
    Ends (holding base temporary file) (around.changeFile kind temporary change)
      (fun _ after => after = holding base temporary (change file))
      fun reason after => EarlyFailure reason ∧ after = holding base temporary file := by
  apply (Ends.call around.faults kind .io _).weaken
  · intro _ after acts
    rw [lookup_holding free] at acts
    cases acts
    exact Tree.put_put
  · rintro _ after ⟨rfl, same⟩
    exact ⟨early_io, same⟩

/-- The file holds what was read so far, and nothing else changes. -/
theorem copyIn_holding (free : base.lookup 0 temporary = none) (size : Nat) (reader : Reader)
    (written : List UInt8) (ns : I64) :
    Ends (holding base temporary ⟨written, ns⟩) (around.copyIn temporary size written reader)
      (fun result after => ∃ ns, after = holding base temporary ⟨result, ns⟩)
      fun reason after => EarlyFailure reason ∧ ∃ file, after = holding base temporary file := by
  induction reader generalizing written ns with
  | nil => exact Ends.pure ⟨ns, rfl⟩
  | cons answer rest ih =>
      unfold Surroundings.copyIn
      split
      · exact Ends.pure ⟨ns, rfl⟩
      · cases answer with
        | error _ => exact Ends.fail ⟨early_io, _, rfl⟩
        | ok chunk =>
            dsimp only
            split
            · exact Ends.pure ⟨ns, rfl⟩
            · split
              · exact Ends.fail ⟨early_sizeMismatch, _, rfl⟩
              · apply Ends.bind ((changeFile_holding free .write _).weaken (fun _ _ => id)
                  fun reason after stopped => ⟨stopped.1, _, stopped.2⟩)
                rintro _ after rfl
                exact ih _ around.writtenNs

/-- A copy that succeeds has exactly the declared size and hash. -/
theorem copyStream_holding [Blake3] (free : base.lookup 0 temporary = none) (size : Nat)
    (contentHash : Bytes32) (reader : Reader) (ns : I64) :
    Ends (holding base temporary ⟨[], ns⟩)
      (around.copyStream temporary size contentHash reader)
      (fun _ after => ∃ file, after = holding base temporary file ∧
        file.bytes.length = size ∧ Blake3.hash file.bytes = contentHash)
      fun reason after => EarlyFailure reason ∧ ∃ file, after = holding base temporary file := by
  apply Ends.bind (copyIn_holding free size reader [] ns)
  rintro written after ⟨ns, rfl⟩
  split
  · exact Ends.fail ⟨early_sizeMismatch, _, rfl⟩
  · rename_i sized
    split
    · exact Ends.fail ⟨early_hashMismatch, _, rfl⟩
    · rename_i hashed
      exact Ends.pure ⟨_, rfl, not_not.mp sized, not_not.mp hashed⟩

/-- The rename moves the file to its place, where no directory is. -/
theorem rename_holding (free : base.lookup 0 temporary = none) {path : ProtocolPath} {parent : Nat}
    (leads : base.Leads 0 (parentRelative path) parent) :
    Ends (holding base temporary file) (around.rename temporary path)
      (fun _ after => after = base.put parent (fileName path) (.file file) ∧
        ∀ entry, base.get parent (fileName path) = some entry → entry.isDirectory = false)
      fun reason after => EarlyFailure reason ∧ after = holding base temporary file := by
  apply (Ends.call around.faults .rename .io _).weaken
  · intro _ after acts
    rw [lookup_holding free, ((leads_holding free).mpr leads).resolve] at acts
    dsimp only at acts
    split at acts
    · cases acts
    · rename_i removable
      cases acts
      refine ⟨congrArg (fun tree => Tree.put tree parent (fileName path) (.file file))
        (Tree.erase_put free), fun entry present => ?_⟩
      rw [Tree.lookup_of_get (holding_kept free _ _ _ present)] at removable
      simpa using removable
  · rintro _ after ⟨rfl, same⟩
    exact ⟨early_io, same⟩

/-- The name of the path is not taken for the temporary one when the second check of collisions
succeeds. -/
theorem holding_fits (free : base.lookup 0 temporary = none) {parent : Nat} {name : String}
    (apart : parent = 0 → temporary ≠ name)
    (fits : (holding base temporary file).Fits parent name) :
    parent = 0 → ¬ comparison.same temporary name = true := by
  rintro rfl same
  rcases fits with absent | present
  · rw [Tree.lookup_of_same (get_temporary free) same] at absent
    cases absent
  · rw [get_holding free, if_neg fun both => apart rfl both.2.symm] at present
    obtain ⟨entry, found⟩ := Option.isSome_iff_exists.mp present
    rw [Tree.lookup_of_same found (comparison.symm same)] at free
    cases free

end temporary

/-- A file with the content of a record has been moved to its place. -/
structure Placed [Blake3] (base : Files comparison) (record : Record) (root : RootPath)
    (parent : Nat) (temporary : String) (installed : InstalledFile) (after : Files comparison) :
    Prop where
  file : ∃ file : RegularFile, file.Holds record.kind ∧
    installed = ⟨record.path, root, file.fingerprint⟩ ∧
    after = base.put parent (fileName record.path) (.file file)
  replaced : ∀ entry, base.get parent (fileName record.path) = some entry →
    entry.isDirectory = false
  apart : parent = 0 → ¬ comparison.same temporary (fileName record.path) = true

/-- An installation that stops before the rename leaves its temporary file at most. -/
def Stopped (base : Files comparison) (temporary : String) (reason : InstallError)
    (after : Files comparison) : Prop :=
  EarlyFailure reason ∧ (after = base ∨ ∃ file, after = holding base temporary file)

/-- An installation fails before the rename, or after it with what it has installed. -/
def Fails [Blake3] (base : Files comparison) (record : Record) (root : RootPath) (parent : Nat)
    (temporary : String) (reason : InstallError) (after : Files comparison) : Prop :=
  Stopped base temporary reason after ∨ ∃ installed, reason = .postRenameDurability installed ∧
    Placed base record root parent temporary installed after

/-- What follows the rename changes nothing, and its failure tells what is installed. -/
theorem durable_ends (around : Surroundings) (tree : Files comparison) (relative : List String)
    (installed : InstalledFile) :
    Ends tree (Effect.mapError (fun _ => .postRenameDurability installed) do
        hook around.faults .afterRename
        let _ ← openRelativeDir around.faults relative
        syncDir around.faults)
      (fun _ after => after = tree)
      fun reason after => reason = .postRenameDurability installed ∧ after = tree := by
  apply Triple.mapError
  apply Triple.weaken (ReadOnly.bind (.observe _ _ _) fun _ =>
    ReadOnly.bind (openRelativeDir_readOnly relative) fun _ => .observe _ _ _)
  · exact fun _ => id
  · exact fun _ _ => id
  · exact fun _ _ same => ⟨rfl, same⟩

section install
variable [Blake3] {record : Record} {size : Nat} {contentHash : Bytes32} {root : RootPath}
  {temporary : String} {parent : Nat}

theorem writeTemporary_ends (record : Record) (size : Nat) (contentHash : Bytes32)
    (reader : Reader) (free : base.lookup 0 temporary = none) :
    Ends base (around.writeTemporary record size contentHash temporary reader)
      (fun file after => after = holding base temporary file ∧ file.bytes.length = size ∧
        Blake3.hash file.bytes = contentHash)
      (Stopped base temporary) := by
  have stopped : ∀ {file : RegularFile}, Stopped base temporary .io (holding base temporary file) :=
    ⟨early_io, Or.inr ⟨_, rfl⟩⟩
  apply Ends.call_bind ⟨early_io, Or.inl rfl⟩
  intro _ created acts
  rw [free] at acts
  cases acts
  apply Ends.observe_bind (stopped)
  intro _ _
  apply Ends.bind ((copyStream_holding free size contentHash reader _).weaken (fun _ _ => id) _)
  · rintro _ after ⟨file, rfl, sized, hashed⟩
    apply Ends.observe_bind stopped
    intro _ _
    apply Ends.observe_bind stopped
    intro _ _
    apply Ends.observe_bind stopped
    intro _ _
    apply Ends.bind ((changeFile_holding free .setTimes _).weaken (fun _ _ => id) _)
    · rintro _ after rfl
      apply Ends.observe_bind stopped
      intro _ _
      apply Ends.observe_bind stopped
      intro _ _
      apply (Ends.observe around.faults .metadata .io _).weaken
      · rintro found after ⟨rfl, reads⟩
        rw [lookup_holding free] at reads
        cases reads
        exact ⟨rfl, sized, hashed⟩
      · rintro _ after ⟨rfl, rfl⟩
        exact stopped
    · rintro reason after ⟨early, rfl⟩
      exact ⟨early, Or.inr ⟨_, rfl⟩⟩
  · rintro reason after ⟨early, file, rfl⟩
    exact ⟨early, Or.inr ⟨_, rfl⟩⟩

theorem moveIntoPlace_ends {file : RegularFile} {installed : InstalledFile}
    (holds : file.Holds record.kind) (reports : installed = ⟨record.path, root, file.fingerprint⟩)
    (free : base.lookup 0 temporary = none)
    (leads : base.Leads 0 (parentRelative record.path) parent)
    (apart : parent = 0 → temporary ≠ fileName record.path) :
    Ends (holding base temporary file) (around.moveIntoPlace record temporary installed)
      (Placed base record root parent temporary) (Fails base record root parent temporary) := by
  have stopped : ∀ reason after, EarlyFailure reason ∧ after = holding base temporary file →
      Fails base record root parent temporary reason after := by
    rintro reason after ⟨early, rfl⟩
    exact Or.inl ⟨early, Or.inr ⟨file, rfl⟩⟩
  have reached : (holding base temporary file).Leads 0 (parentRelative record.path) parent :=
    (leads_holding free).mpr leads
  apply Ends.observe_bind (stopped _ _ ⟨early_io, rfl⟩)
  intro _ _
  apply Ends.bind ((ensureSafeParent_unchanged around.faults reached).weaken (fun _ _ => id)
    stopped)
  rintro _ after rfl
  apply Ends.bind ((rejectConcreteCollision_fits around.faults reached _).weaken (fun _ _ => id)
    stopped)
  rintro _ after ⟨rfl, fits⟩
  apply Ends.bind ((rename_holding free leads).weaken (fun _ _ => id) stopped)
  rintro _ after ⟨placed, replaced⟩
  have done : Placed base record root parent temporary installed after :=
    ⟨⟨file, holds, reports, placed⟩, replaced, holding_fits free apart fits⟩
  apply Ends.bind ((durable_ends around after _ installed).weaken (fun _ _ => id) _)
  · rintro _ _ rfl
    exact Ends.pure done
  · rintro _ _ ⟨rfl, rfl⟩
    exact Or.inr ⟨installed, rfl, done⟩

theorem copyAndRename_ends (reader : Reader) (kind : record.kind = .file size contentHash)
    (free : base.lookup 0 temporary = none)
    (leads : base.Leads 0 (parentRelative record.path) parent)
    (apart : parent = 0 → temporary ≠ fileName record.path) :
    Ends base (around.copyAndRename record size contentHash root temporary reader)
      (Placed base record root parent temporary) (Fails base record root parent temporary) := by
  apply Ends.bind ((writeTemporary_ends record size contentHash reader free).weaken
    (fun _ _ => id) fun _ _ => Or.inl)
  rintro file _ ⟨rfl, rfl, rfl⟩
  exact moveIntoPlace_ends kind rfl free leads apart

end install

theorem removeFile_tree (faults : Faults) (parent : Nat) (name : String)
    (state : CallState comparison) :
    ((removeFile faults parent name).run state).2.tree = state.tree ∨
      (state.tree.lookup parent name).isSome = true ∧
        ((removeFile faults parent name).run state).2.tree = state.tree.erase parent name := by
  obtain ⟨tree, n⟩ := state
  cases outcome : (removeFile faults parent name).run ⟨tree, n⟩ with
  | mk result after =>
      cases result with
      | error reason => exact Or.inl (call_error outcome).2
      | ok removed =>
          obtain ⟨-, acts, -⟩ := call_eq_ok outcome
          obtain ⟨after, counted⟩ := after
          cases looked : tree.lookup parent name with
          | none =>
              rw [looked] at acts
              cases acts
              exact Or.inl rfl
          | some found =>
              rw [looked] at acts
              dsimp only at acts
              split at acts
              · cases acts
              · cases acts
                exact Or.inr ⟨rfl, rfl⟩

section cleanUp
variable [Blake3] {record : Record} {root : RootPath} {temporary : String} {parent : Nat}

/-- After a rename the temporary name is free. -/
theorem Placed.free {installed : InstalledFile} {after : Files comparison}
    (placed : Placed base record root parent temporary installed after)
    (free : base.lookup 0 temporary = none) : after.lookup 0 temporary = none := by
  obtain ⟨file, -, -, rfl⟩ := placed.file
  rw [Tree.lookup_put_of_differs]
  · exact free
  · exact fun here same => placed.apart here.symm (comparison.symm same)

omit [Blake3] in
theorem Stopped.removed {reason : InstallError} {state : CallState comparison}
    (stopped : Stopped base temporary reason state.tree) (faults : Faults)
    (free : base.lookup 0 temporary = none) :
    Stopped base temporary reason ((removeFile faults 0 temporary).run state).2.tree := by
  refine ⟨stopped.1, ?_⟩
  rcases removeFile_tree faults 0 temporary state with same | ⟨found, erased⟩
  · rw [same]
    exact stopped.2
  · rw [erased]
    rcases stopped.2 with same | ⟨file, same⟩
    · rw [same, free] at found
      cases found
    · rw [same]
      exact Or.inl (Tree.erase_put free)

/-- The clean-up keeps what was installed. -/
theorem finish_ends {computation : InstallM comparison InstalledFile}
    (free : base.lookup 0 temporary = none)
    (ends : Ends base computation (Placed base record root parent temporary)
      (Fails base record root parent temporary)) :
    Ends base (computation.finish (around.cleanUp temporary))
      (Placed base record root parent temporary) (Fails base record root parent temporary) := by
  apply Triple.finish ends
  · intro installed state placed
    rcases removeFile_tree around.faults 0 temporary state with same | ⟨found, -⟩
    · show Placed base record root parent temporary installed
        ((removeFile around.faults 0 temporary).run state).2.tree
      rw [same]
      exact placed
    · rw [placed.free free] at found
      cases found
  · rintro reason state (stopped | ⟨installed, rfl, placed⟩)
    · left
      have removed := stopped.removed around.faults free
      unfold Surroundings.cleanUp
      split
      · rename_i installed same
        exact absurd (Except.error.inj same) (stopped.1 installed)
      · exact removed
    · exact Or.inr ⟨installed, rfl, placed⟩

end cleanUp

/-- Every entry is as before, and so is the destination. -/
structure Untouched (tree after : Files comparison) (path : ProtocolPath) : Prop where
  kept : ∀ identity name entry, tree.get identity name = some entry →
    after.get identity name = some entry
  destination : ∀ parent, after.Leads 0 (parentRelative path) parent →
    after.get parent (fileName path) = tree.get parent (fileName path)

/-- The file of a record is at its destination, and every other entry is as before. The path leads
there, unless it led through the symlink that the file replaces. -/
structure Replaced [Blake3] (tree after : Files comparison) (record : Record)
    (opened : Except InstallFault RootPath) (installed : InstalledFile) : Prop where
  root : opened = .ok installed.resolvedRoot
  path : installed.path = record.path
  kept : ∀ identity name entry, tree.get identity name = some entry →
    after.get identity name = some entry ∨
      name = fileName record.path ∧ tree.Leads 0 (parentRelative record.path) identity
  destination : ∃ parent file, file.Holds record.kind ∧
    installed.fingerprint = file.fingerprint ∧
    after.get parent (fileName record.path) = some (.file file) ∧
    (after.Leads 0 (parentRelative record.path) parent ∨
      tree.Leads 0 (parentRelative record.path) parent ∧
        ∃ target, tree.get parent (fileName record.path) = some (.link (some target)))

section grown
variable {record : Record} {path : ProtocolPath} {root : RootPath} {temporary : String}
  {parent : Nat}

theorem untouched_of_grows {after : Files comparison}
    (grows : tree.Grows 0 (parentRelative path) after) : Untouched tree after path :=
  ⟨grows.kept, fun _ leads => grows.same_at_end leads _⟩

/-- The name of the path in the root is not a temporary one. -/
theorem apart_of_grows (grows : tree.Grows 0 (parentRelative path) base)
    (leads : base.Leads 0 (parentRelative path) parent)
    (apart : tree.Leads 0 (parentRelative path) 0 → temporary ≠ fileName path) :
    parent = 0 → temporary ≠ fileName path := by
  rintro rfl
  rcases grows.unchanged_or_new leads with rfl | new
  · exact apart leads
  · have rooted := tree.rooted
    omega

theorem Stopped.untouched {reason : InstallError} {after : Files comparison}
    (stopped : Stopped base temporary reason after)
    (grows : tree.Grows 0 (parentRelative path) base) (free : base.lookup 0 temporary = none)
    (leads : base.Leads 0 (parentRelative path) parent)
    (apart : parent = 0 → temporary ≠ fileName path) : Untouched tree after path := by
  rcases stopped.2 with rfl | ⟨file, rfl⟩
  · exact untouched_of_grows grows
  · constructor
    · exact fun identity name entry present =>
        holding_kept free identity name entry (grows.kept identity name entry present)
    · intro place reached
      rw [leads_holding free] at reached
      rw [get_holding free, if_neg, grows.same_at_end reached]
      rintro ⟨here, same⟩
      exact apart ((leads.unique reached).trans here) same.symm

theorem Placed.replaced_by [Blake3] {installed : InstalledFile} {after : Files comparison}
    (placed : Placed base record root parent temporary installed after)
    (grows : tree.Grows 0 (parentRelative record.path) base)
    (leads : base.Leads 0 (parentRelative record.path) parent)
    (fits : base.Fits parent (fileName record.path)) :
    Replaced tree after record (.ok root) installed := by
  obtain ⟨file, holds, rfl, rfl⟩ := placed.file
  have listed := leads.listed base.rooted
  refine ⟨rfl, rfl, fun identity name entry present => ?_, parent, file, holds, rfl, ?_, ?_⟩
  · rw [Tree.get_put listed fits]
    by_cases here : identity = parent ∧ name = fileName record.path
    · obtain ⟨rfl, rfl⟩ := here
      right
      rcases grows.unchanged_or_new leads with rfl | new
      · exact ⟨rfl, leads⟩
      · rw [Tree.get_eq_none_of_length_le new] at present
        cases present
    · rw [if_neg here]
      exact Or.inl (grows.kept identity name entry present)
  · rw [Tree.get_put listed fits, if_pos ⟨rfl, rfl⟩]
  · cases present : base.get parent (fileName record.path) with
    | none => exact Or.inl (leads.put listed fits (by simp [present]))
    | some old =>
        cases target : old.leads with
        | none => exact Or.inl (leads.put listed fits (by simp [present, target]))
        | some next =>
            right
            rcases grows.unchanged_or_new leads with rfl | new
            · have kind := placed.replaced old present
              exact ⟨leads, next, by rw [present, link_of_leads target kind]⟩
            · rw [grows.same_at_end leads, Tree.get_eq_none_of_length_le new] at present
              cases present

end grown

section
variable [Blake3] {record : Record}

/-- What the outcome of an installation says of the tree. -/
def Leaves (tree after : Files comparison) (record : Record)
    (opened : Except InstallFault RootPath) : Except InstallError InstalledFile → Prop
  | .ok installed => Replaced tree after record opened installed
  | .error (.postRenameDurability installed) => Replaced tree after record opened installed
  | .error _ => Untouched tree after record.path

theorem leaves_early {reason : InstallError} {after : Files comparison}
    {opened : Except InstallFault RootPath} (early : EarlyFailure reason)
    (untouched : Untouched tree after record.path) :
    Leaves tree after record opened (.error reason) := by
  unfold Leaves
  split
  · rename_i same
    cases same
  · rename_i installed same
    exact absurd (Except.error.inj same) (early installed)
  · exact untouched

omit [Blake3] in
theorem early_fault (fault : InstallFault) : EarlyFailure fault.error := by
  cases fault <;> simp [EarlyFailure, InstallFault.error]

theorem installFileWithHook_ends (around : Surroundings) (tree : Files comparison)
    (record : Record) (reader : Reader)
    (apart : ∀ attempt < 16, tree.Leads 0 (parentRelative record.path) 0 →
      around.temporaryPath attempt ≠ fileName record.path) :
    Ends tree (around.installFileWithHook record reader)
      (fun installed after => Leaves tree after record around.opened (.ok installed))
      fun reason after => Leaves tree after record around.opened (.error reason) := by
  unfold Surroundings.installFileWithHook
  split
  · apply Ends.fail
    exact leaves_early (by simp [EarlyFailure]) (untouched_of_grows (.stop _ _ _))
  · rename_i fault _ _
    exact Ends.fail (leaves_early (early_fault fault) (untouched_of_grows (.stop _ _ _)))
  · rename_i size contentHash root kind opened
    rw [opened]
    have early : ∀ reason after, EarlyFailure reason ∧
        tree.Grows 0 (parentRelative record.path) after →
          Leaves tree after record (.ok root) (.error reason) :=
      fun reason after holds => leaves_early holds.1 (untouched_of_grows holds.2)
    apply Ends.bind ((ensureSafeParent_grows around.faults tree _).weaken (fun _ _ => id) early)
    rintro _ base ⟨grows, parent, leads⟩
    apply Ends.bind ((rejectConcreteCollision_fits around.faults leads _).weaken (fun _ _ => id) _)
    · rintro _ _ ⟨rfl, fits⟩
      apply Ends.bind ((temporaryNameIn_free (List.range 16)).weaken (fun _ _ => id) _)
      · rintro temporary _ ⟨rfl, free, attempt, tried, rfl⟩
        have place := apart_of_grows grows leads (apart attempt (List.mem_range.mp tried))
        apply (finish_ends free (copyAndRename_ends reader kind free leads place)).weaken
        · exact fun installed after placed => placed.replaced_by grows leads fits
        · rintro reason after (stopped | ⟨installed, rfl, placed⟩)
          · exact leaves_early stopped.1 (stopped.untouched grows free leads place)
          · exact placed.replaced_by grows leads fits
      · rintro reason after ⟨failed, rfl⟩
        exact early reason after ⟨failed, grows⟩
    · rintro reason after ⟨failed, rfl⟩
      exact early reason after ⟨failed, grows⟩

/-- What an installation reports is what it leaves. -/
theorem installFileWithHook_leaves (around : Surroundings) (tree : Files comparison)
    (record : Record) (reader : Reader)
    (apart : ∀ attempt < 16, tree.Leads 0 (parentRelative record.path) 0 →
      around.temporaryPath attempt ≠ fileName record.path) :
    Leaves tree ((around.installFileWithHook record reader).run ⟨tree, 0⟩).2.tree record
      around.opened ((around.installFileWithHook record reader).run ⟨tree, 0⟩).1 := by
  have ends := installFileWithHook_ends around tree record reader apart
  cases outcome : (around.installFileWithHook record reader).run ⟨tree, 0⟩ with
  | mk result after =>
      cases result with
      | ok installed => exact ends.ok rfl outcome
      | error reason => exact ends.error rfl outcome

end

theorem transaction_ok {rejected : Bool} {update : Except StateError StateStore}
    {after : StateStore} (done : transaction rejected update = .ok after) :
    rejected = false ∧ update = .ok after := by
  unfold transaction at done
  split at done
  · cases done
  · rename_i accepted
    exact ⟨Bool.eq_false_iff.mpr accepted, done⟩

/-- The state update for a result of an installation; an unstable root leaves the state alone. -/
def installUpdate (store : StateStore) (record : Record) (now : I64) (maxLogs : Nat) :
    Except InstallError InstalledFile → Except StateError StateStore
  | .ok installed =>
      store.markMaterializedAndLog record.key installed.resolvedRoot installed.fingerprint now
        (.fileInstalled record.collection record.path) maxLogs
  | .error (.postRenameDurability installed) =>
      store.markMaterializedAndLog record.key installed.resolvedRoot installed.fingerprint now
        (.fileApplyRejected record.collection record.path) maxLogs
  | .error .unstableRoot => .ok store
  | .error _ =>
      store.markRepairRequiredAndLog record.key now
        (.fileApplyRejected record.collection record.path) maxLogs

section stored
variable (rejected : Bool) (store : StateStore) (record : Record) (now : I64) (maxLogs : Nat)
  (result : Except InstallError InstalledFile)

/-- A result changes the store by its whole update, or not at all. -/
theorem recordInstall_store :
    (recordInstall rejected store record now maxLogs result).2 =
      (transaction rejected (installUpdate store record now maxLogs result)).toOption.getD
        store := by
  cases result with
  | ok installed =>
      dsimp only [recordInstall, installUpdate]
      cases transaction rejected _ <;> rfl
  | error reason =>
      cases reason with
      | unstableRoot => cases rejected <;> rfl
      | _ =>
          dsimp only [recordInstall, installUpdate]
          cases transaction rejected _ <;> rfl

/-- A row that a result has changed counts as materialized only with what was installed. -/
theorem recordInstall_materialized {row : PathRecordState}
    (changed : (recordInstall rejected store record now maxLogs result).2 ≠ store)
    (present : (recordInstall rejected store record now maxLogs result).2.recordState record.key =
      some row) (materialized : row.materialized = true) :
    ∃ installed, (result = .ok installed ∨ result = .error (.postRenameDurability installed)) ∧
      row.materializedFingerprint = some installed.fingerprint := by
  rw [recordInstall_store] at changed present
  cases outcome : transaction rejected (installUpdate store record now maxLogs result) with
  | error source =>
      rw [outcome] at changed
      exact absurd rfl changed
  | ok after =>
      rw [outcome] at changed present
      have present : after.recordState record.key = some row := present
      have updated := (transaction_ok outcome).2
      unfold installUpdate at updated
      split at updated
      · rename_i installed
        obtain ⟨old, -, -, -, rows⟩ := StateStore.markMaterializedAndLog_ok updated
        rw [rows, if_pos rfl] at present
        cases present
        exact ⟨installed, Or.inl rfl, rfl⟩
      · rename_i installed
        obtain ⟨old, -, -, -, rows⟩ := StateStore.markMaterializedAndLog_ok updated
        rw [rows, if_pos rfl] at present
        cases present
        exact ⟨installed, Or.inr rfl, rfl⟩
      · cases updated
        exact absurd rfl changed
      · obtain ⟨old, -, -, -, rows⟩ := StateStore.markRepairRequiredAndLog_ok updated
        rw [rows, if_pos rfl] at present
        cases present
        cases materialized

/-- The store does the same with a result, however the installation is modelled. -/
theorem applyFileFixture_recorded [Blake3] (disk : Disk) (stream : List UInt8)
    (environment : InstallEnvironment) :
    applyFileFixture store disk record stream environment now maxLogs =
      ((recordInstall false store record now maxLogs
          (installFile disk record stream environment).1).1,
        (recordInstall false store record now maxLogs
          (installFile disk record stream environment).1).2,
        (installFile disk record stream environment).2) := by
  unfold applyFileFixture recordInstall transaction
  cases installFile disk record stream environment with
  | mk result after =>
      cases result with
      | ok installed =>
          dsimp only
          cases store.markMaterializedAndLog record.key installed.resolvedRoot installed.fingerprint
            now (.fileInstalled record.collection record.path) maxLogs <;> rfl
      | error reason =>
          cases reason with
          | postRenameDurability installed =>
              dsimp only
              cases store.markMaterializedAndLog record.key installed.resolvedRoot
                installed.fingerprint now (.fileApplyRejected record.collection record.path)
                maxLogs <;> rfl
          | unstableRoot => rfl
          | _ =>
              dsimp only
              cases store.markRepairRequiredAndLog record.key now
                (.fileApplyRejected record.collection record.path) maxLogs <;> rfl

end stored

section
variable [Blake3] (around : Surroundings) (rejected : Bool) (store : StateStore)
  (tree : Files comparison) (record : Record) (reader : Reader) (now : I64) (maxLogs : Nat)

/-- A row that is materialized has the size and hash of the content that its destination holds. -/
def RowHolds (tree : Files comparison) (record : Record) (opened : Except InstallFault RootPath)
    (store : StateStore) (after : Files comparison) : Prop :=
  ∀ row, store.recordState record.key = some row → row.materialized = true →
    ∃ installed, row.materializedFingerprint = some installed.fingerprint ∧
      record.kind = .file installed.fingerprint.size installed.fingerprint.hash ∧
      Replaced tree after record opened installed

/-- An installation replaces its destination with the content of its record or leaves every entry
as it was. The store is then as it was, or right about the destination. -/
theorem install_atomic
    (apart : ∀ attempt < 16, tree.Leads 0 (parentRelative record.path) 0 →
      around.temporaryPath attempt ≠ fileName record.path) :
    Leaves tree (applyFileFixtureWithHook around rejected store tree record reader now maxLogs).2.2
      record around.opened ((around.installFileWithHook record reader).run ⟨tree, 0⟩).1 ∧
    ((rejected = true ∨ (∃ source, installUpdate store record now maxLogs
          ((around.installFileWithHook record reader).run ⟨tree, 0⟩).1 = .error source) ∨
        ((around.installFileWithHook record reader).run ⟨tree, 0⟩).1 = .error .unstableRoot) →
      (applyFileFixtureWithHook around rejected store tree record reader now maxLogs).2.1 = store) ∧
    ((applyFileFixtureWithHook around rejected store tree record reader now maxLogs).2.1 = store ∨
      RowHolds tree record around.opened
        (applyFileFixtureWithHook around rejected store tree record reader now maxLogs).2.1
        (applyFileFixtureWithHook around rejected store tree record reader now maxLogs).2.2) := by
  have leaves := installFileWithHook_leaves around tree record reader apart
  refine ⟨leaves, ?_, ?_⟩
  · intro held
    refine (recordInstall_store rejected store record now maxLogs _).trans ?_
    rcases held with rfl | ⟨source, fails⟩ | unstable
    · rfl
    · rw [fails, transaction]
      split <;> rfl
    · rw [unstable, transaction]
      split <;> rfl
  · by_cases changed : (recordInstall rejected store record now maxLogs
        ((around.installFileWithHook record reader).run ⟨tree, 0⟩).1).2 = store
    · exact Or.inl changed
    · right
      intro row present materialized
      obtain ⟨installed, outcome, stored⟩ :=
        recordInstall_materialized rejected store record now maxLogs _ changed present materialized
      have replaced : Replaced tree
          ((around.installFileWithHook record reader).run ⟨tree, 0⟩).2.tree record around.opened
          installed := by
        rcases outcome with outcome | outcome <;> rw [outcome] at leaves <;> exact leaves
      obtain ⟨_, file, holds, fingerprint, -⟩ := replaced.destination
      refine ⟨installed, stored, ?_, replaced⟩
      rw [fingerprint]
      exact holds

end

section
attribute [local instance] Blake3.checksum

/-- Every call works, and the root is opened. -/
def working : Surroundings := ⟨fun _ _ => false, .ok "/c", 7, fun _ => 1, 3, id⟩

def skillPath : ProtocolPath := ⟨"SKILL.md", by decide⟩

def skillRecord : Record := .sample skillPath 7 (.fill 1) (.file 1 (Blake3.hash [5]))

/-- The file was edited after it was installed. -/
def editedSkill : Files (.ofKey id) :=
  ⟨[Directory.empty.put "SKILL.md" (.file ⟨[9], 6⟩)], Nat.one_pos⟩

/-- The row of the file counts as materialized. -/
def installedStore : StateStore :=
  { StateStore.empty with
    collections := (∅ : OrderedMap String CollectionState).insert "c"
      ⟨"/c", some "/c", .active, .active⟩
    pathRecords := (∅ : OrderedMap RecordKey PathRecordState).insert skillRecord.key
      ⟨skillRecord, true, some ⟨7, 1, Blake3.hash [5]⟩⟩ }

theorem working_install_atomic :
    ∃ installed, Replaced editedSkill
      (applyFileFixtureWithHook working false installedStore editedSkill skillRecord [.ok [5]] 9
        100).2.2 skillRecord (.ok "/c") installed := by
  have done : ((working.installFileWithHook skillRecord [.ok [5]]).run
      (⟨editedSkill, 0⟩ : CallState (.ofKey id))).1 =
        .ok ⟨skillPath, "/c", ⟨7, 1, Blake3.hash [5]⟩⟩ := by
    decide +kernel
  have apart : ∀ attempt < 16, editedSkill.Leads 0 (parentRelative skillRecord.path) 0 →
      working.temporaryPath attempt ≠ fileName skillRecord.path := by
    intro attempt _ _
    show working.temporaryPath 0 ≠ _
    decide +kernel
  have atomic := (install_atomic working false installedStore editedSkill skillRecord [.ok [5]] 9
    100 apart).1
  rw [done] at atomic
  exact ⟨_, atomic⟩

def loopedPath : ProtocolPath := ⟨"a/a", by decide⟩

def loopedRecord : Record := .sample loopedPath 7 (.fill 1) (.file 1 (Blake3.hash [5]))

/-- The root holds a symlink to itself. -/
def loopedRoot : Files (.ofKey id) := ⟨[Directory.empty.put "a" (.link (some 0))], Nat.one_pos⟩

/-- The record is known and not installed. -/
def loopedStore : StateStore :=
  { StateStore.empty with
    collections := (∅ : OrderedMap String CollectionState).insert "c"
      ⟨"/c", some "/c", .active, .active⟩
    pathRecords := (∅ : OrderedMap RecordKey PathRecordState).insert loopedRecord.key
      ⟨loopedRecord, false, none⟩ }

/-- A record that has the temporary name of its own installation. -/
def temporaryRecord : Record :=
  .sample ⟨".skillsync-tmp-7-1", by decide⟩ 7 (.fill 1) (.file 1 (Blake3.hash [5]))

def temporaryStore : StateStore :=
  { StateStore.empty with
    collections := (∅ : OrderedMap String CollectionState).insert "c"
      ⟨"/c", some "/c", .active, .active⟩
    pathRecords := (∅ : OrderedMap RecordKey PathRecordState).insert temporaryRecord.key
      ⟨temporaryRecord, false, none⟩ }

/-- Its file is in place, and then removed as the temporary file. -/
example :
    let after := applyFileFixtureWithHook working false temporaryStore
      (⟨[Directory.empty], Nat.one_pos⟩ : Files (.ofKey id)) temporaryRecord [.ok [5]] 9 100
    after.1.isOk = true ∧
      (after.2.1.recordState temporaryRecord.key).any (fun row => row.materialized) = true ∧
      after.2.2.get 0 ".skillsync-tmp-7-1" = none := by
  decide +kernel

/-- The stream is too long and the log entry is refused: the row stays materialized although the
destination holds other bytes. Where a path leads through the symlink that it names, the file
replaces the symlink and the path leads nowhere. -/
theorem materialized_without_bytes :
    (installedStore.record skillRecord.key = some skillRecord ∧
      (applyFileFixtureWithHook working true installedStore editedSkill skillRecord [.ok [2, 2]] 9
        100).1 = .error (.state .sqlite) ∧
      ((applyFileFixtureWithHook working true installedStore editedSkill skillRecord [.ok [2, 2]] 9
        100).2.1.recordState skillRecord.key).any (fun row => row.materialized) = true ∧
      (applyFileFixtureWithHook working true installedStore editedSkill skillRecord [.ok [2, 2]] 9
        100).2.2.get 0 "SKILL.md" = some (.file ⟨[9], 6⟩) ∧
      skillRecord.kind ≠ .file 1 (Blake3.hash [9])) ∧
    loopedStore.record loopedRecord.key = some loopedRecord ∧
      ((applyFileFixtureWithHook working false loopedStore loopedRoot loopedRecord [.ok [5]] 9
        100).2.1.recordState loopedRecord.key).any (fun row => row.materialized) = true ∧
      (applyFileFixtureWithHook working false loopedStore loopedRoot loopedRecord [.ok [5]] 9
        100).2.2.resolve 0 (parentRelative loopedPath) = none := by
  refine ⟨⟨?_, ?_, ?_, ?_, ?_⟩, ?_, ?_, ?_⟩ <;> decide +kernel

end

end Skillsync.DirectoryTree
