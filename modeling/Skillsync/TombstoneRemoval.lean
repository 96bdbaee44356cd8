import Skillsync.DirectoryTreeSpec
import Skillsync.StateSpec

set_option autoImplicit false

namespace Skillsync.DirectoryTree

open Effects FileTree

variable {comparison : Comparison String} {α : Type} {faults : Faults}

section
variable {tree : Files comparison}

theorem openExistingSafeParentIn_readOnly (relative : List String) :
    ∀ current logical,
      ReadOnly tree (openExistingSafeParentIn faults current logical relative) := by
  induction relative with
  | nil => exact fun current logical => .pure _
  | cons component rest ih =>
      intro current logical
      apply ReadOnly.bind (.observe _ _ _)
      intro present
      cases present with
      | true => exact ReadOnly.bind (.observe _ _ _) fun next => ih next _
      | false => exact .pure none

end

/-- The calls that open a parent directory succeed. -/
def Opens (faults : Faults) (n : Nat) (relative : List String) : Prop :=
  ∀ i < relative.length,
    faults .readDirectory (n + 2 * i) = false ∧ faults .openDirectory (n + 2 * i + 1) = false

theorem opens_cons {n : Nat} {component : String} {rest : List String} :
    Opens faults n (component :: rest) ↔
      (faults .readDirectory n = false ∧ faults .openDirectory (n + 1) = false) ∧
        Opens faults (n + 2) rest := by
  constructor
  · intro opens
    refine ⟨opens 0 (by simp), fun i inside => ?_⟩
    have later := opens (i + 1) (by simpa using inside)
    rw [show n + 2 * (i + 1) = n + 2 + 2 * i by omega] at later
    exact later
  · rintro ⟨first, later⟩ i inside
    cases i with
    | zero => exact first
    | succ i =>
        rw [show n + 2 * (i + 1) = n + 2 + 2 * i by omega]
        exact later i (by simpa using inside)

section parents
variable {tree : Files comparison}

/-- Exactly when and where the loop finds the parent directory. -/
theorem openExistingSafeParentIn_eq_some {relative : List String} {parent : Nat}
    {after : CallState comparison} {current n : Nat} {logical : List String}
    (leads : tree.Leads 0 logical current) :
    (openExistingSafeParentIn faults current logical relative).run ⟨tree, n⟩ =
        (.ok (some parent), after) ↔
      tree.Leads current relative parent ∧ Opens faults n relative ∧
        after = ⟨tree, n + 2 * relative.length⟩ := by
  induction relative generalizing current n logical after with
  | nil =>
      constructor
      · intro done
        cases done
        exact ⟨.here _, fun i inside => absurd inside (Nat.not_lt_zero i), rfl⟩
      · rintro ⟨reached, -, rfl⟩
        cases reached
        rfl
  | cons component rest ih =>
      rw [Tree.leads_cons, opens_cons]
      unfold openExistingSafeParentIn
      constructor
      · intro done
        obtain ⟨present, middle, reads, done⟩ := bind_eq_ok done
        obtain ⟨readable, found, rfl⟩ := observe_eq_ok reads
        cases Option.some.inj found
        cases exact_ : tree.get current component with
        | none =>
            rw [exact_] at done
            cases done
        | some entry =>
            rw [exact_] at done
            obtain ⟨next, opened, opens, done⟩ := bind_eq_ok done
            obtain ⟨openable, resolved, rfl⟩ := observe_eq_ok opens
            rw [resolve_next leads] at resolved
            obtain ⟨target, listed⟩ := (Tree.enter_eq_some exact_).mp resolved
            have further : tree.Leads 0 (logical ++ [component]) next :=
              leads.append (.through _ _ _ _ _ entry exact_ target listed (.here next))
            obtain ⟨reached, later, rfl⟩ := (ih further).mp done
            refine ⟨⟨entry, next, rfl, resolved, reached⟩, ⟨⟨readable, openable⟩, later⟩, ?_⟩
            rw [List.length_cons, show n + 1 + 1 + 2 * rest.length =
              n + 2 * (rest.length + 1) by omega]
      · rintro ⟨⟨entry, next, present, enters, reached⟩, ⟨⟨readable, openable⟩, later⟩, rfl⟩
        obtain ⟨target, listed⟩ := (Tree.enter_eq_some present).mp enters
        have further : tree.Leads 0 (logical ++ [component]) next :=
          leads.append (.through _ _ _ _ _ entry present target listed (.here next))
        have reads : (exactEntryExists faults current component).run ⟨tree, n⟩ =
            (.ok true, ⟨tree, n + 1⟩) := by
          apply observe_ok readable
          rw [present]
          rfl
        have opens : (openDir faults 0 (logical ++ [component]) .unsafeDestination).run
            ⟨tree, n + 1⟩ = (.ok next, ⟨tree, n + 2⟩) := by
          apply observe_ok openable
          rw [resolve_next leads, enters]
        have found := (ih further).mpr ⟨reached, later, rfl⟩
        rw [bind_ok reads, if_pos rfl, bind_ok opens, found, List.length_cons,
          show n + 2 + 2 * rest.length = n + 2 * (rest.length + 1) by omega]

theorem openExistingSafeParent_eq_some {relative : List String} {parent : Nat}
    {after : CallState comparison} :
    (openExistingSafeParent faults relative).run ⟨tree, 0⟩ = (.ok (some parent), after) ↔
      faults .clone 0 = false ∧ tree.Leads 0 relative parent ∧ Opens faults 1 relative ∧
        after = ⟨tree, 1 + 2 * relative.length⟩ := by
  unfold openExistingSafeParent
  constructor
  · intro done
    obtain ⟨_, middle, cloned, done⟩ := bind_eq_ok done
    obtain ⟨works, -, rfl⟩ := observe_eq_ok cloned
    exact ⟨works, (openExistingSafeParentIn_eq_some (.here 0)).mp done⟩
  · rintro ⟨works, found⟩
    have cloned : (observe faults .clone .io fun _ => some ()).run ⟨tree, 0⟩ =
        (.ok (), ⟨tree, 1⟩) := observe_ok works rfl
    rw [bind_ok cloned]
    exact (openExistingSafeParentIn_eq_some (.here 0)).mpr found

theorem openExistingSafeParent_readOnly (relative : List String) :
    ReadOnly tree (openExistingSafeParent faults relative) :=
  ReadOnly.bind (.observe _ _ _) fun _ => openExistingSafeParentIn_readOnly relative 0 []

end parents

/-- The calls up to a removal succeed, and it finds an entry that is no directory. -/
structure Removes (faults : Faults) (tree : Files comparison)
    (opened : Except InstallFault RootPath) (record : Record) (parent : Nat) (name : String)
    (entry : Entry RegularFile) : Prop where
  kind : record.kind = .tombstone
  root : ∃ root, opened = .ok root
  leads : tree.Leads 0 (parentRelative record.path) parent
  taken : tree.lookup parent (fileName record.path) = some (name, entry)
  removable : entry.isDirectory = false
  cloned : faults .clone 0 = false
  opens : Opens faults 1 (parentRelative record.path)
  removed : faults .remove (1 + 2 * (parentRelative record.path).length) = false

section removal
variable {tree : Files comparison} {opened : Except InstallFault RootPath} {record : Record}
  {parent : Nat} {name : String} {entry : Entry RegularFile}

theorem Removes.erases (removes : Removes faults tree opened record parent name entry) :
    ((removeTombstone faults opened record).run ⟨tree, 0⟩).2.tree =
      tree.erase parent (fileName record.path) := by
  obtain ⟨root, opensRoot⟩ := removes.root
  have found := openExistingSafeParent_eq_some.mpr
    ⟨removes.cloned, removes.leads, removes.opens, rfl⟩
  have erased : (removeFile faults parent (fileName record.path)).run
      ⟨tree, 1 + 2 * (parentRelative record.path).length⟩ =
      (.ok true, ⟨tree.erase parent (fileName record.path),
        1 + 2 * (parentRelative record.path).length + 1⟩) := by
    apply call_ok removes.removed
    rw [removes.taken]
    simp [removes.removable]
  simp only [removeTombstone, removes.kind, opensRoot]
  rw [bind_ok found, bind_ok erased, if_pos rfl]
  exact (ReadOnly.observe _ _ _).run_tree _

/-- A tombstone that removes nothing leaves the tree as it is. -/
theorem removeTombstone_cases (faults : Faults) (tree : Files comparison)
    (opened : Except InstallFault RootPath) (record : Record) :
    ((removeTombstone faults opened record).run ⟨tree, 0⟩).2.tree = tree ∨
      ∃ parent name entry, Removes faults tree opened record parent name entry := by
  unfold removeTombstone
  split
  · exact Or.inl rfl
  · exact Or.inl rfl
  · rename_i root kind
    cases found : (openExistingSafeParent faults (parentRelative record.path)).run ⟨tree, 0⟩ with
    | mk result middle =>
        cases result with
        | error reason =>
            rw [bind_error found]
            exact Or.inl ((openExistingSafeParent_readOnly _).error rfl found)
        | ok place =>
            rw [bind_ok found]
            have unchanged : middle.tree = tree := (openExistingSafeParent_readOnly _).ok rfl found
            cases place with
            | none => exact Or.inl unchanged
            | some parent =>
                obtain ⟨cloned, leads, opens, rfl⟩ := openExistingSafeParent_eq_some.mp found
                dsimp only
                cases erased : (removeFile faults parent (fileName record.path)).run
                    ⟨tree, 1 + 2 * (parentRelative record.path).length⟩ with
                | mk answer after =>
                    cases answer with
                    | error reason =>
                        rw [bind_error erased]
                        exact Or.inl (call_error erased).2
                    | ok answer =>
                        rw [bind_ok erased]
                        obtain ⟨works, acts, -⟩ := call_eq_ok erased
                        cases taken : tree.lookup parent (fileName record.path) with
                        | none =>
                            rw [taken] at acts
                            cases acts
                            exact Or.inl rfl
                        | some stored =>
                            obtain ⟨name, entry⟩ := stored
                            rw [taken] at acts
                            dsimp only at acts
                            split at acts
                            · cases acts
                            · rename_i removable
                              exact Or.inr ⟨parent, name, entry, kind, ⟨root, rfl⟩, leads, taken,
                                Bool.eq_false_iff.mpr removable, cloned, opens, works⟩

/-- Only the entry that a path names may go. -/
structure RemovesNamed (tree after : Files comparison) (path : ProtocolPath) : Prop where
  kept : ∀ identity name entry, tree.get identity name = some entry →
    name = fileName path ∧ tree.Leads 0 (parentRelative path) identity ∨
      after.get identity name = some entry
  known : ∀ identity name entry, after.get identity name = some entry →
    tree.get identity name = some entry

theorem RemovesNamed.refl (tree : Files comparison) (path : ProtocolPath) :
    RemovesNamed tree tree path := ⟨fun _ _ _ => Or.inr, fun _ _ _ => id⟩

/-- The entry that was found has the name of the path, or it should have stayed. -/
theorem Removes.named_iff (removes : Removes faults tree opened record parent name entry) :
    RemovesNamed tree (tree.erase parent (fileName record.path)) record.path ↔
      name = fileName record.path := by
  have stored : tree.get parent name = some entry := Tree.get_of_lookup removes.taken
  have same : comparison.same name (fileName record.path) = true :=
    Tree.same_of_lookup removes.taken
  constructor
  · intro named
    rcases named.kept parent name entry stored with ⟨here, -⟩ | kept
    · exact here
    · rw [Tree.get_erase, if_pos ⟨rfl, same⟩] at kept
      cases kept
  · intro here
    subst here
    refine ⟨fun identity other found present => ?_, fun identity other found present => ?_⟩
    · rw [Tree.get_erase]
      by_cases gone : identity = parent ∧ comparison.same other (fileName record.path) = true
      · obtain ⟨rfl, equal⟩ := gone
        refine Or.inl ⟨?_, removes.leads⟩
        have looked := Tree.lookup_of_same present equal
        rw [removes.taken] at looked
        exact congrArg Prod.fst (Option.some.inj looked).symm
      · rw [if_neg gone]
        exact Or.inr present
    · rw [Tree.get_erase] at present
      split at present
      · cases present
      · exact present

end removal

section
variable (faults : Faults) (store : StateStore) (tree : Files comparison)
  (opened : Except InstallFault RootPath) (record : Record) (now : I64) (maxLogs : Nat)

/-- The tree after a tombstone is the one its removal leaves. -/
theorem materializeTombstone_tree :
    (materializeTombstone faults store tree opened record now maxLogs).2.2 =
      ((removeTombstone faults opened record).run ⟨tree, 0⟩).2.tree := by
  unfold materializeTombstone
  split
  · rename_i outcome
    rw [outcome]
  · rename_i outcome
    split <;> rw [outcome]

/-- A success marks the tombstone as materialized. -/
theorem materializeTombstone_marks
    (done : (materializeTombstone faults store tree opened record now maxLogs).1 = .ok ()) :
    ∃ row, (materializeTombstone faults store tree opened record now maxLogs).2.1.recordState
        record.key = some row ∧ row.record.kind = .tombstone ∧ row.materialized = true := by
  unfold materializeTombstone at done ⊢
  split
  · rename_i outcome
    rw [outcome] at done
    cases done
  · rename_i outcome
    rw [outcome] at done
    split
    · rename_i marked
      obtain ⟨row, -, kind, -, rows⟩ := StateStore.markTombstoneMaterializedAndLog_ok marked
      exact ⟨_, (rows record.key).trans (if_pos rfl), kind, rfl⟩
    · rename_i failed
      simp only [failed] at done
      cases done

/-- A tombstone removes at most the entry it names and is marked on success, unless the filesystem
takes a file or a link with another name for that entry. -/
theorem tombstone_removes_named :
    (RemovesNamed tree (materializeTombstone faults store tree opened record now maxLogs).2.2
        record.path ∧
      ((materializeTombstone faults store tree opened record now maxLogs).1 = .ok () →
        ∃ row, (materializeTombstone faults store tree opened record now maxLogs).2.1.recordState
          record.key = some row ∧ row.record.kind = .tombstone ∧ row.materialized = true)) ↔
      ∀ parent name entry, Removes faults tree opened record parent name entry →
        name = fileName record.path := by
  rw [materializeTombstone_tree]
  constructor
  · intro holds parent name entry removes
    rw [removes.erases] at holds
    exact removes.named_iff.mp holds.1
  · intro exact_
    refine ⟨?_, materializeTombstone_marks faults store tree opened record now maxLogs⟩
    rcases removeTombstone_cases faults tree opened record with
      same | ⟨parent, name, entry, removes⟩
    · rw [same]
      exact .refl tree record.path
    · rw [removes.erases]
      exact removes.named_iff.mpr (exact_ parent name entry removes)

/-- Where different names are different entries, a tombstone removes only its own. -/
theorem tombstone_case_sensitive
    (sensitive : ∀ a b, comparison.same a b = true → a = b) :
    RemovesNamed tree (materializeTombstone faults store tree opened record now maxLogs).2.2
      record.path := by
  refine ((tombstone_removes_named faults store tree opened record now maxLogs).mpr ?_).1
  intro parent name entry removes
  exact sensitive _ _ (Tree.same_of_lookup removes.taken)

end

/-- Names that differ in the case of ASCII letters are the same. -/
def caseInsensitive : Comparison String := .ofKey fun name => name.toList.map Char.toLower

theorem validate_upperSkill : validate "SKILL.md" = .ok () := by decide

def upperSkill : ProtocolPath := ⟨"SKILL.md", validate_upperSkill⟩

/-- The tombstone of a file that was renamed to lower case. -/
def upperTombstone : Record := .sample upperSkill 7 (.fill 1) .tombstone

/-- The root holds the renamed file. -/
def renamedSkill : Files caseInsensitive :=
  ⟨[Directory.empty.put "skill.md" (.file ⟨[1], 6⟩)], Nat.one_pos⟩

/-- The tombstone is known and not applied. -/
def tombstoneStore : StateStore :=
  { StateStore.empty with
    collections := (∅ : OrderedMap String CollectionState).insert "c"
      ⟨"/c", some "/c", .active, .active⟩
    pathRecords := (∅ : OrderedMap RecordKey PathRecordState).insert ⟨"c", upperSkill⟩
      ⟨upperTombstone, false, none⟩ }

/-- The live file is removed, and the tombstone counts as applied. -/
theorem renamed_file_removed :
    (materializeTombstone (fun _ _ => false) tombstoneStore renamedSkill (.ok "/c") upperTombstone
      9 100).1 = .ok () ∧
    ¬ RemovesNamed renamedSkill (materializeTombstone (fun _ _ => false) tombstoneStore
      renamedSkill (.ok "/c") upperTombstone 9 100).2.2 upperTombstone.path := by
  refine ⟨by decide +kernel, fun named => ?_⟩
  have stored : renamedSkill.get 0 "skill.md" = some (.file ⟨[1], 6⟩) := by decide +kernel
  rcases named.kept 0 "skill.md" _ stored with ⟨here, -⟩ | kept
  · revert here
    decide +kernel
  · revert kept
    decide +kernel

end Skillsync.DirectoryTree
