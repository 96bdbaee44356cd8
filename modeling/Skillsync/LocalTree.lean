import Mathlib.Data.Finset.Insert
import Skillsync.Installer

set_option autoImplicit false

namespace Skillsync

/-- The tree below a collection root: its regular files, and its directories by their
components. -/
structure LocalTree where
  disk : Disk
  directories : Finset (List String)

namespace LocalTree

/-- The regular file with these components. -/
def fileAt (tree : LocalTree) (root : RootPath) (components : List String) :
    Option RegularFile :=
  (ProtocolPath.parse (joinSlash components)).toOption.bind fun path =>
    tree.disk[DiskKey.mk root path]?

/-- `exact_entry_exists`, for the entry with these components. -/
def exactEntryExists (tree : LocalTree) (root : RootPath) (logical : List String) : Bool :=
  (tree.fileAt root logical).isSome || decide (logical ∈ tree.directories)

/-- `ensure_safe_parent`; the directories made before a failure stay. -/
def ensureSafeParent (tree : LocalTree) (root : RootPath) (logical : List String) :
    List String → Except InstallFault Unit × LocalTree
  | [] => (.ok (), tree)
  | component :: rest =>
      let next := logical ++ [component]
      if tree.exactEntryExists root next then
        if next ∈ tree.directories then tree.ensureSafeParent root next rest
        else (.error .unsafeDestination, tree)
      else
        -- no entry has another spelling of the name, so the directory is made
        LocalTree.ensureSafeParent { tree with directories := insert next tree.directories } root
          next rest

/-- `open_existing_safe_parent`; whether the parent exists. -/
def openExistingSafeParent (tree : LocalTree) (root : RootPath) (logical : List String) :
    List String → Except InstallFault Bool
  | [] => .ok true
  | component :: rest =>
      let next := logical ++ [component]
      if tree.exactEntryExists root next then
        if next ∈ tree.directories then tree.openExistingSafeParent root next rest
        else .error .unsafeDestination
      else .ok false

/-- What the tree answers while a tombstone is materialized. -/
def removalEnvironment (tree : LocalTree) (root : RootPath) (path : ProtocolPath) :
    RemovalEnvironment where
  root := .ok root
  parent := tree.openExistingSafeParent root [] path.components.dropLast
  remove := if path.components ∈ tree.directories then .error .io else .ok ()
  sync := .ok ()

/-- The tree after the parent of a path was made. -/
def withParent (tree : LocalTree) (root : RootPath) (path : ProtocolPath) : LocalTree :=
  (tree.ensureSafeParent root [] path.components.dropLast).2

/-- What the tree answers while a file is installed. A rename onto a directory fails. -/
def installEnvironment (tree : LocalTree) (root : RootPath) (path : ProtocolPath)
    (storedNs : I64 → I64) : InstallEnvironment where
  root := .ok root
  parent := (tree.ensureSafeParent root [] path.components.dropLast).1
  fault _ := false
  parentAgain :=
    ((tree.withParent root path).ensureSafeParent root [] path.components.dropLast).1
  rename :=
    if path.components ∈ (tree.withParent root path).directories then .error .io else .ok ()
  storedNs := storedNs

variable {tree : LocalTree} {root : RootPath}

/-- What lies below an entry of a directory lies below the directory. -/
theorem below_entry {logical found : List String} {component : String}
    (above : logical ++ [component] <+: found) : logical <+: found ∧ found ≠ logical := by
  constructor
  · exact (List.prefix_append logical [component]).trans above
  · intro same
    have size := above.length_le
    rw [same, List.length_append, List.length_singleton] at size
    omega

/-- The ancestors of a path are above it. -/
theorem above_path {path : ProtocolPath} {found : List String}
    (above : found <+: path.components.dropLast) :
    found <+: path.components ∧ found ≠ path.components := by
  constructor
  · exact above.trans (List.dropLast_prefix path.components)
  · intro same
    have size := above.length_le
    have present := List.length_pos_of_ne_nil path.components_ne_nil
    rw [same, List.length_dropLast] at size
    omega

theorem fileAt_components (tree : LocalTree) (root : RootPath) (path : ProtocolPath) :
    tree.fileAt root path.components = tree.disk[DiskKey.mk root path]? := by
  unfold fileAt
  rw [ProtocolPath.joinSlash_components, ProtocolPath.parse_text]
  rfl

/-- A file has the components of its path. -/
theorem path_of_fileAt {components : List String} (present : (tree.fileAt root components).isSome)
    (nonempty : components ≠ []) (plain : ∀ component ∈ components, Plain component) :
    ∃ path : ProtocolPath, path.components = components ∧
      (tree.disk[DiskKey.mk root path]?).isSome := by
  have valid := validate_joinSlash nonempty plain
  have split : (ProtocolPath.mk (joinSlash components) valid).components = components :=
    splitSlash_joinSlash nonempty plain
  rw [← split, fileAt_components] at present
  exact ⟨⟨joinSlash components, valid⟩, split, present⟩

theorem ensureSafeParent_disk (tree : LocalTree) (root : RootPath) (logical parent : List String) :
    (tree.ensureSafeParent root logical parent).2.disk = tree.disk := by
  induction parent generalizing tree logical with
  | nil => rfl
  | cons component rest ih =>
      unfold ensureSafeParent
      dsimp only
      split
      · split
        · exact ih tree _
        · rfl
      · exact ih _ _

theorem ensureSafeParent_keeps (tree : LocalTree) (root : RootPath)
    (logical parent : List String) :
    tree.directories ⊆ (tree.ensureSafeParent root logical parent).2.directories := by
  induction parent generalizing tree logical with
  | nil => exact Finset.Subset.refl _
  | cons component rest ih =>
      unfold ensureSafeParent
      dsimp only
      split
      · split
        · exact ih tree _
        · exact Finset.Subset.refl _
      · apply Finset.Subset.trans (Finset.subset_insert (logical ++ [component]) tree.directories)
        exact ih { tree with directories := insert (logical ++ [component]) tree.directories } _

/-- Only ancestors of the path are made. -/
theorem of_mem_ensureSafeParent {logical parent directory : List String}
    (made : directory ∈ (tree.ensureSafeParent root logical parent).2.directories) :
    directory ∈ tree.directories ∨
      (logical <+: directory ∧ directory ≠ logical ∧ directory <+: logical ++ parent) := by
  induction parent generalizing tree logical with
  | nil => exact Or.inl made
  | cons component rest ih =>
      have joined : logical ++ component :: rest = logical ++ [component] ++ rest := by simp
      rw [joined]
      unfold ensureSafeParent at made
      dsimp only at made
      split at made
      · split at made
        · rcases ih made with old | ⟨above, -, below⟩
          · exact Or.inl old
          · exact Or.inr ⟨(below_entry above).1, (below_entry above).2, below⟩
        · exact Or.inl made
      · rcases ih made with old | ⟨above, -, below⟩
        · rcases Finset.mem_insert.mp old with rfl | older
          · have self := List.prefix_refl (logical ++ [component])
            exact Or.inr ⟨(below_entry self).1, (below_entry self).2, List.prefix_append _ _⟩
          · exact Or.inl older
        · exact Or.inr ⟨(below_entry above).1, (below_entry above).2, below⟩

/-- The parent can be made where no ancestor is a file. -/
theorem ensureSafeParent_ok {logical parent : List String}
    (clear : ∀ found, logical <+: found → found ≠ logical → found <+: logical ++ parent →
      (tree.fileAt root found).isSome = false) :
    (tree.ensureSafeParent root logical parent).1 = .ok () := by
  induction parent generalizing tree logical with
  | nil => rfl
  | cons component rest ih =>
      have joined : logical ++ component :: rest = logical ++ [component] ++ rest := by simp
      have self : logical ++ [component] ≠ logical := by simp
      rw [joined] at clear
      have free := clear (logical ++ [component]) (List.prefix_append _ _) self
        (List.prefix_append _ _)
      have later : ∀ found, logical ++ [component] <+: found →
          found ≠ logical ++ [component] → found <+: logical ++ [component] ++ rest →
          (tree.fileAt root found).isSome = false := by
        intro found above _ below
        exact clear found (below_entry above).1 (below_entry above).2 below
      unfold ensureSafeParent
      dsimp only
      split
      · rename_i present
        have directory : logical ++ [component] ∈ tree.directories := by
          simpa [exactEntryExists, free] using present
        rw [if_pos directory]
        exact ih later
      · exact ih later

/-- The parent of a file is there. -/
theorem openExistingSafeParent_ok {logical parent : List String}
    (present : ∀ found, logical <+: found → found ≠ logical → found <+: logical ++ parent →
      found ∈ tree.directories) :
    tree.openExistingSafeParent root logical parent = .ok true := by
  induction parent generalizing logical with
  | nil => rfl
  | cons component rest ih =>
      have joined : logical ++ component :: rest = logical ++ [component] ++ rest := by simp
      have self : logical ++ [component] ≠ logical := by simp
      rw [joined] at present
      have directory := present (logical ++ [component]) (List.prefix_append _ _) self
        (List.prefix_append _ _)
      have exists_ : tree.exactEntryExists root (logical ++ [component]) = true := by
        simp [exactEntryExists, directory]
      unfold openExistingSafeParent
      dsimp only
      rw [if_pos exists_, if_pos directory]
      apply ih
      intro found above _ below
      exact present found (below_entry above).1 (below_entry above).2 below

end LocalTree

end Skillsync
