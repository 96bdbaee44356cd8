import Skillsync.DirectoryTreeSpec
import Skillsync.LocalTree

set_option autoImplicit false

namespace Skillsync.DirectoryTree

open Effects FileTree

variable {comparison : Comparison String}

/-- What stands at a place of a directory tree is what a local tree has there. -/
def Agrees (files : LocalTree) (root : RootPath) (components : List String) :
    Option (Entry RegularFile) → Prop
  | none => files.fileAt root components = none ∧ components ∉ files.directories
  | some (.file file) =>
      files.fileAt root components = some file ∧ components ∉ files.directories
  | some (.directory _) =>
      files.fileAt root components = none ∧ components ∈ files.directories
  | some _ => False

/-- A local tree below a root, as the directories of a filesystem that keeps names apart. -/
structure Mirrors (tree : Files comparison) (files : LocalTree) (root : RootPath) : Prop where
  exact : ∀ {a b}, comparison.same a b = true → a = b
  closed : ∀ {identity name entry next}, tree.get identity name = some entry →
    entry.leads = some next → next < tree.directories.length
  /-- No directory is reached by two paths. -/
  apart : ∀ {first second identity}, tree.Leads 0 first identity →
    tree.Leads 0 second identity → first = second
  agrees : ∀ {logical identity}, tree.Leads 0 logical identity → ∀ name,
    Agrees files root (logical ++ [name]) (tree.get identity name)
  beyond : ∀ {logical}, (∀ identity, ¬ tree.Leads 0 logical identity) → ∀ name,
    Agrees files root (logical ++ [name]) none

/-- A directory that is made is the only new place. -/
theorem Agrees.insert {files : LocalTree} {root : RootPath} {components place : List String}
    {found : Option (Entry RegularFile)} (agrees : Agrees files root components found)
    (differs : components ≠ place) :
    Agrees { files with directories := insert place files.directories } root components found := by
  have still : components ∈ Insert.insert place files.directories ↔
      components ∈ files.directories := by
    simp [Finset.mem_insert, differs]
  cases found with
  | none => exact ⟨agrees.1, fun member => agrees.2 (still.mp member)⟩
  | some entry =>
      cases entry with
      | file file => exact ⟨agrees.1, fun member => agrees.2 (still.mp member)⟩
      | directory => exact ⟨agrees.1, still.mpr agrees.2⟩
      | link => exact agrees.elim
      | other => exact agrees.elim

theorem mirrors_empty {Key : Type} [DecidableEq Key] (key : String → Key)
    (injective : Function.Injective key) (root : RootPath) :
    Mirrors (⟨[.empty], Nat.one_pos⟩ : Files (.ofKey key)) ⟨∅, ∅⟩ root := by
  have bare : ∀ identity name,
      (⟨[.empty], Nat.one_pos⟩ : Files (.ofKey key)).get identity name = none := by
    intro identity name
    cases identity <;> rfl
  have nothing : ∀ components, Agrees ⟨∅, ∅⟩ root components none := by
    intro components
    refine ⟨?_, Finset.notMem_empty _⟩
    unfold LocalTree.fileAt
    cases (ProtocolPath.parse (joinSlash components)).toOption with
    | none => rfl
    | some path => simp
  constructor
  · exact fun same => injective (of_decide_eq_true same)
  · intro identity name entry next present
    rw [bare] at present
    cases present
  · intro first second identity one two
    cases one with
    | here =>
        cases two with
        | here => rfl
        | through _ _ _ _ _ _ present =>
            rw [bare] at present
            cases present
    | through _ _ _ _ _ _ present =>
        rw [bare] at present
        cases present
  · intro logical identity _ name
    rw [bare]
    exact nothing _
  · exact fun _ _ => nothing _

/-- No call fails of itself. -/
def faultless : Faults := fun _ _ => false

section faultless
variable (tree : Files comparison) (n current : Nat) (component : String)

theorem exactEntryExists_run :
    (exactEntryExists faultless current component).run ⟨tree, n⟩ =
      (.ok (tree.get current component).isSome, ⟨tree, n + 1⟩) := observe_ok rfl rfl

theorem symlinkMetadata_run :
    (symlinkMetadata faultless current component).run ⟨tree, n⟩ =
      (.ok (tree.lookup current component).isSome, ⟨tree, n + 1⟩) := observe_ok rfl rfl

theorem syncDir_run : (syncDir faultless).run ⟨tree, n⟩ = (.ok (), ⟨tree, n + 1⟩) :=
  observe_ok rfl rfl

theorem clone_run : (observe faultless .clone .io fun _ => some ()).run ⟨tree, n⟩ =
    (.ok (), ⟨tree, n + 1⟩) := observe_ok rfl rfl

theorem hook_run (stage : InstallStage) :
    (hook faultless stage).run ⟨tree, n⟩ = (.ok (), ⟨tree, n + 1⟩) := observe_ok rfl rfl

variable {tree n current component} {relative : List String} {reason : InstallError}

theorem openDir_run {next : Nat} (opens : tree.resolve current relative = some next) :
    (openDir faultless current relative reason).run ⟨tree, n⟩ = (.ok next, ⟨tree, n + 1⟩) :=
  observe_ok rfl opens

theorem openDir_run_error (escapes : tree.resolve current relative = none) :
    (openDir faultless current relative reason).run ⟨tree, n⟩ =
      (.error reason, ⟨tree, n + 1⟩) := by
  simp [openDir, observe, call, faultless, escapes]

theorem createDir_run (absent : tree.lookup current component = none) :
    (createDir faultless current component).run ⟨tree, n⟩ =
      (.ok (), ⟨tree.addDirectory current component, n + 1⟩) := by
  apply call_ok rfl
  rw [absent]
  rfl

end faultless

namespace Mirrors

variable {tree : Files comparison} {files : LocalTree} {root : RootPath} {logical : List String}
  {current : Nat} {component : String}

theorem lookup_eq_none (mirrors : Mirrors tree files root)
    (absent : tree.get current component = none) : tree.lookup current component = none := by
  cases looked : tree.lookup current component with
  | none => rfl
  | some found =>
      obtain ⟨name, entry⟩ := found
      have same := mirrors.exact (Tree.same_of_lookup looked)
      rw [same] at looked
      rw [Tree.get_of_lookup looked] at absent
      cases absent

theorem exactEntryExists (mirrors : Mirrors tree files root)
    (leads : tree.Leads 0 logical current) (component : String) :
    files.exactEntryExists root (logical ++ [component]) =
      (tree.get current component).isSome := by
  have agrees := mirrors.agrees leads component
  unfold LocalTree.exactEntryExists
  cases found : tree.get current component with
  | none =>
      rw [found] at agrees
      simp [agrees.1, agrees.2]
  | some entry =>
      rw [found] at agrees
      cases entry with
      | file file => simp [agrees.1]
      | directory => simp [agrees.2]
      | link => exact agrees.elim
      | other => exact agrees.elim

/-- A path is opened where a directory stands. -/
theorem resolve (mirrors : Mirrors tree files root) (leads : tree.Leads 0 logical current)
    {entry : Entry RegularFile} (present : tree.get current component = some entry) :
    (∃ next, logical ++ [component] ∈ files.directories ∧
        tree.resolve 0 (logical ++ [component]) = some next ∧
        tree.Leads 0 (logical ++ [component]) next) ∨
      (logical ++ [component] ∉ files.directories ∧
        tree.resolve 0 (logical ++ [component]) = none) := by
  have agrees := mirrors.agrees leads component
  rw [present] at agrees
  rw [resolve_next leads]
  cases entry with
  | file file =>
      refine Or.inr ⟨agrees.2, ?_⟩
      rw [Tree.enter, Tree.lookup_of_get present]
      rfl
  | directory next =>
      have listed := mirrors.closed present rfl
      refine Or.inl ⟨next, agrees.2, (Tree.enter_eq_some present).mpr ⟨rfl, listed⟩, ?_⟩
      exact leads.append (.through _ _ _ _ _ _ present rfl listed (.here next))
  | link => exact agrees.elim
  | other => exact agrees.elim

/-- The loop of `open_existing_safe_parent` comes to the same result in both trees. -/
theorem openExistingSafeParentIn (mirrors : Mirrors tree files root) {rest : List String}
    (leads : tree.Leads 0 logical current) (n : Nat) :
    ∃ found calls,
      (DirectoryTree.openExistingSafeParentIn faultless current logical rest).run ⟨tree, n⟩ =
        (found, ⟨tree, calls⟩) ∧
      found.map Option.isSome = answer (files.openExistingSafeParent root logical rest) := by
  induction rest generalizing current logical n with
  | nil => exact ⟨.ok (some current), n, rfl, rfl⟩
  | cons component rest ih =>
      unfold DirectoryTree.openExistingSafeParentIn LocalTree.openExistingSafeParent
      dsimp only
      rw [mirrors.exactEntryExists leads component, bind_ok (exactEntryExists_run ..)]
      cases present : tree.get current component with
      | none => exact ⟨.ok none, n + 1, rfl, rfl⟩
      | some entry =>
          simp only [Option.isSome_some, if_true]
          rcases mirrors.resolve leads present with ⟨next, member, opens, further⟩ |
            ⟨outside, escapes⟩
          · rw [if_pos member, bind_ok (openDir_run opens)]
            exact ih further (n + 2)
          · rw [if_neg outside]
            exact ⟨.error .unsafeDestination, n + 2, bind_error (openDir_run_error escapes), rfl⟩

/-- `open_existing_safe_parent` finds the same parent in both trees. -/
theorem openExistingSafeParent (mirrors : Mirrors tree files root) (relative : List String) :
    ∃ found calls,
      (DirectoryTree.openExistingSafeParent faultless relative).run ⟨tree, 0⟩ =
        (found, ⟨tree, calls⟩) ∧
      found.map Option.isSome = answer (files.openExistingSafeParent root [] relative) := by
  unfold DirectoryTree.openExistingSafeParent
  rw [bind_ok (clone_run tree 0)]
  exact mirrors.openExistingSafeParentIn (.here 0) 1

/-- A directory that both trees lack is made in both. -/
theorem addDirectory (mirrors : Mirrors tree files root) (leads : tree.Leads 0 logical current)
    (absent : tree.get current component = none) :
    Mirrors (tree.addDirectory current component)
      { files with directories := insert (logical ++ [component]) files.directories } root := by
  have free := mirrors.lookup_eq_none absent
  have listed := leads.listed tree.rooted
  have lacks := mirrors.agrees leads component
  rw [absent] at lacks
  have unmade : ∀ identity, ¬ tree.Leads 0 (logical ++ [component]) identity := by
    intro identity path
    have opens := path.resolve
    rw [resolve_next leads, Tree.enter, free] at opens
    cases opens
  have grown := Tree.Grows.made tree _ current component [] listed free (.stop _ _ _)
  have reached : ∀ {names last}, (tree.addDirectory current component).Leads 0 names last →
      (tree.Leads 0 names last ∧ last < tree.directories.length) ∨
        (names = logical ++ [component] ∧ last = tree.directories.length) := by
    intro names last path
    rcases path.of_addDirectory listed free mirrors.closed with old | ⟨front, rfl, old, new⟩
    · exact Or.inl ⟨old, old.listed tree.rooted⟩
    · exact Or.inr ⟨by rw [mirrors.apart old leads], new⟩
  constructor
  · exact mirrors.exact
  · intro identity name entry next present target
    rw [Tree.get_addDirectory listed free] at present
    rw [Tree.length_addDirectory]
    split at present
    · cases present
      cases target
      omega
    · have := mirrors.closed present target
      omega
  · intro first second identity one two
    rcases reached one with ⟨oldOne, inside⟩ | ⟨rfl, new⟩
    · rcases reached two with ⟨oldTwo, -⟩ | ⟨-, new⟩
      · exact mirrors.apart oldOne oldTwo
      · omega
    · rcases reached two with ⟨-, inside⟩ | ⟨rfl, -⟩
      · omega
      · rfl
  · intro names identity path name
    rcases reached path with ⟨old, inside⟩ | ⟨rfl, rfl⟩
    · rw [Tree.get_addDirectory listed free]
      split
      · rename_i same
        obtain ⟨rfl, rfl⟩ := same
        rw [mirrors.apart old leads]
        exact ⟨lacks.1, Finset.mem_insert_self _ _⟩
      · rename_i other
        apply (mirrors.agrees old name).insert
        intro same
        obtain ⟨rfl, final⟩ := List.append_inj' same rfl
        exact other ⟨old.unique leads, List.singleton_inj.mp final⟩
    · rw [Tree.get_addDirectory_new listed free]
      apply (mirrors.beyond unmade name).insert
      simp
  · intro names unreached name
    have old : ∀ identity, ¬ tree.Leads 0 names identity := fun identity path =>
      unreached identity (path.mono grown.kept grown.size)
    apply (mirrors.beyond old name).insert
    intro same
    obtain ⟨rfl, -⟩ := List.append_inj' same rfl
    exact old current leads

/-- The loop of `ensure_safe_parent` makes the same directories in both trees. -/
theorem ensureSafeParentIn (mirrors : Mirrors tree files root) {rest : List String}
    (leads : tree.Leads 0 logical current) (n : Nat) :
    ∃ after calls,
      (DirectoryTree.ensureSafeParentIn faultless current logical rest).run ⟨tree, n⟩ =
        (answer (files.ensureSafeParent root logical rest).1, ⟨after, calls⟩) ∧
      Mirrors after (files.ensureSafeParent root logical rest).2 root := by
  induction rest generalizing tree files current logical n with
  | nil => exact ⟨tree, n, rfl, mirrors⟩
  | cons component rest ih =>
      unfold DirectoryTree.ensureSafeParentIn LocalTree.ensureSafeParent
      dsimp only
      rw [mirrors.exactEntryExists leads component, bind_ok (exactEntryExists_run ..)]
      cases present : tree.get current component with
      | none =>
          have free := mirrors.lookup_eq_none present
          have listed := leads.listed tree.rooted
          have made := mirrors.addDirectory leads present
          have grown := Tree.Grows.made tree _ current component [] listed free (.stop _ _ _)
          have created := Tree.leads_addDirectory listed free
          have further := (leads.mono grown.kept grown.size).append created
          simp only [Option.isSome_none, Bool.false_eq_true, if_false]
          rw [bind_ok (symlinkMetadata_run ..), free]
          simp only [Option.isSome_none, Bool.false_eq_true, if_false]
          rw [bind_ok (createDir_run free), bind_ok (openDir_run created.resolve),
            bind_ok (hook_run ..), bind_ok (syncDir_run ..), bind_ok (syncDir_run ..)]
          exact ih made further (n + 7)
      | some entry =>
          simp only [Option.isSome_some, if_true]
          rcases mirrors.resolve leads present with ⟨next, member, opens, further⟩ |
            ⟨outside, escapes⟩
          · rw [if_pos member, bind_ok (openDir_run opens)]
            exact ih mirrors further (n + 2)
          · rw [if_neg outside]
            exact ⟨tree, n + 2, bind_error (openDir_run_error escapes), mirrors⟩

/-- `ensure_safe_parent` makes the same directories in both trees. -/
theorem ensureSafeParent (mirrors : Mirrors tree files root) (relative : List String) :
    ∃ after calls,
      (DirectoryTree.ensureSafeParent faultless relative).run ⟨tree, 0⟩ =
        (answer (files.ensureSafeParent root [] relative).1, ⟨after, calls⟩) ∧
      Mirrors after (files.ensureSafeParent root [] relative).2 root := by
  unfold DirectoryTree.ensureSafeParent
  rw [bind_ok (clone_run tree 0)]
  exact mirrors.ensureSafeParentIn (.here 0) 1

end Mirrors

end Skillsync.DirectoryTree
