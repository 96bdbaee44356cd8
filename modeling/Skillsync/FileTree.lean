import Mathlib.Data.List.Pairwise

set_option autoImplicit false

namespace FileTree

/-- When a filesystem takes two names for the same one. -/
structure Comparison (Name : Type) where
  same : Name → Name → Bool
  refl : ∀ a, same a a = true
  symm : ∀ {a b}, same a b = true → same b a = true
  trans : ∀ {a b c}, same a b = true → same b c = true → same a c = true

/-- Names are compared by a key. -/
def Comparison.ofKey {Name Key : Type} [DecidableEq Key] (key : Name → Key) : Comparison Name where
  same a b := decide (key a = key b)
  refl _ := decide_eq_true rfl
  symm equal := decide_eq_true (of_decide_eq_true equal).symm
  trans first second := decide_eq_true ((of_decide_eq_true first).trans (of_decide_eq_true second))

inductive Entry (File : Type)
  | file (file : File)
  | directory (identity : Nat)
  /-- A symlink, and the directory of the tree it leads to, if any. -/
  | link (target : Option Nat)
  | other
deriving DecidableEq

/-- The directory that is opened through an entry. -/
def Entry.leads {File : Type} : Entry File → Option Nat
  | directory identity => some identity
  | link target => target
  | _ => none

/-- A directory is not removed as a file. -/
def Entry.isDirectory {File : Type} : Entry File → Bool
  | directory _ => true
  | _ => false

theorem link_of_leads {File : Type} {entry : Entry File} {next : Nat}
    (target : entry.leads = some next) (plain : entry.isDirectory = false) :
    entry = .link (some next) := by
  cases entry with
  | file => cases target
  | directory => cases plain
  | link found => exact congrArg Entry.link target
  | other => cases target

variable {Name File : Type} [DecidableEq Name] {comparison : Comparison Name}

/-- The entries of a directory, no two of which have the same name for the filesystem. -/
@[ext] structure Directory (comparison : Comparison Name) (File : Type) where
  entries : List (Name × Entry File)
  apart : entries.Pairwise fun a b => comparison.same a.1 b.1 = false

namespace Directory

variable {directory : Directory comparison File} {name other : Name} {entry : Entry File}

def empty : Directory comparison File := ⟨[], List.Pairwise.nil⟩

/-- The entry that is stored under exactly this name. -/
def get (directory : Directory comparison File) (name : Name) : Option (Entry File) :=
  (directory.entries.find? fun found => decide (found.1 = name)).map Prod.snd

/-- The entry that the filesystem finds under a name, with its stored name. -/
def lookup (directory : Directory comparison File) (name : Name) : Option (Name × Entry File) :=
  directory.entries.find? fun found => comparison.same found.1 name

def erase (directory : Directory comparison File) (name : Name) : Directory comparison File :=
  ⟨directory.entries.filter fun found => !comparison.same found.1 name, directory.apart.filter _⟩

/-- The name under which an entry is stored, or would be. -/
def stored (directory : Directory comparison File) (name : Name) : Name :=
  ((directory.lookup name).map Prod.fst).getD name

omit [DecidableEq Name] in
theorem lookup_same {found : Name × Entry File} (looked : directory.lookup name = some found) :
    found ∈ directory.entries ∧ comparison.same found.1 name = true := by
  unfold lookup at looked
  have same := List.find?_some looked
  exact ⟨List.mem_of_find?_eq_some looked, same⟩

omit [DecidableEq Name] in
theorem stored_same (directory : Directory comparison File) (name : Name) :
    comparison.same (directory.stored name) name = true := by
  unfold stored
  cases looked : directory.lookup name with
  | none => exact comparison.refl name
  | some found => exact (lookup_same looked).2

omit [DecidableEq Name] in
theorem mem_erase {found : Name × Entry File} :
    found ∈ (directory.erase name).entries ↔
      found ∈ directory.entries ∧ comparison.same found.1 name = false := by
  simp [erase]

omit [DecidableEq Name] in
/-- What was erased is not the same as the stored name. -/
theorem apart_put (directory : Directory comparison File) (name : Name) (entry : Entry File) :
    ((directory.stored name, entry) :: (directory.erase name).entries).Pairwise fun a b =>
      comparison.same a.1 b.1 = false := by
  refine List.pairwise_cons.mpr ⟨fun found member => ?_, (directory.erase name).apart⟩
  have differs := (mem_erase.mp member).2
  by_contra same
  rw [Bool.not_eq_false] at same
  have equal := comparison.trans (comparison.symm same) (directory.stored_same name)
  rw [differs] at equal
  cases equal

/-- An entry replaces the one that the filesystem finds under its name. -/
def put (directory : Directory comparison File) (name : Name) (entry : Entry File) :
    Directory comparison File :=
  ⟨(directory.stored name, entry) :: (directory.erase name).entries,
    directory.apart_put name entry⟩

omit [DecidableEq Name] in
/-- Entries with the same name for the filesystem are one entry. -/
theorem entry_unique {a b : Name × Entry File} (first : a ∈ directory.entries)
    (second : b ∈ directory.entries) (same : comparison.same a.1 b.1 = true) : a = b := by
  by_contra differs
  have symmetric : ∀ x y : Name × Entry File, comparison.same x.1 y.1 = false →
      comparison.same y.1 x.1 = false := by
    intro x y apart
    by_contra equal
    rw [Bool.not_eq_false] at equal
    rw [comparison.symm equal] at apart
    cases apart
  have : Std.Symm fun x y : Name × Entry File => comparison.same x.1 y.1 = false :=
    ⟨symmetric⟩
  have apart := directory.apart.forall first second differs
  rw [same] at apart
  cases apart

theorem get_eq_some : directory.get name = some entry ↔ (name, entry) ∈ directory.entries := by
  unfold get
  constructor
  · intro found
    obtain ⟨first, looked, rfl⟩ := Option.map_eq_some_iff.mp found
    have same := List.find?_some looked
    rw [← of_decide_eq_true same]
    exact List.mem_of_find?_eq_some looked
  · intro member
    cases looked : directory.entries.find? fun found => decide (found.1 = name) with
    | none =>
        have differs := List.find?_eq_none.mp looked _ member
        simp at differs
    | some first =>
        have named := List.find?_some looked
        have same : comparison.same first.1 name = true := by
          rw [of_decide_eq_true named]
          exact comparison.refl name
        rw [entry_unique (List.mem_of_find?_eq_some looked) member same]
        rfl

omit [DecidableEq Name] in
theorem lookup_eq_some : directory.lookup name = some (other, entry) ↔
    (other, entry) ∈ directory.entries ∧ comparison.same other name = true := by
  constructor
  · exact lookup_same
  · rintro ⟨member, same⟩
    cases looked : directory.lookup name with
    | none => exact absurd same (List.find?_eq_none.mp looked _ member)
    | some first =>
        obtain ⟨inside, firstSame⟩ := lookup_same looked
        rw [entry_unique inside member (comparison.trans firstSame (comparison.symm same))]

/-- The filesystem finds the entry that has exactly the name. -/
theorem lookup_of_get (present : directory.get name = some entry) :
    directory.lookup name = some (name, entry) :=
  lookup_eq_some.mpr ⟨get_eq_some.mp present, comparison.refl name⟩

theorem get_of_lookup (looked : directory.lookup name = some (other, entry)) :
    directory.get other = some entry := get_eq_some.mpr (lookup_eq_some.mp looked).1

theorem get_eq_none_of_lookup (looked : directory.lookup name = none) :
    directory.get name = none := by
  cases present : directory.get name with
  | none => rfl
  | some entry =>
      rw [lookup_of_get present] at looked
      cases looked

theorem stored_of_get (present : directory.get name = some entry) :
    directory.stored name = name := by
  rw [stored, lookup_of_get present]
  rfl

omit [DecidableEq Name] in
theorem stored_of_lookup (looked : directory.lookup name = none) :
    directory.stored name = name := by
  rw [stored, looked]
  rfl

theorem get_erase : (directory.erase name).get other =
    if comparison.same other name then none else directory.get other := by
  ext entry
  rw [get_eq_some, mem_erase]
  by_cases same : comparison.same other name = true
  · simp [same]
  · rw [if_neg same, get_eq_some]
    simp [same]

theorem get_put : (directory.put name entry).get other =
    if other = directory.stored name then some entry
    else if comparison.same other name then none else directory.get other := by
  ext found
  rw [get_eq_some, put, List.mem_cons, Prod.mk.injEq, ← get_eq_some, get_erase]
  by_cases here : other = directory.stored name
  · have same := directory.stored_same name
    rw [← here] at same
    rw [if_pos here, if_pos same]
    simp [here, eq_comm]
  · simp [here]

omit [DecidableEq Name] in
/-- A name that is not the same as the one that is put is found where it was. -/
theorem lookup_put : (directory.put name entry).lookup other =
    if comparison.same name other = true then some (directory.stored name, entry)
    else directory.lookup other := by
  have stored := directory.stored_same name
  by_cases same : comparison.same name other = true
  · rw [if_pos same]
    exact List.find?_cons_of_pos (comparison.trans stored same)
  · have differs : ¬ comparison.same (directory.stored name) other = true := fun equal =>
      same (comparison.trans (comparison.symm stored) equal)
    rw [if_neg same]
    ext ⟨found, value⟩
    rw [lookup_eq_some, lookup_eq_some, put, List.mem_cons, Prod.mk.injEq, mem_erase]
    constructor
    · rintro ⟨⟨rfl, rfl⟩ | ⟨member, -⟩, equal⟩
      · exact absurd equal differs
      · exact ⟨member, equal⟩
    · rintro ⟨member, equal⟩
      refine ⟨Or.inr ⟨member, ?_⟩, equal⟩
      by_contra taken
      rw [Bool.not_eq_false] at taken
      exact same (comparison.trans (comparison.symm taken) equal)

omit [DecidableEq Name] in
theorem erase_erase (directory : Directory comparison File) (name : Name) :
    (directory.erase name).erase name = directory.erase name := by
  ext1
  simp only [erase, List.filter_filter, Bool.and_self]

omit [DecidableEq Name] in
theorem erase_put : (directory.put name entry).erase name = directory.erase name := by
  rw [← erase_erase directory]
  ext1
  simp only [put, erase, List.filter_cons, stored_same, Bool.not_true, Bool.false_eq_true, if_false]

omit [DecidableEq Name] in
theorem put_put {last : Entry File} :
    (directory.put name entry).put name last = directory.put name last := by
  have stored : (directory.put name entry).stored name = directory.stored name := by
    rw [Directory.stored, lookup_put, if_pos (comparison.refl name)]
    rfl
  ext1
  show (_, last) :: ((directory.put name entry).erase name).entries = _
  rw [stored, erase_put]
  rfl

omit [DecidableEq Name] in
theorem erase_absent (absent : directory.lookup name = none) :
    directory.erase name = directory := by
  ext1
  apply List.filter_eq_self.mpr
  intro found member
  have differs := List.find?_eq_none.mp absent found member
  simpa using differs

/-- Where a name is free or taken exactly, only its own entry changes. -/
theorem get_put_of_stored (free : directory.stored name = name) :
    (directory.put name entry).get other =
      if other = name then some entry else directory.get other := by
  rw [get_put, free]
  by_cases named : other = name
  · rw [if_pos named, if_pos named]
  · rw [if_neg named, if_neg named]
    split
    · rename_i same
      cases present : directory.get other with
      | none => rfl
      | some found =>
          have looked := lookup_eq_some.mpr ⟨get_eq_some.mp present, same⟩
          rw [stored, looked] at free
          exact absurd free named
    · rfl

end Directory

/-- The directories of a filesystem, by their identities. -/
@[ext] structure Tree (comparison : Comparison Name) (File : Type) where
  directories : List (Directory comparison File)
  rooted : 0 < directories.length

namespace Tree

variable {tree : Tree comparison File} {identity : Nat} {name other : Name} {entry : Entry File}

def get (tree : Tree comparison File) (identity : Nat) (name : Name) : Option (Entry File) :=
  (tree.directories[identity]?).bind fun directory => directory.get name

def lookup (tree : Tree comparison File) (identity : Nat) (name : Name) :
    Option (Name × Entry File) :=
  (tree.directories[identity]?).bind fun directory => directory.lookup name

def put (tree : Tree comparison File) (identity : Nat) (name : Name) (entry : Entry File) :
    Tree comparison File :=
  ⟨tree.directories.modify identity fun directory => directory.put name entry, by
    simpa using tree.rooted⟩

def erase (tree : Tree comparison File) (identity : Nat) (name : Name) : Tree comparison File :=
  ⟨tree.directories.modify identity fun directory => directory.erase name, by
    simpa using tree.rooted⟩

/-- A new directory, which is empty. -/
def addDirectory (tree : Tree comparison File) (identity : Nat) (name : Name) :
    Tree comparison File :=
  ⟨(tree.put identity name (.directory tree.directories.length)).directories ++ [.empty], by simp⟩

/-- The directory that is opened under a name. -/
def enter (tree : Tree comparison File) (identity : Nat) (name : Name) : Option Nat :=
  (tree.lookup identity name).bind fun found =>
    found.2.leads.filter fun next => decide (next < tree.directories.length)

/-- The directory that is opened under a relative path. -/
def resolve (tree : Tree comparison File) : Nat → List Name → Option Nat
  | identity, [] => some identity
  | identity, name :: rest => (tree.enter identity name).bind fun next => tree.resolve next rest

/-- The directory to which a relative path leads through entries with exactly its names. -/
inductive Leads (tree : Tree comparison File) : Nat → List Name → Nat → Prop
  | here (identity : Nat) : Leads tree identity [] identity
  | through (identity next last : Nat) (name : Name) (rest : List Name) (entry : Entry File) :
      tree.get identity name = some entry → entry.leads = some next →
      next < tree.directories.length → Leads tree next rest last →
      Leads tree identity (name :: rest) last

theorem lookup_of_get (present : tree.get identity name = some entry) :
    tree.lookup identity name = some (name, entry) := by
  obtain ⟨directory, listed, found⟩ := Option.bind_eq_some_iff.mp present
  rw [lookup, listed]
  exact Directory.lookup_of_get found

theorem get_of_lookup (looked : tree.lookup identity name = some (other, entry)) :
    tree.get identity other = some entry := by
  obtain ⟨directory, listed, found⟩ := Option.bind_eq_some_iff.mp looked
  rw [get, listed]
  exact Directory.get_of_lookup found

theorem get_eq_none_of_lookup (looked : tree.lookup identity name = none) :
    tree.get identity name = none := by
  cases present : tree.get identity name with
  | none => rfl
  | some entry =>
      rw [lookup_of_get present] at looked
      cases looked

omit [DecidableEq Name] in
theorem same_of_lookup (looked : tree.lookup identity name = some (other, entry)) :
    comparison.same other name = true := by
  obtain ⟨directory, listed, found⟩ := Option.bind_eq_some_iff.mp looked
  exact (Directory.lookup_eq_some.mp found).2

/-- The filesystem finds an entry under every name that is the same as its own. -/
theorem lookup_of_same (present : tree.get identity other = some entry)
    (same : comparison.same other name = true) :
    tree.lookup identity name = some (other, entry) := by
  obtain ⟨directory, listed, found⟩ := Option.bind_eq_some_iff.mp present
  rw [lookup, listed]
  exact Directory.lookup_eq_some.mpr ⟨Directory.get_eq_some.mp found, same⟩

theorem enter_eq_some {next : Nat} (present : tree.get identity name = some entry) :
    tree.enter identity name = some next ↔
      entry.leads = some next ∧ next < tree.directories.length := by
  rw [enter, lookup_of_get present, Option.bind_some, Option.filter_eq_some_iff, decide_eq_true_eq]

omit [DecidableEq Name] in
theorem resolve_append (tree : Tree comparison File) (identity : Nat) (front back : List Name) :
    tree.resolve identity (front ++ back) =
      (tree.resolve identity front).bind fun next => tree.resolve next back := by
  induction front generalizing identity with
  | nil => rfl
  | cons name rest ih =>
      rw [List.cons_append, resolve, resolve, Option.bind_assoc]
      exact congrArg _ (funext ih)

/-- The filesystem resolves a path to where its exact names lead. -/
theorem Leads.resolve {last : Nat} {names : List Name} (leads : tree.Leads identity names last) :
    tree.resolve identity names = some last := by
  induction leads with
  | here => rfl
  | through identity next last name rest entry present target listed _ ih =>
      rw [Tree.resolve, (enter_eq_some present).mpr ⟨target, listed⟩]
      exact ih

/-- The paths' exact names lead to one directory only. -/
theorem Leads.unique {first second : Nat} {names : List Name}
    (one : tree.Leads identity names first) (two : tree.Leads identity names second) :
    first = second := Option.some.inj (one.resolve.symm.trans two.resolve)

theorem leads_cons {last : Nat} {rest : List Name} : tree.Leads identity (name :: rest) last ↔
    ∃ entry next, tree.get identity name = some entry ∧
      tree.enter identity name = some next ∧ tree.Leads next rest last := by
  constructor
  · intro leads
    cases leads with
    | through _ next _ _ _ entry present target listed later =>
        exact ⟨entry, next, present, (enter_eq_some present).mpr ⟨target, listed⟩, later⟩
  · rintro ⟨entry, next, present, enters, later⟩
    obtain ⟨target, listed⟩ := (enter_eq_some present).mp enters
    exact .through identity next last name rest entry present target listed later

theorem Leads.append {middle last : Nat} {front back : List Name}
    (first : tree.Leads identity front middle) (second : tree.Leads middle back last) :
    tree.Leads identity (front ++ back) last := by
  induction first with
  | here => exact second
  | through identity next _ name rest entry present target listed _ ih =>
      exact .through identity next last name _ entry present target listed (ih second)

theorem get_erase {changed : Nat} : (tree.erase changed name).get identity other =
    if identity = changed ∧ comparison.same other name = true then none
    else tree.get identity other := by
  unfold get erase
  rw [List.getElem?_modify]
  cases tree.directories[identity]? with
  | none => simp
  | some directory =>
      by_cases here : changed = identity
      · simp [here, Directory.get_erase]
      · simp [here, Ne.symm here]

/-- A name is free, or taken by an entry with exactly this name. -/
def Fits (tree : Tree comparison File) (identity : Nat) (name : Name) : Prop :=
  tree.lookup identity name = none ∨ (tree.get identity name).isSome = true

theorem stored_of_fits {directory : Directory comparison File}
    (listed : tree.directories[identity]? = some directory) (fits : tree.Fits identity name) :
    directory.stored name = name := by
  rcases fits with absent | present
  · rw [lookup, listed] at absent
    exact Directory.stored_of_lookup absent
  · obtain ⟨entry, found⟩ := Option.isSome_iff_exists.mp present
    rw [get, listed] at found
    exact Directory.stored_of_get found

/-- Only the entry with the name changes. -/
theorem get_put {changed : Nat} (listed : changed < tree.directories.length)
    (fits : tree.Fits changed name) : (tree.put changed name entry).get identity other =
      if identity = changed ∧ other = name then some entry else tree.get identity other := by
  have place := List.getElem?_eq_getElem listed
  by_cases here : identity = changed
  · subst here
    have free := stored_of_fits place fits
    simp [get, put, List.getElem?_modify_eq, place, Directory.get_put_of_stored free]
  · rw [if_neg fun both => here both.1, get, put, List.getElem?_modify_ne _ _ (Ne.symm here)]
    rfl

omit [DecidableEq Name] in
/-- A name that is not the same is found where it was. -/
theorem lookup_put_of_differs {changed : Nat}
    (differs : identity = changed → ¬ comparison.same name other = true) :
    (tree.put changed name entry).lookup identity other = tree.lookup identity other := by
  unfold lookup put
  rw [List.getElem?_modify]
  cases tree.directories[identity]? with
  | none => simp
  | some directory =>
      by_cases here : identity = changed
      · simp [here, Directory.lookup_put, differs here]
      · simp [Ne.symm here]

omit [DecidableEq Name] in
@[simp] theorem length_put : (tree.put identity name entry).directories.length =
    tree.directories.length := by
  simp [put]

omit [DecidableEq Name] in
theorem put_put {last : Entry File} :
    (tree.put identity name entry).put identity name last = tree.put identity name last := by
  ext1
  simp only [put, List.modify_modify_eq]
  congr 1
  funext directory
  exact Directory.put_put

omit [DecidableEq Name] in
/-- What was put under a free name goes again. -/
theorem erase_put (absent : tree.lookup identity name = none) :
    (tree.put identity name entry).erase identity name = tree := by
  ext1
  simp only [put, erase, List.modify_modify_eq]
  apply List.ext_getElem?
  intro i
  rw [List.getElem?_modify]
  cases listed : tree.directories[i]? with
  | none => simp
  | some directory =>
      by_cases here : identity = i
      · subst here
        rw [lookup, listed] at absent
        have unchanged : directory.erase name = directory := Directory.erase_absent absent
        simp [Directory.erase_put, unchanged]
      · simp [here]

/-- Nothing else changes in a directory to which one is added. -/
theorem get_addDirectory {changed : Nat} (listed : changed < tree.directories.length)
    (absent : tree.lookup changed name = none) :
    (tree.addDirectory changed name).get identity other =
      if identity = changed ∧ other = name then some (.directory tree.directories.length)
      else tree.get identity other := by
  rw [← get_put listed (Or.inl absent)]
  by_cases old : identity < tree.directories.length
  · simp only [get, addDirectory]
    rw [List.getElem?_append_left (by simpa using old)]
  · have outside : (tree.put changed name (.directory tree.directories.length)).directories.length ≤
        identity := by simpa using old
    simp only [get, addDirectory]
    rw [List.getElem?_append_right outside, List.getElem?_eq_none outside]
    -- What the new directory holds is nothing.
    cases identity - _ <;> rfl

omit [DecidableEq Name] in
@[simp] theorem length_addDirectory : (tree.addDirectory identity name).directories.length =
    tree.directories.length + 1 := by
  simp [addDirectory]

theorem get_eq_none_of_length_le (outside : tree.directories.length ≤ identity) :
    tree.get identity name = none := by
  rw [get, List.getElem?_eq_none outside]
  rfl

theorem get_addDirectory_new {changed : Nat} (listed : changed < tree.directories.length)
    (absent : tree.lookup changed name = none) :
    (tree.addDirectory changed name).get tree.directories.length other = none := by
  rw [get_addDirectory listed absent, if_neg (by omega)]
  exact get_eq_none_of_length_le (Nat.le_refl _)

/-- Where a path leads while entries are only added. -/
theorem Leads.mono {after : Tree comparison File} {last : Nat} {names : List Name}
    (leads : tree.Leads identity names last)
    (kept : ∀ identity name entry, tree.get identity name = some entry →
      after.get identity name = some entry)
    (size : tree.directories.length ≤ after.directories.length) :
    after.Leads identity names last := by
  induction leads with
  | here identity => exact .here identity
  | through identity next last name rest entry present target listed _ ih =>
      exact .through identity next last name rest entry (kept _ _ _ present) target
        (by omega) ih

theorem Leads.listed {last : Nat} {names : List Name} (leads : tree.Leads identity names last)
    (inside : identity < tree.directories.length) : last < tree.directories.length := by
  induction leads with
  | here => exact inside
  | through _ _ _ _ _ _ _ _ listed _ ih => exact ih listed

theorem leads_addDirectory {changed : Nat} (listed : changed < tree.directories.length)
    (absent : tree.lookup changed name = none) :
    (tree.addDirectory changed name).Leads changed [name] tree.directories.length := by
  have present : (tree.addDirectory changed name).get changed name =
      some (.directory tree.directories.length) := by
    rw [get_addDirectory listed absent, if_pos ⟨rfl, rfl⟩]
  exact .through _ _ _ _ _ _ present rfl (by simp) (.here _)

/-- A path in a tree to which a directory was added is an old one, or ends in the new directory. -/
theorem Leads.of_addDirectory {changed last : Nat} {names : List Name}
    (leads : (tree.addDirectory changed name).Leads identity names last)
    (listed : changed < tree.directories.length) (absent : tree.lookup changed name = none)
    (closed : ∀ {identity name entry next}, tree.get identity name = some entry →
      entry.leads = some next → next < tree.directories.length) :
    tree.Leads identity names last ∨
      ∃ front, names = front ++ [name] ∧ tree.Leads identity front changed ∧
        last = tree.directories.length := by
  induction leads with
  | here identity => exact Or.inl (.here identity)
  | through identity next last component rest entry present target _ later ih =>
      rw [get_addDirectory listed absent] at present
      split at present
      · rename_i here
        obtain ⟨rfl, rfl⟩ := here
        cases present
        cases target
        -- the new directory is empty
        cases later with
        | here => exact Or.inr ⟨[], rfl, .here identity, rfl⟩
        | through _ _ _ _ _ _ found =>
            rw [get_addDirectory_new listed absent] at found
            cases found
      · have inside := closed present target
        rcases ih with old | ⟨front, rfl, old, new⟩
        · exact Or.inl (.through identity next last component rest entry present target inside old)
        · exact Or.inr ⟨component :: front, rfl,
            .through identity next changed component front entry present target inside old, new⟩

/-- A path does not change where an entry is put that led nowhere. -/
theorem Leads.put {changed last : Nat} {names : List Name} (leads : tree.Leads identity names last)
    (listed : changed < tree.directories.length) (fits : tree.Fits changed name)
    (nowhere : ∀ old, tree.get changed name = some old → old.leads = none) :
    (tree.put changed name entry).Leads identity names last := by
  induction leads with
  | here identity => exact .here identity
  | through identity next last component rest old present target inside _ ih =>
      have same : (tree.put changed name entry).get identity component = some old := by
        rw [get_put listed fits, if_neg]
        · exact present
        · rintro ⟨rfl, rfl⟩
          rw [nowhere old present] at target
          cases target
      exact .through identity next last component rest old same target (by simpa using inside) ih

theorem Leads.next {next last : Nat} {rest : List Name}
    (present : tree.get identity name = some entry) (target : entry.leads = some next)
    (leads : tree.Leads identity (name :: rest) last) :
    tree.Leads next rest last := by
  cases leads with
  | through _ _ _ _ _ _ found leadsTo _ later =>
      rw [present] at found
      cases found
      rw [target] at leadsTo
      cases leadsTo
      exact later

/-- The directories that are missing on a path are made in order, up to some point. -/
inductive Grows : Tree comparison File → Nat → List Name → Tree comparison File → Prop
  | stop (tree : Tree comparison File) (identity : Nat) (names : List Name) :
      Grows tree identity names tree
  | through (tree after : Tree comparison File) (identity next : Nat) (name : Name)
      (rest : List Name) (entry : Entry File) :
      tree.get identity name = some entry → entry.leads = some next →
      next < tree.directories.length → Grows tree next rest after →
      Grows tree identity (name :: rest) after
  | made (tree after : Tree comparison File) (identity : Nat) (name : Name) (rest : List Name) :
      identity < tree.directories.length → tree.lookup identity name = none →
      Grows (tree.addDirectory identity name) tree.directories.length rest after →
      Grows tree identity (name :: rest) after

namespace Grows

variable {after : Tree comparison File} {names : List Name} {last : Nat}

theorem size (grows : Grows tree identity names after) :
    tree.directories.length ≤ after.directories.length := by
  induction grows with
  | stop => exact Nat.le_refl _
  | through _ _ _ _ _ _ _ _ _ _ _ ih => exact ih
  | made tree after identity name rest _ _ _ ih =>
      rw [length_addDirectory] at ih
      omega

theorem kept (grows : Grows tree identity names after) (place : Nat) (name : Name)
    (entry : Entry File) (present : tree.get place name = some entry) :
    after.get place name = some entry := by
  induction grows with
  | stop => exact present
  | through _ _ _ _ _ _ _ _ _ _ _ ih => exact ih present
  | made tree after identity component rest listed absent _ ih =>
      apply ih
      rw [get_addDirectory listed absent, if_neg]
      · exact present
      · rintro ⟨rfl, rfl⟩
        rw [get_eq_none_of_lookup absent] at present
        cases present

/-- The path leads on from the directory that is made. -/
theorem leads_below {rest : List Name} (later : Grows (tree.addDirectory identity name)
    tree.directories.length rest after) (listed : identity < tree.directories.length)
    (absent : tree.lookup identity name = none) (leads : after.Leads identity (name :: rest) last) :
    after.Leads tree.directories.length rest last := by
  have present : (tree.addDirectory identity name).get identity name =
      some (.directory tree.directories.length) := by
    rw [get_addDirectory listed absent, if_pos ⟨rfl, rfl⟩]
  exact leads.next (later.kept _ _ _ present) rfl

/-- Below an empty directory everything is new. -/
theorem fresh (grows : Grows tree identity names after)
    (empty : ∀ name, tree.get identity name = none) (leads : after.Leads identity names last) :
    last = identity ∨ tree.directories.length ≤ last := by
  induction grows with
  | stop tree identity names =>
      cases leads with
      | here => exact Or.inl rfl
      | through _ _ _ name _ _ present =>
          rw [empty name] at present
          cases present
  | through tree after identity next name rest entry present =>
      rw [empty name] at present
      cases present
  | made tree after identity name rest listed absent later ih =>
      have further := later.leads_below listed absent leads
      have bounds := ih (fun other => get_addDirectory_new listed absent) further
      rw [length_addDirectory] at bounds
      omega

/-- A path that is complete was there before, or leads to a new directory. -/
theorem unchanged_or_new (grows : Grows tree identity names after)
    (leads : after.Leads identity names last) :
    after = tree ∨ tree.directories.length ≤ last := by
  induction grows with
  | stop => exact Or.inl rfl
  | through tree after identity next name rest entry present target listed later ih =>
      exact ih (leads.next (later.kept _ _ _ present) target)
  | made tree after identity name rest listed absent later ih =>
      have further := later.leads_below listed absent leads
      have bounds := later.fresh (fun other => get_addDirectory_new listed absent) further
      rw [length_addDirectory] at bounds
      right
      omega

/-- Where the path ends nothing is added. -/
theorem same_at_end (grows : Grows tree identity names after)
    (leads : after.Leads identity names last) (name : Name) :
    after.get last name = tree.get last name := by
  induction grows with
  | stop => rfl
  | through tree after identity next _ rest entry present target listed later ih =>
      exact ih (leads.next (later.kept _ _ _ present) target)
  | made tree after identity component rest listed absent later ih =>
      have further := later.leads_below listed absent leads
      have bounds := later.fresh (fun other => get_addDirectory_new listed absent) further
      rw [length_addDirectory] at bounds
      rw [ih further, get_addDirectory listed absent, if_neg]
      omega

/-- On a path that is there nothing is made. -/
theorem unchanged (grows : Grows tree identity names after)
    (leads : tree.Leads identity names last) : after = tree := by
  induction grows with
  | stop => rfl
  | through tree after identity next name rest entry present target listed later ih =>
      exact ih (leads.next present target)
  | made tree after identity name rest listed absent =>
      cases leads with
      | through _ _ _ _ _ _ present =>
          rw [get_eq_none_of_lookup absent] at present
          cases present

end Grows

end Tree

end FileTree
