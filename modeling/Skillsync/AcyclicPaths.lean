import Mathlib.Data.Finset.Basic
import Mathlib.Data.Finset.Dedup
import Skillsync.WalkSpec

set_option autoImplicit false

namespace Skillsync

open Fallible

section
variable [Blake3]

/-- One entry of `walk_directory`, with the ancestors. -/
def walkEntryIn
    (descend : Identity → List String → Finset Identity × WalkContext →
      Except ScanError (Finset Identity × WalkContext))
    (logical : List String) (state : Finset Identity × WalkContext)
    (entry : Option String × Entry) : Except ScanError (Finset Identity × WalkContext) :=
  let (ancestors, context) := state
  let parsed : Except PathError (List String × ProtocolPath) := do
    let some name := entry.1 | throw .invalidUtf8
    let path ← ProtocolPath.parse (joinSlash (logical ++ [name]))
    return (logical ++ [name], path)
  match parsed with
  | .error _ => .ok (ancestors, context.exclude none .pathRejected)
  | .ok (logical, protocol) =>
      if isIgnored context.ignores protocol.text then .ok (ancestors, context)
      else
        match entry.2 with
        | .symlink (.directory identity) => descend identity logical (ancestors, context)
        | .symlink (.file (.stable file)) =>
            (insertDiskFile protocol file.fingerprint context).map fun context =>
              (ancestors, context)
        | .symlink _ => .ok (ancestors, context.exclude (some protocol) .symlinkEscape)
        | .directory identity => descend identity logical (ancestors, context)
        | .file (.stable file) =>
            (insertDiskFile protocol file.fingerprint context).map fun context =>
              (ancestors, context)
        | .file .unstable => .ok (ancestors, context.exclude (some protocol) .pathRejected)
        | .file .failed => .error .io
        | .other => .ok (ancestors, context)

/-- `walk_directory` as it is written: the identity of the directory is inserted before its
entries are walked and removed behind them. -/
def walkDirectoryIn (fileSystem : FileSystem) : Nat → Identity → List String →
    Finset Identity × WalkContext → Except ScanError (Finset Identity × WalkContext)
  | 0, _, _, _ => .error .depth
  | depth + 1, identity, logical, (ancestors, context) =>
      if identity ∈ ancestors then
        .ok (ancestors,
          context.exclude (ProtocolPath.parse (joinSlash logical)).toOption .symlinkCycle)
      else
        match fileSystem.directories.lookup identity with
        | none => .error .io
        | some directory => do
            let (ancestors, context) ← directory.entries.foldlM
              (walkEntryIn (walkDirectoryIn fileSystem depth) logical)
              (insert identity ancestors, context)
            return (ancestors.erase identity, context)

/-- The walk of a whole collection root. -/
def walkIn (fileSystem : FileSystem) (collection : String) (ignores : String → Bool)
    (comparisonKey : String → String) (depth : Nat) :
    Except ScanError (Finset Identity × WalkContext) :=
  walkDirectoryIn fileSystem depth fileSystem.root []
    (∅, ⟨collection, ignores, ⟨comparisonKey, ∅⟩, ∅, [], []⟩)

theorem walkEntryIn_eq
    {descendIn : Identity → List String → Finset Identity × WalkContext →
      Except ScanError (Finset Identity × WalkContext)}
    {descend : Identity → List String → WalkContext → Except ScanError WalkContext}
    {ancestors : Finset Identity}
    (same : ∀ identity logical context, descendIn identity logical (ancestors, context) =
      (descend identity logical context).map fun context => (ancestors, context))
    (logical : List String) (context : WalkContext) (entry : Option String × Entry) :
    walkEntryIn descendIn logical (ancestors, context) entry =
      (walkEntry descend logical context entry).map fun context => (ancestors, context) := by
  unfold walkEntryIn walkEntry
  obtain ⟨label, entry⟩ := entry
  cases label with
  | none => rfl
  | some name =>
      cases parsed : ProtocolPath.parse (joinSlash (logical ++ [name])) with
      | error reason =>
          simp only [parsed]
          rfl
      | ok path =>
          simp only [parsed]
          change (if isIgnored context.ignores path.text = true then _ else _) =
            Except.map _ (if isIgnored context.ignores path.text = true then _ else _)
          by_cases ignored : isIgnored context.ignores path.text = true
          · rw [if_pos ignored, if_pos ignored]
            rfl
          · rw [if_neg ignored, if_neg ignored]
            rcases entry with identity | (file | _ | _) | (identity | (file | _ | _) | _) | _
            · exact same _ _ _
            · rfl
            · rfl
            · rfl
            · exact same _ _ _
            all_goals rfl

omit [Blake3] in
theorem foldlM_map {σ τ α ε : Type} {f : σ → α → Except ε σ} {g : τ → α → Except ε τ}
    {view : σ → τ} (same : ∀ s item, g (view s) item = (f s item).map view) (items : List α)
    (s : σ) : items.foldlM g (view s) = (items.foldlM f s).map view := by
  induction items generalizing s with
  | nil => rfl
  | cons item rest ih =>
      rw [List.foldlM_cons, List.foldlM_cons, same]
      cases f s item with
      | error reason => rfl
      | ok next => exact ih next

/-- Insertion and removal are balanced: a directory leaves the ancestors as it found them, and
it is walked below the directories of its own path alone. -/
theorem walkDirectoryIn_eq (fileSystem : FileSystem) (depth : Nat) (ancestors : List Identity)
    (identity : Identity) (logical : List String) (context : WalkContext) :
    walkDirectoryIn fileSystem depth identity logical (ancestors.toFinset, context) =
      (walkDirectory fileSystem depth ancestors identity logical context).map fun context =>
        (ancestors.toFinset, context) := by
  induction depth generalizing ancestors identity logical context with
  | zero => rfl
  | succ depth ih =>
      unfold walkDirectoryIn walkDirectory
      by_cases cyclic : identity ∈ ancestors
      · rw [if_pos (List.mem_toFinset.mpr cyclic), if_pos cyclic]
        rfl
      · have fresh : identity ∉ ancestors.toFinset := fun member =>
          cyclic (List.mem_toFinset.mp member)
        rw [if_neg fresh, if_neg cyclic]
        cases fileSystem.directories.lookup identity with
        | none => rfl
        | some directory =>
            have inserted : insert identity ancestors.toFinset =
                (identity :: ancestors).toFinset := List.toFinset_cons.symm
            dsimp only
            rw [inserted, foldlM_map (walkEntryIn_eq (ih (identity :: ancestors)) logical)]
            cases directory.entries.foldlM
                (walkEntry (walkDirectory fileSystem depth (identity :: ancestors)) logical)
                context with
            | error reason => rfl
            | ok after =>
                show Except.ok (_, after) = Except.ok (_, after)
                rw [← inserted, Finset.erase_insert fresh]

end

/-- The directories that a path runs through, and the entry at its end. -/
def FileSystem.route (fileSystem : FileSystem) : Identity → List String →
    Option (List Identity × Entry)
  | _, [] => none
  | identity, name :: rest =>
      (fileSystem.lookup identity name).bind fun entry =>
        if rest = [] then some ([identity], entry)
        else
          entry.directory?.bind fun next =>
            (fileSystem.route next rest).map fun found => (identity :: found.1, found.2)

/-- No directory on the way, and not the path itself, is ignored. -/
def Shown (ignores : String → Bool) (logical rest : List String) : Prop :=
  ∀ front, front ≠ [] → front <+: rest → isIgnored ignores (joinSlash (logical ++ front)) = false

/-- A shown path that enters no directory twice. -/
structure FileSystem.Acyclic (fileSystem : FileSystem) (ignores : String → Bool)
    (components : List String) (entry : Entry) (visited : List Identity) : Prop where
  route : fileSystem.route fileSystem.root components = some (visited, entry)
  distinct : visited.Nodup
  shown : Shown ignores [] components

/-- A path at which a walk must stop: its last entry leads into a directory that it runs through,
or out of the root. -/
def FileSystem.CutOff (fileSystem : FileSystem) (ignores : String → Bool)
    (components : List String) : Prop :=
  ∃ entry visited, fileSystem.Acyclic ignores components entry visited ∧
    ((∃ next ∈ visited, entry.directory? = some next) ∨ entry = .symlink .elsewhere)

section
variable {fileSystem : FileSystem} {ignores : String → Bool} {ancestors : List Identity}
  {identity : Identity} {logical rest : List String} {name : String} {entry : Entry}

theorem route_cons {found : List Identity × Entry}
    (looked : fileSystem.lookup identity name = some entry) :
    fileSystem.route identity (name :: rest) = some found ↔
      (rest = [] ∧ found = ([identity], entry)) ∨
      (rest ≠ [] ∧ ∃ next below, entry.directory? = some next ∧
        fileSystem.route next rest = some below ∧ found = (identity :: below.1, below.2)) := by
  rw [FileSystem.route, looked, Option.bind_some]
  by_cases ends : rest = []
  · rw [if_pos ends]
    simp only [ends, Option.some.injEq, true_and, ne_eq, not_true_eq_false, false_and, or_false]
    exact eq_comm
  · rw [if_neg ends, Option.bind_eq_some_iff]
    simp only [ends, false_and, ne_eq, not_false_eq_true, true_and, false_or,
      Option.map_eq_some_iff, eq_comm (a := found), exists_and_left]

theorem shown_cons : Shown ignores logical (name :: rest) ↔
    isIgnored ignores (joinSlash (logical ++ [name])) = false ∧
      Shown ignores (logical ++ [name]) rest := by
  constructor
  · intro shown
    refine ⟨shown [name] (by simp) (by simp), fun front some before => ?_⟩
    have whole := shown (name :: front) (by simp) (List.cons_prefix_cons.mpr ⟨rfl, before⟩)
    rwa [List.append_assoc]
  · rintro ⟨first, follow⟩ front some before
    cases front with
    | nil => exact absurd rfl some
    | cons other front =>
        obtain ⟨rfl, below⟩ := List.cons_prefix_cons.mp before
        by_cases ends : front = []
        · rw [ends]
          exact first
        · have whole := follow front ends below
          rwa [List.append_assoc] at whole

theorem shown_nil : Shown ignores logical [] := by
  intro front some before
  exact absurd (List.prefix_nil.mp before) some

theorem route_visits {found : List Identity × Entry}
    (route : fileSystem.route identity rest = some found) : identity ∈ found.1 := by
  cases rest with
  | nil => cases route
  | cons name rest =>
      cases looked : fileSystem.lookup identity name with
      | none =>
          rw [FileSystem.route, looked] at route
          cases route
      | some entry =>
          rcases (route_cons looked).mp route with ⟨-, rfl⟩ | ⟨-, next, below, -, -, rfl⟩
          · exact List.mem_cons_self
          · exact List.mem_cons_self

theorem directory_of_file {content : Read} (isFile : entry.file? = some content) :
    entry.directory? = none := by
  rcases entry with _ | _ | (_ | _ | _) | _
  · cases isFile
  · rfl
  · cases isFile
  · rfl
  · cases isFile
  · cases isFile

/-- The paths that are listed run through new directories to a file. -/
theorem fate_eq_file_iff {content : Read} :
    fate fileSystem ignores ancestors identity logical rest = .file content ↔
      ∃ visited entry, fileSystem.route identity rest = some (visited, entry) ∧
        visited.Nodup ∧ (∀ other ∈ visited, other ∉ ancestors) ∧ Shown ignores logical rest ∧
        entry.file? = some content := by
  induction rest generalizing ancestors identity logical with
  | nil =>
      unfold fate FileSystem.route
      constructor
      · intro listed
        split at listed <;> cases listed
      · rintro ⟨visited, entry, route, -⟩
        cases route
  | cons name rest ih =>
      unfold fate
      by_cases cyclic : identity ∈ ancestors
      · rw [if_pos cyclic]
        constructor
        · intro listed
          cases listed
        · rintro ⟨visited, entry, route, -, fresh, -⟩
          exact absurd cyclic (fresh identity (route_visits route))
      rw [if_neg cyclic]
      cases looked : fileSystem.lookup identity name with
      | none =>
          constructor
          · intro listed
            cases listed
          · rintro ⟨visited, entry, route, -⟩
            rw [FileSystem.route, looked] at route
            cases route
      | some entry =>
          dsimp only
          constructor
          · intro listed
            split at listed
            · cases listed
            rename_i visible
            rw [Bool.not_eq_true] at visible
            split at listed
            · rename_i next leads
              obtain ⟨visited, last, route, distinct, fresh, shown, isFile⟩ := ih.mp listed
              have more : rest ≠ [] := by
                rintro rfl
                cases route
              refine ⟨identity :: visited, last,
                (route_cons looked).mpr (Or.inr ⟨more, next, _, leads, route, rfl⟩), ?_, ?_,
                shown_cons.mpr ⟨visible, shown⟩, isFile⟩
              · exact List.nodup_cons.mpr
                  ⟨fun again => fresh identity again List.mem_cons_self, distinct⟩
              · intro other member inside
                rcases List.mem_cons.mp member with rfl | below
                · exact cyclic inside
                · exact fresh other below (List.mem_cons_of_mem _ inside)
            · split at listed
              · rename_i ends
                subst ends
                refine ⟨[identity], entry, (route_cons looked).mpr (Or.inl ⟨rfl, rfl⟩),
                  List.nodup_singleton _, ?_, shown_cons.mpr ⟨visible, shown_nil⟩,
                  leafFate_eq_file.mp listed⟩
                intro other member
                rw [List.mem_singleton.mp member]
                exact cyclic
              · cases listed
          · rintro ⟨visited, last, route, distinct, fresh, shown, isFile⟩
            obtain ⟨visible, below⟩ := shown_cons.mp shown
            rw [visible]
            rcases (route_cons looked).mp route with ⟨rfl, same⟩ |
              ⟨-, next, found, leads, follow, same⟩
            · obtain ⟨rfl, rfl⟩ := Prod.mk.inj same
              rw [directory_of_file isFile]
              exact leafFate_eq_file.mpr isFile
            · obtain ⟨rfl, rfl⟩ := Prod.mk.inj same
              rw [leads]
              obtain ⟨new, distinct⟩ := List.nodup_cons.mp distinct
              refine ih.mpr ⟨found.1, found.2, follow, distinct,
                fun other member inside => ?_, below, isFile⟩
              rcases List.mem_cons.mp inside with rfl | above
              · exact new member
              · exact fresh other (List.mem_cons_of_mem _ member) above

/-- A path at which the walk must stop is excluded. -/
theorem fate_of_cutOff {visited : List Identity}
    (route : fileSystem.route identity rest = some (visited, entry)) (distinct : visited.Nodup)
    (fresh : ∀ other ∈ visited, other ∉ ancestors) (shown : Shown ignores logical rest)
    (stops : (∃ next ∈ visited ++ ancestors, entry.directory? = some next) ∨
      entry = .symlink .elsewhere) :
    fate fileSystem ignores ancestors identity logical rest = .excluded := by
  induction rest generalizing ancestors identity logical visited with
  | nil => cases route
  | cons name rest ih =>
      unfold fate
      rw [if_neg (fresh identity (route_visits route))]
      obtain ⟨visible, below⟩ := shown_cons.mp shown
      cases looked : fileSystem.lookup identity name with
      | none =>
          rw [FileSystem.route, looked] at route
          cases route
      | some here =>
          dsimp only
          rw [visible]
          rcases (route_cons looked).mp route with ⟨rfl, same⟩ |
            ⟨-, next, found, leads, follow, same⟩
          · obtain ⟨rfl, rfl⟩ := Prod.mk.inj same
            rcases stops with ⟨next, again, leads⟩ | rfl
            · rw [leads]
              exact if_pos again
            · rfl
          · obtain ⟨rfl, rfl⟩ := Prod.mk.inj same
            rw [leads]
            obtain ⟨new, distinct⟩ := List.nodup_cons.mp distinct
            apply ih follow distinct _ below
            · rcases stops with ⟨other, inside, again⟩ | leaves
              · refine Or.inl ⟨other, ?_, again⟩
                rw [List.mem_append, List.mem_cons] at *
                tauto
              · exact Or.inr leaves
            · intro other member inside
              rcases List.mem_cons.mp inside with rfl | above
              · exact new member
              · exact fresh other (List.mem_cons_of_mem _ member) above

/-- A listed path is a shown acyclic one. -/
theorem fateOf_eq_file_iff {components : List String} {content : Read} :
    fileSystem.fateOf ignores components = .file content ↔
      ∃ visited entry, fileSystem.Acyclic ignores components entry visited ∧
        entry.file? = some content := by
  unfold FileSystem.fateOf
  rw [fate_eq_file_iff]
  constructor
  · rintro ⟨visited, entry, route, distinct, -, shown, isFile⟩
    exact ⟨visited, entry, ⟨route, distinct, shown⟩, isFile⟩
  · rintro ⟨visited, entry, ⟨route, distinct, shown⟩, isFile⟩
    exact ⟨visited, entry, route, distinct, fun other _ => List.not_mem_nil, shown, isFile⟩

theorem fateOf_cutOff {components : List String}
    (cut : fileSystem.CutOff ignores components) :
    fileSystem.fateOf ignores components = .excluded := by
  obtain ⟨entry, visited, ⟨route, distinct, shown⟩, stops⟩ := cut
  apply fate_of_cutOff route distinct (fun other _ => List.not_mem_nil) shown
  rwa [List.append_nil]

end

/-- Every directory that an entry leads to can be read. -/
structure FileSystem.Closed (fileSystem : FileSystem) : Prop where
  root : fileSystem.root ∈ fileSystem.directories.map Prod.fst
  entries : ∀ listed ∈ fileSystem.directories, ∀ entry ∈ listed.2.entries,
    ∀ next ∈ entry.2.directory?, next ∈ fileSystem.directories.map Prod.fst

/-- No file changes while it is read. -/
def FileSystem.Stable (fileSystem : FileSystem) : Prop :=
  ∀ listed ∈ fileSystem.directories, ∀ entry ∈ listed.2.entries,
    ∀ content ∈ entry.2.file?, ∃ file, content = .stable file

/-- Only paths at which the walk must stop are excluded, and the index holds no two paths under
one key. -/
structure Clean (fileSystem : FileSystem) (ignores : String → Bool)
    (comparisonKey : String → String) (context : WalkContext) : Prop where
  ignores_eq : context.ignores = ignores
  key_eq : context.index.comparisonKey = comparisonKey
  indexed : ∀ (key : String) (path : ProtocolPath), context.index.paths[key]? = some path →
    key = comparisonKey path.text
  excluded : ∀ outer ∈ context.excludedPrefixes,
    fileSystem.fateOf ignores (splitSlash outer) = .excluded

section
variable {fileSystem : FileSystem} {ignores : String → Bool} {comparisonKey : String → String}
  {context : WalkContext}

theorem Clean.exclude (clean : Clean fileSystem ignores comparisonKey context)
    {path : Option ProtocolPath} {issue : CollectionIssue}
    (stops : ∀ outer ∈ path, fileSystem.fateOf ignores outer.components = .excluded) :
    Clean fileSystem ignores comparisonKey (context.exclude path issue) := by
  refine ⟨clean.ignores_eq, clean.key_eq, clean.indexed, fun outer member => ?_⟩
  rcases List.mem_append.mp member with old | new
  · exact clean.excluded outer old
  · cases path with
    | none => cases new
    | some path =>
        obtain rfl : outer = path.text := List.mem_singleton.mp new
        exact stops path rfl

/-- No listed path is below an excluded one. -/
theorem Clean.included (clean : Clean fileSystem ignores comparisonKey context)
    {path : ProtocolPath} {content : Read}
    (reached : fileSystem.fateOf ignores path.components = .file content) :
    context.isExcluded path.text = false := by
  rw [WalkContext.isExcluded, List.any_eq_false]
  intro outer member covering
  obtain ⟨rest, components⟩ := (covers_iff _ _).mp covering
  have stopped := clean.excluded outer member
  have same : path.components = splitSlash outer ++ rest := components.symm
  rw [same] at reached
  by_cases more : rest = []
  · rw [more, List.append_nil, stopped] at reached
    cases reached
  · rcases fate_stopped more (Or.inl stopped) with excluded | isAbsent
    · rw [FileSystem.fateOf, excluded] at reached
      cases reached
    · rw [FileSystem.fateOf, isAbsent] at reached
      cases reached

/-- With an injective key no two paths collide. -/
theorem insertDiskFile_clean (caseSensitive : Function.Injective comparisonKey)
    (clean : Clean fileSystem ignores comparisonKey context) (path : ProtocolPath)
    (disk : DiskFile) : ∃ after, insertDiskFile path disk context = .ok after ∧
      Clean fileSystem ignores comparisonKey after := by
  have inserted : context.index.insert path =
      .ok ⟨comparisonKey, context.index.paths.insert (comparisonKey path.text) path⟩ := by
    unfold LocalPathIndex.insert
    rw [clean.key_eq]
    dsimp only
    split
    · rename_i existing found
      have same := caseSensitive (clean.indexed _ _ found)
      rw [if_neg (not_not.mpr (ProtocolPath.ext_text same.symm))]
    · rfl
  have done : insertDiskFile path disk context = .ok
      { context with
        index := ⟨comparisonKey, context.index.paths.insert (comparisonKey path.text) path⟩,
        files := context.files.insert path disk } := by
    rw [insertDiskFile, inserted]
  refine ⟨_, done, clean.ignores_eq, rfl, ?_, clean.excluded⟩
  intro key other found
  dsimp only at found
  rw [OrderedMap.getElem?_insert] at found
  split at found
  · rename_i same
    rw [← same]
    cases found
    rfl
  · exact clean.indexed key other found

/-- On a closed tree of stable files the walk of a directory succeeds, and excludes no file. -/
theorem walkDirectory_clean [Blake3] (closed : fileSystem.Closed) (stable : fileSystem.Stable)
    (caseSensitive : Function.Injective comparisonKey) {depth : Nat} {ancestors : List Identity}
    {identity : Identity} {logical : List String} (distinct : ancestors.Nodup)
    (known : ancestors ⊆ fileSystem.directories.map Prod.fst)
    (enough : fileSystem.directories.length < ancestors.length + depth)
    (located : Located fileSystem ignores ancestors identity logical)
    (here : identity ∈ fileSystem.directories.map Prod.fst)
    (clean : Clean fileSystem ignores comparisonKey context) :
    Always (Clean fileSystem ignores comparisonKey) (fun _ => False)
      (walkDirectory fileSystem depth ancestors identity logical context) := by
  induction depth generalizing ancestors identity logical context with
  | zero =>
      have bound := distinct.length_le_of_subset known
      rw [List.length_map] at bound
      omega
  | succ depth ih =>
      unfold walkDirectory
      by_cases cyclic : identity ∈ ancestors
      · rw [if_pos cyclic]
        exact clean.exclude (located.cyclic cyclic)
      rw [if_neg cyclic]
      obtain ⟨directory, listed⟩ : ∃ directory,
          fileSystem.directories.lookup identity = some directory := by
        apply Option.ne_none_iff_exists'.mp
        intro missing
        obtain ⟨item, member, same⟩ := List.mem_map.mp here
        have differs := List.lookup_eq_none_iff.mp missing item member
        simp [same] at differs
      obtain ⟨front, back, table, -⟩ := List.lookup_eq_some_iff.mp listed
      have inside : (identity, directory) ∈ fileSystem.directories := by
        rw [table]
        exact List.mem_append_right _ List.mem_cons_self
      rw [listed]
      apply Always.foldlM clean
      rintro context ⟨label, entry⟩ member clean
      unfold walkEntry
      cases label with
      | none =>
          refine clean.exclude fun outer impossible => ?_
          cases impossible
      | some name =>
          have plainName : Plain name := directory.plain _ member name rfl
          have looked : fileSystem.lookup identity name = some entry :=
            lookup_eq_some.mpr ⟨directory, listed, member⟩
          obtain ⟨path, parsed, components⟩ :=
            parse_logical (by simp) (plain_concat located.plain plainName)
          simp only [parsed]
          change Always _ _ (if isIgnored context.ignores path.text = true then _ else _)
          by_cases ignored : isIgnored context.ignores path.text = true
          · rw [if_pos ignored]
            exact clean
          rw [if_neg ignored]
          have visible : isIgnored ignores (joinSlash (logical ++ [name])) = false := by
            rw [← clean.ignores_eq, ← ProtocolPath.parse_ok parsed]
            exact Bool.eq_false_iff.mpr ignored
          have below : ∀ next, entry.directory? = some next →
              Always (Clean fileSystem ignores comparisonKey) (fun _ => False)
                (walkDirectory fileSystem depth (identity :: ancestors) next (logical ++ [name])
                  context) := by
            intro next leads
            apply ih (List.nodup_cons.mpr ⟨cyclic, distinct⟩)
            · exact List.cons_subset.mpr ⟨here, known⟩
            · rw [List.length_cons]
              omega
            · exact located.descend cyclic plainName looked visible leads
            · exact closed.entries _ inside _ member next leads
            · exact clean
          have inserted : ∀ file : RegularFile,
              Always (Clean fileSystem ignores comparisonKey) (fun _ => False)
                (insertDiskFile path file.fingerprint context) := by
            intro file
            obtain ⟨after, done, cleanAfter⟩ :=
              insertDiskFile_clean caseSensitive clean path file.fingerprint
            rw [done]
            exact cleanAfter
          have read := stable _ inside _ member
          rcases entry with next | (file | _ | _) | (next | (file | _ | _) | _) | _
          · exact below next rfl
          · exact inserted file
          · obtain ⟨file, impossible⟩ := read _ rfl
            cases impossible
          · obtain ⟨file, impossible⟩ := read _ rfl
            cases impossible
          · exact below next rfl
          · exact inserted file
          · obtain ⟨file, impossible⟩ := read _ rfl
            cases impossible
          · obtain ⟨file, impossible⟩ := read _ rfl
            cases impossible
          · refine clean.exclude fun outer same => ?_
            cases same
            rw [components]
            exact located.leaf cyclic looked visible rfl
          · exact clean

end

section
variable [Blake3] {fileSystem : FileSystem}

/-- An entry that does not reach the bound is dealt with in the same way under a greater one. -/
theorem walkEntry_mono
    {descend more : Identity → List String → WalkContext → Except ScanError WalkContext}
    (same : ∀ identity logical context, descend identity logical context ≠ .error .depth →
      more identity logical context = descend identity logical context)
    {logical : List String} {context : WalkContext} {entry : Option String × Entry}
    (within : walkEntry descend logical context entry ≠ .error .depth) :
    walkEntry more logical context entry = walkEntry descend logical context entry := by
  unfold walkEntry at within ⊢
  dsimp only at within ⊢
  split at within
  · rfl
  · split at within
    · rename_i ignored
      rw [if_pos ignored, if_pos ignored]
    · rename_i shown
      rw [if_neg shown, if_neg shown]
      obtain ⟨label, entry⟩ := entry
      rcases entry with next | (_ | _ | _) | (next | (_ | _ | _) | _) | _
      · exact same _ _ _ within
      · rfl
      · rfl
      · rfl
      · exact same _ _ _ within
      all_goals rfl

omit [Blake3] in
theorem foldlM_congr_ne {σ α ε : Type} {f g : σ → α → Except ε σ} {reason : ε}
    (same : ∀ s item, f s item ≠ .error reason → g s item = f s item) {items : List α} {s : σ}
    (within : items.foldlM f s ≠ .error reason) : items.foldlM g s = items.foldlM f s := by
  induction items generalizing s with
  | nil => rfl
  | cons item rest ih =>
      rw [List.foldlM_cons] at within ⊢
      rw [List.foldlM_cons]
      cases first : f s item with
      | error other =>
          rw [first] at within
          have differs : f s item ≠ .error reason := by
            rw [first]
            exact within
          rw [same s item differs, first]
          rfl
      | ok next =>
          have differs : f s item ≠ .error reason := by simp [first]
          rw [first] at within
          rw [same s item differs, first]
          exact ih within

theorem walkDirectory_mono {depth : Nat} {ancestors : List Identity} {identity : Identity}
    {logical : List String} {context : WalkContext}
    (within : walkDirectory fileSystem depth ancestors identity logical context ≠ .error .depth) :
    walkDirectory fileSystem (depth + 1) ancestors identity logical context =
      walkDirectory fileSystem depth ancestors identity logical context := by
  induction depth generalizing ancestors identity logical context with
  | zero => exact absurd rfl within
  | succ depth ih =>
      rw [walkDirectory] at within ⊢
      rw [walkDirectory]
      by_cases cyclic : identity ∈ ancestors
      · rw [if_pos cyclic, if_pos cyclic]
      · rw [if_neg cyclic] at within ⊢
        rw [if_neg cyclic]
        cases listed : fileSystem.directories.lookup identity with
        | none => rfl
        | some directory =>
            rw [listed] at within
            apply foldlM_congr_ne _ within
            intro context entry
            exact walkEntry_mono fun next logical context => ih

/-- More depth than directories changes nothing. -/
theorem walkDirectory_enough (extra : Nat) (context : WalkContext) :
    walkDirectory fileSystem (fileSystem.directories.length + 1 + extra) [] fileSystem.root []
      context =
    walkDirectory fileSystem (fileSystem.directories.length + 1) [] fileSystem.root [] context := by
  induction extra with
  | zero => rfl
  | succ extra ih =>
      have within : walkDirectory fileSystem (fileSystem.directories.length + 1 + extra) []
          fileSystem.root [] context ≠ .error .depth :=
        walkDirectory_depth List.nodup_nil (List.nil_subset _) (by simp; omega)
      rw [← ih]
      exact walkDirectory_mono within

section
variable {ignores : String → Bool} {comparisonKey : String → String} {collection : String}
  {context : WalkContext}

theorem walk_clean (closed : fileSystem.Closed) (stable : fileSystem.Stable)
    (caseSensitive : Function.Injective comparisonKey) :
    ∃ context, walk fileSystem collection ignores comparisonKey = .ok context ∧
      Clean fileSystem ignores comparisonKey context := by
  apply Always.succeeds
  apply walkDirectory_clean closed stable caseSensitive List.nodup_nil (List.nil_subset _) (by simp)
    Located.root closed.root
  refine ⟨rfl, rfl, fun key path present => ?_, fun outer member => ?_⟩
  · rw [Std.ExtTreeMap.getElem?_empty] at present
    cases present
  · cases member

theorem walk_cutOff (done : walk fileSystem collection ignores comparisonKey = .ok context)
    {path : ProtocolPath} {front : List String} (before : front <+: path.components)
    (cut : fileSystem.CutOff ignores front) : context.isExcluded path.text = true := by
  have stopped := fateOf_cutOff cut
  have some : front ≠ [] := by
    rintro rfl
    obtain ⟨entry, visited, ⟨route, -⟩, -⟩ := cut
    cases route
  have plain : ∀ component ∈ front, Plain component := fun component member =>
    path.components_plain component (before.subset member)
  have covered := walkDirectory_covers Located.root rfl plain
    (Or.inl (show fate fileSystem ignores [] fileSystem.root [] front = .excluded
      from stopped)) done
  rw [List.nil_append] at covered
  rcases covered with ⟨other, same, listed⟩ | excluded
  · obtain ⟨disk, found⟩ := Option.isSome_iff_exists.mp listed
    obtain ⟨file, reached, -⟩ := (walk_sound done).listed other disk found
    rw [ProtocolPath.components, same, splitSlash_joinSlash some plain, stopped] at reached
    cases reached
  · rw [WalkContext.isExcluded, List.any_eq_true] at excluded ⊢
    obtain ⟨outer, member, covering⟩ := excluded
    refine ⟨outer, member, (covers_iff _ _).mpr ?_⟩
    have inner := (covers_iff _ _).mp covering
    rw [splitSlash_joinSlash some plain] at inner
    exact inner.trans before

end

/-- The walk ends on every tree with every bound beyond the number of directories, each walk of a
directory restores its ancestors, and on a closed tree of stable files whose names are compared
exactly it lists the shown acyclic paths to files and excludes what is below a cut. -/
theorem walk_acyclic_paths (fileSystem : FileSystem) (collection : String)
    (ignores : String → Bool) (comparisonKey : String → String) :
    (∀ depth, fileSystem.directories.length < depth →
      walkIn fileSystem collection ignores comparisonKey depth =
        (walk fileSystem collection ignores comparisonKey).map fun context => (∅, context)) ∧
    walk fileSystem collection ignores comparisonKey ≠ .error .depth ∧
    (∀ depth (ancestors : List Identity) identity logical context,
      walkDirectoryIn fileSystem depth identity logical (ancestors.toFinset, context) =
        (walkDirectory fileSystem depth ancestors identity logical context).map fun context =>
          (ancestors.toFinset, context)) ∧
    (fileSystem.Closed → fileSystem.Stable → Function.Injective comparisonKey →
      ∃ context, walk fileSystem collection ignores comparisonKey = .ok context ∧
        (∀ (path : ProtocolPath) disk, context.files[path]? = some disk ↔
          ∃ visited entry file, fileSystem.Acyclic ignores path.components entry visited ∧
            entry.file? = some (.stable file) ∧ disk = file.fingerprint) ∧
        ∀ (path : ProtocolPath) front, front <+: path.components →
          fileSystem.CutOff ignores front → context.isExcluded path.text = true) := by
  refine ⟨fun depth enough => ?_, walk_depth,
    fun depth ancestors identity logical context =>
      walkDirectoryIn_eq fileSystem depth ancestors identity logical context,
    fun closed stable caseSensitive => ?_⟩
  · obtain ⟨extra, rfl⟩ := Nat.exists_eq_add_of_le (Nat.succ_le_of_lt enough)
    unfold walkIn walk
    rw [show (∅ : Finset Identity) = ([] : List Identity).toFinset from rfl, walkDirectoryIn_eq]
    rw [show fileSystem.directories.length.succ + extra =
      fileSystem.directories.length + 1 + extra from rfl, walkDirectory_enough]
  · obtain ⟨context, done, clean⟩ := @walk_clean _ fileSystem ignores comparisonKey
      collection closed
      stable caseSensitive
    refine ⟨context, done, fun path disk => ?_, fun path front before cut =>
      walk_cutOff done before cut⟩
    constructor
    · intro listed
      obtain ⟨file, reached, same⟩ := (walk_sound done).listed path disk listed
      obtain ⟨visited, entry, acyclic, isFile⟩ := fateOf_eq_file_iff.mp reached
      exact ⟨visited, entry, file, acyclic, isFile, same⟩
    · rintro ⟨visited, entry, file, acyclic, isFile, rfl⟩
      have reached := fateOf_eq_file_iff.mpr ⟨visited, entry, acyclic, isFile⟩
      have visible : fileSystem.fateOf ignores path.components ≠ .skipped := by
        rw [reached]
        simp
      exact (walk_files done visible (clean.included reached) file.fingerprint).mpr
        ⟨file, fileAt_of_fate reached, rfl⟩

end

section
attribute [local instance] Blake3.checksum

/-- A file and a symlink to the root itself. -/
def loopTree : FileSystem where
  root := (0, 0)
  directories := [((0, 0), ⟨[(some "f", .file (.stable ⟨[7], 0⟩)),
    (some "loop", .symlink (.directory (0, 0)))], by decide, by decide⟩)]

/-- The walk of the loop ends: the file is listed, and nothing is walked behind the symlink. -/
theorem loop_walked : ∃ context, walk loopTree "c" (fun _ => false) id = .ok context ∧
    (context.files[ProtocolPath.sample]?).isSome = true ∧
    context.isExcluded "loop/f" = true := by
  have closed : loopTree.Closed := ⟨by decide, by decide⟩
  have stable : loopTree.Stable := by
    intro listed member entry inside content isFile
    rw [List.mem_singleton.mp member] at inside
    rcases List.mem_cons.mp inside with rfl | other
    · cases isFile
      exact ⟨_, rfl⟩
    · rw [List.mem_singleton.mp other] at isFile
      cases isFile
  obtain ⟨context, done, lists, cuts⟩ := (walk_acyclic_paths loopTree "c" (fun _ => false)
    id).2.2.2 closed stable Function.injective_id
  refine ⟨context, done, ?_, ?_⟩
  · have listed := (lists .sample _).mpr ⟨[(0, 0)], .file (.stable ⟨[7], 0⟩), ⟨[7], 0⟩,
      ⟨by decide, by decide, shown_cons.mpr ⟨by decide, shown_nil⟩⟩, rfl, rfl⟩
    rw [listed]
    rfl
  · apply cuts ⟨"loop/f", by decide⟩ ["loop"] (by decide)
    exact ⟨.symlink (.directory (0, 0)), [(0, 0)],
      ⟨by decide, by decide, shown_cons.mpr ⟨by decide, shown_nil⟩⟩,
      Or.inl ⟨(0, 0), List.mem_cons_self, rfl⟩⟩

end

end Skillsync
