import Skillsync.Walk

set_option autoImplicit false

namespace Skillsync

open Fallible

def FileSystem.lookup (fileSystem : FileSystem) (identity : Identity) (name : String) :
    Option Entry :=
  (fileSystem.directories.lookup identity).bind fun directory =>
    directory.entries.lookup (some name)

/-- The regular file a path of components leads to, through directories and symlinks. -/
def FileSystem.fileAt (fileSystem : FileSystem) : Identity → List String → Option Read
  | _, [] => none
  | identity, name :: rest =>
      (fileSystem.lookup identity name).bind fun entry =>
        match entry.directory? with
        | some next => fileSystem.fileAt next rest
        | none => if rest = [] then entry.file? else none

/-- How the walk deals with a path. -/
inductive Fate
  /-- It or a directory above it is ignored. -/
  | skipped
  /-- A directory that is its own ancestor, or a symlink that leaves the root, is on the way. -/
  | excluded
  | directory
  | file (content : Read)
  | absent
deriving DecidableEq

/-- The fate of a path whose last component is no directory. -/
def leafFate : Entry → Fate
  | .symlink .elsewhere => .excluded
  | .symlink (.file content) => .file content
  | .file content => .file content
  | _ => .absent

theorem leafFate_eq_file {entry : Entry} {content : Read} :
    leafFate entry = .file content ↔ entry.file? = some content := by
  rcases entry with _ | _ | (_ | _ | _) | _ <;> simp [leafFate, Entry.file?]

theorem leafFate_ne_skipped (entry : Entry) : leafFate entry ≠ .skipped := by
  rcases entry with _ | _ | (_ | _ | _) | _ <;> simp [leafFate]

/-- The fate of the path `rest` below a directory that the walk reaches at `logical`. -/
def fate (fileSystem : FileSystem) (ignores : String → Bool) :
    List Identity → Identity → List String → List String → Fate
  | ancestors, identity, _, [] => if identity ∈ ancestors then .excluded else .directory
  | ancestors, identity, logical, name :: rest =>
      if identity ∈ ancestors then .excluded
      else
        match fileSystem.lookup identity name with
        | none => .absent
        | some entry =>
            if isIgnored ignores (joinSlash (logical ++ [name])) then .skipped
            else
              match entry.directory? with
              | some next =>
                  fate fileSystem ignores (identity :: ancestors) next (logical ++ [name]) rest
              | none => if rest = [] then leafFate entry else .absent

/-- The fate of a whole path. -/
def FileSystem.fateOf (fileSystem : FileSystem) (ignores : String → Bool)
    (components : List String) : Fate :=
  fate fileSystem ignores [] fileSystem.root [] components

section
variable {fileSystem : FileSystem} {ignores : String → Bool}

theorem lookup_eq_some {identity : Identity} {name : String} {entry : Entry} :
    fileSystem.lookup identity name = some entry ↔
      ∃ directory, fileSystem.directories.lookup identity = some directory ∧
        (some name, entry) ∈ directory.entries := by
  unfold FileSystem.lookup
  cases listed : fileSystem.directories.lookup identity with
  | none => simp
  | some directory =>
      simp only [Option.bind_some, Option.some.injEq, exists_eq_left']
      have distinct := directory.distinct
      generalize directory.entries = entries at distinct
      induction entries with
      | nil => simp
      | cons first rest ih =>
          obtain ⟨label, found⟩ := first
          cases label with
          | none =>
              have step : List.lookup (some name) ((none, found) :: rest) =
                  rest.lookup (some name) := rfl
              rw [List.filterMap_cons_none (by rfl)] at distinct
              rw [step]
              simpa using ih distinct
          | some other =>
              rw [List.filterMap_cons_some (b := other) (by rfl), List.nodup_cons] at distinct
              rw [List.lookup_cons]
              by_cases same : name = other
              · subst same
                simp only [BEq.rfl, Option.some.injEq, List.mem_cons, Prod.mk.injEq, true_and]
                constructor
                · rintro rfl
                  exact Or.inl rfl
                · rintro (rfl | later)
                  · rfl
                  · have named : name ∈ rest.filterMap Prod.fst :=
                      List.mem_filterMap.mpr ⟨(some name, entry), later, rfl⟩
                    exact absurd named distinct.1
              · have differs : (some name == some other) = false := by simpa using same
                rw [differs]
                simpa [same] using ih distinct.2

/-- A reachable regular file is listed unless something on its path hides it. -/
theorem fate_of_fileAt {content : Read} {ancestors : List Identity} {identity : Identity}
    {logical rest : List String} (found : fileSystem.fileAt identity rest = some content) :
    fate fileSystem ignores ancestors identity logical rest = .skipped ∨
      fate fileSystem ignores ancestors identity logical rest = .excluded ∨
      fate fileSystem ignores ancestors identity logical rest = .file content := by
  induction rest generalizing ancestors identity logical with
  | nil => cases found
  | cons name rest ih =>
      simp only [FileSystem.fileAt, Option.bind_eq_some_iff] at found
      obtain ⟨entry, looked, found⟩ := found
      simp only [fate, looked]
      split
      · exact Or.inr (Or.inl rfl)
      split
      · exact Or.inl rfl
      cases leads : entry.directory? with
      | some next =>
          rw [leads] at found
          exact ih found
      | none =>
          rw [leads] at found
          dsimp only at found ⊢
          split at found
          · rename_i last
            rw [if_pos last]
            exact Or.inr (Or.inr (leafFate_eq_file.mpr found))
          · cases found

theorem fileAt_of_fate {content : Read} {ancestors : List Identity} {identity : Identity}
    {logical rest : List String}
    (listed : fate fileSystem ignores ancestors identity logical rest = .file content) :
    fileSystem.fileAt identity rest = some content := by
  induction rest generalizing ancestors identity logical with
  | nil =>
      unfold fate at listed
      split at listed <;> cases listed
  | cons name rest ih =>
      unfold fate at listed
      split at listed
      · cases listed
      cases looked : fileSystem.lookup identity name with
      | none =>
          rw [looked] at listed
          cases listed
      | some entry =>
          rw [looked] at listed
          dsimp only at listed
          simp only [FileSystem.fileAt, looked, Option.bind_some]
          split at listed
          · cases listed
          cases leads : entry.directory? with
          | some next =>
              rw [leads] at listed
              exact ih listed
          | none =>
              rw [leads] at listed
              dsimp only at listed ⊢
              split at listed
              · rename_i last
                rw [if_pos last]
                exact leafFate_eq_file.mp listed
              · cases listed

/-- An ignored path, or one below an ignored directory. -/
theorem ignored_of_skipped {ancestors : List Identity} {identity : Identity}
    {logical rest : List String}
    (skipped : fate fileSystem ignores ancestors identity logical rest = .skipped) :
    ∃ front back, rest = front ++ back ∧ front ≠ [] ∧
      isIgnored ignores (joinSlash (logical ++ front)) = true := by
  induction rest generalizing ancestors identity logical with
  | nil =>
      unfold fate at skipped
      split at skipped <;> cases skipped
  | cons name rest ih =>
      unfold fate at skipped
      split at skipped
      · cases skipped
      split at skipped
      · cases skipped
      split at skipped
      · rename_i ignored
        exact ⟨[name], rest, rfl, List.cons_ne_nil _ _, ignored⟩
      split at skipped
      · obtain ⟨front, back, rfl, -, ignored⟩ := ih skipped
        refine ⟨name :: front, back, rfl, List.cons_ne_nil _ _, ?_⟩
        rw [List.append_assoc] at ignored
        exact ignored
      · split at skipped
        · exact absurd skipped (leafFate_ne_skipped _)
        · cases skipped

/-- Nothing is listed below a path that was excluded or is a file. -/
theorem fate_stopped {ancestors : List Identity} {identity : Identity}
    {logical front back : List String} (more : back ≠ [])
    (stops : fate fileSystem ignores ancestors identity logical front = .excluded ∨
      ∃ content, fate fileSystem ignores ancestors identity logical front = .file content) :
    fate fileSystem ignores ancestors identity logical (front ++ back) = .excluded ∨
      fate fileSystem ignores ancestors identity logical (front ++ back) = .absent := by
  induction front generalizing ancestors identity logical with
  | nil =>
      have cyclic : identity ∈ ancestors := by
        unfold fate at stops
        by_contra fresh
        rw [if_neg fresh] at stops
        rcases stops with impossible | ⟨_, impossible⟩ <;> cases impossible
      cases back <;> simp [fate, cyclic]
  | cons name rest ih =>
      rw [List.cons_append]
      unfold fate at stops ⊢
      split
      · simp
      rename_i fresh
      rw [if_neg fresh] at stops
      cases looked : fileSystem.lookup identity name with
      | none => simp
      | some entry =>
          rw [looked] at stops
          dsimp only at stops ⊢
          split
          · rename_i ignored
            rw [if_pos ignored] at stops
            rcases stops with impossible | ⟨_, impossible⟩ <;> cases impossible
          · rename_i visible
            rw [if_neg visible] at stops
            cases leads : entry.directory? with
            | some next =>
                rw [leads] at stops
                exact ih stops
            | none => simp [more]

theorem fate_append {ancestors : List Identity} {identity : Identity}
    {logical front : List String} (back : List String)
    (stops : fate fileSystem ignores ancestors identity logical front = .excluded ∨
      ∃ content, fate fileSystem ignores ancestors identity logical front = .file content) :
    fate fileSystem ignores ancestors identity logical (front ++ back) ≠ .skipped := by
  by_cases more : back = []
  · rw [more, List.append_nil]
    rcases stops with excluded | ⟨content, isFile⟩
    · simp [excluded]
    · simp [isFile]
  · rcases fate_stopped more stops with excluded | isAbsent
    · simp [excluded]
    · simp [isAbsent]

/-- The walk is at `logical`, in the directory `identity`, below `ancestors`. -/
structure Located (fileSystem : FileSystem) (ignores : String → Bool)
    (ancestors : List Identity) (identity : Identity) (logical : List String) : Prop where
  fates : ∀ rest, fileSystem.fateOf ignores (logical ++ rest) =
    fate fileSystem ignores ancestors identity logical rest
  plain : ∀ component ∈ logical, Plain component
  top : logical = [] → ancestors = []

theorem Located.root : Located fileSystem ignores [] fileSystem.root [] :=
  ⟨fun _ => rfl, fun _ member => absurd member List.not_mem_nil, fun _ => rfl⟩

theorem plain_concat {logical : List String} (plain : ∀ component ∈ logical, Plain component)
    {name : String} (plainName : Plain name) :
    ∀ component ∈ logical ++ [name], Plain component := by
  intro component member
  rcases List.mem_append.mp member with old | new
  · exact plain component old
  · exact List.mem_singleton.mp new ▸ plainName

theorem Located.descend {ancestors : List Identity} {identity next : Identity}
    {logical : List String} {name : String} {entry : Entry}
    (located : Located fileSystem ignores ancestors identity logical)
    (fresh : identity ∉ ancestors) (plainName : Plain name)
    (looked : fileSystem.lookup identity name = some entry)
    (visible : isIgnored ignores (joinSlash (logical ++ [name])) = false)
    (leads : entry.directory? = some next) :
    Located fileSystem ignores (identity :: ancestors) next (logical ++ [name]) := by
  refine ⟨fun rest => ?_, plain_concat located.plain plainName, fun empty => by simp at empty⟩
  rw [List.append_assoc, located.fates, List.singleton_append, fate, if_neg fresh, looked]
  simp only [visible, leads, Bool.false_eq_true, ↓reduceIte]

theorem Located.leaf {ancestors : List Identity} {identity : Identity}
    {logical : List String} {name : String} {entry : Entry}
    (located : Located fileSystem ignores ancestors identity logical)
    (fresh : identity ∉ ancestors)
    (looked : fileSystem.lookup identity name = some entry)
    (visible : isIgnored ignores (joinSlash (logical ++ [name])) = false)
    (leads : entry.directory? = none) :
    fileSystem.fateOf ignores (logical ++ [name]) = leafFate entry := by
  rw [located.fates, fate, if_neg fresh, looked]
  simp only [visible, leads, Bool.false_eq_true, ↓reduceIte]

/-- A directory below itself is excluded. -/
theorem Located.cyclic {ancestors : List Identity} {identity : Identity} {logical : List String}
    (located : Located fileSystem ignores ancestors identity logical)
    (cyclic : identity ∈ ancestors) :
    ∀ outer ∈ (ProtocolPath.parse (joinSlash logical)).toOption,
      fileSystem.fateOf ignores outer.components = .excluded := by
  intro outer parsed
  have text := ProtocolPath.parse_ok (Except.toOption_eq_some.mp parsed)
  have nonempty : logical ≠ [] := fun empty => by
    rw [located.top empty] at cyclic
    exact absurd cyclic List.not_mem_nil
  rw [ProtocolPath.components, text, splitSlash_joinSlash nonempty located.plain,
    ← List.append_nil logical, located.fates, fate, if_pos cyclic]

theorem components_of_parse {logical : List String} {name : String} {path : ProtocolPath}
    (plain : ∀ component ∈ logical ++ [name], Plain component)
    (parsed : ProtocolPath.parse (joinSlash (logical ++ [name])) = .ok path) :
    path.components = logical ++ [name] := by
  rw [ProtocolPath.components, ProtocolPath.parse_ok parsed]
  exact splitSlash_joinSlash (by simp) plain

theorem parse_logical {logical : List String} (nonempty : logical ≠ [])
    (plain : ∀ component ∈ logical, Plain component) :
    ∃ path, ProtocolPath.parse (joinSlash logical) = .ok path ∧ path.components = logical :=
  ⟨_, ProtocolPath.parse_of_valid (validate_joinSlash nonempty plain),
    splitSlash_joinSlash nonempty plain⟩

theorem insertDiskFile_ok {path : ProtocolPath} {disk : DiskFile} {context after : WalkContext}
    (done : insertDiskFile path disk context = .ok after) :
    (after.ignores = context.ignores ∧ after.files = context.files.insert path disk ∧
      after.excludedPrefixes = context.excludedPrefixes) ∨
    after = context.exclude (some path) .pathRejected := by
  unfold insertDiskFile at done
  split at done
  · dsimp only at done
    split at done
    · cases done
      exact Or.inr rfl
    · cases done
  · cases done
    exact Or.inl ⟨rfl, rfl, rfl⟩

/-- Nothing listed or excluded is forgotten. -/
structure Grows (context after : WalkContext) : Prop where
  files : ∀ path : ProtocolPath, (context.files[path]?).isSome = true →
    (after.files[path]?).isSome = true
  excluded : ∀ outer ∈ context.excludedPrefixes, outer ∈ after.excludedPrefixes
  ignores_eq : after.ignores = context.ignores

theorem Grows.refl (context : WalkContext) : Grows context context :=
  ⟨fun _ present => present, fun _ member => member, rfl⟩

theorem Grows.trans {first second third : WalkContext} (front : Grows first second)
    (back : Grows second third) : Grows first third :=
  ⟨fun path present => back.files path (front.files path present),
    fun outer member => back.excluded outer (front.excluded outer member),
    back.ignores_eq.trans front.ignores_eq⟩

theorem grows_exclude (context : WalkContext) (path : Option ProtocolPath)
    (issue : CollectionIssue) : Grows context (context.exclude path issue) :=
  ⟨fun _ present => present, fun _ member => List.mem_append_left _ member, rfl⟩

/-- A path the deletion loop passes over: it is listed, or below an excluded prefix. -/
def WalkContext.Covers (context : WalkContext) (text : String) : Prop :=
  (∃ path : ProtocolPath, path.text = text ∧ (context.files[path]?).isSome = true) ∨
    context.isExcluded text = true

theorem WalkContext.Covers.mono {context after : WalkContext} {text : String}
    (covered : context.Covers text) (grows : Grows context after) : after.Covers text := by
  rcases covered with ⟨path, same, present⟩ | excluded
  · exact Or.inl ⟨path, same, grows.files path present⟩
  · refine Or.inr ?_
    simp only [WalkContext.isExcluded, List.any_eq_true] at excluded ⊢
    obtain ⟨outer, member, covering⟩ := excluded
    exact ⟨outer, grows.excluded outer member, covering⟩

theorem covers_exclude (context : WalkContext) (path : ProtocolPath) (issue : CollectionIssue)
    {text : String} (covering : covers path.text text = true) :
    (context.exclude (some path) issue).Covers text := by
  refine Or.inr ?_
  simp only [WalkContext.isExcluded, List.any_eq_true]
  exact ⟨path.text, List.mem_append_right _ List.mem_cons_self, covering⟩

theorem grows_insert {path : ProtocolPath} {disk : DiskFile} {context after : WalkContext}
    (done : insertDiskFile path disk context = .ok after) : Grows context after := by
  rcases insertDiskFile_ok done with ⟨sameIgnores, files, prefixes⟩ | rfl
  · refine ⟨fun other present => ?_, fun outer member => by rwa [prefixes], sameIgnores⟩
    rw [files, OrderedMap.getElem?_insert]
    split
    · rfl
    · exact present
  · exact grows_exclude context _ _

theorem covers_insert {path : ProtocolPath} {disk : DiskFile} {context after : WalkContext}
    (done : insertDiskFile path disk context = .ok after) : after.Covers path.text := by
  rcases insertDiskFile_ok done with ⟨-, files, -⟩ | rfl
  · refine Or.inl ⟨path, rfl, ?_⟩
    rw [files, OrderedMap.getElem?_insert, if_pos rfl]
    rfl
  · exact covers_exclude context path _ ((covers_iff _ _).mpr (List.prefix_refl _))

end

section
variable [Blake3] {fileSystem : FileSystem} {ignores : String → Bool}

/-- The ways an entry can be dealt with. -/
theorem walkEntry_ok
    {descend : Identity → List String → WalkContext → Except ScanError WalkContext}
    {logical : List String} {context after : WalkContext} {label : Option String} {entry : Entry}
    (done : walkEntry descend logical context (label, entry) = .ok after) :
    (after = context.exclude none .pathRejected ∧ ∀ name ∈ label, ∀ path,
      ProtocolPath.parse (joinSlash (logical ++ [name])) ≠ .ok path) ∨
    ∃ name path, label = some name ∧
      ProtocolPath.parse (joinSlash (logical ++ [name])) = .ok path ∧
      ((isIgnored context.ignores path.text = true ∧ after = context) ∨
      (isIgnored context.ignores path.text = false ∧
        ((∃ next, entry.directory? = some next ∧
          descend next (logical ++ [name]) context = .ok after) ∨
        (∃ file, leafFate entry = .file (.stable file) ∧ entry.directory? = none ∧
          insertDiskFile path file.fingerprint context = .ok after) ∨
        (entry.directory? = none ∧ (leafFate entry = .excluded ∨
            ∃ content, leafFate entry = .file content) ∧
          ∃ issue, after = context.exclude (some path) issue) ∨
        (leafFate entry = .absent ∧ entry.directory? = none ∧ after = context)))) := by
  unfold walkEntry at done
  cases label with
  | none =>
      cases done
      exact Or.inl ⟨rfl, fun _ impossible => by cases impossible⟩
  | some name =>
      cases parsed : ProtocolPath.parse (joinSlash (logical ++ [name])) with
      | error reason =>
          simp only [parsed] at done
          cases done
          refine Or.inl ⟨rfl, fun other same path valid => ?_⟩
          cases same
          rw [parsed] at valid
          cases valid
      | ok path =>
          refine Or.inr ⟨name, path, rfl, parsed, ?_⟩
          simp only [parsed] at done
          change (if isIgnored context.ignores path.text = true then _ else _) = _ at done
          split at done
          · rename_i ignored
            cases done
            exact Or.inl ⟨ignored, rfl⟩
          · rename_i visible
            refine Or.inr ⟨Bool.eq_false_iff.mpr visible, ?_⟩
            rcases entry with identity | (file | _ | _) | (identity | (file | _ | _) | _) | _
            · exact Or.inl ⟨identity, rfl, done⟩
            · exact Or.inr (Or.inl ⟨file, rfl, rfl, done⟩)
            · cases done
              exact Or.inr (Or.inr (Or.inl ⟨rfl, Or.inr ⟨_, rfl⟩, _, rfl⟩))
            · cases done
            · exact Or.inl ⟨identity, rfl, done⟩
            · exact Or.inr (Or.inl ⟨file, rfl, rfl, done⟩)
            · cases done
              exact Or.inr (Or.inr (Or.inl ⟨rfl, Or.inr ⟨_, rfl⟩, _, rfl⟩))
            · cases done
              exact Or.inr (Or.inr (Or.inl ⟨rfl, Or.inr ⟨_, rfl⟩, _, rfl⟩))
            · cases done
              exact Or.inr (Or.inr (Or.inl ⟨rfl, Or.inl rfl, _, rfl⟩))
            · cases done
              exact Or.inr (Or.inr (Or.inr ⟨rfl, rfl, rfl⟩))

/-- Everything listed is a regular file the walk can reach, and everything excluded is a path
at which the walk stops. -/
structure Sound (fileSystem : FileSystem) (ignores : String → Bool) (context : WalkContext) :
    Prop where
  ignores_eq : context.ignores = ignores
  listed : ∀ (path : ProtocolPath) disk, context.files[path]? = some disk →
    ∃ file, fileSystem.fateOf ignores path.components = .file (.stable file) ∧
      disk = file.fingerprint
  excluded : ∀ outer ∈ context.excludedPrefixes,
    fileSystem.fateOf ignores (splitSlash outer) = .excluded ∨
      ∃ content, fileSystem.fateOf ignores (splitSlash outer) = .file content

theorem Sound.exclude {context : WalkContext} (sound : Sound fileSystem ignores context)
    {path : Option ProtocolPath} {issue : CollectionIssue}
    (stops : ∀ outer ∈ path, fileSystem.fateOf ignores outer.components = .excluded ∨
      ∃ content, fileSystem.fateOf ignores outer.components = .file content) :
    Sound fileSystem ignores (context.exclude path issue) := by
  refine ⟨sound.ignores_eq, sound.listed, fun outer member => ?_⟩
  rcases List.mem_append.mp member with old | new
  · exact sound.excluded outer old
  · cases path with
    | none => cases new
    | some path =>
        obtain rfl : outer = path.text := List.mem_singleton.mp new
        exact stops path rfl

theorem Sound.insert {context after : WalkContext} (sound : Sound fileSystem ignores context)
    {path : ProtocolPath} {file : RegularFile}
    (reached : fileSystem.fateOf ignores path.components = .file (.stable file))
    (done : insertDiskFile path file.fingerprint context = .ok after) :
    Sound fileSystem ignores after := by
  rcases insertDiskFile_ok done with ⟨sameIgnores, files, prefixes⟩ | rfl
  · refine ⟨sameIgnores.trans sound.ignores_eq, fun other disk present => ?_, ?_⟩
    · rw [files, OrderedMap.getElem?_insert] at present
      split at present
      · rename_i same
        subst same
        cases present
        exact ⟨file, reached, rfl⟩
      · exact sound.listed other disk present
    · rw [prefixes]
      exact sound.excluded
  · refine sound.exclude fun outer same => ?_
    cases same
    exact Or.inr ⟨_, reached⟩

/-- The walk of a directory keeps its listing sound. -/
theorem walkDirectory_sound {depth : Nat} {ancestors : List Identity} {identity : Identity}
    {logical : List String} {context after : WalkContext}
    (located : Located fileSystem ignores ancestors identity logical)
    (sound : Sound fileSystem ignores context)
    (done : walkDirectory fileSystem depth ancestors identity logical context = .ok after) :
    Sound fileSystem ignores after := by
  induction depth generalizing ancestors identity logical context after with
  | zero => cases done
  | succ depth ih =>
      unfold walkDirectory at done
      split at done
      · rename_i cyclic
        cases done
        exact sound.exclude fun outer parsed => Or.inl (located.cyclic cyclic outer parsed)
      · rename_i fresh
        split at done
        · cases done
        · rename_i directory listed
          refine foldlM_invariant (Sound fileSystem ignores) sound ?_ done
          rintro context ⟨label, entry⟩ after member sound step
          rcases walkEntry_ok step with ⟨rfl, -⟩ | ⟨name, path, rfl, parsed, cases⟩
          · exact sound.exclude fun outer impossible => by cases impossible
          have looked : fileSystem.lookup identity name = some entry :=
            lookup_eq_some.mpr ⟨directory, listed, member⟩
          have plainName : Plain name := directory.plain _ member name rfl
          have components := components_of_parse (plain_concat located.plain plainName) parsed
          rw [sound.ignores_eq, ProtocolPath.parse_ok parsed] at cases
          rcases cases with ⟨-, rfl⟩ | ⟨visible, cases⟩
          · exact sound
          have leaf := located.leaf fresh looked visible
          rw [← components] at leaf
          rcases cases with ⟨next, leads, descended⟩ | ⟨file, isFile, leads, inserted⟩ |
            ⟨leads, stops, issue, rfl⟩ | ⟨-, -, rfl⟩
          · exact ih (located.descend fresh plainName looked visible leads) sound descended
          · exact sound.insert ((leaf leads).trans isFile) inserted
          · refine sound.exclude fun outer same => ?_
            cases same
            rw [leaf leads]
            exact stops
          · exact sound

theorem grows_walkEntry
    {descend : Identity → List String → WalkContext → Except ScanError WalkContext}
    (grows : ∀ identity logical context after, descend identity logical context = .ok after →
      Grows context after)
    {logical : List String} {context after : WalkContext} {entry : Option String × Entry}
    (done : walkEntry descend logical context entry = .ok after) : Grows context after := by
  rcases walkEntry_ok done with ⟨rfl, -⟩ | ⟨name, path, -, -, ⟨-, rfl⟩ | ⟨-, ⟨next, -, descended⟩ |
    ⟨file, -, -, inserted⟩ | ⟨-, -, issue, rfl⟩ | ⟨-, -, rfl⟩⟩⟩
  · exact grows_exclude context _ _
  · exact Grows.refl _
  · exact grows next _ context after descended
  · exact grows_insert inserted
  · exact grows_exclude context _ _
  · exact Grows.refl _

theorem grows_walkDirectory {depth : Nat} {ancestors : List Identity} {identity : Identity}
    {logical : List String} {context after : WalkContext}
    (done : walkDirectory fileSystem depth ancestors identity logical context = .ok after) :
    Grows context after := by
  induction depth generalizing ancestors identity logical context after with
  | zero => cases done
  | succ depth ih =>
      unfold walkDirectory at done
      split at done
      · cases done
        exact grows_exclude context _ _
      · split at done
        · cases done
        · exact foldlM_invariant (Grows context) (Grows.refl context)
            (fun middle entry next _ grown step =>
              grown.trans (grows_walkEntry (fun _ _ _ _ descended => ih descended) step)) done

/-- The walk of a directory covers every regular file below it that is not skipped. -/
theorem walkDirectory_covers {depth : Nat} {ancestors : List Identity} {identity : Identity}
    {logical rest : List String} {context after : WalkContext}
    (located : Located fileSystem ignores ancestors identity logical)
    (same : context.ignores = ignores)
    (plainRest : ∀ component ∈ rest, Plain component)
    (stops : fate fileSystem ignores ancestors identity logical rest = .excluded ∨
      ∃ content, fate fileSystem ignores ancestors identity logical rest = .file content)
    (done : walkDirectory fileSystem depth ancestors identity logical context = .ok after) :
    after.Covers (joinSlash (logical ++ rest)) := by
  induction depth generalizing ancestors identity logical rest context after with
  | zero => cases done
  | succ depth ih =>
      unfold walkDirectory at done
      split at done
      · rename_i cyclic
        cases done
        have nonempty : logical ≠ [] := fun empty => by
          rw [located.top empty] at cyclic
          exact absurd cyclic List.not_mem_nil
        obtain ⟨path, parsed, components⟩ := parse_logical nonempty located.plain
        rw [parsed]
        refine covers_exclude context path _ ((covers_iff _ _).mpr ?_)
        have plain : ∀ component ∈ logical ++ rest, Plain component := fun component member =>
          (List.mem_append.mp member).elim (located.plain component) (plainRest component)
        rw [splitSlash_joinSlash (by simp [nonempty]) plain]
        exact ⟨rest, by rw [← components]; rfl⟩
      · rename_i fresh
        cases rest with
        | nil =>
            rw [fate, if_neg fresh] at stops
            rcases stops with impossible | ⟨_, impossible⟩ <;> cases impossible
        | cons name rest =>
            rw [fate, if_neg fresh] at stops
            cases looked : fileSystem.lookup identity name with
            | none =>
                rw [looked] at stops
                rcases stops with impossible | ⟨_, impossible⟩ <;> cases impossible
            | some entry =>
                rw [looked] at stops
                dsimp only at stops
                obtain ⟨directory, listed, member⟩ := lookup_eq_some.mp looked
                rw [listed] at done
                dsimp only at done
                obtain ⟨front, back, order⟩ := List.append_of_mem member
                rw [order] at done
                obtain ⟨before, start, done⟩ := foldlM_append_ok done
                obtain ⟨middle, step, done⟩ := foldlM_cons_ok done
                have grow : ∀ (entries : List (Option String × Entry)) (context after),
                    entries.foldlM (walkEntry (walkDirectory fileSystem depth
                      (identity :: ancestors)) logical) context = .ok after →
                    Grows context after := fun entries context after folded =>
                  foldlM_invariant (Grows context) (Grows.refl context)
                    (fun _ _ _ _ grown step => grown.trans
                      (grows_walkEntry (fun _ _ _ _ walked => grows_walkDirectory walked) step))
                    folded
                have sameBefore := (grow _ _ _ start).ignores_eq.trans same
                refine WalkContext.Covers.mono ?_ (grow _ _ _ done)
                rw [List.forall_mem_cons] at plainRest
                obtain ⟨plainName, plainRest⟩ := plainRest
                have plainHere := plain_concat located.plain plainName
                obtain ⟨path, parsed, -⟩ := parse_logical (by simp) plainHere
                split at stops
                · rcases stops with impossible | ⟨_, impossible⟩ <;> cases impossible
                rename_i visible
                rcases walkEntry_ok step with ⟨-, unparsed⟩ | ⟨_, path, label, parsed, cases⟩
                · exact absurd parsed (unparsed name rfl path)
                cases label
                have text := ProtocolPath.parse_ok parsed
                rw [text, sameBefore] at cases
                rcases cases with ⟨ignored, -⟩ | ⟨visible, cases⟩
                · exact absurd ignored visible
                have here : entry.directory? = none → rest = [] := fun leads => by
                  by_contra more
                  rw [leads] at stops
                  simp only [more, ↓reduceIte] at stops
                  rcases stops with impossible | ⟨_, impossible⟩ <;> cases impossible
                rcases cases with ⟨next, leads, descended⟩ | ⟨file, isFile, leads, inserted⟩ |
                  ⟨leads, -, issue, rfl⟩ | ⟨isAbsent, leads, -⟩
                · rw [leads] at stops
                  have below := ih (located.descend fresh plainName looked visible leads)
                    sameBefore plainRest stops descended
                  rwa [List.append_assoc] at below
                · rw [here leads, ← text]
                  exact covers_insert inserted
                · rw [here leads, ← text]
                  exact covers_exclude before path issue
                    ((covers_iff _ _).mpr (List.prefix_refl _))
                · rw [leads, here leads] at stops
                  simp only [isAbsent, ↓reduceIte] at stops
                  rcases stops with impossible | ⟨_, impossible⟩ <;> cases impossible

theorem walkEntry_depth
    {descend : Identity → List String → WalkContext → Except ScanError WalkContext}
    {logical : List String} {context : WalkContext} {entry : Option String × Entry}
    (failed : walkEntry descend logical context entry = .error .depth) :
    ∃ next path, entry.2.directory? = some next ∧ descend next path context = .error .depth := by
  have inserted (path : ProtocolPath) (disk : DiskFile) :
      insertDiskFile path disk context ≠ .error .depth := by
    unfold insertDiskFile
    split
    · dsimp only
      split <;> simp
    · simp
  unfold walkEntry at failed
  dsimp only at failed
  split at failed
  · cases failed
  · rename_i logical path _
    split at failed
    · cases failed
    · obtain ⟨label, entry⟩ := entry
      rcases entry with identity | (file | _ | _) | (identity | (file | _ | _) | _) | _
      · exact ⟨identity, logical, rfl, failed⟩
      · exact absurd failed (inserted _ _)
      · cases failed
      · cases failed
      · exact ⟨identity, logical, rfl, failed⟩
      · exact absurd failed (inserted _ _)
      all_goals cases failed

/-- The bound on the recursion is never reached. -/
theorem walkDirectory_depth {depth : Nat} {ancestors : List Identity} {identity : Identity}
    {logical : List String} {context : WalkContext} (distinct : ancestors.Nodup)
    (known : ancestors ⊆ fileSystem.directories.map Prod.fst)
    (enough : fileSystem.directories.length < ancestors.length + depth) :
    walkDirectory fileSystem depth ancestors identity logical context ≠ .error .depth := by
  induction depth generalizing ancestors identity logical context with
  | zero =>
      have bound := distinct.length_le_of_subset known
      rw [List.length_map] at bound
      omega
  | succ depth ih =>
      unfold walkDirectory
      split
      · simp
      rename_i fresh
      split
      · simp
      rename_i directory listed
      intro failure
      obtain ⟨middle, entry, inside, failed⟩ := foldlM_error failure
      obtain ⟨next, path, leads, failed⟩ := walkEntry_depth failed
      refine ih (List.nodup_cons.mpr ⟨fresh, distinct⟩) ?_ ?_ failed
      · obtain ⟨front, back, table, -⟩ := List.lookup_eq_some_iff.mp listed
        refine List.cons_subset.mpr ⟨?_, known⟩
        rw [table]
        simp
      · rw [List.length_cons]
        omega

section walk
variable {collection : String} {comparisonKey : String → String} {context : WalkContext}

theorem walk_depth : walk fileSystem collection ignores comparisonKey ≠ .error .depth :=
  walkDirectory_depth List.nodup_nil (List.nil_subset _) (by simp)

theorem walk_sound (done : walk fileSystem collection ignores comparisonKey = .ok context) :
    Sound fileSystem ignores context := by
  refine walkDirectory_sound Located.root ⟨rfl, fun path disk present => ?_, ?_⟩ done
  · rw [Std.ExtTreeMap.getElem?_empty] at present
    cases present
  · intro outer member
    exact absurd member List.not_mem_nil

/-- The walk passes over no regular file, unless a pattern hides it. -/
theorem walk_covers (done : walk fileSystem collection ignores comparisonKey = .ok context)
    {path : ProtocolPath} {content : Read}
    (present : fileSystem.fileAt fileSystem.root path.components = some content)
    (visible : fileSystem.fateOf ignores path.components ≠ .skipped) :
    context.Covers path.text := by
  have covered := walkDirectory_covers Located.root rfl path.components_plain
    ((fate_of_fileAt present).resolve_left visible |>.imp id fun file => ⟨_, file⟩) done
  rwa [List.nil_append, ProtocolPath.joinSlash_components] at covered

/-- Nothing below an ignored directory is listed or excluded. -/
theorem walk_skipped (done : walk fileSystem collection ignores comparisonKey = .ok context)
    {path : ProtocolPath} (skipped : fileSystem.fateOf ignores path.components = .skipped) :
    context.files[path]? = none ∧ context.isExcluded path.text = false := by
  have sound := walk_sound done
  refine ⟨?_, ?_⟩
  · cases present : context.files[path]? with
    | none => rfl
    | some disk =>
        obtain ⟨file, listed, -⟩ := sound.listed path disk present
        rw [skipped] at listed
        cases listed
  · rw [WalkContext.isExcluded, List.any_eq_false]
    intro outer member covering
    obtain ⟨rest, components⟩ := (covers_iff _ _).mp covering
    refine fate_append rest (sound.excluded outer member) ?_
    rw [components]
    exact skipped

/-- Outside the hidden and the excluded paths the listing is the disk. -/
theorem walk_files (done : walk fileSystem collection ignores comparisonKey = .ok context)
    {path : ProtocolPath} (visible : fileSystem.fateOf ignores path.components ≠ .skipped)
    (included : context.isExcluded path.text = false) (disk : DiskFile) :
    context.files[path]? = some disk ↔
      ∃ file, fileSystem.fileAt fileSystem.root path.components = some (.stable file) ∧
        disk = file.fingerprint := by
  constructor
  · intro listed
    obtain ⟨file, reached, same⟩ := (walk_sound done).listed path disk listed
    exact ⟨file, fileAt_of_fate reached, same⟩
  · rintro ⟨file, present, rfl⟩
    rcases walk_covers done present visible with ⟨other, same, listed⟩ | excluded
    · obtain rfl := ProtocolPath.ext_text same
      obtain ⟨disk, found⟩ := Option.isSome_iff_exists.mp listed
      obtain ⟨file', reached, rfl⟩ := (walk_sound done).listed other disk found
      have found' := fileAt_of_fate reached
      rw [present] at found'
      cases found'
      exact found
    · rw [included] at excluded
      cases excluded

end walk

end

end Skillsync
