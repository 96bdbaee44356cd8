import Skillsync.Installer

set_option autoImplicit false

namespace Skillsync

open Fallible

/-- What `stable_file` finds: a regular file that two reads of its metadata agree on, one that
changed during each of three attempts, or a failure of the filesystem. -/
inductive Read
  | stable (file : RegularFile)
  | unstable
  | failed
deriving DecidableEq

/-- The device and inode of a directory. -/
abbrev Identity := Nat × Nat

instance : LawfulBEq Identity := inferInstance

/-- Where a symlink leads: to a directory or a file below the root, or elsewhere. -/
inductive Target
  | directory (identity : Identity)
  | file (content : Read)
  | elsewhere
deriving DecidableEq

inductive Entry
  | directory (identity : Identity)
  | file (content : Read)
  | symlink (target : Target)
  | other
deriving DecidableEq

/-- The directory an entry leads to. -/
def Entry.directory? : Entry → Option Identity
  | .directory identity => some identity
  | .symlink (.directory identity) => some identity
  | _ => none

/-- The regular file an entry leads to. -/
def Entry.file? : Entry → Option Read
  | .file content => some content
  | .symlink (.file content) => some content
  | _ => none

/-- The entries of a directory in the order of their file names; `none` is a name that is not
UTF-8. -/
structure Directory where
  entries : List (Option String × Entry)
  plain : ∀ entry ∈ entries, ∀ name ∈ entry.1, Plain name
  distinct : (entries.filterMap Prod.fst).Nodup

/-- The directories below a root, by identity. One that is not listed cannot be read. -/
structure FileSystem where
  root : Identity
  directories : List (Identity × Directory)

inductive ScanError
  | io
  | state (source : StateError)
  | record (source : RecordError)
  | path (source : PathError)
  | unstableRoot
  /-- The bound on the recursion, which is never reached. -/
  | depth
deriving DecidableEq

def internalPrefix : String := ".skillsync-tmp-"

/-- `is_ignored`; the patterns are any predicate. -/
def isIgnored (ignores : String → Bool) (text : String) : Bool :=
  ((splitSlash text).any fun component => component.startsWith internalPrefix) || ignores text

/-- `LocalPathIndex`, for one way to compare filenames. -/
structure LocalPathIndex where
  comparisonKey : String → String
  paths : OrderedMap String ProtocolPath

namespace LocalPathIndex

def insert (index : LocalPathIndex) (path : ProtocolPath) : Except PathError LocalPathIndex :=
  let key := index.comparisonKey path.text
  match index.paths[key]? with
  | some existing =>
      if existing ≠ path then .error (.collision existing.text path.text)
      else .ok { index with paths := index.paths.insert key path }
  | none => .ok { index with paths := index.paths.insert key path }

end LocalPathIndex

/-- `DiskFile` has the fields of a fingerprint. -/
abbrev DiskFile := FileFingerprint

structure WalkContext where
  collection : String
  ignores : String → Bool
  index : LocalPathIndex
  files : OrderedMap ProtocolPath DiskFile
  excludedPrefixes : List String
  warnings : List OperationalEvent

namespace WalkContext

/-- `exclude` -/
def exclude (context : WalkContext) (path : Option ProtocolPath) (issue : CollectionIssue) :
    WalkContext :=
  { context with
    excludedPrefixes := context.excludedPrefixes ++ (path.map ProtocolPath.text).toList
    warnings := context.warnings ++ [.collectionWarning context.collection path issue] }

/-- `is_excluded` -/
def isExcluded (context : WalkContext) (text : String) : Bool :=
  context.excludedPrefixes.any fun outer => covers outer text

end WalkContext

section
variable [Blake3]

/-- `insert_disk_file` -/
def insertDiskFile (protocol : ProtocolPath) (disk : DiskFile) (context : WalkContext) :
    Except ScanError WalkContext :=
  match context.index.insert protocol with
  | .error reason =>
      let excluded := context.exclude (some protocol) .pathRejected
      match reason with
      | .collision _ _ => .ok excluded
      | reason => .error (.path reason)
  | .ok index => .ok { context with index := index, files := context.files.insert protocol disk }

/-- One entry of `walk_directory`; `descend` walks a directory at a logical path. -/
def walkEntry (descend : Identity → List String → WalkContext → Except ScanError WalkContext)
    (logical : List String) (context : WalkContext) (entry : Option String × Entry) :
    Except ScanError WalkContext :=
  let parsed : Except PathError (List String × ProtocolPath) := do
    let some name := entry.1 | throw .invalidUtf8
    let path ← ProtocolPath.parse (joinSlash (logical ++ [name]))
    return (logical ++ [name], path)
  match parsed with
  | .error _ => .ok (context.exclude none .pathRejected)
  | .ok (logical, protocol) =>
      if isIgnored context.ignores protocol.text then .ok context
      else
        match entry.2 with
        | .symlink (.directory identity) => descend identity logical context
        | .symlink (.file (.stable file)) => insertDiskFile protocol file.fingerprint context
        | .symlink _ => .ok (context.exclude (some protocol) .symlinkEscape)
        | .directory identity => descend identity logical context
        | .file (.stable file) => insertDiskFile protocol file.fingerprint context
        | .file .unstable => .ok (context.exclude (some protocol) .pathRejected)
        | .file .failed => .error .io
        | .other => .ok context

/-- `walk_directory`; `depth` bounds the nesting of directories. -/
def walkDirectory (fileSystem : FileSystem) : Nat → List Identity → Identity → List String →
    WalkContext → Except ScanError WalkContext
  | 0, _, _, _, _ => .error .depth
  | depth + 1, ancestors, identity, logical, context =>
      if identity ∈ ancestors then
        .ok (context.exclude (ProtocolPath.parse (joinSlash logical)).toOption .symlinkCycle)
      else
        match fileSystem.directories.lookup identity with
        | none => .error .io
        | some directory =>
            directory.entries.foldlM
              (walkEntry (walkDirectory fileSystem depth (identity :: ancestors)) logical) context

/-- The walk of a whole collection root. -/
def walk (fileSystem : FileSystem) (collection : String) (ignores : String → Bool)
    (comparisonKey : String → String) : Except ScanError WalkContext :=
  walkDirectory fileSystem (fileSystem.directories.length + 1) [] fileSystem.root []
    ⟨collection, ignores, ⟨comparisonKey, ∅⟩, ∅, [], []⟩

end

end Skillsync
