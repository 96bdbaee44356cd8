import Skillsync.Effects
import Skillsync.FileTree
import Skillsync.Installer

set_option autoImplicit false

namespace Skillsync.DirectoryTree

open Effects FileTree

variable {comparison : Comparison String} {α : Type}

/-- A call to the filesystem, to the random generator or to the hook. -/
inductive Call
  | hook (stage : InstallStage)
  | clone
  | readDirectory
  | metadata
  | openDirectory
  | createDirectory
  | sync
  | random
  | createFile
  | write
  | flush
  | setTimes
  | rename
  | remove
deriving DecidableEq

/-- Which calls fail; the number is the one of the calls made before. -/
abbrev Faults := Call → Nat → Bool

abbrev Files (comparison : Comparison String) := Tree comparison RegularFile

structure CallState (comparison : Comparison String) where
  tree : Files comparison
  calls : Nat

/-- A function of the installer, below the directory that it has opened as the root. -/
abbrev InstallM (comparison : Comparison String) := Effect (CallState comparison) InstallError

/-- One call, which fails for `reason` or does `act`. -/
def call (faults : Faults) (kind : Call) (reason : InstallError)
    (act : Files comparison → Option (α × Files comparison)) : InstallM comparison α where
  run state :=
    if faults kind state.calls then (.error reason, { state with calls := state.calls + 1 })
    else
      match act state.tree with
      | some (value, tree) => (.ok value, ⟨tree, state.calls + 1⟩)
      | none => (.error reason, { state with calls := state.calls + 1 })

section
variable (faults : Faults)

/-- A call that changes nothing. -/
def observe (kind : Call) (reason : InstallError) (read : Files comparison → Option α) :
    InstallM comparison α :=
  call faults kind reason fun tree => (read tree).map fun value => (value, tree)

def hook (stage : InstallStage) : InstallM comparison Unit :=
  observe faults (.hook stage) .io fun _ => some ()

/-- `sync_dir` -/
def syncDir : InstallM comparison Unit := observe faults .sync .io fun _ => some ()

/-- `exact_entry_exists` -/
def exactEntryExists (parent : Nat) (name : String) : InstallM comparison Bool :=
  observe faults .readDirectory .io fun tree => some (tree.get parent name).isSome

/-- `symlink_metadata`; whether there is an entry. -/
def symlinkMetadata (parent : Nat) (name : String) : InstallM comparison Bool :=
  observe faults .metadata .io fun tree => some (tree.lookup parent name).isSome

/-- `open_dir`, for a path below a directory. -/
def openDir (directory : Nat) (relative : List String) (reason : InstallError) :
    InstallM comparison Nat :=
  observe faults .openDirectory reason fun tree => tree.resolve directory relative

def createDir (parent : Nat) (name : String) : InstallM comparison Unit :=
  call faults .createDirectory .io fun tree =>
    if (tree.lookup parent name).isSome then none else some ((), tree.addDirectory parent name)

/-- `remove_file`; `false` when there is no such entry. -/
def removeFile (parent : Nat) (name : String) : InstallM comparison Bool :=
  call faults .remove .io fun tree =>
    match tree.lookup parent name with
    | none => some (false, tree)
    | some (_, entry) => if entry.isDirectory then none else some (true, tree.erase parent name)

/-- The loop of `ensure_safe_parent`. -/
def ensureSafeParentIn (current : Nat) (logical : List String) :
    List String → InstallM comparison Unit
  | [] => pure ()
  | component :: rest => do
      let logical := logical ++ [component]
      if ← exactEntryExists faults current component then
        let next ← openDir faults 0 logical .unsafeDestination
        ensureSafeParentIn next logical rest
      else if ← symlinkMetadata faults current component then fail .localNameCollision
      else
        createDir faults current component
        let created ← openDir faults current [component] .io
        hook faults .beforeAncestorSync
        syncDir faults
        syncDir faults
        ensureSafeParentIn created logical rest

/-- `ensure_safe_parent` -/
def ensureSafeParent (relative : List String) : InstallM comparison Unit := do
  observe faults .clone .io fun _ => some ()
  ensureSafeParentIn faults 0 [] relative

/-- The loop of `open_existing_safe_parent`. -/
def openExistingSafeParentIn (current : Nat) (logical : List String) :
    List String → InstallM comparison (Option Nat)
  | [] => pure (some current)
  | component :: rest => do
      let logical := logical ++ [component]
      if ← exactEntryExists faults current component then
        let next ← openDir faults 0 logical .unsafeDestination
        openExistingSafeParentIn next logical rest
      else pure none

/-- `open_existing_safe_parent` -/
def openExistingSafeParent (relative : List String) : InstallM comparison (Option Nat) := do
  observe faults .clone .io fun _ => some ()
  openExistingSafeParentIn faults 0 [] relative

/-- `open_relative_dir` -/
def openRelativeDir (relative : List String) : InstallM comparison Nat :=
  if relative = [] then observe faults .clone .io fun _ => some 0 else openDir faults 0 relative .io

/-- `reject_concrete_collision` -/
def rejectConcreteCollision (parentRelative : List String) (fileName : String) :
    InstallM comparison Unit := do
  let parent ← openRelativeDir faults parentRelative
  if ← exactEntryExists faults parent fileName then pure ()
  else if ← symlinkMetadata faults parent fileName then fail .localNameCollision
  else pure ()

end

/-- The components of a path above its last one. -/
def parentRelative (path : ProtocolPath) : List String := path.components.dropLast

/-- `Path::file_name` -/
def fileName (path : ProtocolPath) : String := path.components.getLast path.components_ne_nil

/-- The removal of `materialize_tombstone`. -/
def removeTombstone (faults : Faults) (opened : Except InstallFault RootPath) (record : Record) :
    InstallM comparison Unit :=
  match record.kind, opened with
  | .file _ _, _ => fail .notTombstone
  | .tombstone, .error fault => fail fault.error
  | .tombstone, .ok _ => do
      match ← openExistingSafeParent faults (parentRelative record.path) with
      | none => pure ()
      | some parent =>
          if ← removeFile faults parent (fileName record.path) then syncDir faults else pure ()

/-- `materialize_tombstone`; `opened` is the root that `open_stable_root` opens. -/
def materializeTombstone (faults : Faults) (store : StateStore) (tree : Files comparison)
    (opened : Except InstallFault RootPath) (record : Record) (now : I64) (maxLogs : Nat) :
    Except InstallError Unit × StateStore × Files comparison :=
  match (removeTombstone faults opened record).run ⟨tree, 0⟩ with
  | (.error reason, after) => (.error reason, store, after.tree)
  | (.ok (), after) =>
      match store.markTombstoneMaterializedAndLog record.key now
          (.fileInstalled record.collection record.path) maxLogs with
      | .ok store => (.ok (), store, after.tree)
      | .error source => (.error (.state source), store, after.tree)

/-- What a reader answers to successive reads; there is nothing more after them. -/
abbrev Reader := List (Except Unit (List UInt8))

/-- What surrounds one installation: the calls that fail, the root that `open_stable_root` opens,
the process, the random draws, the write time of a file that is written, and the one that is read
back for one that was set. -/
structure Surroundings where
  faults : Faults
  opened : Except InstallFault RootPath
  processId : Nat
  draws : Nat → UInt64
  writtenNs : I64
  storedNs : I64 → I64

namespace Surroundings

variable (around : Surroundings)

/-- The name that `temporary_name` tries at an attempt. -/
def temporaryPath (attempt : Nat) : String :=
  ".skillsync-tmp-" ++ toString around.processId ++ "-" ++ toString (around.draws attempt).toNat

/-- The loop of `temporary_name`. -/
def temporaryNameIn : List Nat → InstallM comparison String
  | [] => fail .temporaryName
  | attempt :: rest => do
      observe around.faults .random .random fun _ => some ()
      if ← symlinkMetadata around.faults 0 (around.temporaryPath attempt) then temporaryNameIn rest
      else pure (around.temporaryPath attempt)

/-- `temporary_name` -/
def temporaryName : InstallM comparison String := around.temporaryNameIn (List.range 16)

/-- `open_with`, for a file that must be new. -/
def createFile (name : String) : InstallM comparison Unit :=
  call around.faults .createFile .io fun tree =>
    if (tree.lookup 0 name).isSome then none
    else some ((), tree.put 0 name (.file ⟨[], around.writtenNs⟩))

/-- A call that changes the open file. -/
def changeFile (kind : Call) (name : String) (change : RegularFile → RegularFile) :
    InstallM comparison Unit :=
  call around.faults kind .io fun tree =>
    match tree.lookup 0 name with
    | some (_, .file file) => some ((), tree.put 0 name (.file (change file)))
    | _ => none

/-- `write_all` -/
def writeAll (name : String) (bytes : List UInt8) : InstallM comparison Unit :=
  around.changeFile .write name fun file => ⟨file.bytes ++ bytes, around.writtenNs⟩

/-- `set_mtime` -/
def setMtime (name : String) (modifiedNs : I64) : InstallM comparison Unit :=
  around.changeFile .setTimes name fun file => ⟨file.bytes, around.storedNs modifiedNs⟩

/-- `metadata` of the open file. -/
def metadata (name : String) : InstallM comparison RegularFile :=
  observe around.faults .metadata .io fun tree =>
    match tree.lookup 0 name with
    | some (_, .file file) => some file
    | _ => none

/-- `rename` within the root; a directory is not replaced. -/
def rename (temporary : String) (path : ProtocolPath) : InstallM comparison Unit :=
  call around.faults .rename .io fun tree =>
    match tree.lookup 0 temporary, tree.resolve 0 (parentRelative path) with
    | some (_, entry), some parent =>
        if (tree.lookup parent (fileName path)).any fun found => found.2.isDirectory then none
        else some ((), (tree.erase 0 temporary).put parent (fileName path) entry)
    | _, _ => none

/-- The size of the buffer of `install_file_with_hook`. -/
def bufferSize : Nat := 64 * 1024

/-- What is read at most: one byte more than declared. -/
def readLimit (size : Nat) : Nat := min (size + 1) (2 ^ 64 - 1)

/-- The copy loop of `install_file_with_hook`; what it has written. -/
def copyIn (temporary : String) (size : Nat) :
    List UInt8 → Reader → InstallM comparison (List UInt8)
  | written, [] => pure written
  | written, answer :: rest =>
      if readLimit size ≤ written.length then pure written
      else
        match answer with
        | .error () => fail .io
        | .ok chunk =>
            let read := chunk.take (min (readLimit size - written.length) bufferSize)
            if read = [] then pure written
            else if size < written.length + read.length then fail .sizeMismatch
            else do
              around.writeAll temporary read
              copyIn temporary size (written ++ read) rest

section
variable [Blake3]

/-- The copy of the bytes and the checks of their size and hash. -/
def copyStream (temporary : String) (size : Nat) (contentHash : Bytes32) (reader : Reader) :
    InstallM comparison Unit := do
  let written ← around.copyIn temporary size [] reader
  if written.length ≠ size then fail .sizeMismatch
  else if Blake3.hash written ≠ contentHash then fail .hashMismatch
  else pure ()

/-- The part of `install_file_with_hook` that writes the temporary file. -/
def writeTemporary (record : Record) (size : Nat) (contentHash : Bytes32) (temporary : String)
    (reader : Reader) : InstallM comparison RegularFile := do
  around.createFile temporary
  hook around.faults .beforeWrite
  around.copyStream temporary size contentHash reader
  hook around.faults .afterWrite
  observe around.faults .flush .io fun _ => some ()
  hook around.faults .beforeMetadata
  around.setMtime temporary record.modifiedNs
  hook around.faults .beforeFileSync
  syncDir around.faults
  around.metadata temporary

/-- The part of `install_file_with_hook` that renames it. -/
def moveIntoPlace (record : Record) (temporary : String) (installed : InstalledFile) :
    InstallM comparison InstalledFile := do
  hook around.faults .beforeRename
  ensureSafeParent around.faults (parentRelative record.path)
  rejectConcreteCollision around.faults (parentRelative record.path) (fileName record.path)
  around.rename temporary record.path
  Effect.mapError (fun _ => .postRenameDurability installed) do
    hook around.faults .afterRename
    let _ ← openRelativeDir around.faults (parentRelative record.path)
    syncDir around.faults
  return installed

/-- The closure of `install_file_with_hook`. -/
def copyAndRename (record : Record) (size : Nat) (contentHash : Bytes32) (root : RootPath)
    (temporary : String) (reader : Reader) : InstallM comparison InstalledFile := do
  let file ← around.writeTemporary record size contentHash temporary reader
  around.moveIntoPlace record temporary
    ⟨record.path, root, ⟨file.modifiedNs, file.bytes.length, contentHash⟩⟩

/-- The temporary file goes, unless the rename was made and may not last. -/
def cleanUp (temporary : String) : Except InstallError InstalledFile → InstallM comparison Bool
  | .error (.postRenameDurability _) => pure false
  | _ => removeFile around.faults 0 temporary

/-- `install_file_with_hook` -/
def installFileWithHook (record : Record) (reader : Reader) : InstallM comparison InstalledFile :=
  match record.kind, around.opened with
  | .tombstone, _ => fail .tombstone
  | .file _ _, .error fault => fail fault.error
  | .file size contentHash, .ok root => do
      ensureSafeParent around.faults (parentRelative record.path)
      rejectConcreteCollision around.faults (parentRelative record.path) (fileName record.path)
      let temporary ← around.temporaryName
      (around.copyAndRename record size contentHash root temporary reader).finish
        (around.cleanUp temporary)

end

end Surroundings

/-- A transaction of the store, which is rolled back where SQLite fails. -/
def transaction (rejected : Bool) (update : Except StateError StateStore) :
    Except StateError StateStore :=
  if rejected then .error .sqlite else update

/-- What `apply_file_fixture_with_hook` does with the result of an installation. -/
def recordInstall (rejected : Bool) (store : StateStore) (record : Record) (now : I64)
    (maxLogs : Nat) (result : Except InstallError InstalledFile) :
    Except InstallError InstalledFile × StateStore :=
  let mark (installed : InstalledFile) (event : OperationalEvent) :=
    transaction rejected (store.markMaterializedAndLog record.key installed.resolvedRoot
      installed.fingerprint now event maxLogs)
  match result with
  | .ok installed =>
      match mark installed (.fileInstalled record.collection record.path) with
      | .ok store => (.ok installed, store)
      | .error source => (.error (.postRenameState installed source), store)
  | .error (.postRenameDurability installed) =>
      match mark installed (.fileApplyRejected record.collection record.path) with
      | .ok store => (.error (.postRenameDurability installed), store)
      | .error source => (.error (.postRenameState installed source), store)
  | .error .unstableRoot => (.error .unstableRoot, store)
  | .error reason =>
      match transaction rejected (store.markRepairRequiredAndLog record.key now
          (.fileApplyRejected record.collection record.path) maxLogs) with
      | .ok store => (.error reason, store)
      | .error source => (.error (.state source), store)

/-- `apply_file_fixture_with_hook` -/
def applyFileFixtureWithHook [Blake3] (around : Surroundings) (rejected : Bool) (store : StateStore)
    (tree : Files comparison) (record : Record) (reader : Reader) (now : I64) (maxLogs : Nat) :
    Except InstallError InstalledFile × StateStore × Files comparison :=
  let outcome := (around.installFileWithHook record reader).run ⟨tree, 0⟩
  let recorded := recordInstall rejected store record now maxLogs outcome.1
  (recorded.1, recorded.2, outcome.2.tree)

end Skillsync.DirectoryTree
