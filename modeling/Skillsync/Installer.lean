import Skillsync.State

set_option autoImplicit false

namespace Skillsync

/-- A regular file: its bytes and its write time. -/
structure RegularFile where
  bytes : List UInt8
  modifiedNs : I64
deriving DecidableEq

/-- A protocol path under a resolved collection root. -/
structure DiskKey where
  root : RootPath
  path : ProtocolPath
deriving DecidableEq

namespace DiskKey

def tuple (key : DiskKey) : RootPath ×ₗ ProtocolPath := toLex (key.root, key.path)

theorem tuple_injective : Function.Injective tuple := by
  rintro ⟨root, path⟩ ⟨root', path'⟩ same
  simpa [tuple] using same

instance : LinearOrder DiskKey := LinearOrder.lift' tuple tuple_injective

instance : Std.TransOrd DiskKey := inferInstance

instance : Std.LawfulEqOrd DiskKey := ⟨fun same => compare_eq_iff_eq.mp same⟩

end DiskKey

/-- The regular files below the collection roots. Directories are implicit. -/
abbrev Disk := OrderedMap DiskKey RegularFile

/-- The fingerprint a stable read of a file observes. -/
def RegularFile.fingerprint [Blake3] (file : RegularFile) : FileFingerprint :=
  ⟨file.modifiedNs, file.bytes.length, Blake3.hash file.bytes⟩

/-- A file holds the content a record declares. -/
def RegularFile.Holds [Blake3] (file : RegularFile) (kind : RecordKind) : Prop :=
  kind = .file file.bytes.length (Blake3.hash file.bytes)

inductive InstallStage
  | duringRootAcquisition
  | beforeAncestorSync
  | beforeWrite
  | afterWrite
  | beforeMetadata
  | beforeFileSync
  | beforeRename
  | afterRename
deriving DecidableEq

structure InstalledFile where
  path : ProtocolPath
  resolvedRoot : RootPath
  fingerprint : FileFingerprint
deriving DecidableEq

inductive InstallError
  | io
  | tombstone
  | notTombstone
  | unsafeDestination
  | localNameCollision
  | unstableRoot
  | sizeMismatch
  | hashMismatch
  | random
  | temporaryName
  | timestamp
  | postRenameDurability (installed : InstalledFile)
  | postRenameState (installed : InstalledFile) (source : StateError)
  | state (source : StateError)
deriving DecidableEq

/-- The failures the filesystem can cause before a rename. -/
inductive InstallFault
  | io
  | unsafeDestination
  | localNameCollision
  | unstableRoot
  | random
  | temporaryName
  | timestamp
deriving DecidableEq

def InstallFault.error : InstallFault → InstallError
  | io => .io
  | unsafeDestination => .unsafeDestination
  | localNameCollision => .localNameCollision
  | unstableRoot => .unstableRoot
  | random => .random
  | temporaryName => .temporaryName
  | timestamp => .timestamp

/-- The answer of the filesystem, as a result of the installer. -/
def answer {α : Type} (outcome : Except InstallFault α) : Except InstallError α :=
  outcome.mapError InstallFault.error

/-- What the filesystem answers during one installation: the root it opens, the outcome of
`ensure_safe_parent`, `reject_concrete_collision` and `temporary_name` before the copy and of
the two repeated checks after it, the faults at the stages of the copy, the outcome of the
rename, and the write time it reads back for one that was set. -/
structure InstallEnvironment where
  root : Except InstallFault RootPath
  parent : Except InstallFault Unit
  fault : InstallStage → Bool
  parentAgain : Except InstallFault Unit
  rename : Except InstallFault Unit
  storedNs : I64 → I64

/-- What the filesystem answers while a tombstone is materialized: the root, whether the
parent directory exists, and the failures of `remove_file` and of the directory sync. -/
structure RemovalEnvironment where
  root : Except InstallFault RootPath
  parent : Except InstallFault Bool
  remove : Except InstallFault Unit
  sync : Except InstallFault Unit

/-- What the filesystem answers while a file is verified: the root, whether the parent
directory exists, and a failure to open or to read the file. -/
structure VerifyEnvironment where
  root : Except InstallFault RootPath
  parent : Except InstallFault Bool
  read : Except InstallFault Unit

section
variable [Blake3]

/-- An injected fault at one stage. -/
def hook (environment : InstallEnvironment) (stage : InstallStage) : Except InstallError Unit :=
  if environment.fault stage then .error .io else .ok ()

/-- The copy loop of `install_file_with_hook`: the stream must have exactly the declared
size and hash. -/
def copyStream (size : Nat) (contentHash : Bytes32) (stream : List UInt8) :
    Except InstallError Unit :=
  if stream.length ≠ size then .error .sizeMismatch
  else if Blake3.hash stream ≠ contentHash then .error .hashMismatch
  else .ok ()

/-- `install_file_with_hook` up to the rename, which it includes. -/
def prepareInstall (record : Record) (stream : List UInt8) (environment : InstallEnvironment) :
    Except InstallError InstalledFile :=
  match record.kind with
  | .tombstone => .error .tombstone
  | .file size contentHash => do
      let root ← answer environment.root
      answer environment.parent
      hook environment .beforeWrite
      copyStream size contentHash stream
      hook environment .afterWrite
      hook environment .beforeMetadata
      hook environment .beforeFileSync
      hook environment .beforeRename
      answer environment.parentAgain
      answer environment.rename
      return ⟨record.path, root, ⟨environment.storedNs record.modifiedNs, size, contentHash⟩⟩

/-- The rename puts the stream's bytes at the record's path. -/
def renamed (disk : Disk) (installed : InstalledFile) (stream : List UInt8) : Disk :=
  disk.insert ⟨installed.resolvedRoot, installed.path⟩ ⟨stream, installed.fingerprint.modifiedNs⟩

/-- `install_file_with_hook`. -/
def installFile (disk : Disk) (record : Record) (stream : List UInt8)
    (environment : InstallEnvironment) : Except InstallError InstalledFile × Disk :=
  match prepareInstall record stream environment with
  | .error reason => (.error reason, disk)
  | .ok installed =>
      (if environment.fault .afterRename then .error (.postRenameDurability installed)
        else .ok installed, renamed disk installed stream)

/-- `apply_file_fixture`. -/
def applyFileFixture (store : StateStore) (disk : Disk) (record : Record)
    (stream : List UInt8) (environment : InstallEnvironment) (now : I64) (maxLogs : Nat) :
    Except InstallError InstalledFile × StateStore × Disk :=
  let mark (installed : InstalledFile) (event : OperationalEvent) :=
    store.markMaterializedAndLog record.key installed.resolvedRoot installed.fingerprint now event
      maxLogs
  match installFile disk record stream environment with
  | (.ok installed, disk) =>
      match mark installed (.fileInstalled record.collection record.path) with
      | .ok store => (.ok installed, store, disk)
      | .error source => (.error (.postRenameState installed source), store, disk)
  | (.error (.postRenameDurability installed), disk) =>
      match mark installed (.fileApplyRejected record.collection record.path) with
      | .ok store => (.error (.postRenameDurability installed), store, disk)
      | .error source => (.error (.postRenameState installed source), store, disk)
  | (.error .unstableRoot, disk) => (.error .unstableRoot, store, disk)
  | (.error reason, disk) =>
      match store.markRepairRequiredAndLog record.key now
          (.fileApplyRejected record.collection record.path) maxLogs with
      | .ok store => (.error reason, store, disk)
      | .error source => (.error (.state source), store, disk)

/-- `open_verified_file`: the file must have the size and the hash of its record. -/
def openVerifiedFile (disk : Disk) (record : Record) (environment : VerifyEnvironment) :
    Except InstallError RegularFile :=
  match record.kind with
  | .tombstone => .error .tombstone
  | .file size contentHash => do
      let root ← answer environment.root
      let parent ← answer environment.parent
      if !parent then .error .unsafeDestination
      else
        answer environment.read
        let some file := disk[DiskKey.mk root record.path]? | throw .io
        if file.bytes.length ≠ size then .error .sizeMismatch
        else if Blake3.hash file.bytes ≠ contentHash then .error .hashMismatch
        else return file

end

/-- The removal of `materialize_tombstone`; a missing parent or file is no failure. -/
def removeForTombstone (disk : Disk) (record : Record) (environment : RemovalEnvironment) :
    Except InstallError Unit × Disk :=
  match record.kind, environment.root, environment.parent with
  | .file _ _, _, _ => (.error .notTombstone, disk)
  | .tombstone, .error fault, _ => (.error fault.error, disk)
  | .tombstone, .ok _, .error fault => (.error fault.error, disk)
  | .tombstone, .ok _, .ok false => (.ok (), disk)
  | .tombstone, .ok root, .ok true =>
      match environment.remove with
      | .error fault => (.error fault.error, disk)
      | .ok () =>
          if (disk[DiskKey.mk root record.path]?).isSome then
            (answer environment.sync, disk.erase ⟨root, record.path⟩)
          else (.ok (), disk)

/-- `materialize_tombstone`. -/
def materializeTombstone (store : StateStore) (disk : Disk) (record : Record)
    (environment : RemovalEnvironment) (now : I64) (maxLogs : Nat) :
    Except InstallError Unit × StateStore × Disk :=
  match removeForTombstone disk record environment with
  | (.error reason, disk) => (.error reason, store, disk)
  | (.ok (), disk) =>
      match store.markTombstoneMaterializedAndLog record.key now
          (.fileInstalled record.collection record.path) maxLogs with
      | .ok store => (.ok (), store, disk)
      | .error source => (.error (.state source), store, disk)

end Skillsync
