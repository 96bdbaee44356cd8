import Skillsync.Runs
import Skillsync.ScanSpec

set_option autoImplicit false

namespace Skillsync

open Fallible

inductive DaemonError
  | io
  | invalidCollectionName
  | defaultCollection
  | state (source : StateError)
deriving DecidableEq

/-- The names in `DEFAULT_COLLECTIONS`. -/
def defaultCollections : List String := [".agents", ".claude", ".codex"]

def validateCollectionName (name : String) : Except DaemonError Unit :=
  if name = "" ∨ 255 < (utf8 name).length then .error .invalidCollectionName else .ok ()

/-- `attach_collection` and the store it leaves; `created` is the outcome of `create_dir_all`. -/
def attachCollection (store : StateStore) (name path : String) (created : Bool) (now : I64)
    (maxLogs : Nat) : Except DaemonError Unit × StateStore :=
  match validateCollectionName name with
  | .error reason => (.error reason, store)
  | .ok () =>
      if !created then (.error .io, store)
      else
        let existing := store.collections[name]?
        let changed := existing.all fun row => decide (row.localPath ≠ path)
        let attached :=
          match existing with
          | none => store.addCollection name path none
          | some row =>
              if row.localPath ≠ path then store.replaceCollectionPath name path else .ok store
        match attached with
        | .error source => (.error (.state source), store)
        | .ok store =>
            if changed then
              match store.appendLog now (.collectionAttached name) maxLogs with
              | .ok store => (.ok (), store)
              | .error source => (.error (.state source), store)
            else (.ok (), store)

/-- `detach_collection` and the store it leaves. -/
def detachCollection (store : StateStore) (name : String) (now : I64) (maxLogs : Nat) :
    Except DaemonError Bool × StateStore :=
  if name ∈ defaultCollections then (.error .defaultCollection, store)
  else
    match store.removeCollection name with
    | (store, true) =>
        match store.appendLog now (.collectionDetached name) maxLogs with
        | .ok store => (.ok true, store)
        | .error source => (.error (.state source), store)
    | (store, false) => (.ok false, store)

section
variable [Blake3]

/-- After a failing `mergeCandidate` its merge may have been committed. -/
def mergeCandidateLeft (config : SessionConfig) (remoteEndpoint : EndpointId) (now : I64)
    (collection : String) (state : StateStore × Disk) (candidate : Record) : StateStore :=
  if now.saturatingAdd config.maxFutureClockSkew < candidate.modifiedNs ∨
      state.1.record ⟨collection, candidate.path⟩ = some candidate then state.1
  else
    match state.1.mergeRecord candidate now (some remoteEndpoint) config.maxLogs with
    | .ok (store, _) => store
    | .error _ => state.1

def mergeManifestLeft (config : SessionConfig) (remoteEndpoint : EndpointId) (now : I64)
    (environment : Record → RemovalEnvironment) (state : StateStore × Disk)
    (manifest : String × Manifest) : StateStore :=
  if (state.1.collections[manifest.1]?).isSome then
    leftBehind (mergeCandidate config remoteEndpoint now environment manifest.1)
      (mergeCandidateLeft config remoteEndpoint now manifest.1) Prod.fst state manifest.2.records
  else state.1

def mergeRemoteLeft (config : SessionConfig) (remoteEndpoint : EndpointId) (now : I64)
    (environment : Record → RemovalEnvironment) (store : StateStore) (disk : Disk)
    (shared : List String) (bundle : ManifestBundle) : StateStore :=
  if (bundle.manifests.map Prod.fst).toFinset ≠ shared.toFinset then store
  else
    leftBehind (mergeManifest config remoteEndpoint now environment)
      (mergeManifestLeft config remoteEndpoint now environment) Prod.fst (store, disk)
      bundle.manifests

/-- An operation of the daemon; a merge starts from the bytes the peer has sent. -/
inductive StoreOperation
  | attach (name path : String) (created : Bool) (now : I64) (maxLogs : Nat)
  | detach (name : String) (now : I64) (maxLogs : Nat)
  | scan (scanner : Scanner) (name localPath : String) (author : EndpointId) (observedNs : I64)
      (opened : Except RootError (RootPath × FileSystem))
  | merge (config : SessionConfig) (remoteEndpoint : EndpointId) (now : I64)
      (environment : Record → RemovalEnvironment) (disk : Disk) (shared : List String)
      (bytes : List UInt8)

namespace StoreOperation

/-- The store an operation leaves, also one that fails. -/
def perform (store : StateStore) : StoreOperation → StateStore
  | attach name path created now maxLogs =>
      (attachCollection store name path created now maxLogs).2
  | detach name now maxLogs => (detachCollection store name now maxLogs).2
  | scan scanner name localPath author observedNs opened =>
      leftStore (scanCollection scanner store name localPath author observedNs opened)
  | merge config remoteEndpoint now environment disk shared bytes =>
      match ManifestBundle.decode bytes with
      | .ok bundle =>
          mergeRemoteLeft config remoteEndpoint now environment store disk shared bundle
      | .error _ => store

def step (store : StateStore) (operation : StoreOperation) : Option StateStore :=
  some (operation.perform store)

/-- The collections an operation may attach. -/
def attaches : StoreOperation → List String
  | attach name _ _ _ _ => [name]
  | _ => []

/-- The records an operation may store, the tombstones of a scan apart: the files a scan finds and
the records a peer sends, without those of the future. -/
def offers : StoreOperation → List Record
  | scan scanner name _ author observedNs opened =>
      match opened with
      | .error _ => []
      | .ok (root, fileSystem) =>
          match walk fileSystem name scanner.ignores (scanner.comparisonKey root) with
          | .error _ => []
          | .ok context => context.files.toList.filterMap fun (path, disk) =>
              if disk.modifiedNs ≤ observedNs.saturatingAdd scanner.maxFutureSkew then
                (Record.file name path disk.modifiedNs author disk.size disk.hash).toOption
              else none
  | merge config _ now _ _ _ bytes =>
      match ManifestBundle.decode bytes with
      | .error _ => []
      | .ok bundle => bundle.records.filter fun record =>
          decide (record.modifiedNs ≤ now.saturatingAdd config.maxFutureClockSkew)
  | _ => []

end StoreOperation

end

end Skillsync
