import Skillsync.Installer
import Skillsync.Protocol

set_option autoImplicit false

namespace Skillsync

structure SessionConfig where
  localEndpoint : EndpointId
  /-- `duration_ns(max_future_clock_skew)` -/
  maxFutureClockSkew : I64
  maxLogs : Nat

inductive SyncError
  | wrongCollections
  | state (source : StateError)
  | record (source : RecordError)
  | path (source : PathError)
deriving DecidableEq

/-- `build_manifests`. -/
def buildManifests (store : StateStore) (shared : List String) :
    Except SyncError ManifestBundle := do
  let manifests ← shared.mapM fun collection => do
    let manifest ← (Manifest.new (store.records collection)).mapError SyncError.record
    return (collection, manifest)
  return ⟨manifests⟩

section
variable [Blake3]

/-- The part of `merge_remote_manifests` that deletes the file of a winning tombstone. A
failed deletion is logged and does not stop the merge. -/
def deleteForWinner (config : SessionConfig) (now : I64) (environment : RemovalEnvironment)
    (collection : String) (candidate : Record) (store : StateStore) (disk : Disk) :
    Except SyncError (StateStore × Disk) :=
  let key : RecordKey := ⟨collection, candidate.path⟩
  if store.record key = some candidate ∧ candidate.kind = .tombstone ∧
      (store.recordState key).any fun item => !item.materialized then
    match materializeTombstone store disk candidate environment now config.maxLogs with
    | (.ok (), store, disk) => .ok (store, disk)
    | (.error _, store, disk) => do
        let store ← (store.appendLog now (.repairRequired collection candidate.path)
          config.maxLogs).mapError .state
        return (store, disk)
  else .ok (store, disk)

/-- The body of the first loop of `merge_remote_manifests`. -/
def mergeCandidate (config : SessionConfig) (remoteEndpoint : EndpointId) (now : I64)
    (environment : Record → RemovalEnvironment) (collection : String)
    (state : StateStore × Disk) (candidate : Record) : Except SyncError (StateStore × Disk) :=
  let (store, disk) := state
  if now.saturatingAdd config.maxFutureClockSkew < candidate.modifiedNs then do
    let store ← (store.appendLog now
      (.collectionWarning collection (some candidate.path) .timestampRejected)
      config.maxLogs).mapError .state
    return (store, disk)
  else do
    let store ←
      (if store.record ⟨collection, candidate.path⟩ = some candidate then .ok store
      else (store.mergeRecord candidate now (some remoteEndpoint) config.maxLogs).mapError
        SyncError.state |>.map Prod.fst)
    deleteForWinner config now (environment candidate) collection candidate store disk

/-- One manifest of the first loop; the collection must be attached. -/
def mergeManifest (config : SessionConfig) (remoteEndpoint : EndpointId) (now : I64)
    (environment : Record → RemovalEnvironment) (state : StateStore × Disk)
    (manifest : String × Manifest) : Except SyncError (StateStore × Disk) :=
  if (state.1.collections[manifest.1]?).isSome then
    manifest.2.records.foldlM
      (mergeCandidate config remoteEndpoint now environment manifest.1) state
  else .error .wrongCollections

/-- A record the second loop of `merge_remote_manifests` requests. -/
def isRequested (store : StateStore) (futureLimit : I64) (collection : String)
    (remote : Record) : Bool :=
  decide (remote.modifiedNs ≤ futureLimit) && remote.kind.isFile &&
    match store.recordState ⟨collection, remote.path⟩ with
    | none => false
    | some winner => decide (winner.record = remote) && !winner.materialized

/-- All needed requests, sorted, without repetitions. -/
def neededRequests (store : StateStore) (futureLimit : I64) (bundle : ManifestBundle) :
    List FileRequest :=
  let requests := bundle.manifests.flatMap fun manifest =>
    (manifest.2.records.filter (isRequested store futureLimit manifest.1)).map fun remote =>
      FileRequest.mk manifest.1 remote.path.text remote.canonicalHash
  (requests.mergeSort fun left right => decide (left ≤ right)).destutter (· ≠ ·)

/-- The budget loop: `selected` counts the requests taken so far. -/
def selectRequests (store : StateStore) (selected bytes : Nat) :
    List FileRequest → List FileRequest
  | [] => []
  | request :: rest =>
      if selected = maxTransfers then []
      else
        let stored := (ProtocolPath.parse request.path).toOption.bind fun path =>
          store.record ⟨request.collection, path⟩
        match stored.map Record.kind with
        | none => selectRequests store selected bytes rest
        | some .tombstone => selectRequests store selected bytes rest
        | some (.file size _) =>
            if maxSessionFileBytes < bytes + size then []
            else request :: selectRequests store (selected + 1) (bytes + size) rest

/-- `merge_remote_manifests`. -/
def mergeRemoteManifests (config : SessionConfig) (remoteEndpoint : EndpointId) (now : I64)
    (environment : Record → RemovalEnvironment) (store : StateStore) (disk : Disk)
    (shared : List String) (bundle : ManifestBundle) :
    Except SyncError (StateStore × Disk × List FileRequest) := do
  if (bundle.manifests.map Prod.fst).toFinset ≠ shared.toFinset then .error .wrongCollections
  else
    let (store, disk) ← bundle.manifests.foldlM
      (mergeManifest config remoteEndpoint now environment) (store, disk)
    let needed :=
      neededRequests store (now.saturatingAdd config.maxFutureClockSkew) bundle
    return (store, disk, selectRequests store 0 0 needed)

end

end Skillsync
