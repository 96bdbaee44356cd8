import Skillsync.InterleavingSpec
import Skillsync.LocalTree
import Skillsync.LogEntries

set_option autoImplicit false

namespace Skillsync

open Fallible

/-- What the code checks before it stores a log entry. -/
def OperationalEvent.Loggable (event : OperationalEvent) (maxLogs : Nat) : Prop :=
  validateOperationalEvent event = .ok () ∧
    event.payloadLength ≤ maxOperationalEventBytes ∧ maxLogs < 2 ^ 63

/-- A store and the tree below the root of one of its collections. -/
structure Replica where
  store : StateStore
  tree : LocalTree

/-- The receiving side of a session: its settings, its peer, the root of the collection, its
clock, and the write time its file system reads back for one that was set. -/
structure Receiver where
  config : SessionConfig
  remoteEndpoint : EndpointId
  root : RootPath
  now : I64
  storedNs : I64 → I64

namespace Receiver

/-- The future limit of the session. -/
def limit (receiver : Receiver) : I64 :=
  receiver.now.saturatingAdd receiver.config.maxFutureClockSkew

section
variable [Blake3]

/-- One candidate of `merge_remote_manifests`. The file of a tombstone is removed from its
directory, which stays. -/
def merge (receiver : Receiver) (collection : String) (replica : Replica) (candidate : Record) :
    Except SyncError Replica := do
  let (store, disk) ← mergeCandidate receiver.config receiver.remoteEndpoint receiver.now
    (fun record => replica.tree.removalEnvironment receiver.root record.path) collection
    (replica.store, replica.tree.disk) candidate
  return ⟨store, { replica.tree with disk := disk }⟩

/-- One file of `receive_files`, which goes on after a failed installation. -/
def install (receiver : Receiver) (contents : Record → List UInt8) (replica : Replica)
    (record : Record) : Replica :=
  let result := applyFileFixture replica.store replica.tree.disk record (contents record)
    (replica.tree.installEnvironment receiver.root record.path receiver.storedNs) receiver.now
    receiver.config.maxLogs
  ⟨result.2.1, { replica.tree.withParent receiver.root record.path with disk := result.2.2 }⟩

/-- The manifest of a collection, then all files it asks for. Requests are sorted by path, as
the manifest is. -/
def replay (receiver : Receiver) (collection : String) (contents : Record → List UInt8)
    (manifest : List Record) (replica : Replica) : Except SyncError Replica :=
  if (replica.store.collections[collection]?).isSome then do
    let merged ← manifest.foldlM (receiver.merge collection) replica
    let requested := manifest.filter (isRequested merged.store receiver.limit collection)
    return requested.foldl (receiver.install contents) merged
  else .error .wrongCollections

end

end Receiver

/-- A change of the files of a collection, as the records of a peer describe it. The paths of
a tree are apart: none is another one or an ancestor of it. -/
structure TreeChange [Blake3] where
  collection : String
  /-- The files before the change. -/
  old : List Record
  /-- The files after the change. -/
  files : List Record
  tombstones : List Record
  contents : Record → List UInt8
  named : ∀ record ∈ old ++ (files ++ tombstones), record.collection = collection
  holds : ∀ record ∈ old ++ files,
    record.kind = .file (contents record).length (Blake3.hash (contents record))
  removes : ∀ record ∈ tombstones, record.kind = .tombstone
  old_apart : ∀ a ∈ old, ∀ b ∈ old, a.path.components <+: b.path.components → a = b
  files_apart : ∀ a ∈ files, ∀ b ∈ files, a.path.components <+: b.path.components → a = b
  removed : ∀ path, (∃ record ∈ tombstones, record.path = path) ↔
    (∃ record ∈ old, record.path = path) ∧ ¬ ∃ record ∈ files, record.path = path
  removed_once : ∀ a ∈ tombstones, ∀ b ∈ tombstones, a.path = b.path → a = b
  newer : ∀ record ∈ files ++ tombstones, ∀ stored ∈ old, stored.path = record.path →
    record = stored ∨ record.compareWinner stored = .gt

/-- The rows of all these records are theirs and materialized. -/
def StateStore.AllMaterialized (store : StateStore) (records : List Record) : Prop :=
  ∀ record ∈ records, ∃ row, store.recordState record.key = some row ∧ row.record = record ∧
    row.materialized = true

/-- The files below a root are those of some records, and no others. -/
structure LocalTree.Exactly (tree : LocalTree) (root : RootPath) (records : List Record)
    (contents : Record → List UInt8) : Prop where
  present : ∀ record ∈ records,
    (tree.disk[DiskKey.mk root record.path]?).map RegularFile.bytes = some (contents record)
  absent : ∀ path, (∀ record ∈ records, record.path ≠ path) →
    tree.disk[DiskKey.mk root path]? = none

namespace TreeChange

variable [Blake3]

/-- All records of the peer's manifest. -/
def announced (change : TreeChange) : List Record := change.files ++ change.tombstones

/-- The directories of the old tree. -/
def OldDirectory (change : TreeChange) (components : List String) : Prop :=
  components ≠ [] ∧ ∃ record ∈ change.old,
    components <+: record.path.components ∧ components ≠ record.path.components

/-- The disk and the records of the replica are exactly the old tree. -/
structure Ready (change : TreeChange) (root : RootPath) (replica : Replica) : Prop where
  bound : replica.store.resolvedRoot change.collection = some root
  rows : replica.store.AllMaterialized change.old
  unknown : ∀ path, (∀ record ∈ change.old, record.path ≠ path) →
    replica.store.recordState ⟨change.collection, path⟩ = none
  files : replica.tree.Exactly root change.old change.contents
  directories : ∀ components,
    components ∈ replica.tree.directories ↔ change.OldDirectory components

/-- The disk is exactly the new tree, and every record is materialized. -/
structure Replayed (change : TreeChange) (root : RootPath) (replica : Replica) : Prop where
  rows : replica.store.AllMaterialized change.announced
  files : replica.tree.Exactly root change.files change.contents

/-- The entry that a merge of a record logs. -/
def entry (receiver : Receiver) (record : Record) : OperationalEvent :=
  .recordAccepted record.collection record.path (some receiver.remoteEndpoint)

end TreeChange

end Skillsync
