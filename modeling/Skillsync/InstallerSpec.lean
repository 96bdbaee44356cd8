import Skillsync.Fallible
import Skillsync.Installer

set_option autoImplicit false

namespace Skillsync

open Fallible

/-- The removal of one file below the root that was opened, or nothing. -/
theorem removeForTombstone_disk {disk after : Disk} {record : Record}
    {environment : RemovalEnvironment} {result : Except InstallError Unit}
    (removed : removeForTombstone disk record environment = (result, after)) (place : DiskKey) :
    after[place]? = disk[place]? ∨ after[place]? = none ∧ record.path = place.path ∧
      record.kind = .tombstone ∧ environment.root = .ok place.root := by
  unfold removeForTombstone at removed
  split at removed
  · cases removed
    exact Or.inl rfl
  · cases removed
    exact Or.inl rfl
  · cases removed
    exact Or.inl rfl
  · cases removed
    exact Or.inl rfl
  · rename_i root kind opened _
    split at removed
    · cases removed
      exact Or.inl rfl
    split at removed
    · cases removed
      rw [OrderedMap.getElem?_erase]
      split
      · rename_i same
        subst same
        exact Or.inr ⟨rfl, rfl, kind, opened⟩
      · exact Or.inl rfl
    · cases removed
      exact Or.inl rfl

/-- Nothing keeps a tombstone from removing the file below a root. -/
structure Unlinks (record : Record) (environment : RemovalEnvironment) (root : RootPath) :
    Prop where
  tombstone : record.kind = .tombstone
  opened : environment.root = .ok root
  parent : environment.parent = .ok true
  remove : environment.remove = .ok ()

theorem removeForTombstone_at (disk : Disk) (record : Record) (environment : RemovalEnvironment)
    (root : RootPath) :
    (Unlinks record environment root ∧
      (removeForTombstone disk record environment).2[DiskKey.mk root record.path]? = none) ∨
    (¬ Unlinks record environment root ∧
      (removeForTombstone disk record environment).2[DiskKey.mk root record.path]? =
        disk[DiskKey.mk root record.path]?) := by
  unfold removeForTombstone
  split
  · rename_i kind
    exact Or.inr ⟨fun unlinks => (nomatch kind.symm.trans unlinks.tombstone), rfl⟩
  · rename_i failed
    exact Or.inr ⟨fun unlinks => (nomatch failed.symm.trans unlinks.opened), rfl⟩
  · rename_i failed
    exact Or.inr ⟨fun unlinks => (nomatch failed.symm.trans unlinks.parent), rfl⟩
  · rename_i absent
    exact Or.inr ⟨fun unlinks => (nomatch absent.symm.trans unlinks.parent), rfl⟩
  · rename_i opened kind atRoot parent
    split
    · rename_i failed
      exact Or.inr ⟨fun unlinks => (nomatch failed.symm.trans unlinks.remove), rfl⟩
    · rename_i removed
      by_cases here : opened = root
      · subst here
        refine Or.inl ⟨⟨kind, atRoot, parent, removed⟩, ?_⟩
        split
        · rw [OrderedMap.getElem?_erase, if_pos rfl]
        · rename_i absent
          exact Option.not_isSome_iff_eq_none.mp absent
      · refine Or.inr ⟨fun unlinks => here ?_, ?_⟩
        · exact Except.ok.inj (atRoot.symm.trans unlinks.opened)
        · split
          · rw [OrderedMap.getElem?_erase, if_neg fun same => here (DiskKey.mk.inj same).1]
          · rfl

theorem materializeTombstone_leaves (store : StateStore) (disk : Disk) (record : Record)
    (environment : RemovalEnvironment) (now : I64) (maxLogs : Nat) :
    (materializeTombstone store disk record environment now maxLogs).2.2 =
      (removeForTombstone disk record environment).2 := by
  unfold materializeTombstone
  split <;> rename_i done <;> rw [done]
  split <;> rfl

section
variable [Blake3]

theorem installFile_cases {disk after : Disk} {record : Record} {stream : List UInt8}
    {environment : InstallEnvironment} {result : Except InstallError InstalledFile}
    (done : installFile disk record stream environment = (result, after)) :
    (∃ file, prepareInstall record stream environment = .ok file ∧
      after = renamed disk file stream ∧
      (result = .ok file ∨ result = .error (.postRenameDurability file))) ∨
    ∃ reason, prepareInstall record stream environment = .error reason ∧ after = disk ∧
      result = .error reason := by
  unfold installFile at done
  split at done
  · rename_i reason failed
    cases done
    exact Or.inr ⟨reason, failed, rfl, rfl⟩
  · rename_i file prepared
    simp only [Prod.mk.injEq] at done
    refine Or.inl ⟨file, prepared, done.2.symm, ?_⟩
    rw [← done.1]
    split
    · exact Or.inr rfl
    · exact Or.inl rfl

/-- A failure before the rename. -/
def Early (reason : InstallError) : Prop := ∀ file, reason ≠ .postRenameDurability file

omit [Blake3] in
theorem answer_early {α : Type} (outcome : Except InstallFault α) :
    Always (fun _ => True) Early (answer outcome) := by
  cases outcome with
  | ok a => trivial
  | error fault =>
      intro file same
      cases fault <;> cases same

omit [Blake3] in
theorem hook_early (environment : InstallEnvironment) (stage : InstallStage) :
    Always (fun _ => True) Early (hook environment stage) := by
  unfold hook
  split
  · intro file same
    cases same
  · trivial

theorem copyStream_early (size : Nat) (contentHash : Bytes32) (stream : List UInt8) :
    Always (fun _ => True) Early (copyStream size contentHash stream) := by
  unfold copyStream
  split
  · intro file same
    cases same
  · split
    · intro file same
      cases same
    · trivial

/-- What fails before the rename does not claim to have renamed. -/
theorem prepareInstall_early (record : Record) (stream : List UInt8)
    (environment : InstallEnvironment) :
    Always (fun _ => True) Early (prepareInstall record stream environment) := by
  unfold prepareInstall
  split
  · intro file same
    cases same
  · apply (answer_early _).bind
    intro root _
    apply (answer_early _).bind
    intro _ _
    apply (hook_early _ _).bind
    intro _ _
    apply (copyStream_early _ _ _).bind
    intro _ _
    iterate 4
      apply (hook_early _ _).bind
      intro _ _
    apply (answer_early _).bind
    intro _ _
    apply (answer_early _).bind
    intro _ _
    trivial

/-- Nothing keeps an installation from its rename below a root. -/
structure Renames (record : Record) (stream : List UInt8) (environment : InstallEnvironment)
    (root : RootPath) : Prop where
  opened : environment.root = .ok root
  parent : environment.parent = .ok ()
  content : record.kind = .file stream.length (Blake3.hash stream)
  quiet : ∀ stage ∈ [InstallStage.beforeWrite, .afterWrite, .beforeMetadata, .beforeFileSync,
    .beforeRename], environment.fault stage = false
  parentAgain : environment.parentAgain = .ok ()
  rename : environment.rename = .ok ()

omit [Blake3] in
theorem hook_ok {environment : InstallEnvironment} {stage : InstallStage}
    (passed : hook environment stage = .ok ()) : environment.fault stage = false := by
  unfold hook at passed
  split at passed
  · cases passed
  · rename_i quiet
    exact Bool.eq_false_of_not_eq_true quiet

theorem copyStream_ok {size : Nat} {contentHash : Bytes32} {stream : List UInt8}
    (copied : copyStream size contentHash stream = .ok ()) :
    stream.length = size ∧ Blake3.hash stream = contentHash := by
  unfold copyStream at copied
  split at copied
  · cases copied
  · rename_i sized
    split at copied
    · cases copied
    · rename_i hashed
      exact ⟨not_not.mp sized, not_not.mp hashed⟩

theorem prepareInstall_renames {record : Record} {stream : List UInt8}
    {environment : InstallEnvironment} {file : InstalledFile}
    (prepared : prepareInstall record stream environment = .ok file) :
    Renames record stream environment file.resolvedRoot := by
  unfold prepareInstall at prepared
  split at prepared
  · cases prepared
  · rename_i size contentHash kind
    obtain ⟨root, opened, prepared⟩ := Except.bind_ok prepared
    obtain ⟨_, parent, prepared⟩ := Except.bind_ok prepared
    obtain ⟨_, beforeWrite, prepared⟩ := Except.bind_ok prepared
    obtain ⟨_, copied, prepared⟩ := Except.bind_ok prepared
    obtain ⟨_, afterWrite, prepared⟩ := Except.bind_ok prepared
    obtain ⟨_, beforeMetadata, prepared⟩ := Except.bind_ok prepared
    obtain ⟨_, beforeFileSync, prepared⟩ := Except.bind_ok prepared
    obtain ⟨_, beforeRename, prepared⟩ := Except.bind_ok prepared
    obtain ⟨_, parentAgain, prepared⟩ := Except.bind_ok prepared
    obtain ⟨_, rename, prepared⟩ := Except.bind_ok prepared
    cases prepared
    obtain ⟨sized, hashed⟩ := copyStream_ok copied
    refine ⟨Except.mapError_ok opened, Except.mapError_ok parent, by rw [kind, sized, hashed], ?_,
      Except.mapError_ok parentAgain, Except.mapError_ok rename⟩
    simp only [List.forall_mem_cons, List.not_mem_nil, false_implies, implies_true, and_true]
    exact ⟨hook_ok beforeWrite, hook_ok afterWrite, hook_ok beforeMetadata,
      hook_ok beforeFileSync, hook_ok beforeRename⟩

theorem Renames.prepared {record : Record} {stream : List UInt8}
    {environment : InstallEnvironment} {root : RootPath}
    (renames : Renames record stream environment root) :
    prepareInstall record stream environment = .ok ⟨record.path, root,
      ⟨environment.storedNs record.modifiedNs, stream.length, Blake3.hash stream⟩⟩ := by
  have quiet := renames.quiet
  simp only [List.forall_mem_cons, List.not_mem_nil, false_implies, implies_true,
    and_true] at quiet
  obtain ⟨beforeWrite, afterWrite, beforeMetadata, beforeFileSync, beforeRename⟩ := quiet
  simp only [prepareInstall, renames.content, renames.opened, renames.parent,
    renames.parentAgain, renames.rename, hook, copyStream, beforeWrite, afterWrite,
    beforeMetadata, beforeFileSync, beforeRename, ne_eq, not_true, if_false,
    Bool.false_eq_true]
  rfl

theorem prepareInstall_ok {record : Record} {stream : List UInt8}
    {environment : InstallEnvironment} {file : InstalledFile}
    (prepared : prepareInstall record stream environment = .ok file) :
    file.path = record.path ∧ environment.root = .ok file.resolvedRoot ∧
      record.kind = .file file.fingerprint.size file.fingerprint.hash ∧
      stream.length = file.fingerprint.size ∧ Blake3.hash stream = file.fingerprint.hash := by
  have renames := prepareInstall_renames prepared
  have same := Except.ok.inj (renames.prepared.symm.trans prepared)
  have size : stream.length = file.fingerprint.size :=
    congrArg (fun file => file.fingerprint.size) same
  have hash : Blake3.hash stream = file.fingerprint.hash :=
    congrArg (fun file => file.fingerprint.hash) same
  exact ⟨congrArg InstalledFile.path same.symm, renames.opened,
    by rw [renames.content, size, hash], size, hash⟩

/-- What stands at a record's path after its installation. -/
theorem installFile_at (disk : Disk) (record : Record) (stream : List UInt8)
    (environment : InstallEnvironment) (root : RootPath) :
    (Renames record stream environment root ∧
      ((installFile disk record stream environment).2[DiskKey.mk root record.path]?).map
        RegularFile.bytes = some stream) ∨
    (¬ Renames record stream environment root ∧
      (installFile disk record stream environment).2[DiskKey.mk root record.path]? =
        disk[DiskKey.mk root record.path]?) := by
  generalize done : installFile disk record stream environment = result
  obtain ⟨result, after⟩ := result
  rcases installFile_cases done with ⟨file, prepared, rfl, _⟩ | ⟨reason, failed, rfl, _⟩
  · have renames := prepareInstall_renames prepared
    obtain ⟨located, _⟩ := prepareInstall_ok prepared
    rw [renamed, OrderedMap.getElem?_insert, located]
    by_cases here : file.resolvedRoot = root
    · subst here
      rw [if_pos rfl]
      exact Or.inl ⟨renames, rfl⟩
    · refine Or.inr ⟨fun other => here ?_, if_neg fun same => here (DiskKey.mk.inj same).1⟩
      exact Except.ok.inj (renames.opened.symm.trans other.opened)
  · refine Or.inr ⟨fun renames => ?_, rfl⟩
    rw [renames.prepared] at failed
    cases failed

theorem applyFileFixture_disk (store : StateStore) (disk : Disk) (record : Record)
    (stream : List UInt8) (environment : InstallEnvironment) (now : I64) (maxLogs : Nat) :
    (applyFileFixture store disk record stream environment now maxLogs).2.2 =
      (installFile disk record stream environment).2 := by
  unfold applyFileFixture
  dsimp only
  split <;> rename_i done <;> rw [done] <;> first | rfl | (split <;> rfl)

end

end Skillsync
