import Skillsync.HintAcceptance
import Skillsync.Reconciliation
import Skillsync.SessionChanges

set_option autoImplicit false

namespace Skillsync

open Effects Fallible RankedMaximum SessionM

/-- Both devices are members of the selected roster. -/
def RosterStore.Authorizes [Blake3] [Ed25519] (roster : RosterStore) (first second : EndpointId) :
    Prop :=
  ∃ tip, roster.selectedTip = .ok tip ∧ (tip.members[first]?).isSome ∧ (tip.members[second]?).isSome

/-- A register stays as it is, or takes a greater value that was offered. -/
def Raised [Blake3] (offered : Record → Prop) (before after : Option Record) : Prop :=
  after = before ∨ ∃ candidate, offered candidate ∧ after = some candidate ∧
    ∀ old, before = some old → old.rank < candidate.rank

namespace SessionState

/-- A session begins with an empty transcript. -/
def opening (roster : RosterStore) (store : StateStore) (disk : Disk) (input : List UInt8) :
    SessionState := ⟨roster, store, disk, input, 0, [], []⟩

/-- A collection of this side that the peer has named. -/
def Shares (start state : SessionState) (name : String) : Prop :=
  (start.store.collections[name]?).isSome = true ∧ ∃ payload hello,
    (FrameTag.hello, payload) ∈ state.taken ∧ Hello.decode payload = .ok hello ∧
      name ∈ hello.collections

/-- A record in the manifests of the peer. -/
def Offers [Blake3] (state : SessionState) (record : Record) : Prop :=
  ∃ payload bundle, (FrameTag.manifests, payload) ∈ state.taken ∧
    ManifestBundle.decode payload = .ok bundle ∧ record ∈ bundle.records

/-- A request of the peer. -/
def Asks (state : SessionState) (request : FileRequest) : Prop :=
  ∃ payload bundle, (FrameTag.requests, payload) ∈ state.taken ∧
    RequestBundle.decode payload = .ok bundle ∧ request ∈ bundle.requests

end SessionState

/-- The bytes that an item puts on the stream; a frame that cannot be written puts none. -/
def Sent.bytes : Sent → List UInt8
  | .frame tag payload => (encodeFrame tag payload).toOption.getD []
  | .answer _ _ content => content.written.toOption.getD []

/-- All that a side has put on its stream. -/
def transcript (sent : List Sent) : List UInt8 := sent.flatMap Sent.bytes

def Sent.fileBytes : Sent → Nat
  | Sent.frame _ _ => 0
  | Sent.answer _ _ content => content.fileBytes

section
variable [Blake3] [Ed25519] (context : SessionContext) (start state : SessionState)

/-- Both sides are members of the roster that the device selects now. -/
def SessionState.Trusts : Prop :=
  state.roster.Authorizes context.config.localEndpoint context.remoteEndpoint

/-- The frames that may be sent: before the rosters are exchanged only what the device is and knows
of the roster; the records only of shared collections and between members. -/
def FrameAllowed : FrameTag → List UInt8 → Prop
  | .hello, payload => ∃ hello : Hello, hello.encode = .ok payload ∧
      hello.collections = start.store.collections.toList.map Prod.fst
  | .roster, payload => ∃ chain, start.roster.selectedRosterChain = .ok chain ∧
      (RosterBundle.mk chain).encode = .ok payload
  | .manifests, payload => state.Trusts context ∧ ∃ bundle : ManifestBundle,
      bundle.encode = .ok payload ∧ ∀ record ∈ bundle.records,
        start.Shares state record.collection ∧ start.store.record record.key = some record
  | .requests, payload => state.Trusts context ∧ ∃ bundle : RequestBundle,
      bundle.encode = .ok payload ∧ ∀ request ∈ bundle.requests,
        start.Shares state request.collection
  | .done, payload => state.Trusts context ∧ payload = []
  | .file, _ => False
  | .fileUnavailable, _ => False

/-- A candidate that may win: offered, in a shared collection, and not from the future. -/
def CandidateAllowed (candidate : Record) : Prop :=
  state.Offers candidate ∧ start.Shares state candidate.collection ∧
    candidate.modifiedNs ≤ context.now.saturatingAdd context.config.maxFutureClockSkew

/-- A file that is gone: a tombstone that the peer offered, and the stored record is not below
it. -/
def FileRemoved (place : DiskKey) : Prop :=
  state.disk[place]? = none ∧ ∃ tombstone winner, CandidateAllowed context start state tombstone ∧
    tombstone.kind = .tombstone ∧ tombstone.path = place.path ∧
    (context.removal tombstone).root = .ok place.root ∧
    state.store.record tombstone.key = some winner ∧ tombstone.rank ≤ winner.rank

/-- A file that is new: it has the size and the hash of the stored record. -/
def FileInstalled (place : DiskKey) : Prop :=
  ∃ request record file, record.path = place.path ∧ start.Shares state record.collection ∧
    (context.receiving request).environment.root = .ok place.root ∧
    state.store.record record.key = some record ∧ state.disk[place]? = some file ∧
    file.Holds record.kind

/-- Every file is as it was, or changed as it may be. -/
def FilesAllowed : Prop :=
  ∀ place : DiskKey, state.disk[place]? = start.disk[place]? ∨
    FileRemoved context start state place ∨ FileInstalled context start state place

/-- The answers that may be sent: to a request of the peer, in a shared collection, and a file only
of the stored record that the request names. The disk is the session's when it sends. -/
def AnswerAllowed (request : FileRequest) (disk : Disk) (answer : Answer) : Prop :=
  state.Trusts context ∧ state.Asks request ∧ start.Shares state request.collection ∧
    FilesAllowed context start { state with disk := disk } ∧
    ∀ record header content, answer = .file record header content → record.request = request ∧
      state.store.record record.key = some record ∧
      Answer.Supplies context state.store disk request record header content

/-- What a session has given away. -/
structure Disclosed : Prop where
  opened : state.sent ≠ [] → start.Trusts context
  frames : ∀ tag payload, .frame tag payload ∈ state.sent →
    FrameAllowed context start state tag payload
  answers : ∀ request disk answer, .answer request disk answer ∈ state.sent →
    AnswerAllowed context start state request disk answer
  volume : (state.sent.map Sent.fileBytes).sum ≤ maxSessionFileBytes

/-- What a session has changed. -/
structure Changed : Prop where
  trusted : state.store ≠ start.store ∨ state.disk ≠ start.disk → state.Trusts context
  records : ∀ key, Raised (CandidateAllowed context start state) (start.store.record key)
    (state.store.record key)
  confined : ∃ names, (∀ name ∈ names, start.Shares state name) ∧
    start.store.Confined names state.store
  files : FilesAllowed context start state

/-- What holds at the end of a session. -/
structure SessionKept : Prop where
  disclosed : Disclosed context start state
  changed : Changed context start state

end

section
variable [Blake3] {offered allowed : Record → Prop} {first second third : Option Record}

theorem Raised.mono (raised : Raised offered first second)
    (weaker : ∀ record, offered record → allowed record) : Raised allowed first second := by
  rcases raised with same | ⟨candidate, taken, found, above⟩
  · exact Or.inl same
  · exact Or.inr ⟨candidate, weaker candidate taken, found, above⟩

theorem Raised.trans (lower : Raised offered first second) (upper : Raised offered second third) :
    Raised offered first third := by
  rcases lower with rfl | ⟨candidate, taken, rfl, above⟩
  · exact upper
  · rcases upper with rfl | ⟨higher, takenToo, rfl, aboveToo⟩
    · exact Or.inr ⟨candidate, taken, rfl, above⟩
    · refine Or.inr ⟨higher, takenToo, rfl, fun old found => ?_⟩
      exact (above old found).trans (aboveToo candidate rfl)

theorem Raised.winner (raised : Raised offered first second) {old : Record}
    (found : first = some old) : ∃ winner, second = some winner ∧ old.rank ≤ winner.rank := by
  rcases raised with rfl | ⟨candidate, -, rfl, above⟩
  · exact ⟨old, found, le_rfl⟩
  · exact ⟨candidate, rfl, (above old found).le⟩

theorem raised_join {candidate : Record} (taken : offered candidate) :
    Raised offered first (join Record.rank first candidate) := by
  cases first with
  | none =>
      refine Or.inr ⟨candidate, taken, rfl, fun old found => ?_⟩
      cases found
  | some winner =>
      unfold join
      dsimp only
      split
      · rename_i above
        refine Or.inr ⟨candidate, taken, rfl, fun old found => ?_⟩
        cases found
        exact above
      · exact Or.inl rfl

end

/-- A later state of the session: the roster has been settled, and more frames are taken. -/
structure SessionState.Continues (state later : SessionState) : Prop where
  roster : later.roster = state.roster
  taken : state.taken ⊆ later.taken

theorem SessionState.Shares.mono {start state later : SessionState} {name : String}
    (shares : start.Shares state name) (taken : state.taken ⊆ later.taken) :
    start.Shares later name := by
  obtain ⟨mine, payload, hello, listed, rest⟩ := shares
  exact ⟨mine, payload, hello, taken listed, rest⟩

theorem SessionState.Asks.mono {state later : SessionState} {request : FileRequest}
    (asks : state.Asks request) (taken : state.taken ⊆ later.taken) : later.Asks request := by
  obtain ⟨payload, bundle, listed, rest⟩ := asks
  exact ⟨payload, bundle, taken listed, rest⟩

section
variable [Blake3] [Ed25519] {context : SessionContext} {start state later : SessionState}
  {offered : Record → Prop}

theorem SessionState.Trusts.mono (trusts : state.Trusts context)
    (roster : later.roster = state.roster) : later.Trusts context := by
  unfold SessionState.Trusts
  rw [roster]
  exact trusts

omit [Ed25519] in
theorem CandidateAllowed.mono {candidate : Record}
    (allowed : CandidateAllowed context start state candidate)
    (taken : state.taken ⊆ later.taken) : CandidateAllowed context start later candidate := by
  obtain ⟨⟨payload, bundle, listed, rest⟩, shares, inTime⟩ := allowed
  exact ⟨⟨payload, bundle, taken listed, rest⟩, shares.mono taken, inTime⟩

theorem FrameAllowed.mono {tag : FrameTag} {payload : List UInt8}
    (allowed : FrameAllowed context start state tag payload) (continues : state.Continues later) :
    FrameAllowed context start later tag payload := by
  cases tag with
  | hello => exact allowed
  | roster => exact allowed
  | manifests =>
      obtain ⟨trusts, bundle, encoded, records⟩ := allowed
      refine ⟨trusts.mono continues.roster, bundle, encoded, fun record listed => ?_⟩
      exact ⟨(records record listed).1.mono continues.taken, (records record listed).2⟩
  | requests =>
      obtain ⟨trusts, bundle, encoded, requests⟩ := allowed
      exact ⟨trusts.mono continues.roster, bundle, encoded, fun request listed =>
        (requests request listed).mono continues.taken⟩
  | done => exact ⟨allowed.1.mono continues.roster, allowed.2⟩
  | file => exact allowed
  | fileUnavailable => exact allowed

omit [Ed25519] in
theorem FileRemoved.mono {place : DiskKey} (removes : FileRemoved context start state place)
    (taken : state.taken ⊆ later.taken)
    (raised : ∀ key, Raised offered (state.store.record key) (later.store.record key))
    (same : later.disk[place]? = state.disk[place]?) : FileRemoved context start later place := by
  obtain ⟨gone, tombstone, winner, allowed, kind, path, root, stored, below⟩ := removes
  obtain ⟨higher, found, above⟩ := (raised tombstone.key).winner stored
  exact ⟨same.trans gone, tombstone, higher, allowed.mono taken, kind, path, root, found,
    below.trans above⟩

omit [Ed25519] in
theorem FileInstalled.mono {place : DiskKey} (installs : FileInstalled context start state place)
    (taken : state.taken ⊆ later.taken) (records : state.store.SameRecords later.store)
    (same : later.disk[place]? = state.disk[place]?) : FileInstalled context start later place := by
  obtain ⟨request, record, file, path, shares, root, stored, found, holds⟩ := installs
  exact ⟨request, record, file, path, shares.mono taken, root, (records record.key).trans stored,
    same.trans found, holds⟩

omit [Ed25519] in
theorem FilesAllowed.mono (allowed : FilesAllowed context start state)
    (taken : state.taken ⊆ later.taken) (records : state.store.SameRecords later.store)
    (same : later.disk = state.disk) : FilesAllowed context start later := by
  intro place
  have kept : later.disk[place]? = state.disk[place]? := by rw [same]
  have steady : ∀ key, Raised (fun _ => False) (state.store.record key) (later.store.record key) :=
    fun key => Or.inl (records key)
  rcases allowed place with untouched | removes | installs
  · exact Or.inl (kept.trans untouched)
  · exact Or.inr (Or.inl (removes.mono taken steady kept))
  · exact Or.inr (Or.inr (installs.mono taken records kept))

theorem AnswerAllowed.mono {request : FileRequest} {disk : Disk} {answer : Answer}
    (allowed : AnswerAllowed context start state request disk answer)
    (continues : state.Continues later) (same : state.store.SameRecords later.store) :
    AnswerAllowed context start later request disk answer := by
  obtain ⟨trusts, asks, shares, disks, files⟩ := allowed
  refine ⟨trusts.mono continues.roster, asks.mono continues.taken, shares.mono continues.taken,
    disks.mono continues.taken same rfl, fun record header content equal => ?_⟩
  obtain ⟨named, stored, supplies⟩ := files record header content equal
  have records : later.store.record = state.store.record := funext same
  refine ⟨named, by rw [records]; exact stored, ?_⟩
  exact ⟨by rw [records]; exact supplies.stored, supplies.asked, supplies.header,
    supplies.verified, supplies.content⟩

end

section
variable [Blake3] [Ed25519] (context : SessionContext) (start : SessionState)

/-- Before the rosters are exchanged. -/
structure BeforeRosters (state : SessionState) : Prop where
  store : state.store = start.store
  disk : state.disk = start.disk
  started : state.sent ≠ [] → start.Trusts context
  sent : ∀ item ∈ state.sent, ∃ tag payload, item = .frame tag payload ∧
    (tag = .hello ∨ tag = .roster) ∧ FrameAllowed context start state tag payload

/-- From then on: the peer is trusted, and both sides share some collections. -/
structure AfterRosters (shared : List String) (offers : List Record) (state : SessionState) :
    Prop where
  started : start.Trusts context
  trusted : state.Trusts context
  shares : ∀ name ∈ shared, start.Shares state name
  offered : ∀ record ∈ offers, state.Offers record ∧ record.collection ∈ shared
  keyed : state.store.Keyed
  disclosed : Disclosed context start state
  records : ∀ key, Raised (CandidateAllowed context start state) (start.store.record key)
    (state.store.record key)
  confined : start.store.Confined shared state.store
  files : FilesAllowed context start state

/-- Before the transfers. -/
structure BeforeTransfers (shared : List String) (offers : List Record)
    (state : SessionState) : Prop
    extends AfterRosters context start shared offers state where
  silent : ∀ item ∈ state.sent, ∃ tag payload, item = .frame tag payload
  removed : ∀ place : DiskKey, state.disk[place]? = start.disk[place]? ∨
    FileRemoved context start state place

end

section
variable [Blake3] [Ed25519] {context : SessionContext} {start state later : SessionState}
  {shared : List String} {offers : List Record}

omit [Blake3] [Ed25519] in
theorem fileBytes_of_frames {items : List Sent}
    (frames : ∀ item ∈ items, ∃ tag payload, item = Sent.frame tag payload) :
    (items.map Sent.fileBytes).sum = 0 := by
  induction items with
  | nil => rfl
  | cons item rest ih =>
      rw [List.forall_mem_cons] at frames
      obtain ⟨⟨tag, payload, rfl⟩, others⟩ := frames
      rw [List.map_cons, List.sum_cons, ih others]
      rfl

theorem BeforeRosters.kept (opening : BeforeRosters context start state) :
    SessionKept context start state where
  disclosed := {
    opened := opening.started
    frames := by
      intro tag payload sent
      obtain ⟨other, content, same, -, allowed⟩ := opening.sent _ sent
      cases same
      exact allowed
    answers := by
      intro request disk answer sent
      obtain ⟨tag, payload, same, -, -⟩ := opening.sent _ sent
      cases same
    volume := by
      rw [fileBytes_of_frames]
      · exact Nat.zero_le _
      · intro item sent
        obtain ⟨tag, payload, same, -, -⟩ := opening.sent item sent
        exact ⟨tag, payload, same⟩ }
  changed := {
    trusted := by
      rintro (store | disk)
      · exact absurd opening.store store
      · exact absurd opening.disk disk
    records := fun key => Or.inl (by rw [opening.store])
    confined := ⟨[], by simp, by rw [opening.store]; exact .refl _ _⟩
    files := fun place => Or.inl (by rw [opening.disk]) }

theorem AfterRosters.kept (running : AfterRosters context start shared offers state) :
    SessionKept context start state where
  disclosed := running.disclosed
  changed := {
    trusted := fun _ => running.trusted
    records := running.records
    confined := ⟨shared, running.shares, running.confined⟩
    files := running.files }

/-- More frames are taken, or allowed items are sent, while the records stay. -/
theorem AfterRosters.step (running : AfterRosters context start shared offers state)
    {items : List Sent}
    (continues : state.Continues later) (same : state.store.SameRecords later.store)
    (confined : state.store.Confined shared later.store) (sent : later.sent = state.sent ++ items)
    (frames : ∀ tag payload, .frame tag payload ∈ items →
      FrameAllowed context start later tag payload)
    (answers : ∀ request disk answer, .answer request disk answer ∈ items →
      AnswerAllowed context start later request disk answer)
    (volume : (later.sent.map Sent.fileBytes).sum ≤ maxSessionFileBytes)
    (files : ∀ place : DiskKey, later.disk[place]? = state.disk[place]? ∨
      FileRemoved context start later place ∨ FileInstalled context start later place) :
    AfterRosters context start shared offers later where
  started := running.started
  trusted := running.trusted.mono continues.roster
  shares name listed := (running.shares name listed).mono continues.taken
  offered record listed := by
    obtain ⟨⟨payload, bundle, found, rest⟩, inside⟩ := running.offered record listed
    exact ⟨⟨payload, bundle, continues.taken found, rest⟩, inside⟩
  keyed := running.keyed.of_record same
  disclosed := {
    opened := fun _ => running.started
    frames := by
      intro tag payload listed
      rw [sent, List.mem_append] at listed
      rcases listed with before | new
      · exact (running.disclosed.frames tag payload before).mono continues
      · exact frames tag payload new
    answers := by
      intro request disk answer listed
      rw [sent, List.mem_append] at listed
      rcases listed with before | new
      · exact (running.disclosed.answers request disk answer before).mono continues same
      · exact answers request disk answer new
    volume := volume }
  records key := by
    rw [same key]
    exact (running.records key).mono fun record allowed => allowed.mono continues.taken
  confined := running.confined.trans confined
  files place := by
    have steady : ∀ key, Raised (fun _ => False) (state.store.record key)
        (later.store.record key) :=
      fun key => Or.inl (same key)
    rcases files place with kept | changed
    · rcases running.files place with untouched | removes | installs
      · exact Or.inl (kept.trans untouched)
      · exact Or.inr (Or.inl (removes.mono continues.taken steady kept))
      · exact Or.inr (Or.inr (installs.mono continues.taken same kept))
    · exact Or.inr changed

/-- Before the transfers the records may rise. -/
theorem BeforeTransfers.step (merging : BeforeTransfers context start shared offers state)
    (continues : state.Continues later) (sent : later.sent = state.sent)
    (raised : ∀ key, Raised (CandidateAllowed context start later) (state.store.record key)
      (later.store.record key))
    (keyed : later.store.Keyed) (confined : state.store.Confined shared later.store)
    (files : ∀ place : DiskKey, later.disk[place]? = state.disk[place]? ∨
      FileRemoved context start later place) :
    BeforeTransfers context start shared offers later where
  started := merging.started
  trusted := merging.trusted.mono continues.roster
  shares name listed := (merging.shares name listed).mono continues.taken
  offered record listed := by
    obtain ⟨⟨payload, bundle, found, rest⟩, inside⟩ := merging.offered record listed
    exact ⟨⟨payload, bundle, continues.taken found, rest⟩, inside⟩
  keyed := keyed
  disclosed := {
    opened := fun _ => merging.started
    frames := by
      intro tag payload listed
      rw [sent] at listed
      exact (merging.disclosed.frames tag payload listed).mono continues
    answers := by
      intro request disk answer listed
      rw [sent] at listed
      obtain ⟨tag, payload, same⟩ := merging.silent _ listed
      cases same
    volume := by
      rw [sent]
      exact merging.disclosed.volume }
  records key := by
    have before := (merging.records key).mono fun record (allowed : CandidateAllowed context start
      state record) => allowed.mono continues.taken
    exact before.trans (raised key)
  confined := merging.confined.trans confined
  silent := by
    rw [sent]
    exact merging.silent
  removed place := by
    rcases files place with kept | removes
    · rcases merging.removed place with untouched | removes
      · exact Or.inl (kept.trans untouched)
      · exact Or.inr (removes.mono continues.taken raised kept)
    · exact Or.inr removes
  files place := by
    rcases files place with kept | removes
    · rcases merging.removed place with untouched | removes
      · exact Or.inl (kept.trans untouched)
      · exact Or.inr (Or.inl (removes.mono continues.taken raised kept))
    · exact Or.inr (Or.inl removes)

end

end Skillsync
