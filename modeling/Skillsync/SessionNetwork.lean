import Skillsync.Conversation
import Skillsync.Gossip
import Skillsync.JoinApprovalSpec
import Skillsync.Runs

set_option autoImplicit false

namespace Skillsync

open Effects Fallible RankedMaximum Runs

section
variable {Item State Value : Type} {ε : Type}

/-- A loop that adds a part of the history with every item. -/
theorem foldlM_history (holds : Set Value → State → Prop) {f : State → Item → Except ε State}
    {part : Item → Set Value} {items : List Item} {state after : State} {history : Set Value}
    (begins : holds history state)
    (adds : ∀ history state item next, item ∈ items → holds history state →
      f state item = .ok next → holds (history ∪ part item) next)
    (done : items.foldlM f state = .ok after) :
    holds (history ∪ { value | ∃ item ∈ items, value ∈ part item }) after := by
  induction items generalizing state history with
  | nil =>
      cases done
      simpa using begins
  | cons item rest ih =>
      obtain ⟨middle, first, done⟩ := foldlM_cons_ok done
      have step := adds history state item middle List.mem_cons_self begins first
      have follow := ih step (fun history state other next listed =>
        adds history state other next (List.mem_cons_of_mem _ listed)) done
      have same : history ∪ part item ∪ { value | ∃ item ∈ rest, value ∈ part item } =
          history ∪ { value | ∃ other ∈ item :: rest, value ∈ part other } := by
        ext value
        simp [or_assoc]
      rw [← same]
      exact follow

end

section
variable [Blake3] {config : SessionConfig} {remoteEndpoint : EndpointId} {now : I64}
  {environment : Record → RemovalEnvironment} {state after : StateStore × Disk} {key : RecordKey}

/-- The records of a key that a merge may take. -/
def timely (limit : I64) (key : RecordKey) (records : List Record) : Set Record :=
  { record | record ∈ records ∧ record.key = key ∧ record.modifiedNs ≤ limit }

theorem mergeCandidate_late {collection : String} {candidate : Record}
    (late : now.saturatingAdd config.maxFutureClockSkew < candidate.modifiedNs)
    (done : mergeCandidate config remoteEndpoint now environment collection state candidate =
      .ok after) : after.1.record key = state.1.record key := by
  unfold mergeCandidate at done
  dsimp only at done
  rw [if_pos late] at done
  obtain ⟨logged, appended, done⟩ := Except.bind_ok done
  cases done
  exact StateStore.appendLog_record (Except.mapError_ok appended) key

theorem mergeCandidate_timely {collection : String} {candidate : Record} {history : Set Record}
    (named : candidate.collection = collection)
    (wins : IsWinner Record.rank history (state.1.record key))
    (done : mergeCandidate config remoteEndpoint now environment collection state candidate =
      .ok after) :
    IsWinner Record.rank
      (history ∪ timely (now.saturatingAdd config.maxFutureClockSkew) key [candidate])
      (after.1.record key) := by
  by_cases within : candidate.modifiedNs ≤ now.saturatingAdd config.maxFutureClockSkew
  · rw [mergeCandidate_record within named done key]
    by_cases same : candidate.key = key
    · rw [if_pos same]
      apply (wins.join candidate).congr
      ext record
      simp only [timely, Set.mem_insert_iff, Set.mem_union, Set.mem_ofPred_eq, List.mem_singleton]
      constructor
      · rintro (rfl | old)
        · exact Or.inr ⟨rfl, same, within⟩
        · exact Or.inl old
      · rintro (old | ⟨rfl, -, -⟩)
        · exact Or.inr old
        · exact Or.inl rfl
    · rw [if_neg same]
      apply wins.congr
      ext record
      simp only [timely, Set.mem_union, Set.mem_ofPred_eq, List.mem_singleton]
      constructor
      · exact Or.inl
      · rintro (old | ⟨rfl, own, -⟩)
        · exact old
        · exact absurd own same
  · rw [mergeCandidate_late (not_le.mp within) done]
    apply wins.congr
    ext record
    simp only [timely, Set.mem_union, Set.mem_ofPred_eq, List.mem_singleton]
    constructor
    · exact Or.inl
    · rintro (old | ⟨rfl, -, inTime⟩)
      · exact old
      · exact absurd inTime within

/-- The winner after a merge, among what was stored and the timely records of the bundle. -/
theorem mergeManifests_timely {bundle : ManifestBundle} {history : Set Record}
    (named : bundle.Named) (wins : IsWinner Record.rank history (state.1.record key))
    (done : bundle.manifests.foldlM (mergeManifest config remoteEndpoint now environment) state =
      .ok after) :
    IsWinner Record.rank
      (history ∪ timely (now.saturatingAdd config.maxFutureClockSkew) key bundle.records)
      (after.1.record key) := by
  let limit := now.saturatingAdd config.maxFutureClockSkew
  let wins' : Set Record → StateStore × Disk → Prop := fun history state =>
    IsWinner Record.rank history (state.1.record key)
  have merged : wins' (history ∪ { record | ∃ manifest ∈ bundle.manifests,
      record ∈ timely limit key manifest.2.records }) after := by
    apply foldlM_history wins' wins ?_ done
    intro history state manifest next listed wins first
    unfold mergeManifest at first
    split at first
    · have each : wins' (history ∪ { record | ∃ candidate ∈ manifest.2.records,
          record ∈ timely limit key [candidate] }) next := by
        apply foldlM_history wins' wins ?_ first
        intro history state candidate next inside wins step
        exact mergeCandidate_timely (named manifest listed candidate inside) wins step
      apply each.congr
      ext record
      simp [timely]
    · cases first
  apply IsWinner.congr merged
  ext record
  simp only [timely, ManifestBundle.records, Set.mem_union, Set.mem_ofPred_eq, List.mem_flatMap]
  constructor
  · rintro (old | ⟨manifest, listed, inside, rest⟩)
    · exact Or.inl old
    · exact Or.inr ⟨⟨manifest, listed, inside⟩, rest⟩
  · rintro (old | ⟨⟨manifest, listed, inside⟩, rest⟩)
    · exact Or.inl old
    · exact Or.inr ⟨manifest, listed, inside, rest⟩

end

theorem buildManifests_built {store : StateStore} {shared : List String} {bundle : ManifestBundle}
    (built : buildManifests store shared = .ok bundle) : bundle.Built := by
  unfold buildManifests at built
  obtain ⟨manifests, mapped, built⟩ := Except.bind_ok built
  cases built
  have pairs := mapM_ok mapped
  clear mapped built
  unfold ManifestBundle.Built
  induction pairs with
  | nil => simp
  | cons made _ ih =>
      obtain ⟨sorted, new, made⟩ := Except.bind_ok made
      cases made
      rw [List.forall_mem_cons]
      exact ⟨⟨_, Except.mapError_ok new⟩, ih⟩

theorem Raised.below [Blake3] {offers : Record → Prop} {before after : Option Record}
    (raised : Raised offers before after) : Below Record.rank before after := by
  rcases raised with rfl | ⟨candidate, -, rfl, above⟩
  · exact Below.refl _
  · cases before with
    | none => trivial
    | some old => exact (above old rfl).le

/-- What a device keeps from one session to the next. -/
structure Device where
  roster : RosterStore
  store : StateStore
  disk : Disk

/-- One side of a session: the device, what it is given, and what it reads. -/
structure SessionSide where
  device : Device
  context : SessionContext
  side : ConnectionSide
  input : List UInt8

/-- The latest time of a record that a side takes. -/
def SessionContext.futureLimit (context : SessionContext) : I64 :=
  context.now.saturatingAdd context.config.maxFutureClockSkew

namespace SessionSide

def start (mine : SessionSide) : SessionState :=
  .opening mine.device.roster mine.device.store mine.device.disk mine.input

section
variable [Blake3] [Ed25519] [AddrJson]

def outcome (mine : SessionSide) : Except SessionError Bool × SessionState :=
  (runSession mine.context mine.side).run mine.start

def final (mine : SessionSide) : SessionState := mine.outcome.2

/-- The device after the session. -/
def after (mine : SessionSide) : Device :=
  ⟨mine.final.roster, mine.final.store, mine.final.disk⟩

/-- A stream delivers what the peer has sent, up to some point. -/
def Reads (mine peer : SessionSide) : Prop := mine.input <+: transcript peer.final.sent

instance (mine peer : SessionSide) : Decidable (mine.Reads peer) := by
  unfold Reads
  infer_instance

end

/-- Both devices have the collection. -/
def Share (mine peer : SessionSide) (name : String) : Prop :=
  (mine.device.store.collections[name]?).isSome = true ∧
    (peer.device.store.collections[name]?).isSome = true

section
variable [Blake3] [Ed25519] [AddrJson] {mine peer : SessionSide}

theorem talk (mine : SessionSide) : Talk mine.start mine.final := by
  have triple : Triple (fun state => state = mine.start) (runSession mine.context mine.side)
      (fun _ state => Talk mine.start state ∧ Merged mine.context mine.start state)
      (TalkFails mine.start) := runSession_talks mine.side rfl rfl
  have always : Triple (fun state => state = mine.start) (runSession mine.context mine.side)
      (fun _ => Talk mine.start) (fun _ => Talk mine.start) :=
    triple.weaken (fun _ same => same) (fun _ _ known => known.1) fun _ _ talk => talk
  exact always.always rfl

theorem merged {changed : Bool} (done : mine.outcome.1 = .ok changed) :
    Merged mine.context mine.start mine.final := by
  have triple : Triple (fun state => state = mine.start) (runSession mine.context mine.side)
      (fun _ state => Talk mine.start state ∧ Merged mine.context mine.start state)
      (TalkFails mine.start) := runSession_talks mine.side rfl rfl
  exact (triple.ok rfl (Prod.ext done rfl)).2

omit [Blake3] [Ed25519] [AddrJson] in
theorem mem_names {store : StateStore} {name : String} :
    name ∈ store.collections.toList.map Prod.fst ↔ (store.collections[name]?).isSome = true := by
  rw [List.mem_map, Option.isSome_iff_exists]
  constructor
  · rintro ⟨⟨other, collection⟩, listed, rfl⟩
    exact ⟨collection, Std.ExtTreeMap.mem_toList_iff_getElem?_eq_some.mp listed⟩
  · rintro ⟨collection, found⟩
    exact ⟨(name, collection), Std.ExtTreeMap.mem_toList_iff_getElem?_eq_some.mpr found, rfl⟩

/-- The hello that a side takes names the collections of its peer. -/
theorem Reads.hello (reads : mine.Reads peer) (keyed : peer.device.store.Keyed)
    {greeting : List UInt8} {hello : Hello} (taken : (FrameTag.hello, greeting) ∈ mine.final.taken)
    (decoded : Hello.decode greeting = .ok hello) :
    hello.collections = peer.device.store.collections.toList.map Prod.fst := by
  have sent := mine.talk.heard _ peer.talk.opens reads .hello greeting taken (Or.inl rfl)
  have safe := runSession_safe peer.context peer.side peer.device.roster peer.device.disk peer.input
    keyed
  obtain ⟨spoken, encoded, names⟩ := safe.disclosed.frames .hello greeting sent
  have read := Hello.wireFormat.reads trivial encoded
  rw [decoded, Except.ok.injEq] at read
  rw [read]
  exact names

theorem mem_shared (reads : mine.Reads peer) (keyed : peer.device.store.Keyed)
    {greeting : List UInt8} {hello : Hello} (taken : (FrameTag.hello, greeting) ∈ mine.final.taken)
    (decoded : Hello.decode greeting = .ok hello) (name : String) :
    name ∈ mine.start.shared hello ↔ mine.Share peer name := by
  unfold SessionState.shared
  rw [List.mem_filter, decide_eq_true_eq, reads.hello keyed taken decoded, mem_names, mem_names]
  rfl

omit [Blake3] [Ed25519] [AddrJson] in
theorem Share.symm {name : String} (share : mine.Share peer name) : peer.Share mine name :=
  ⟨share.2, share.1⟩

/-- The manifests that a side takes are all the records of its peer in their common collections. -/
theorem Reads.manifests (reads : mine.Reads peer) (back : peer.Reads mine)
    (keyed : mine.device.store.Keyed) (keyed' : peer.device.store.Keyed) {answered : List UInt8}
    {bundle : ManifestBundle} (taken : (FrameTag.manifests, answered) ∈ mine.final.taken)
    (decoded : ManifestBundle.decode answered = .ok bundle) :
    bundle.Named ∧ ∀ record, record ∈ bundle.records ↔
      mine.Share peer record.collection ∧ peer.device.store.record record.key = some record := by
  have sent := mine.talk.heard _ peer.talk.opens reads .manifests answered taken (Or.inr rfl)
  obtain ⟨greeting, hello, offered, greeted, heard, built, encoded⟩ :=
    peer.talk.manifests answered sent
  have read := ManifestBundle.wireFormat.reads (buildManifests_built built) encoded
  rw [decoded, Except.ok.injEq] at read
  rw [read]
  refine ⟨buildManifests_named keyed' built, fun record => ?_⟩
  rw [mem_bundle_records keyed' built]
  have both := mem_shared back keyed greeted heard record.collection
  constructor
  · intro ⟨listed, stored⟩
    exact ⟨(both.mp listed).symm, stored⟩
  · intro ⟨share, stored⟩
    exact ⟨both.mpr share.symm, stored⟩

/-- What a side may learn of a key from its peer. -/
def offered (mine peer : SessionSide) (key : RecordKey) : Set Record :=
  { record | mine.Share peer key.collection ∧ peer.device.store.record key = some record ∧
    record.modifiedNs ≤ mine.context.futureLimit }

/-- A side that ends without an error has the winner of its own record and the one of its peer. -/
theorem learned (reads : mine.Reads peer) (back : peer.Reads mine)
    (keyed : mine.device.store.Keyed) (keyed' : peer.device.store.Keyed) {changed : Bool}
    (done : mine.outcome.1 = .ok changed) (key : RecordKey) :
    IsWinner Record.rank
      ({ record | mine.device.store.record key = some record } ∪ mine.offered peer key)
      (mine.after.store.record key) := by
  obtain ⟨greeting, hello, answered, bundle, store, disk, requests, -, -, taken, decoded, merges,
    same⟩ := mine.merged done
  obtain ⟨named, contents⟩ := reads.manifests back keyed keyed' taken decoded
  have wins := mergeManifests_timely named (IsWinner.held (mine.device.store.record key))
    (mergeRemoteManifests_ok merges)
  show IsWinner Record.rank _ (mine.final.store.record key)
  rw [same key]
  apply wins.congr
  apply congrArg
  ext record
  simp only [timely, offered, SessionContext.futureLimit, Set.mem_ofPred_eq, contents]
  constructor
  · rintro ⟨⟨share, stored⟩, rfl, inTime⟩
    exact ⟨share, stored, inTime⟩
  · intro ⟨share, stored, inTime⟩
    have own := keyed' key record stored
    refine ⟨⟨?_, by rw [own]; exact stored⟩, own, inTime⟩
    rw [show record.collection = key.collection from congrArg RecordKey.collection own]
    exact share

/-- However a session ends, a record gives way only to a greater one of the peer. -/
theorem kept (reads : mine.Reads peer) (back : peer.Reads mine)
    (keyed : mine.device.store.Keyed) (keyed' : peer.device.store.Keyed) (key : RecordKey) :
    Raised (fun record => record ∈ mine.offered peer key) (mine.device.store.record key)
      (mine.after.store.record key) := by
  have safe := runSession_safe mine.context mine.side mine.device.roster mine.device.disk mine.input
    keyed
  rcases safe.changed.records key with same | ⟨candidate, allowed, found, above⟩
  · exact Or.inl same
  · obtain ⟨⟨answered, bundle, taken, decoded, listed⟩, -, inTime⟩ := allowed
    obtain ⟨-, contents⟩ := reads.manifests back keyed keyed' taken decoded
    obtain ⟨share, stored⟩ := (contents candidate).mp listed
    have own := mine.talk.keyed keyed key candidate found
    refine Or.inr ⟨candidate, ⟨?_, by rw [← own]; exact stored, inTime⟩, found, above⟩
    rw [← own]
    exact share

/-- No collection comes or goes in a session. -/
theorem collections_kept (mine : SessionSide) (keyed : mine.device.store.Keyed) (name : String) :
    (mine.after.store.collections[name]?).isSome =
      (mine.device.store.collections[name]?).isSome := by
  have safe := runSession_safe mine.context mine.side mine.device.roster mine.device.disk mine.input
    keyed
  obtain ⟨names, -, confined⟩ := safe.changed.confined
  have paths := congrArg Option.isSome (confined.paths name)
  rw [Option.isSome_map, Option.isSome_map] at paths
  exact paths

theorem after_keyed (mine : SessionSide) (keyed : mine.device.store.Keyed) :
    mine.after.store.Keyed := mine.talk.keyed keyed

end

end SessionSide

/-- However its session ends and wherever the streams are cut, a side changes a record only to a
greater one that its peer has stored in a common collection; a side that ends without an error has
for every key the winner of its own record and the one of its peer. -/
theorem session_merges [Blake3] [Ed25519] [AddrJson] {mine peer : SessionSide}
    (reads : mine.Reads peer) (back : peer.Reads mine) (keyed : mine.device.store.Keyed)
    (keyed' : peer.device.store.Keyed) :
    (∀ key, Raised (fun record => record ∈ mine.offered peer key) (mine.device.store.record key)
      (mine.after.store.record key)) ∧
    ∀ changed, mine.outcome.1 = .ok changed → ∀ key, IsWinner Record.rank
      ({ record | mine.device.store.record key = some record } ∪ mine.offered peer key)
      (mine.after.store.record key) :=
  ⟨fun key => SessionSide.kept reads back keyed keyed' key, fun _ done key =>
    SessionSide.learned reads back keyed keyed' done key⟩

/-- A session between two devices, and how much of each stream is delivered. -/
structure Meeting (Node : Type) where
  dialer : Node
  acceptor : Node
  dialing : SessionContext
  accepting : SessionContext
  toDialer : List UInt8
  toAcceptor : List UInt8

namespace Meeting

variable {Node : Type}

def dialerSide (meeting : Meeting Node) (network : Node → Device) : SessionSide :=
  ⟨network meeting.dialer, meeting.dialing, .dialer, meeting.toDialer⟩

def acceptorSide (meeting : Meeting Node) (network : Node → Device) : SessionSide :=
  ⟨network meeting.acceptor, meeting.accepting, .acceptor, meeting.toAcceptor⟩

section
variable [Blake3] [Ed25519] [AddrJson]

/-- Each stream delivers a part of what the other side has sent. -/
def Delivers (meeting : Meeting Node) (network : Node → Device) : Prop :=
  (meeting.dialerSide network).Reads (meeting.acceptorSide network) ∧
    (meeting.acceptorSide network).Reads (meeting.dialerSide network)

instance (meeting : Meeting Node) (network : Node → Device) :
    Decidable (meeting.Delivers network) := by
  unfold Delivers
  infer_instance

/-- The devices after a session. -/
def meet [DecidableEq Node] (network : Node → Device) (meeting : Meeting Node) :
    Option (Node → Device) :=
  if meeting.dialer ≠ meeting.acceptor ∧ meeting.Delivers network then
    some (Function.update
      (Function.update network meeting.dialer (meeting.dialerSide network).after)
      meeting.acceptor (meeting.acceptorSide network).after)
  else none

/-- A side whose session ends without an error has been told of its peer. -/
def Tells (meeting : Meeting Node) (network : Node → Device) (node other : Node) : Prop :=
  (node = meeting.dialer ∧ other = meeting.acceptor ∧
      (meeting.dialerSide network).outcome.1.isOk = true) ∨
    (node = meeting.acceptor ∧ other = meeting.dialer ∧
      (meeting.acceptorSide network).outcome.1.isOk = true)

/-- Who is told of whom, session by session. -/
def tells [DecidableEq Node] (network : Node → Device) :
    List (Meeting Node) → List (Node → Node → Prop)
  | [] => []
  | meeting :: rest => meeting.Tells network ::
      match meet network meeting with
      | some next => tells next rest
      | none => []

/-- A side that ends without an error has refused no record of the collection that its peer has
as one from the future. -/
def Admits (meeting : Meeting Node) (network : Node → Device) (name : String) : Prop :=
  ((meeting.dialerSide network).outcome.1.isOk = true → ∀ path record,
    (network meeting.acceptor).store.record ⟨name, path⟩ = some record →
      record.modifiedNs ≤ meeting.dialing.futureLimit) ∧
  ((meeting.acceptorSide network).outcome.1.isOk = true → ∀ path record,
    (network meeting.dialer).store.record ⟨name, path⟩ = some record →
      record.modifiedNs ≤ meeting.accepting.futureLimit)

/-- A device that takes part in a session with another one. -/
structure Partakes (meeting : Meeting Node) (network next : Node → Device) (node other : Node)
    (mine peer : SessionSide) : Prop where
  own : mine.device = network node
  others : peer.device = network other
  reads : mine.Reads peer
  back : peer.Reads mine
  after : next node = mine.after
  told : ∀ source, meeting.Tells network node source → source = other ∧ mine.outcome.1.isOk = true
  admits : ∀ name, meeting.Admits network name → mine.outcome.1.isOk = true → ∀ path record,
    (network other).store.record ⟨name, path⟩ = some record →
      record.modifiedNs ≤ mine.context.futureLimit

variable [DecidableEq Node] {meeting : Meeting Node} {network next : Node → Device}

theorem meet_cases (met : meet network meeting = some next) (node : Node) :
    (next node = network node ∧ ∀ source, ¬ meeting.Tells network node source) ∨
      ∃ other mine peer, meeting.Partakes network next node other mine peer := by
  unfold meet at met
  split at met
  · rename_i delivers
    obtain ⟨apart, reads, back⟩ := delivers
    cases met
    by_cases accepts : node = meeting.acceptor
    · subst accepts
      refine Or.inr ⟨meeting.dialer, meeting.acceptorSide network, meeting.dialerSide network, rfl,
        rfl, back, reads, Function.update_self .., ?_, fun name admits => admits.2⟩
      rintro source (⟨same, -, -⟩ | ⟨-, rfl, done⟩)
      · exact absurd same.symm apart
      · exact ⟨rfl, done⟩
    by_cases dials : node = meeting.dialer
    · subst dials
      refine Or.inr ⟨meeting.acceptor, meeting.dialerSide network,
        meeting.acceptorSide network, rfl, rfl, reads, back, ?_, ?_, fun name admits => admits.1⟩
      · rw [Function.update_of_ne accepts, Function.update_self]
      · rintro source (⟨-, rfl, done⟩ | ⟨same, -, -⟩)
        · exact ⟨rfl, done⟩
        · exact absurd same apart
    · refine Or.inl ⟨by rw [Function.update_of_ne accepts, Function.update_of_ne dials], ?_⟩
      rintro source (⟨same, -, -⟩ | ⟨same, -, -⟩)
      · exact dials same
      · exact accepts same
  · cases met

theorem meet_keyed (keyed : ∀ node, (network node).store.Keyed)
    (met : meet network meeting = some next) (node : Node) : (next node).store.Keyed := by
  rcases meet_cases met node with ⟨same, -⟩ | ⟨other, mine, peer, partakes⟩
  · rw [same]
    exact keyed node
  · rw [partakes.after]
    apply mine.after_keyed
    rw [partakes.own]
    exact keyed node

theorem meet_collections (keyed : ∀ node, (network node).store.Keyed)
    (met : meet network meeting = some next) (node : Node) (name : String) :
    ((next node).store.collections[name]?).isSome =
      ((network node).store.collections[name]?).isSome := by
  rcases meet_cases met node with ⟨same, -⟩ | ⟨other, mine, peer, partakes⟩
  · rw [same]
  · have own : mine.device.store.Keyed := by
      rw [partakes.own]
      exact keyed node
    rw [partakes.after, mine.collections_kept own, partakes.own]

variable {holder : Node → Prop} {name : String}

/-- A session between two devices is an exchange among all that have a collection. -/
theorem meet_exchange (keyed : ∀ node, (network node).store.Keyed)
    (holders : ∀ node, holder node ↔ ((network node).store.collections[name]?).isSome = true)
    (met : meet network meeting = some next) (path : ProtocolPath)
    (admits : meeting.Admits network name) :
    Gossip.Exchange Record.rank
      (fun node : { node // holder node } => (network node).store.record ⟨name, path⟩)
      (fun node => (next node).store.record ⟨name, path⟩)
      (fun node other => meeting.Tells network node other) where
  keeps := by
    intro ⟨node, holds⟩
    dsimp only
    rcases meet_cases met node with ⟨same, -⟩ | ⟨other, mine, peer, partakes⟩
    · rw [same]
      exact Below.refl _
    · have raised := SessionSide.kept partakes.reads partakes.back (partakes.own ▸ keyed node)
        (partakes.others ▸ keyed other) ⟨name, path⟩
      rw [partakes.after, ← partakes.own]
      exact raised.below
  learns := by
    intro ⟨node, holds⟩ ⟨source, has⟩ told
    dsimp only at told ⊢
    rcases meet_cases met node with ⟨-, none⟩ | ⟨other, mine, peer, partakes⟩
    · exact absurd told (none source)
    · obtain ⟨rfl, done⟩ := partakes.told source told
      cases outcome : mine.outcome.1 with
      | error reason =>
          rw [outcome] at done
          cases done
      | ok changed =>
          have wins := SessionSide.learned partakes.reads partakes.back (partakes.own ▸ keyed node)
            (partakes.others ▸ keyed source) outcome ⟨name, path⟩
          cases stored : (network source).store.record ⟨name, path⟩ with
          | none => trivial
          | some record =>
              rw [partakes.after]
              apply Gossip.above_of_winner wins
              refine Or.inr ⟨⟨?_, ?_⟩, by rw [partakes.others]; exact stored,
                partakes.admits name admits done path record stored⟩
              · rw [partakes.own]
                exact (holders node).mp holds
              · rw [partakes.others]
                exact (holders source).mp has
  origin := by
    intro ⟨node, holds⟩ record held
    dsimp only at held ⊢
    rcases meet_cases met node with ⟨same, -⟩ | ⟨other, mine, peer, partakes⟩
    · exact ⟨⟨node, holds⟩, by rw [← same]; exact held⟩
    · have raised := SessionSide.kept partakes.reads partakes.back (partakes.own ▸ keyed node)
        (partakes.others ▸ keyed other) ⟨name, path⟩
      rw [partakes.after] at held
      rcases raised with same | ⟨candidate, ⟨share, stored, -⟩, found, -⟩
      · exact ⟨⟨node, holds⟩, by rw [← partakes.own, ← same]; exact held⟩
      · rw [held, Option.some.injEq] at found
        subst found
        have has := share.2
        rw [partakes.others] at has stored
        exact ⟨⟨other, (holders other).mpr has⟩, stored⟩

/-- Whoever has the collection is told of whom, session by session. -/
def toldAmong (holder : Node → Prop) (network : Node → Device) (meetings : List (Meeting Node)) :
    List ({ node // holder node } → { node // holder node } → Prop) :=
  (tells network meetings).map fun told node other => told node other

/-- A run of sessions is a run of exchanges among all that have a collection. -/
theorem run_exchanges {final : Node → Device} {meetings : List (Meeting Node)}
    (keyed : ∀ node, (network node).store.Keyed)
    (holders : ∀ node, holder node ↔ ((network node).store.collections[name]?).isSome = true)
    (reached : run meet network meetings = some final) (path : ProtocolPath)
    (admits : Along meet (fun network meeting => meeting.Admits network name) network meetings) :
    Gossip.Exchanges Record.rank
      (fun node : { node // holder node } => (network node).store.record ⟨name, path⟩)
      (toldAmong holder network meetings)
      (fun node => (final node).store.record ⟨name, path⟩) := by
  induction meetings generalizing network with
  | nil =>
      cases reached
      exact .nil _
  | cons meeting rest ih =>
      obtain ⟨next, met, follow⟩ := run_cons.mp reached
      have first := meet_exchange keyed holders met path admits.1
      have holders' : ∀ node,
          holder node ↔ ((next node).store.collections[name]?).isSome = true := by
        intro node
        rw [meet_collections keyed met]
        exact holders node
      have later := ih (meet_keyed keyed met) holders' follow (admits.2 next met)
      unfold toldAmong tells
      rw [met]
      exact .cons first later

/-- The devices that have a collection. -/
def Has (network : Node → Device) (name : String) (node : Node) : Prop :=
  ((network node).store.collections[name]?).isSome = true

/-- The records of a path of a collection, on all devices that have the collection. -/
def stored (network : Node → Device) (key : RecordKey) : Set Record :=
  { record | ∃ node, Has network key.collection node ∧
    (network node).store.record key = some record }

end

end Meeting

section
variable {Node : Type} [DecidableEq Node] [Blake3] [Ed25519] [AddrJson]
  {network final : Node → Device} {meetings : List (Meeting Node)}

/-- Devices that have met, directly or over others and in the right order, have the same winners:
for every path the greatest record that any of them had. -/
theorem devices_converge (keyed : ∀ node, (network node).store.Keyed)
    (reached : run Meeting.meet network meetings = some final) {name : String}
    (admits : Along Meeting.meet (fun network meeting => meeting.Admits network name) network
      meetings)
    (apart : ∀ path, Record.HashesApart (Meeting.stored network ⟨name, path⟩))
    (connected : ∀ node source,
      Gossip.Hears (Meeting.toldAmong (Meeting.Has network name) network meetings) node source)
    (path : ProtocolPath) :
    ∃ winner, IsWinner Record.rank (Meeting.stored network ⟨name, path⟩) winner ∧
      ∀ node, Meeting.Has network name node → (final node).store.record ⟨name, path⟩ = winner := by
  have exchanges := Meeting.run_exchanges keyed (fun node => Iff.rfl) reached path admits
  have wins : ∀ node, Meeting.Has network name node →
      IsWinner Record.rank (Meeting.stored network ⟨name, path⟩)
        ((final node).store.record ⟨name, path⟩) := by
    intro node holds
    apply (exchanges.winner (connected ⟨node, holds⟩)).congr
    ext record
    constructor
    · intro ⟨⟨source, has⟩, found⟩
      exact ⟨source, has, found⟩
    · intro ⟨source, has, found⟩
      exact ⟨⟨source, has⟩, found⟩
  by_cases nobody : ∃ node, Meeting.Has network name node
  · obtain ⟨node, holds⟩ := nobody
    refine ⟨_, wins node holds, fun other has => ?_⟩
    exact (wins other has).unique (apart path).rank_injOn (wins node holds)
  · refine ⟨none, ?_, fun node holds => absurd ⟨node, holds⟩ nobody⟩
    apply Set.eq_empty_of_forall_notMem
    intro record ⟨node, holds, _⟩
    exact nobody ⟨node, holds⟩

end

section
attribute [local instance] Blake3.checksum Ed25519.checksum AddrJson.bare

open RosterSample

/-- The first device has a note, and the second one nothing yet. -/
def noteNetwork (first : Bool) : Device :=
  if first then ⟨pair, noteMerged.1.materialize note.key, noteAsked.2.disk⟩ else ⟨pair, newcomer, ∅⟩

/-- A session of the two devices of which each stream has brought a part. -/
def noteMeeting (streams : List UInt8 × List UInt8) : Meeting Bool :=
  ⟨true, false, .between 1 2, .between 2 1, streams.1, streams.2⟩

theorem noteMeeting_dialer (streams : List UInt8 × List UInt8) :
    ((noteMeeting streams).dialerSide noteNetwork).outcome = noteDialed streams.1 := by
  simp only [SessionSide.outcome, Meeting.dialerSide, noteMeeting, SessionSide.start, noteNetwork,
    if_true, noteDialed]

theorem noteMeeting_acceptor (streams : List UInt8 × List UInt8) :
    ((noteMeeting streams).acceptorSide noteNetwork).outcome = noteAccepted streams.2 := by
  simp only [SessionSide.outcome, Meeting.acceptorSide, noteMeeting, SessionSide.start,
    noteNetwork, Bool.false_eq_true, if_false, noteAccepted]

/-- Both sides of the session succeed. -/
theorem note_session_succeeds :
    (noteMeeting (noteStreams 3)).Delivers noteNetwork ∧
      ((noteMeeting (noteStreams 3)).dialerSide noteNetwork).outcome.1.isOk = true ∧
      ((noteMeeting (noteStreams 3)).acceptorSide noteNetwork).outcome.1.isOk = true := by
  have succeeds (streams : List UInt8 × List UInt8) (dials : (noteDialed streams.1).1.isOk = true)
      (accepts : (noteAccepted streams.2).1.isOk = true)
      (back : streams.1 <+: transcript (noteAccepted streams.2).2.sent)
      (reads : streams.2 <+: transcript (noteDialed streams.1).2.sent) :
      (noteMeeting streams).Delivers noteNetwork ∧
        ((noteMeeting streams).dialerSide noteNetwork).outcome.1.isOk = true ∧
        ((noteMeeting streams).acceptorSide noteNetwork).outcome.1.isOk = true := by
    unfold Meeting.Delivers SessionSide.Reads SessionSide.final
    rw [noteMeeting_dialer, noteMeeting_acceptor]
    exact ⟨⟨back, reads⟩, dials, accepts⟩
  obtain ⟨⟨dials, accepts⟩, ⟨back, reads⟩, -⟩ := note_session_runs
  exact succeeds _ dials accepts back reads

theorem noteNetwork_records : ∀ first, ∀ row ∈ (noteNetwork first).store.pathRecords.toList,
    row.2.record.key = row.1 ∧ row.2.record = note := by
  decide +kernel

theorem noteNetwork_note {first : Bool} {key : RecordKey} {record : Record}
    (found : (noteNetwork first).store.record key = some record) :
    record.key = key ∧ record = note := by
  obtain ⟨row, present, rfl⟩ := StateStore.record_eq_some.mp found
  exact noteNetwork_records first (key, row)
    (Std.ExtTreeMap.mem_toList_iff_getElem?_eq_some.mpr present)

theorem noteNetwork_keyed (first : Bool) : (noteNetwork first).store.Keyed :=
  fun _ _ found => (noteNetwork_note found).1

/-- The second device merges what the first one has. -/
theorem note_session_merges :
    ∃ mine peer : SessionSide, mine.device = noteNetwork false ∧ peer.device = noteNetwork true ∧
      mine.Reads peer ∧ ∀ key, IsWinner Record.rank
        ({ record | mine.device.store.record key = some record } ∪ mine.offered peer key)
        (mine.after.store.record key) := by
  obtain ⟨⟨back, reads⟩, -, accepts⟩ := note_session_succeeds
  have dialer : (noteMeeting (noteStreams 3)).dialer = true := rfl
  have acceptor : (noteMeeting (noteStreams 3)).acceptor = false := rfl
  generalize noteMeeting (noteStreams 3) = meeting at *
  refine ⟨meeting.acceptorSide noteNetwork, meeting.dialerSide noteNetwork,
    congrArg noteNetwork acceptor, congrArg noteNetwork dialer, reads, ?_⟩
  cases outcome : (meeting.acceptorSide noteNetwork).outcome.1 with
  | error reason =>
      rw [outcome] at accepts
      cases accepts
  | ok changed =>
      exact (session_merges reads back (noteNetwork_keyed meeting.acceptor)
        (noteNetwork_keyed meeting.dialer)).2 changed outcome

/-- After the session both devices have the note. -/
theorem note_devices_converge :
    ∃ final, run Meeting.meet noteNetwork [noteMeeting (noteStreams 3)] = some final ∧
      ∀ first, (final first).store.record note.key = some note := by
  obtain ⟨delivers, dials, accepts⟩ := note_session_succeeds
  have limits : (10 : I64) ≤ (noteMeeting (noteStreams 3)).dialing.futureLimit ∧
      (10 : I64) ≤ (noteMeeting (noteStreams 3)).accepting.futureLimit := by decide +kernel
  have ends : (noteMeeting (noteStreams 3)).dialer = true ∧
      (noteMeeting (noteStreams 3)).acceptor = false := ⟨rfl, rfl⟩
  have has : ∀ first, Meeting.Has noteNetwork "c" first := by
    intro first
    unfold Meeting.Has
    revert first
    decide +kernel
  generalize noteMeeting (noteStreams 3) = meeting at *
  obtain ⟨dialer, acceptor⟩ := ends
  obtain ⟨final, met⟩ : ∃ final, Meeting.meet noteNetwork meeting = some final :=
    ⟨_, if_pos ⟨by rw [dialer, acceptor]; decide, delivers⟩⟩
  have reached : run Meeting.meet noteNetwork [meeting] = some final := run_cons.mpr ⟨_, met, rfl⟩
  have told : ∀ first, meeting.Tells noteNetwork first (!first) := by
    intro first
    cases first with
    | true => exact Or.inl ⟨dialer.symm, acceptor.symm, dials⟩
    | false => exact Or.inr ⟨acceptor.symm, dialer.symm, accepts⟩
  have only : ∀ path, ∀ record ∈ Meeting.stored noteNetwork ⟨"c", path⟩, record = note := by
    intro path record ⟨first, _, found⟩
    exact (noteNetwork_note found).2
  have inTime : ∀ first path record, (noteNetwork first).store.record ⟨"c", path⟩ = some record →
      record.modifiedNs ≤ 10 := by
    intro first path record found
    rw [(noteNetwork_note found).2]
    decide
  have admits : Along Meeting.meet (fun network meeting => meeting.Admits network "c") noteNetwork
      [meeting] :=
    ⟨⟨fun _ path record found => (inTime _ path record found).trans limits.1,
      fun _ path record found => (inTime _ path record found).trans limits.2⟩, fun _ _ => trivial⟩
  have apart : ∀ path, Record.HashesApart (Meeting.stored noteNetwork ⟨"c", path⟩) := by
    intro path first one second two _
    rw [only path first one, only path second two]
  have connected : ∀ node source, Gossip.Hears
      (Meeting.toldAmong (Meeting.Has noteNetwork "c") noteNetwork [meeting]) node source := by
    intro ⟨node, holds⟩ ⟨source, has⟩
    unfold Meeting.toldAmong Meeting.tells
    rw [met]
    refine ⟨⟨node, holds⟩, rfl, ?_⟩
    by_cases same : node = source
    · exact Or.inl (Subtype.ext same)
    · have other : source = !node := by cases node <;> cases source <;> simp_all
      subst other
      exact Or.inr (told node)
  obtain ⟨winner, wins, agree⟩ :=
    devices_converge noteNetwork_keyed reached admits apart connected note.path
  have held : note ∈ Meeting.stored noteNetwork ⟨"c", note.path⟩ :=
    ⟨true, has true, by decide +kernel⟩
  cases winner with
  | none => exact absurd held (by rw [show Meeting.stored noteNetwork _ = ∅ from wins]; simp)
  | some record =>
      rw [only note.path record wins.1] at agree
      exact ⟨final, reached, fun first => agree first (has first)⟩

end

end Skillsync
