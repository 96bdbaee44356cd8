import Skillsync.SyncSpec
import Skillsync.Runs

set_option autoImplicit false

namespace Skillsync.Replication

open RankedMaximum Runs Fallible

/-- `history` is not stored: it lists the records merged here and, for each merged bundle,
those in the history of its sender when it was built. -/
structure Replica where
  store : StateStore
  disk : Disk
  history : List Record

/-- A built bundle, with the part of its sender's history it stands for. -/
structure Message where
  bundle : ManifestBundle
  history : List Record

/-- A bundle that was sent stays, so that it may arrive late or again. -/
structure Network (Node : Type) where
  replicas : Node → Replica
  messages : List Message

/-- One call of `merge_remote_manifests` at the receiver. -/
structure Exchange where
  config : SessionConfig
  remoteEndpoint : EndpointId
  now : I64
  environment : Record → RemovalEnvironment
  shared : List String

inductive Label (Node : Type)
  | merge (node : Node) (record : Record) (observedNs : I64) (maxLogs : Nat)
  | build (node : Node) (shared : List String)
  | deliver (node : Node) (index : Nat) (exchange : Exchange)

/-- The records of a history for one key. -/
def keyed (history : List Record) (key : RecordKey) : Set Record :=
  { record | record ∈ history ∧ record.key = key }

theorem keyed_append (front back : List Record) (key : RecordKey) :
    keyed (front ++ back) key = keyed front key ∪ keyed back key := by
  ext record
  simp only [keyed, List.mem_append, Set.mem_union, Set.mem_ofPred_eq, or_and_right]

theorem keyed_cons (record : Record) (history : List Record) (key : RecordKey) :
    keyed (record :: history) key =
      if record.key = key then insert record (keyed history key) else keyed history key := by
  ext other
  split
  · rename_i same
    simp only [keyed, List.mem_cons, Set.mem_insert_iff, Set.mem_ofPred_eq]
    constructor
    · rintro ⟨rfl | member, named⟩
      · exact Or.inl rfl
      · exact Or.inr ⟨member, named⟩
    · rintro (rfl | ⟨member, named⟩)
      · exact ⟨Or.inl rfl, same⟩
      · exact ⟨Or.inr member, named⟩
  · rename_i different
    simp only [keyed, List.mem_cons, Set.mem_ofPred_eq]
    constructor
    · rintro ⟨rfl | member, named⟩
      · exact absurd named different
      · exact ⟨member, named⟩
    · rintro ⟨member, named⟩
      exact ⟨Or.inr member, named⟩

def Network.update {Node : Type} [DecidableEq Node] (network : Network Node) (node : Node)
    (replica : Replica) : Network Node :=
  { network with replicas := Function.update network.replicas node replica }

theorem update_replicas {Node : Type} [DecidableEq Node] (network : Network Node)
    (node other : Node) (replica : Replica) :
    (network.update node replica).replicas other =
      if other = node then replica else network.replicas other := by
  simp only [Network.update, Function.update_apply]

section
variable {Node : Type} [Blake3]

/-- One successful call at one node. -/
def step [DecidableEq Node] (network : Network Node) : Label Node → Option (Network Node)
  | .merge node record observedNs maxLogs => do
      let replica := network.replicas node
      let (store, _) ← (replica.store.mergeRecord record observedNs none maxLogs).toOption
      return network.update node ⟨store, replica.disk, record :: replica.history⟩
  | .build node shared => do
      let replica := network.replicas node
      let bundle ← (buildManifests replica.store shared).toOption
      return { network with
        messages := network.messages ++
          [⟨bundle, replica.history.filter fun record => record.collection ∈ shared⟩] }
  | .deliver node index exchange => do
      let replica := network.replicas node
      let message ← network.messages[index]?
      let (store, disk, _) ← (mergeRemoteManifests exchange.config exchange.remoteEndpoint
        exchange.now exchange.environment replica.store replica.disk exchange.shared
        message.bundle).toOption
      return network.update node ⟨store, disk, replica.history ++ message.history⟩

def Exchange.futureLimit (exchange : Exchange) : I64 :=
  exchange.now.saturatingAdd exchange.config.maxFutureClockSkew

/-- No delivered record is beyond the receiver's future limit. -/
def WithinLimit (network : Network Node) : Label Node → Prop
  | .deliver _ index exchange =>
      ∀ message ∈ network.messages[index]?, message.bundle.Within exchange.futureLimit
  | _ => True

/-- Nothing has been merged anywhere. -/
structure Fresh (network : Network Node) : Prop where
  messages : network.messages = []
  histories : ∀ node, (network.replicas node).history = []
  records : ∀ node key, (network.replicas node).store.recordState key = none

/-- Every node stores the winners of its history, and every bundle in flight lists the winners
of the history it stands for. -/
structure Joined (network : Network Node) : Prop where
  winner : ∀ node key, IsWinner Record.rank (keyed (network.replicas node).history key)
    ((network.replicas node).store.record key)
  named : ∀ message ∈ network.messages, message.bundle.Named
  listed : ∀ message ∈ network.messages, ∀ record ∈ message.bundle.records,
    record ∈ message.history
  dominated : ∀ message ∈ network.messages, ∀ record ∈ message.history,
    ∃ top ∈ message.bundle.records, top.key = record.key ∧ record.rank ≤ top.rank

theorem Joined.keyedStore {network : Network Node} (joined : Joined network) (node : Node) :
    (network.replicas node).store.Keyed := by
  intro key record stored
  have wins := joined.winner node key
  rw [stored] at wins
  exact wins.1.2

theorem Fresh.joined {network : Network Node} (fresh : Fresh network) : Joined network := by
  refine ⟨fun node key => ?_, ?_, ?_, ?_⟩
  · have nothing : (network.replicas node).store.record key = none := by
      simp only [StateStore.record, fresh.records, Option.map_none]
    rw [nothing, fresh.histories]
    exact Set.eq_empty_of_forall_notMem fun record seen => absurd seen.1 List.not_mem_nil
  all_goals
    intro message sent
    rw [fresh.messages] at sent
    exact absurd sent List.not_mem_nil

/-- Merging a bundle gives the winners of both histories. -/
theorem Joined.deliver {network : Network Node} (joined : Joined network) {message : Message}
    (sent : message ∈ network.messages) {node : Node} {exchange : Exchange}
    {store : StateStore} {disk : Disk}
    (within : message.bundle.Within exchange.futureLimit)
    (merged : message.bundle.manifests.foldlM (mergeManifest exchange.config
      exchange.remoteEndpoint exchange.now exchange.environment)
      ((network.replicas node).store, (network.replicas node).disk) = .ok (store, disk))
    (key : RecordKey) :
    IsWinner Record.rank (keyed ((network.replicas node).history ++ message.history) key)
      (store.record key) := by
  have wins := mergeManifests_winner (joined.winner node key) within
    (joined.named message sent) merged
  rw [keyed_append]
  refine wins.dominated (Set.union_subset_union_right _ ?_) ?_
  · rintro record ⟨inBundle, same⟩
    exact ⟨joined.listed message sent record inBundle, same⟩
  · rintro record (old | ⟨carried, same⟩)
    · exact ⟨record, Or.inl old, le_refl _⟩
    · obtain ⟨top, inBundle, key, le⟩ := joined.dominated message sent record carried
      exact ⟨top, Or.inr ⟨inBundle, key.trans same⟩, le⟩

/-- A built bundle lists the winners of the part of the history it covers. -/
theorem Joined.build {network : Network Node} (joined : Joined network) {node : Node}
    {shared : List String} {bundle : ManifestBundle}
    (built : buildManifests (network.replicas node).store shared = .ok bundle) :
    (∀ record ∈ bundle.records, record ∈ (network.replicas node).history.filter fun record =>
      record.collection ∈ shared) ∧
    ∀ record ∈ (network.replicas node).history.filter fun record => record.collection ∈ shared,
      ∃ top ∈ bundle.records, top.key = record.key ∧ record.rank ≤ top.rank := by
  have lists := mem_bundle_records (joined.keyedStore node) built
  refine ⟨fun record inBundle => ?_, fun record carried => ?_⟩
  · obtain ⟨covered, stored⟩ := (lists record).mp inBundle
    have wins := joined.winner node record.key
    rw [stored] at wins
    simp only [List.mem_filter, wins.1.1, covered, decide_true, and_self]
  · simp only [List.mem_filter, decide_eq_true_eq] at carried
    obtain ⟨member, covered⟩ := carried
    have wins := joined.winner node record.key
    cases stored : (network.replicas node).store.record record.key with
    | none =>
        rw [stored] at wins
        have inNothing : record ∈ (∅ : Set Record) := wins ▸ ⟨member, rfl⟩
        exact absurd inNothing (Set.notMem_empty record)
    | some top =>
        rw [stored] at wins
        obtain ⟨⟨_, same⟩, greatest⟩ := wins
        refine ⟨top, (lists top).mpr ⟨?_, ?_⟩, same, greatest record ⟨member, rfl⟩⟩
        · rw [show top.collection = record.collection from congrArg RecordKey.collection same]
          exact covered
        · rw [same]
          exact stored

variable [DecidableEq Node]

/-- What each enabled label does. -/
theorem step_cases {network next : Network Node} {label : Label Node}
    (taken : step network label = some next) :
    (∃ node record observedNs maxLogs store accepted,
      label = .merge node record observedNs maxLogs ∧
      (network.replicas node).store.mergeRecord record observedNs none maxLogs =
        .ok (store, accepted) ∧
      next = network.update node ⟨store, (network.replicas node).disk,
        record :: (network.replicas node).history⟩) ∨
    (∃ node shared bundle, label = .build node shared ∧
      buildManifests (network.replicas node).store shared = .ok bundle ∧
      next = { network with messages := network.messages ++
        [⟨bundle, (network.replicas node).history.filter fun record =>
          record.collection ∈ shared⟩] }) ∨
    (∃ node index exchange message store disk,
      label = .deliver node index exchange ∧ network.messages[index]? = some message ∧
      message.bundle.manifests.foldlM (mergeManifest exchange.config exchange.remoteEndpoint
        exchange.now exchange.environment)
        ((network.replicas node).store, (network.replicas node).disk) = .ok (store, disk) ∧
      next = network.update node ⟨store, disk,
        (network.replicas node).history ++ message.history⟩) := by
  cases label with
  | merge node record observedNs maxLogs =>
      simp only [step, Option.bind_eq_bind, Option.bind_eq_some_iff] at taken
      obtain ⟨⟨store, accepted⟩, merged, taken⟩ := taken
      cases taken
      exact Or.inl ⟨node, record, observedNs, maxLogs, store, accepted, rfl,
        Except.toOption_eq_some.mp merged, rfl⟩
  | build node shared =>
      simp only [step, Option.bind_eq_bind, Option.bind_eq_some_iff] at taken
      obtain ⟨bundle, built, taken⟩ := taken
      cases taken
      exact Or.inr (Or.inl ⟨node, shared, bundle, rfl, Except.toOption_eq_some.mp built, rfl⟩)
  | deliver node index exchange =>
      simp only [step, Option.bind_eq_bind, Option.bind_eq_some_iff] at taken
      obtain ⟨message, found, ⟨store, disk, requests⟩, merged, taken⟩ := taken
      cases taken
      exact Or.inr (Or.inr ⟨node, index, exchange, message, store, disk, rfl, found,
        mergeRemoteManifests_ok (Except.toOption_eq_some.mp merged), rfl⟩)

/-- The step lemma: every allowed step keeps the stored winners the winners. -/
theorem joined_step :
    Preserves (step : Network Node → Label Node → Option (Network Node)) WithinLimit Joined := by
  intro network label next joined within taken
  rcases step_cases taken with
    ⟨node, record, observedNs, maxLogs, store, accepted, rfl, merged, rfl⟩ |
    ⟨node, shared, bundle, rfl, built, rfl⟩ |
    ⟨node, index, exchange, message, store, disk, rfl, found, merged, rfl⟩
  · refine ⟨fun other key => ?_, joined.named, joined.listed, joined.dominated⟩
    rw [update_replicas]
    split
    · rw [StateStore.mergeRecord_record merged key, keyed_cons]
      split
      · exact (joined.winner node key).join record
      · exact joined.winner node key
    · exact joined.winner other key
  · obtain ⟨listed, dominated⟩ := joined.build built
    refine ⟨joined.winner, ?_, ?_, ?_⟩
    · intro message sent
      rcases List.mem_append.mp sent with old | new
      · exact joined.named message old
      · rw [List.mem_singleton.mp new]
        exact buildManifests_named (joined.keyedStore node) built
    · intro message sent
      rcases List.mem_append.mp sent with old | new
      · exact joined.listed message old
      · rw [List.mem_singleton.mp new]
        exact listed
    · intro message sent
      rcases List.mem_append.mp sent with old | new
      · exact joined.dominated message old
      · rw [List.mem_singleton.mp new]
        exact dominated
  · refine ⟨fun other key => ?_, joined.named, joined.listed, joined.dominated⟩
    rw [update_replicas]
    split
    · exact joined.deliver (List.mem_of_getElem? found) (within message found) merged key
    · exact joined.winner other key

/-- Histories grow and no message is lost. -/
structure Extends (network next : Network Node) : Prop where
  histories : ∀ node, (network.replicas node).history ⊆ (next.replicas node).history
  messages : ∀ (index : Nat) message,
    network.messages[index]? = some message → next.messages[index]? = some message

omit [DecidableEq Node] [Blake3] in
theorem Extends.refl (network : Network Node) : Extends network network :=
  ⟨fun _ => List.Subset.refl _, fun _ _ found => found⟩

omit [DecidableEq Node] [Blake3] in
theorem Extends.trans {first second third : Network Node} (front : Extends first second)
    (back : Extends second third) : Extends first third :=
  ⟨fun node => List.Subset.trans (front.histories node) (back.histories node),
    fun index message found => back.messages index message (front.messages index message found)⟩

theorem extends_step {network next : Network Node} {label : Label Node}
    (taken : step network label = some next) : Extends network next := by
  rcases step_cases taken with
    ⟨node, record, _, _, store, _, rfl, -, rfl⟩ | ⟨node, shared, bundle, rfl, -, rfl⟩ |
    ⟨node, _, _, message, store, disk, rfl, -, -, rfl⟩
  · refine ⟨fun other => ?_, fun _ _ found => found⟩
    rw [update_replicas]
    split
    · rename_i same
      rw [same]
      exact List.subset_cons_self _ _
    · exact List.Subset.refl _
  · refine ⟨fun _ => List.Subset.refl _, fun index message found => ?_⟩
    exact (List.getElem?_append_left (List.getElem?_eq_some_iff.mp found).1).trans found
  · refine ⟨fun other => ?_, fun _ _ found => found⟩
    rw [update_replicas]
    split
    · rename_i same
      rw [same]
      exact List.subset_append_left _ _
    · exact List.Subset.refl _

theorem extends_run {network final : Network Node} {labels : List (Label Node)}
    (reached : run step network labels = some final) : Extends network final := by
  induction labels generalizing network with
  | nil =>
      rw [run_nil, Option.some.injEq] at reached
      exact reached ▸ Extends.refl network
  | cons label rest ih =>
      obtain ⟨middle, taken, rest⟩ := run_cons.mp reached
      exact (extends_step taken).trans (ih rest)

/-- The records merged anywhere. -/
def Network.involved (network : Network Node) : Set Record :=
  { record | ∃ node, record ∈ (network.replicas node).history }

/-- The greatest record of a history for a key under `compare_winner`, if it has any. -/
def Greatest (history : List Record) (key : RecordKey) : Option Record → Prop
  | none => ∀ record ∈ history, record.key ≠ key
  | some winner => winner ∈ history ∧ winner.key = key ∧
      ∀ record ∈ history, record.key = key → record = winner ∨ winner.compareWinner record = .gt

omit [DecidableEq Node] in
theorem Joined.greatest {network : Network Node} (joined : Joined network)
    (apart : Record.HashesApart network.involved) (node : Node) (key : RecordKey) :
    Greatest (network.replicas node).history key
      ((network.replicas node).store.record key) := by
  have wins := joined.winner node key
  cases stored : (network.replicas node).store.record key with
  | none =>
      rw [stored] at wins
      intro record member same
      have inNothing : record ∈ (∅ : Set Record) := wins ▸ ⟨member, same⟩
      exact Set.notMem_empty record inNothing
  | some winner =>
      rw [stored] at wins
      obtain ⟨⟨member, same⟩, greatest⟩ := wins
      refine ⟨member, same, fun record seen keyed => ?_⟩
      rcases lt_or_eq_of_le (greatest record ⟨seen, keyed⟩) with less | equal
      · exact Or.inr (Record.compareWinner_eq_gt.mpr less)
      · exact Or.inl (apart.rank_injOn ⟨node, seen⟩ ⟨node, member⟩ equal)

omit [DecidableEq Node] in
theorem Joined.eq_of_same_history {earlier later final : Network Node}
    (joined : Joined earlier) (joinedLater : Joined later)
    (apart : Record.HashesApart final.involved) (forward : Extends later final)
    {node other : Node}
    (same : ∀ record, record ∈ (earlier.replicas node).history ↔
      record ∈ (later.replicas other).history) (key : RecordKey) :
    (earlier.replicas node).store.record key = (later.replicas other).store.record key := by
  have wins : IsWinner Record.rank (keyed (later.replicas other).history key)
      ((earlier.replicas node).store.record key) := by
    refine (joined.winner node key).congr ?_
    ext record
    simp only [keyed, Set.mem_ofPred_eq, same]
  refine wins.unique ?_ (joinedLater.winner other key)
  exact (apart.mono fun record seen => ⟨other, forward.histories other seen.1⟩).rank_injOn

/-- A node's history once it has merged a message. -/
theorem deliver_history {network next : Network Node} {node : Node} {index : Nat}
    {exchange : Exchange} (taken : step network (.deliver node index exchange) = some next) :
    ∃ message, network.messages[index]? = some message ∧
      (next.replicas node).history = (network.replicas node).history ++ message.history := by
  rcases step_cases taken with ⟨_, _, _, _, _, _, impossible, _⟩ | ⟨_, _, _, impossible, _⟩ |
    ⟨_, _, _, message, store, disk, same, found, -, rfl⟩
  · cases impossible
  · cases impossible
  · cases same
    exact ⟨message, found, by rw [update_replicas, if_pos rfl]⟩

/-- A delivery leaves other nodes and other collections as they are. -/
theorem deliver_untouched {network next : Network Node} {node : Node} {index : Nat}
    {exchange : Exchange} (joined : Joined network)
    (taken : step network (.deliver node index exchange) = some next) (other : Node)
    (key : RecordKey)
    (outside : other = node → ∀ message ∈ network.messages[index]?,
      key.collection ∉ message.bundle.manifests.map Prod.fst) :
    (next.replicas other).store.recordState key =
      (network.replicas other).store.recordState key := by
  rcases step_cases taken with ⟨_, _, _, _, _, _, impossible, _⟩ | ⟨_, _, _, impossible, _⟩ |
    ⟨_, _, _, message, store, disk, same, found, merged, rfl⟩
  · cases impossible
  · cases impossible
  · cases same
    rw [update_replicas]
    split
    · rename_i same
      rw [same]
      exact mergeManifests_row (joined.named message (List.mem_of_getElem? found))
        (outside same message found) merged
    · rfl

/-- Every run of local merges and manifest exchanges is a join of the records it merges. -/
theorem replication_is_join {start final : Network Node} {labels : List (Label Node)}
    (fresh : Fresh start) (within : Along step WithinLimit start labels)
    (reached : run step start labels = some final)
    (injective : Set.InjOn Blake3.hash (Record.canonicalBytes '' final.involved)) :
    -- every stored winner is the greatest record of the node's history
    (∀ node key, Greatest (final.replicas node).history key
      ((final.replicas node).store.record key)) ∧
    -- no winner ever moves down
    (∀ earlier, Passes step start labels earlier → ∀ node key,
      Below Record.rank ((earlier.replicas node).store.record key)
        ((final.replicas node).store.record key)) ∧
    -- a delivery touches its receiver and the collections of its bundle only
    (∀ front node index exchange before, labels = front ++ [.deliver node index exchange] →
      run step start front = some before → ∀ other key,
      (other = node → ∀ message ∈ before.messages[index]?,
        key.collection ∉ message.bundle.manifests.map Prod.fst) →
      (final.replicas other).store.recordState key =
        (before.replicas other).store.recordState key) ∧
    -- equal histories give equal records, also at different times
    (∀ earlier, Passes step start labels earlier → ∀ node other,
      (∀ record, record ∈ (earlier.replicas node).history ↔
        record ∈ (final.replicas other).history) →
      ∀ key, (earlier.replicas node).store.record key =
        (final.replicas other).store.record key) ∧
    -- merging a bundle again changes no record
    (∀ front middle node index first second before,
      labels = front ++ .deliver node index first :: middle ++ [.deliver node index second] →
      run step start (front ++ .deliver node index first :: middle) = some before →
      ∀ key, (final.replicas node).store.record key =
        (before.replicas node).store.record key) ∧
    -- the order itself, on all records that the hash tells apart
    (∀ records, Set.InjOn Blake3.hash (Record.canonicalBytes '' records) →
      Record.StrictTotal Record.compareWinner records) := by
  have apart := Record.HashesApart.of_injOn injective
  have joined := joined_step.run fresh.joined within reached
  have passed : ∀ earlier, Passes step start labels earlier →
      Joined earlier ∧ Extends earlier final := by
    rintro earlier ⟨front, back, rfl, ends⟩
    obtain ⟨middle, first, rest⟩ := run_append.mp reached
    rw [ends, Option.some.injEq] at first
    subst first
    exact ⟨joined_step.run fresh.joined within.append_left ends, extends_run rest⟩
  refine ⟨joined.greatest apart, ?_, ?_, ?_, ?_, fun records distinct =>
    (Record.HashesApart.of_injOn distinct).strictTotal⟩
  · intro earlier passes node key
    obtain ⟨joinedEarlier, forward⟩ := passed earlier passes
    exact (joinedEarlier.winner node key).below (joined.winner node key)
      fun record seen => ⟨forward.histories node seen.1, seen.2⟩
  · rintro front node index exchange before rfl ends other key outside
    obtain ⟨middle, first, taken⟩ := run_snoc.mp reached
    rw [ends, Option.some.injEq] at first
    subst first
    exact deliver_untouched (passed before ⟨front, _, rfl, ends⟩).1 taken other key outside
  · intro earlier passes node other same key
    exact (passed earlier passes).1.eq_of_same_history joined apart (Extends.refl final) same key
  · rintro front middle node index first second before rfl ends key
    obtain ⟨_, same, again⟩ := run_snoc.mp reached
    rw [ends, Option.some.injEq] at same
    subst same
    obtain ⟨joinedBefore, forward⟩ := passed before ⟨_, _, rfl, ends⟩
    obtain ⟨opened, _, rest⟩ := run_append.mp ends
    obtain ⟨delivered, taken, rest⟩ := run_cons.mp rest
    obtain ⟨message, found, history⟩ := deliver_history taken
    obtain ⟨message', found', history'⟩ := deliver_history again
    have kept := ((extends_step taken).trans (extends_run rest)).messages index message found
    obtain rfl : message' = message := Option.some.inj (found'.symm.trans kept)
    have merged : message'.history ⊆ (before.replicas node).history :=
      List.Subset.trans (history ▸ List.subset_append_right _ _)
        ((extends_run rest).histories node)
    refine (joinedBefore.eq_of_same_history joined apart (Extends.refl _)
      (fun record => ?_) key).symm
    rw [history', List.mem_append]
    exact ⟨Or.inl, fun seen => seen.elim id fun carried => merged carried⟩

end

section
attribute [local instance] Blake3.checksum

instance {Node : Type} (network : Network Node) :
    DecidablePred (WithinLimit network) := fun label => by
  cases label <;> unfold WithinLimit <;> infer_instance

/-- Two nodes that share one collection. -/
def pair : Network Bool where
  replicas _ := ⟨{ StateStore.empty with
    collections := (∅ : OrderedMap String CollectionState).insert "c"
      ⟨"/c", none, .pending, .pending⟩ }, ∅, []⟩
  messages := []

def written : Record := .sample .sample 5 (.fill 1) (.file 3 (.fill 7))

def removed : Record := .sample .sample 3 (.fill 2) .tombstone

def exchangeWith (endpoint : EndpointId) : Exchange where
  config := ⟨.fill 0, 10, 100⟩
  remoteEndpoint := endpoint
  now := 9
  environment _ := ⟨.ok "/c", .ok true, .ok (), .ok ()⟩
  shared := ["c"]

/-- Concurrent changes of one path, then both bundles, one of them twice. -/
def crossed : List (Label Bool) :=
  [.merge true written 6 100, .merge false removed 4 100, .build true ["c"], .build false ["c"],
    .deliver false 0 (exchangeWith (.fill 1)), .deliver true 1 (exchangeWith (.fill 2)),
    .deliver false 0 (exchangeWith (.fill 1))]

private theorem mem_repeated {α : Type} (a b value : α) :
    value ∈ [b, a, a] ↔ value ∈ [a, b] := by
  simp only [List.mem_cons, List.not_mem_nil, or_false]
  tauto

theorem crossed_agree :
    ∃ final, run step pair crossed = some final ∧
      ∀ key, (final.replicas true).store.record key = (final.replicas false).store.record key := by
  have merged : (run step pair crossed).map (fun final =>
      ((final.replicas true).history, (final.replicas false).history)) =
      some ([written, removed], [removed, written, written]) := by decide +kernel
  obtain ⟨final, reached, histories⟩ := Option.map_eq_some_iff.mp merged
  rw [Prod.mk.injEq] at histories
  obtain ⟨first, second⟩ := histories
  have fresh : Fresh pair := ⟨rfl, fun _ => rfl, fun _ _ => Std.ExtTreeMap.getElem?_empty⟩
  have within : Along step WithinLimit pair crossed := by decide +kernel
  have apart : ∀ a ∈ [written, removed], ∀ b ∈ [written, removed],
      Blake3.hash a.canonicalBytes = Blake3.hash b.canonicalBytes → a = b := by decide +kernel
  have known : ∀ record ∈ final.involved, record ∈ [written, removed] := by
    rintro record ⟨_ | _, member⟩
    · exact (mem_repeated _ _ record).mp (second ▸ member)
    · exact first ▸ member
  have injective : Set.InjOn Blake3.hash (Record.canonicalBytes '' final.involved) := by
    rintro _ ⟨a, seen, rfl⟩ _ ⟨b, seen', rfl⟩ same
    rw [apart a (known a seen) b (known b seen') same]
  refine ⟨final, reached, fun key => ?_⟩
  obtain ⟨-, -, -, agree, -⟩ := replication_is_join fresh within reached injective
  refine agree final ⟨crossed, [], by simp, reached⟩ true false (fun record => ?_) key
  rw [first, second]
  exact (mem_repeated _ _ record).symm

end

end Skillsync.Replication
