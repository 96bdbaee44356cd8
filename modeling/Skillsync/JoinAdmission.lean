import Skillsync.JoinHandshakeSpec

set_option autoImplicit false

namespace Skillsync

open Fallible Framing Runs

namespace JoinHistory

/-- The calls stay, and what a channel got stays in it. -/
structure Continues (history next : JoinHistory) : Prop where
  events : ∃ later, next.events = history.events ++ later
  received : ∀ channel, ∀ decision ∈ history.coordinator.received channel,
    decision ∈ next.coordinator.received channel

theorem Continues.refl (history : JoinHistory) : history.Continues history :=
  ⟨⟨[], (List.append_nil _).symm⟩, fun _ _ => id⟩

/-- A channel is made by one claim. -/
theorem claim_unique {events : List JoinEvent} (apart : (claimedChannels events).Nodup)
    {first second : JoinEvent} (listed : first ∈ events) (listed' : second ∈ events) {channel : Nat}
    (made : first.reply.channel = some channel) (made' : second.reply.channel = some channel) :
    first = second := by
  by_contra differ
  have pairs := List.pairwise_filterMap.mp apart
  have : Std.Symm fun one other : JoinEvent => ∀ own, one.reply.channel = some own →
      ∀ own', other.reply.channel = some own' → own ≠ own' :=
    ⟨fun _ _ differs own got own' got' => (differs own' got' own got).symm⟩
  exact pairs.forall listed listed' differ channel made channel made' rfl

/-- The events that activated an invitation. -/
def activations (history : JoinHistory) : Nat :=
  history.events.countP fun event => decide (event.reply = .activated)

/-- The invitations that nobody has claimed. -/
def unclaimed (history : JoinHistory) : Nat :=
  match history.coordinator.state with
  | .active _ => 1
  | _ => 0

/-- Every claim used up an activation, and an active invitation is one more. -/
def Redeemed (history : JoinHistory) : Prop :=
  (claimedChannels history.events).length + history.unclaimed ≤ history.activations

variable [AddrJson] {history next : JoinHistory} {timed : TimedCall}

theorem step_taken (taken : history.step timed = some next) :
    ∃ reply, reply = (history.coordinator.perform timed.call timed.now timed.later).2 ∧
      JoinStep history.coordinator next.coordinator timed.call timed.now timed.later reply ∧
      next.events = history.events ++ [⟨timed.call, timed.now, timed.later, reply⟩] := by
  unfold step at taken
  split at taken
  · cases taken
    exact ⟨_, rfl, JoinCoordinator.perform_step rfl, rfl⟩
  · cases taken

theorem step_continues (taken : history.step timed = some next) : history.Continues next := by
  obtain ⟨reply, -, called, events⟩ := step_taken taken
  refine ⟨⟨_, events⟩, fun channel decision there => ?_⟩
  cases called with
  | activated _ _ _ _ _ outcome =>
      rw [outcome]
      exact there
  | claimed _ _ _ _ _ _ _ _ _ _ _ outcome =>
      rw [outcome, JoinCoordinator.received_new]
      exact there
  | decided _ _ _ _ _ _ sender outcome =>
      rw [outcome, JoinCoordinator.received_sent sender]
      split
      · rename_i same
        rw [← same]
        exact List.mem_append_left _ there
      · exact there
  | quiet _ _ _ channels =>
      rw [JoinCoordinator.received_congr channels]
      exact there

omit [AddrJson] in
theorem redeemed_start : start.Redeemed := by
  simp [Redeemed, unclaimed, start, claimedChannels, activations, JoinCoordinator.start]

theorem redeemed_step (redeemed : history.Redeemed) (taken : history.step timed = some next) :
    next.Redeemed := by
  obtain ⟨reply, -, called, events⟩ := step_taken taken
  have claims : (claimedChannels next.events).length =
      (claimedChannels history.events).length + reply.channel.toList.length := by
    rw [events, claimedChannels, List.filterMap_append, List.length_append, ← claimedChannels]
    cases made : reply.channel <;> simp [made]
  have activated : next.activations =
      history.activations + if reply = .activated then 1 else 0 := by
    rw [activations, events, List.countP_append, List.countP_singleton]
    simp [activations]
  unfold Redeemed unclaimed at *
  rw [claims, activated]
  cases called with
  | activated _ _ _ replied _ outcome =>
      simp only [outcome, replied, JoinReply.channel, Option.toList_none, List.length_nil,
        ↓reduceIte]
      omega
  | claimed _ _ _ _ _ _ _ replied live _ _ outcome =>
      simp only [(expire_active live).1] at redeemed
      simp only [outcome, replied, JoinReply.channel, Option.toList_some, List.length_singleton]
      omega
  | decided _ _ _ _ replied _ _ outcome =>
      simp only [outcome, replied, JoinReply.channel, Option.toList_none, List.length_nil]
      omega
  | quiet quiet _ state _ =>
      simp only [JoinReply.channel_quiet quiet, Option.toList_none, List.length_nil]
      rcases state with same | idle
      · rw [same]
        omega
      · simp only [idle]
        omega

end JoinHistory

namespace Attempt

/-- Both ends speak of the same request, claim and decision. -/
structure Keeps (attempt moved : Attempt) : Prop where
  endpoint : moved.endpoint = attempt.endpoint
  request : moved.request = attempt.request
  channel : moved.channel = attempt.channel
  decision : moved.decision = attempt.decision

section
variable {attempt moved : Attempt}

theorem ask_keeps [JoinerMessages] {cut : Option Nat} (taken : attempt.ask cut = some moved) :
    attempt.Keeps moved := by
  unfold ask at taken
  repeat' split at taken
  all_goals cases taken
  all_goals exact ⟨rfl, rfl, rfl, rfl⟩

theorem hear_keeps [JoinEncodings] [AddrJson] [Blake3] [Ed25519] {inviter : EndpointId}
    {store left : RosterStore} (taken : attempt.hear inviter store = some (moved, left)) :
    attempt.Keeps moved ∧ store.Retains left := by
  unfold hear at taken
  split at taken
  · cases taken
  split at taken
  · cases taken
  · cases taken
    exact ⟨⟨rfl, rfl, rfl, rfl⟩, .refl store⟩
  dsimp only at taken
  split at taken
  · cases taken
    exact ⟨⟨rfl, rfl, rfl, rfl⟩, .refl store⟩
  split at taken
  · cases taken
    exact ⟨⟨rfl, rfl, rfl, rfl⟩, .refl store⟩
  rename_i roster validatedHints checked
  have kept : store.Retains (RosterOperation.perform store (.installOrResumeJoinedState roster
      attempt.endpoint attempt.request.deviceName validatedHints)) := RosterStore.retains_perform _
  simp only [RosterOperation.perform] at kept
  split at taken <;>
    (rename_i outcome
     rw [outcome] at kept
     cases taken
     exact ⟨⟨rfl, rfl, rfl, rfl⟩, kept⟩)

theorem confirm_keeps [JoinerMessages] {cut : Option Nat}
    (taken : attempt.confirm cut = some moved) : attempt.Keeps moved := by
  unfold confirm at taken
  repeat' split at taken
  all_goals cases taken
  all_goals exact ⟨rfl, rfl, rfl, rfl⟩

theorem conclude_keeps {inviter : EndpointId} (taken : attempt.conclude inviter = some moved) :
    attempt.Keeps moved := by
  unfold conclude at taken
  split at taken
  all_goals cases taken
  all_goals exact ⟨rfl, rfl, rfl, rfl⟩

theorem joinerLost_keeps (taken : attempt.joinerLost = some moved) : attempt.Keeps moved := by
  unfold joinerLost at taken
  split at taken
  all_goals cases taken
  all_goals exact ⟨rfl, rfl, rfl, rfl⟩

theorem answer_keeps [JoinEncodings] {cut : Option Nat} (taken : attempt.answer cut = some moved) :
    attempt.Keeps moved := by
  unfold answer at taken
  repeat' split at taken
  all_goals cases taken
  all_goals exact ⟨rfl, rfl, rfl, rfl⟩

theorem acknowledge_keeps [JoinerMessages] (taken : attempt.acknowledge = some moved) :
    attempt.Keeps moved := by
  unfold acknowledge at taken
  repeat' split at taken
  all_goals cases taken
  all_goals exact ⟨rfl, rfl, rfl, rfl⟩

theorem finish_keeps (taken : attempt.finish = some moved) : attempt.Keeps moved := by
  unfold finish at taken
  repeat' split at taken
  all_goals cases taken
  all_goals exact ⟨rfl, rfl, rfl, rfl⟩

theorem inviterLost_keeps (taken : attempt.inviterLost = some moved) : attempt.Keeps moved := by
  unfold inviterLost at taken
  split at taken
  all_goals cases taken
  all_goals exact ⟨rfl, rfl, rfl, rfl⟩

theorem abort_keeps (taken : attempt.abort = some moved) : attempt.Keeps moved := by
  unfold abort at taken
  split at taken
  all_goals cases taken
  all_goals exact ⟨rfl, rfl, rfl, rfl⟩

end

end Attempt

/-- The claim of an attempt is in the history, and its decision came through the channel that the
claim got. -/
structure Attempt.Traced (attempt : Attempt) (history : JoinHistory) : Prop where
  claimed : ∀ channel, attempt.channel = some channel →
    ∃ claim ∈ history.events, ∃ requestId remaining,
      claim.call = .claim attempt.request.nonce attempt.endpoint attempt.request.deviceName
        attempt.request.endpointAddrJson requestId ∧ claim.reply = .claimed channel remaining
  decided : ∀ decision, attempt.decision = some decision →
    ∃ channel, attempt.channel = some channel ∧
      decision ∈ history.coordinator.received channel

/-- An approval says a valid chain of stored revisions. -/
def JoinDecision.FromStore [JoinEncodings] [Blake3] [Ed25519] (decision : JoinDecision)
    (store : RosterStore) : Prop :=
  ∀ text peerHints, decision = .approved text peerHints →
    ∃ chain, encodeRoster chain = .ok text ∧ validateRosterChain chain = .ok () ∧
      ∀ revision ∈ chain, store.Stored revision

theorem Attempt.Traced.continues {attempt : Attempt} {history next : JoinHistory}
    (traced : attempt.Traced history) (continues : history.Continues next) :
    attempt.Traced next := by
  obtain ⟨later, events⟩ := continues.events
  refine ⟨fun channel made => ?_, fun decision told => ?_⟩
  · obtain ⟨claim, listed, rest⟩ := traced.claimed channel made
    exact ⟨claim, events ▸ List.mem_append_left later listed, rest⟩
  · obtain ⟨channel, made, got⟩ := traced.decided decision told
    exact ⟨channel, made, continues.received channel decision got⟩

theorem JoinDecision.FromStore.retained [JoinEncodings] [Blake3] [Ed25519]
    {decision : JoinDecision} {store next : RosterStore} (known : decision.FromStore store)
    (retains : store.Retains next) : decision.FromStore next := by
  intro text peerHints same
  obtain ⟨chain, encoded, valid, stored⟩ := known text peerHints same
  exact ⟨chain, encoded, valid, fun revision listed => retains revision (stored revision listed)⟩

namespace JoinNetwork

section
variable [JoinEncodings] [JoinerMessages] [Blake3] [Ed25519]

/-- The decisions that the control thread passes on, now or before. -/
def Passed (network : JoinNetwork) (decision : JoinDecision) : Prop :=
  (∃ event ∈ network.history.events, ∃ requestId, event.call = .decide requestId decision) ∨
    ∃ requestId, network.control = .built requestId decision

/-- Every attempt is sound, has its own channel if any, and is in the history. -/
structure Attempts (network : JoinNetwork) (inviter : EndpointId) : Prop where
  sound : ∀ attempt ∈ network.attempts, attempt.Sound inviter ∧ attempt.Traced network.history
  apart : ∀ (index other : Nat) (attempt attempt' : Attempt) (channel : Nat),
    network.attempts[index]? = some attempt → network.attempts[other]? = some attempt' →
    attempt.channel = some channel → attempt'.channel = some channel → index = other

structure Sound (network : JoinNetwork) (identity : DeviceIdentity) : Prop where
  attempts : network.Attempts identity.endpointId
  explained : network.history.Explained
  redeemed : network.history.Redeemed
  approvals : ∀ decision, network.Passed decision →
    decision.FromStore (network.stores identity.endpointId)

variable {network next : JoinNetwork} {inviter : EndpointId} {identity : DeviceIdentity}

/-- An attempt goes on with its channel. -/
theorem Attempts.set {index : Nat} {attempt moved : Attempt}
    (attempts : network.Attempts inviter) (there : network.attempts[index]? = some attempt)
    (same : moved.channel = attempt.channel) (sound : moved.Sound inviter)
    (traced : moved.Traced network.history) :
    (network.setAttempt index moved).Attempts inviter where
  sound := by
    intro other listed
    rcases List.mem_or_eq_of_mem_set listed with before | new
    · exact attempts.sound other before
    · rw [new]
      exact ⟨sound, traced⟩
  apart := by
    have kept : ∀ (other : Nat) (attempt' : Attempt) (channel : Nat),
        (network.setAttempt index moved).attempts[other]? = some attempt' →
        attempt'.channel = some channel →
        ∃ before, network.attempts[other]? = some before ∧ before.channel = some channel := by
      intro other attempt' channel found made
      unfold setAttempt at found
      rw [List.getElem?_set] at found
      split at found
      · rename_i here
        split at found
        · cases found
          exact ⟨attempt, here ▸ there, same ▸ made⟩
        · cases found
      · exact ⟨attempt', found, made⟩
    intro first second attempt' attempt'' channel found found' made made'
    obtain ⟨before, listed, made⟩ := kept first attempt' channel found made
    obtain ⟨before', listed', made'⟩ := kept second attempt'' channel found' made'
    exact attempts.apart first second before before' channel listed listed' made made'

theorem Attempts.continues (attempts : network.Attempts inviter)
    (same : next.attempts = network.attempts)
    (continues : network.history.Continues next.history) : next.Attempts inviter where
  sound := fun attempt listed => by
    rw [same] at listed
    obtain ⟨sound, traced⟩ := attempts.sound attempt listed
    exact ⟨sound, traced.continues continues⟩
  apart := by
    rw [same]
    exact attempts.apart

/-- An attempt goes on with a channel that no other attempt has. -/
theorem Attempts.claim {index channel : Nat} {moved : Attempt}
    (attempts : network.Attempts inviter)
    (fresh : ∀ attempt ∈ network.attempts, attempt.channel ≠ some channel)
    (made : moved.channel = some channel) (sound : moved.Sound inviter)
    (traced : moved.Traced network.history) :
    (network.setAttempt index moved).Attempts inviter where
  sound := by
    intro other listed
    rcases List.mem_or_eq_of_mem_set listed with before | new
    · exact attempts.sound other before
    · rw [new]
      exact ⟨sound, traced⟩
  apart := by
    have cases' : ∀ (other : Nat) (attempt' : Attempt),
        (network.setAttempt index moved).attempts[other]? = some attempt' →
        (index = other ∧ moved = attempt') ∨ network.attempts[other]? = some attempt' := by
      intro other attempt' found
      unfold setAttempt at found
      rw [List.getElem?_set] at found
      split at found
      · rename_i here
        split at found
        · cases found
          exact Or.inl ⟨here, rfl⟩
        · cases found
      · exact Or.inr found
    intro first second attempt' attempt'' own found found' made' made''
    rcases cases' first attempt' found with ⟨rfl, rfl⟩ | before <;>
      rcases cases' second attempt'' found' with ⟨rfl, rfl⟩ | before'
    · rfl
    · rw [made, Option.some.injEq] at made'
      exact absurd (made' ▸ made'') (fresh attempt'' (List.mem_of_getElem? before'))
    · rw [made, Option.some.injEq] at made''
      exact absurd (made'' ▸ made') (fresh attempt' (List.mem_of_getElem? before))
    · exact attempts.apart first second attempt' attempt'' own before before' made' made''

theorem Attempts.connect {endpoint : EndpointId} {request : JoinRequest}
    (attempts : network.Attempts inviter) :
    Attempts { network with attempts := network.attempts ++ [.start endpoint request] }
      inviter where
  sound := by
    intro attempt listed
    rcases List.mem_append.mp listed with before | new
    · exact attempts.sound attempt before
    · rw [List.mem_singleton.mp new]
      exact ⟨Attempt.start_sound endpoint request, fun _ impossible => (by cases impossible),
        fun _ impossible => (by cases impossible)⟩
  apart := by
    have before : ∀ (index : Nat) (attempt : Attempt) (channel : Nat),
        (network.attempts ++ [Attempt.start endpoint request])[index]? = some attempt →
        attempt.channel = some channel → network.attempts[index]? = some attempt := by
      intro index attempt channel found made
      rw [List.getElem?_append] at found
      split at found
      · exact found
      · rw [List.getElem?_singleton] at found
        split at found
        · cases found
          cases made
        · cases found
    intro first second attempt attempt' channel found found' made made'
    exact attempts.apart first second attempt attempt' channel
      (before first attempt channel found made)
      (before second attempt' channel found' made') made made'

theorem Sound.set {index : Nat} {attempt moved : Attempt} (sound : network.Sound identity)
    (there : network.attempts[index]? = some attempt) (keeps : attempt.Keeps moved)
    (movedSound : moved.Sound identity.endpointId) :
    (network.setAttempt index moved).Sound identity where
  attempts := by
    refine sound.attempts.set there keeps.channel movedSound ?_
    obtain ⟨-, claimed, decided⟩ := sound.attempts.sound attempt (List.mem_of_getElem? there)
    refine ⟨fun channel made => ?_, fun decision got => ?_⟩
    · rw [keeps.endpoint, keeps.request]
      exact claimed channel (keeps.channel ▸ made)
    · rw [keeps.channel]
      exact decided decision (keeps.decision ▸ got)
  explained := sound.explained
  redeemed := sound.redeemed
  approvals := sound.approvals

/-- A device's roster grows. -/
theorem Sound.setStore {device : EndpointId} {store : RosterStore} (sound : network.Sound identity)
    (retains : (network.stores device).Retains store) :
    (network.setStore device store).Sound identity where
  attempts := ⟨sound.attempts.sound, sound.attempts.apart⟩
  explained := sound.explained
  redeemed := sound.redeemed
  approvals := by
    intro decision passed
    refine (sound.approvals decision passed).retained ?_
    unfold JoinNetwork.setStore
    dsimp only
    by_cases own : identity.endpointId = device
    · rw [← own, Function.update_self]
      exact own ▸ retains
    · rw [Function.update_of_ne own]
      exact .refl _

theorem Sound.control {control : ControlPhase} (sound : network.Sound identity)
    (known : ∀ requestId decision, control = .built requestId decision →
      decision.FromStore (network.stores identity.endpointId)) :
    Sound { network with control := control } identity where
  attempts := ⟨sound.attempts.sound, sound.attempts.apart⟩
  explained := sound.explained
  redeemed := sound.redeemed
  approvals := by
    rintro decision (earlier | ⟨requestId, there⟩)
    · exact sound.approvals decision (Or.inl earlier)
    · exact known requestId decision there

variable [AddrJson]

omit [JoinEncodings] [JoinerMessages] [Blake3] [Ed25519] in
theorem call_some {call : JoinCall} {now later : Nat} {reply : JoinReply}
    (called : network.call call now later = some (next, reply)) :
    ∃ history, network.history.step ⟨call, now, later⟩ = some history ∧
      next = { network with history := history } ∧
      reply = (network.history.coordinator.perform call now later).2 := by
  obtain ⟨history, taken, same⟩ := Option.map_eq_some_iff.mp called
  cases same
  exact ⟨history, taken, rfl, rfl⟩

theorem call_sound {call : JoinCall} {now later : Nat} {reply : JoinReply}
    (sound : network.Sound identity)
    (known : ∀ requestId decision, call = .decide requestId decision →
      decision.FromStore (network.stores identity.endpointId))
    (called : network.call call now later = some (next, reply)) : next.Sound identity := by
  obtain ⟨history, taken, rfl, -⟩ := call_some called
  refine ⟨sound.attempts.continues rfl (JoinHistory.step_continues taken),
    sound.explained.step taken, JoinHistory.redeemed_step sound.redeemed taken, ?_⟩
  obtain ⟨answer, -, -, events⟩ := JoinHistory.step_taken taken
  rintro decision (⟨event, listed, requestId, decided⟩ | there)
  · dsimp only at listed
    rw [events] at listed
    rcases List.mem_append.mp listed with earlier | last
    · exact sound.approvals decision (Or.inl ⟨event, earlier, requestId, decided⟩)
    · rw [List.mem_singleton.mp last] at decided
      exact known requestId decision decided
  · exact sound.approvals decision (Or.inr there)

omit [AddrJson] in
/-- The request that is read is the one that was sent. -/
theorem requested {attempt : Attempt} {request : JoinRequest} {up : JoinStream}
    (requests : RequestsRoundTrip) (sound : attempt.Sound inviter)
    (accepting : attempt.inviter = .accepting)
    (read : attempt.up.readMessage JoinerMessages.requestFromSlice joinRequestLimit =
      some (.ok (request, up))) :
    request = attempt.request ∧ up.unread = [] ∧ attempt.joiner ≠ .connected ∧
      attempt.decision = none ∧ ¬ attempt.down.Ended := by
  have there := JoinStream.readMessage_unread read
  have asked : attempt.joiner ≠ .connected := fun connected => there (sound.unasked connected).1
  cases sound.inviterEnd with
  | accepting _ undecided asking running =>
      rcases asking with nothing | ⟨bytes, written, part⟩
      · exact absurd nothing there
      · obtain ⟨body, text, parsed, -, left, -⟩ := readMessage_part written part read
        have same := requests attempt.request body text
        rw [parsed, Option.some.injEq] at same
        exact ⟨same, left, asked, undecided, running⟩
  | _ => simp_all

omit [AddrJson] in
/-- The attempt failed before there was a decision. -/
theorem undecided_fails {attempt : Attempt} {up : JoinStream} (reason : JoinError)
    (sound : attempt.Sound inviter) (undecided : attempt.decision = none)
    (unfinished : ¬ attempt.Concluded) (unread : attempt.joiner = .connected → up.unread = []) :
    (Attempt.inviterFails { attempt with up := up } reason .dropped).Sound inviter := by
  refine Attempt.inviterFails_sound reason (Attempt.inviterMoves sound unfinished unread)
    (sound.spoken.congr rfl rfl rfl rfl rfl) unfinished fun _ =>
      ⟨(sound.spoken.silent undecided).2, ?_⟩
  intro decision _ decided
  dsimp only at decided
  rw [undecided] at decided
  cases decided

/-- A claim gets a channel that no attempt has. -/
theorem claim_fresh {call : JoinCall} {now later channel remaining : Nat}
    (sound : network.Sound identity)
    (called : network.call call now later = some (next, .claimed channel remaining)) :
    (∃ claim ∈ next.history.events, claim.call = call ∧ claim.reply = .claimed channel remaining) ∧
      ∀ attempt ∈ network.attempts, attempt.channel ≠ some channel := by
  obtain ⟨history, taken, rfl, replied⟩ := call_some called
  obtain ⟨reply, same, kind, events⟩ := JoinHistory.step_taken taken
  have answer : reply = .claimed channel remaining := same.trans replied.symm
  refine ⟨⟨_, events ▸ List.mem_append_right _ (List.mem_singleton_self _), rfl, answer⟩, ?_⟩
  intro attempt listed made
  obtain ⟨-, traced⟩ := sound.attempts.sound attempt listed
  obtain ⟨claim, before, requestId, left, -, claimed⟩ := traced.claimed channel made
  have below : channel < network.history.coordinator.channels.length := by
    refine sound.explained.numbered channel (List.mem_filterMap.mpr ⟨claim, before, ?_⟩)
    rw [claimed, JoinReply.channel]
  rw [answer] at kind
  cases kind with
  | activated _ _ _ replied => cases replied
  | claimed _ _ _ _ _ _ _ replied =>
      cases replied
      exact lt_irrefl _ below
  | decided _ _ _ _ replied => cases replied
  | quiet quiet => cases quiet

theorem receive_sound (requests : RequestsRoundTrip) {index : Nat} {attempt : Attempt}
    {requestId : String} {now later : Nat} (sound : network.Sound identity)
    (there : network.attempts[index]? = some attempt)
    (taken : network.receive index attempt requestId now later = some next) :
    next.Sound identity := by
  obtain ⟨own, traced⟩ := sound.attempts.sound attempt (List.mem_of_getElem? there)
  unfold receive at taken
  split at taken
  · cases taken
  rename_i accepting
  rw [not_not] at accepting
  have unfinished : ¬ attempt.Concluded := by simp [Attempt.Concluded, accepting]
  split at taken
  · cases taken
  · cases taken
    have undecided : attempt.decision = none := by
      cases own.inviterEnd with
      | accepting _ undecided _ _ => exact undecided
      | _ => simp_all
    exact sound.set there ⟨rfl, rfl, rfl, rfl⟩
      (undecided_fails _ own undecided unfinished fun connected => (own.unasked connected).1)
  rename_i request up read
  obtain ⟨rfl, left, asked, undecided, running⟩ := requested requests own accepting read
  obtain ⟨⟨called, reply⟩, calls, rfl⟩ := Option.map_eq_some_iff.mp taken
  have after := call_sound sound (fun _ _ other => by cases other) calls
  obtain ⟨history, stepped, rfl, replied⟩ := call_some calls
  dsimp only
  split
  · rename_i channel remaining
    obtain ⟨⟨claim, listed, made, reply⟩, fresh⟩ := claim_fresh sound calls
    refine ⟨after.attempts.claim fresh rfl ?_ ⟨fun other got => ?_, fun decision got => ?_⟩,
      after.explained, after.redeemed, after.approvals⟩
    · exact ⟨Attempt.inviterMoves own unfinished fun connected => absurd connected asked,
        .deciding channel requestId rfl rfl undecided asked left running,
        own.spoken.congr rfl rfl rfl rfl rfl⟩
    · cases got
      exact ⟨claim, listed, requestId, remaining, made, reply⟩
    · dsimp only at got
      rw [undecided] at got
      cases got
  · exact after.set there ⟨rfl, rfl, rfl, rfl⟩
      (undecided_fails _ own undecided unfinished fun connected => absurd connected asked)
  · exact after

omit [AddrJson] in
/-- What holds while the inviter's end waits for the decision. -/
theorem waits {attempt : Attempt} {channel : Nat} {requestId : String}
    (sound : attempt.Sound inviter) (deciding : attempt.inviter = .deciding channel requestId) :
    attempt.channel = some channel ∧ attempt.decision = none ∧ attempt.joiner ≠ .connected ∧
      attempt.up.unread = [] ∧ ¬ attempt.down.Ended ∧ ¬ attempt.Concluded := by
  have unfinished : ¬ attempt.Concluded := by simp [Attempt.Concluded, deciding]
  cases sound.inviterEnd with
  | deciding other _ phase claimed undecided asked read running =>
      rw [deciding] at phase
      cases phase
      exact ⟨claimed, undecided, asked, read, running, unfinished⟩
  | _ => simp_all

theorem giveUp_sound {index channel now : Nat} {attempt : Attempt} {requestId other : String}
    {reason : JoinError} (sound : network.Sound identity)
    (there : network.attempts[index]? = some attempt)
    (deciding : attempt.inviter = .deciding channel requestId)
    (taken : network.giveUp index attempt channel other now reason = some next) :
    next.Sound identity := by
  obtain ⟨own, -⟩ := sound.attempts.sound attempt (List.mem_of_getElem? there)
  obtain ⟨-, undecided, asked, -, -, unfinished⟩ := waits own deciding
  obtain ⟨⟨cancelled, reply⟩, cancels, taken⟩ := Option.bind_eq_some_iff.mp taken
  obtain ⟨⟨left, answer⟩, leaves, rfl⟩ := Option.map_eq_some_iff.mp taken
  have first := call_sound sound (fun _ _ impossible => by cases impossible) cancels
  have second := call_sound first (fun _ _ impossible => by cases impossible) leaves
  obtain ⟨history, -, rfl, -⟩ := call_some cancels
  obtain ⟨history', -, rfl, -⟩ := call_some leaves
  exact second.set there ⟨rfl, rfl, rfl, rfl⟩
    (undecided_fails reason own undecided unfinished fun connected => absurd connected asked)

theorem awaitDecision_sound {index : Nat} {attempt : Attempt} {action : InviterAction}
    (sound : network.Sound identity) (there : network.attempts[index]? = some attempt)
    (taken : network.awaitDecision index attempt action = some next) : next.Sound identity := by
  obtain ⟨own, traced⟩ := sound.attempts.sound attempt (List.mem_of_getElem? there)
  cases action with
  | decide =>
      simp only [awaitDecision] at taken
      split at taken
      · rename_i channel requestId deciding
        obtain ⟨decision, got, rfl⟩ := Option.map_eq_some_iff.mp taken
        obtain ⟨claimed, undecided, asked, read, running, unfinished⟩ := waits own deciding
        obtain ⟨silent, nothing⟩ := own.spoken.silent undecided
        refine ⟨sound.attempts.set there rfl ?_ ⟨traced.claimed, fun other told => ?_⟩,
          sound.explained, sound.redeemed, sound.approvals⟩
        · refine ⟨Attempt.inviterMoves own unfinished fun connected => absurd connected asked,
            .answering decision rfl rfl silent nothing asked read running,
            ⟨fun impossible => (by cases impossible), fun _ _ => Or.inl silent,
              fun roster installed => ?_⟩⟩
          dsimp only at installed
          rw [nothing] at installed
          cases installed
        · cases told
          exact ⟨channel, claimed, List.mem_of_head? got⟩
      · cases taken
  | expire now =>
      simp only [awaitDecision] at taken
      split at taken
      · rename_i channel requestId deciding
        exact giveUp_sound sound there deciding taken
      · cases taken
  | close now =>
      simp only [awaitDecision] at taken
      split at taken
      · rename_i channel requestId deciding
        exact giveUp_sound sound there deciding taken
      · cases taken
  | forget =>
      simp only [awaitDecision] at taken
      split at taken
      · rename_i channel requestId deciding
        obtain ⟨-, undecided, asked, -, -, unfinished⟩ := waits own deciding
        split at taken
        · cases taken
          exact sound.set there ⟨rfl, rfl, rfl, rfl⟩
            (undecided_fails _ own undecided unfinished fun connected => absurd connected asked)
        · cases taken
      · cases taken
  | receive _ _ _ => cases taken
  | answer _ => cases taken
  | acknowledge => cases taken
  | finish => cases taken
  | lose => cases taken
  | abort _ => cases taken

theorem abort_sound {index now : Nat} {attempt : Attempt} (sound : network.Sound identity)
    (there : network.attempts[index]? = some attempt)
    (taken : network.abort index attempt now = some next) : next.Sound identity := by
  obtain ⟨own, -⟩ := sound.attempts.sound attempt (List.mem_of_getElem? there)
  obtain ⟨stopped, aborts, taken⟩ := Option.bind_eq_some_iff.mp taken
  have keeps := Attempt.abort_keeps aborts
  have stoppedSound := Attempt.abort_sound own aborts
  split at taken
  · obtain ⟨⟨left, answer⟩, leaves, rfl⟩ := Option.map_eq_some_iff.mp taken
    have after := call_sound sound (fun _ _ impossible => by cases impossible) leaves
    obtain ⟨history, -, rfl, -⟩ := call_some leaves
    exact after.set there keeps stoppedSound
  · cases taken
    exact sound.set there keeps stoppedSound

theorem joinerStep_sound (roundTrips : RoundTrips) {index : Nat} {attempt : Attempt}
    {action : JoinerAction} (sound : network.Sound identity)
    (there : network.attempts[index]? = some attempt)
    (taken : network.joinerStep identity.endpointId index attempt action = some next) :
    next.Sound identity := by
  obtain ⟨own, -⟩ := sound.attempts.sound attempt (List.mem_of_getElem? there)
  cases action with
  | ask cut =>
      obtain ⟨moved, asks, rfl⟩ := Option.map_eq_some_iff.mp taken
      exact sound.set there (Attempt.ask_keeps asks) (Attempt.ask_sound own asks)
  | hear =>
      obtain ⟨⟨moved, store⟩, hears, rfl⟩ := Option.map_eq_some_iff.mp taken
      obtain ⟨keeps, retains⟩ := Attempt.hear_keeps hears
      have stored := sound.setStore retains
      exact stored.set there keeps (Attempt.hear_sound roundTrips own hears)
  | confirm cut =>
      obtain ⟨moved, confirms, rfl⟩ := Option.map_eq_some_iff.mp taken
      exact sound.set there (Attempt.confirm_keeps confirms) (Attempt.confirm_sound own confirms)
  | conclude =>
      obtain ⟨moved, concludes, rfl⟩ := Option.map_eq_some_iff.mp taken
      exact sound.set there (Attempt.conclude_keeps concludes)
        (Attempt.conclude_sound own concludes)
  | lose =>
      obtain ⟨moved, loses, rfl⟩ := Option.map_eq_some_iff.mp taken
      exact sound.set there (Attempt.joinerLost_keeps loses) (Attempt.joinerLost_sound own loses)

theorem inviterStep_sound (requests : RequestsRoundTrip) {index : Nat} {attempt : Attempt}
    {action : InviterAction} (sound : network.Sound identity)
    (there : network.attempts[index]? = some attempt)
    (taken : network.inviterStep index attempt action = some next) : next.Sound identity := by
  obtain ⟨own, -⟩ := sound.attempts.sound attempt (List.mem_of_getElem? there)
  cases action with
  | receive requestId now later => exact receive_sound requests sound there taken
  | answer cut =>
      obtain ⟨moved, answers, rfl⟩ := Option.map_eq_some_iff.mp taken
      exact sound.set there (Attempt.answer_keeps answers) (Attempt.answer_sound own answers)
  | acknowledge =>
      obtain ⟨moved, reads, rfl⟩ := Option.map_eq_some_iff.mp taken
      exact sound.set there (Attempt.acknowledge_keeps reads) (Attempt.acknowledge_sound own reads)
  | finish =>
      obtain ⟨moved, ends, rfl⟩ := Option.map_eq_some_iff.mp taken
      exact sound.set there (Attempt.finish_keeps ends) (Attempt.finish_sound own ends)
  | lose =>
      obtain ⟨moved, loses, rfl⟩ := Option.map_eq_some_iff.mp taken
      exact sound.set there (Attempt.inviterLost_keeps loses) (Attempt.inviterLost_sound own loses)
  | abort now => exact abort_sound sound there taken
  | decide =>
      have waited : network.awaitDecision index attempt .decide = some next := taken
      exact awaitDecision_sound sound there waited
  | expire now =>
      have waited : network.awaitDecision index attempt (.expire now) = some next := taken
      exact awaitDecision_sound sound there waited
  | close now =>
      have waited : network.awaitDecision index attempt (.close now) = some next := taken
      exact awaitDecision_sound sound there waited
  | forget =>
      have waited : network.awaitDecision index attempt .forget = some next := taken
      exact awaitDecision_sound sound there waited

theorem build_sound {localAddrJson : String} (sound : network.Sound identity)
    (taken : network.build identity localAddrJson = some next) : next.Sound identity := by
  unfold build at taken
  split at taken
  · rename_i info joinerAddr addressed
    have retains : (network.stores identity.endpointId).Retains _ :=
      RosterStore.retains_buildJoinApproval identity localAddrJson info joinerAddr
    split at taken
    · rename_i store decision built
      rw [built] at retains
      cases taken
      refine (sound.setStore retains).control fun requestId other same => ?_
      cases same
      obtain ⟨chain, text, peerHints, rfl, encoded, valid, stored⟩ :=
        RosterStore.buildJoinApproval_chain built
      intro text' peerHints' same
      cases same
      refine ⟨chain, encoded, valid, fun revision listed => ?_⟩
      unfold setStore
      dsimp only
      rw [Function.update_self]
      exact stored revision listed
    · rename_i store reason built
      rw [built] at retains
      cases taken
      exact (sound.setStore retains).control fun _ _ impossible => by cases impossible
  · cases taken

omit [JoinerMessages] [AddrJson] in
theorem rejected_fromStore (store : RosterStore) : JoinDecision.rejected.FromStore store :=
  fun _ _ impossible => by cases impossible

theorem settle_sound {now : Nat} (sound : network.Sound identity)
    (taken : network.settle now = some next) : next.Sound identity := by
  unfold settle at taken
  split at taken
  · rename_i requestId decision built
    obtain ⟨⟨after, reply⟩, calls, rfl⟩ := Option.map_eq_some_iff.mp taken
    have called := call_sound sound (fun other told same => by
      cases same
      exact sound.approvals decision (Or.inr ⟨requestId, built⟩)) calls
    exact called.control fun _ _ impossible => by cases impossible
  · obtain ⟨⟨after, reply⟩, calls, rfl⟩ := Option.map_eq_some_iff.mp taken
    have called := call_sound sound (fun other told same => by
      cases same
      exact rejected_fromStore _) calls
    exact called.control fun _ _ impossible => by cases impossible
  · cases taken

theorem address_sound {requestId : String} {now : Nat} (sound : network.Sound identity)
    (taken : network.address requestId now = some next) : next.Sound identity := by
  unfold address at taken
  split at taken
  · cases taken
  obtain ⟨⟨after, reply⟩, calls, rfl⟩ := Option.map_eq_some_iff.mp taken
  have called := call_sound sound (fun _ _ impossible => by cases impossible) calls
  dsimp only
  split
  · exact called.control fun _ _ impossible => by cases impossible
  · exact called.control fun _ _ impossible => by cases impossible

omit [AddrJson] in
theorem abandon_sound (sound : network.Sound identity) (taken : network.abandon = some next) :
    next.Sound identity := by
  unfold abandon at taken
  split at taken
  · cases taken
    exact sound.control fun _ _ impossible => by cases impossible
  · cases taken

theorem step_sound (roundTrips : RoundTrips) (requests : RequestsRoundTrip) {label : JoinLabel}
    (sound : network.Sound identity) (taken : network.step identity label = some next) :
    next.Sound identity := by
  cases label with
  | activate nonce lifetime now later =>
      obtain ⟨⟨after, reply⟩, calls, rfl⟩ := Option.map_eq_some_iff.mp taken
      exact call_sound sound (fun _ _ impossible => by cases impossible) calls
  | pending now =>
      obtain ⟨⟨after, reply⟩, calls, rfl⟩ := Option.map_eq_some_iff.mp taken
      exact call_sound sound (fun _ _ impossible => by cases impossible) calls
  | reject requestId now =>
      obtain ⟨⟨after, reply⟩, calls, rfl⟩ := Option.map_eq_some_iff.mp taken
      refine call_sound sound (fun other decision same => ?_) calls
      cases same
      exact rejected_fromStore _
  | address requestId now => exact address_sound sound taken
  | build localAddrJson => exact build_sound sound taken
  | settle now => exact settle_sound sound taken
  | abandon => exact abandon_sound sound taken
  | change device operation =>
      cases taken
      exact sound.setStore (RosterStore.retains_perform operation)
  | connect endpoint request =>
      simp only [step] at taken
      split at taken
      · cases taken
        exact ⟨sound.attempts.connect, sound.explained, sound.redeemed, sound.approvals⟩
      · cases taken
  | joiner index action =>
      obtain ⟨attempt, there, taken⟩ := Option.bind_eq_some_iff.mp taken
      exact joinerStep_sound roundTrips sound there taken
  | inviter index action =>
      obtain ⟨attempt, there, taken⟩ := Option.bind_eq_some_iff.mp taken
      exact inviterStep_sound requests sound there taken

omit [AddrJson] in
theorem start_sound (stores : EndpointId → RosterStore) : (start stores).Sound identity where
  attempts := ⟨fun _ listed => (by cases listed), fun _ _ _ _ _ found => (by cases found)⟩
  explained := explained_start
  redeemed := JoinHistory.redeemed_start
  approvals := by
    rintro decision (⟨event, listed, -⟩ | ⟨requestId, impossible⟩)
    · cases listed
    · cases impossible

theorem run_sound (roundTrips : RoundTrips) (requests : RequestsRoundTrip)
    {stores : EndpointId → RosterStore} {labels : List JoinLabel}
    (reached : run (step identity) (start stores) labels = some network) :
    network.Sound identity := by
  have keeps : Preserves (step identity) (fun _ _ => True) fun network => network.Sound identity :=
    fun _ _ _ sound _ taken => step_sound roundTrips requests sound taken
  exact keeps.run (start_sound stores) (Along.of_forall fun _ _ _ => trivial) reached

/-- The roster that an attempt installed: an invitation ran, the device claimed it with this
request, and the user approved the request in time. The roster is the one in the approval; its last
revision lists the device by its name and the inviter, and the inviter has stored all of it. -/
structure Admitted (network : JoinNetwork) (identity : DeviceIdentity) (attempt : Attempt)
    (roster : List RosterRevision) : Prop where
  approved : ∃ before claim between decided after requestId channel deadline text peerHints,
    network.history.events = before ++ claim :: between ++ decided :: after ∧
    Invited before attempt.request.nonce deadline ∧
    claim.call = .claim attempt.request.nonce attempt.endpoint attempt.request.deviceName
      attempt.request.endpointAddrJson requestId ∧
    claim.reply = .claimed channel (deadline - claim.later) ∧ claim.later < deadline ∧
    decided.call = .decide requestId (.approved text peerHints) ∧ decided.reply = .decided ∧
    decided.now < deadline ∧ decodeRoster text = .ok roster
  listed : ∃ tip, roster.getLast? = some tip ∧
    Lists tip attempt.endpoint attempt.request.deviceName ∧
    (tip.members[identity.endpointId]?).isSome
  stored : ∀ revision ∈ roster, (network.stores identity.endpointId).Stored revision

omit [AddrJson] in
theorem Sound.admitted (roundTrips : RoundTrips) (sound : network.Sound identity)
    {attempt : Attempt}
    (listed : attempt ∈ network.attempts) {roster : List RosterRevision}
    (installed : attempt.installed = some roster) : network.Admitted identity attempt roster := by
  obtain ⟨own, traced⟩ := sound.attempts.sound attempt listed
  obtain ⟨⟨text, peerHints, told, decoded⟩, tip⟩ := own.spoken.granted roster installed
  obtain ⟨channel, made, got⟩ := traced.decided _ told
  obtain ⟨claim, known, requestId, remaining, call, replied⟩ := traced.claimed channel made
  obtain ⟨before, first, between, decided, after, nonce, request, deadline, events,
    claimed, decides, settled, early⟩ := sound.explained.delivered channel _ got
  obtain ⟨nonce', request', deadline', claimed', invited⟩ := sound.explained.claims before first
    (between ++ decided :: after) channel _ (by rw [events, List.append_assoc, List.cons_append])
    claimed.reply
  have same : first = claim := by
    have inside : first ∈ network.history.events := by rw [events]; simp
    have made : first.reply.channel = some channel := by rw [claimed.reply, JoinReply.channel]
    exact JoinHistory.claim_unique sound.explained.apart inside known made
      (by rw [replied, JoinReply.channel])
  subst same
  obtain ⟨_, _, _, callAgain⟩ := claimed.call
  obtain ⟨_, _, _, callBefore⟩ := claimed'.call
  rw [call] at callAgain callBefore
  cases callAgain
  cases callBefore
  have deadlines : deadline' = deadline := by
    have left := claimed.reply.symm.trans claimed'.reply
    rw [JoinReply.claimed.injEq] at left
    have sooner := claimed.early
    have sooner' := claimed'.early
    omega
  subst deadlines
  refine ⟨⟨before, first, between, decided, after, requestId, channel, deadline', text, peerHints,
    events, invited, call, claimed.reply, claimed.early, decides, settled, early, decoded⟩, tip, ?_⟩
  have passed : network.Passed (.approved text peerHints) :=
    Or.inl ⟨decided, by rw [events]; simp, requestId, decides⟩
  obtain ⟨chain, encoded, valid, stored⟩ := sound.approvals _ passed text peerHints rfl
  have read := decodeRoster_encoded roundTrips encoded valid
  rw [decoded, Except.ok.injEq] at read
  exact read ▸ stored

omit [AddrJson] in
/-- Every attempt that installed a roster has its own activation. -/
theorem Sound.activated (sound : network.Sound identity) :
    network.attempts.countP (fun attempt => attempt.installed.isSome) ≤
      network.history.activations := by
  have own : ∀ attempt ∈ network.attempts, attempt.installed.isSome = true →
      attempt.channel.isSome = true := by
    intro attempt listed installed
    obtain ⟨roster, there⟩ := Option.isSome_iff_exists.mp installed
    obtain ⟨⟨text, peerHints, told, -⟩, -⟩ := (sound.attempts.sound attempt listed).1.spoken.granted
      roster there
    obtain ⟨channel, made, -⟩ := (sound.attempts.sound attempt listed).2.decided _ told
    rw [made]
    rfl
  have count : network.attempts.countP (fun attempt => attempt.installed.isSome) ≤
      (network.attempts.filterMap Attempt.channel).length := by
    rw [List.length_filterMap_eq_countP]
    exact List.countP_mono_left own
  have apart : (network.attempts.filterMap Attempt.channel).Nodup := by
    apply List.pairwise_filterMap.mpr
    rw [List.pairwise_iff_getElem]
    intro index other below below' before channel made channel' made' same
    have equal := sound.attempts.apart index other _ _ channel (List.getElem?_eq_getElem below)
      (List.getElem?_eq_getElem below') made (same ▸ made')
    omega
  have inside : network.attempts.filterMap Attempt.channel ⊆
      claimedChannels network.history.events := by
    intro channel there
    obtain ⟨attempt, listed, made⟩ := List.mem_filterMap.mp there
    obtain ⟨claim, known, _, _, -, replied⟩ :=
      (sound.attempts.sound attempt listed).2.claimed channel made
    exact List.mem_filterMap.mpr ⟨claim, known, by rw [replied, JoinReply.channel]⟩
  have fewer := (apart.subperm inside).length_le
  have redeemed := sound.redeemed
  unfold JoinHistory.Redeemed at redeemed
  omega

end

end JoinNetwork

section
variable [JoinEncodings] [JoinerMessages] [AddrJson] [Blake3] [Ed25519]

/-- The steps of an approval and of both ends after it. -/
def approvalSteps (localAddrJson : String) (now : Nat) : List JoinLabel :=
  [.build localAddrJson, .settle now, .inviter 0 .decide, .inviter 0 (.answer none),
    .joiner 0 .hear, .joiner 0 (.confirm none), .inviter 0 .acknowledge, .inviter 0 .finish,
    .joiner 0 .conclude]

/-- Both ends wait for the decision about the only attempt, whose request the control thread has
looked up. -/
structure JoinNetwork.Awaits (network : JoinNetwork) (attempt : Attempt) (info : PendingJoinInfo)
    (joinerAddr : String) (now : Nat) : Prop where
  attempts : network.attempts = [attempt]
  control : network.control = .addressed info joinerAddr
  waiting : attempt.joiner = .waiting
  deciding : attempt.inviter = .deciding 0 info.requestId
  streams : attempt.up = .fresh ∧ attempt.down = .fresh
  clock : network.history.clock ≤ now
  pending : ∃ deadline, now < deadline ∧ network.history.coordinator =
    ⟨.pending ⟨info, joinerAddr, 0, deadline⟩, [⟨true, []⟩]⟩

omit [JoinEncodings] [JoinerMessages] [AddrJson] [Blake3] [Ed25519] in
theorem readMessage_written {Message : Type} {fromSlice : List UInt8 → Option Message}
    {message : Message} {text : Option (List UInt8)} {limit : Nat} {bytes : List UInt8}
    (written : writeText text limit = .ok bytes)
    (read : ∀ body, text = some body → fromSlice body = some message) (ending : StreamEnd) :
    JoinStream.readMessage fromSlice limit ⟨bytes, ending⟩ =
      some (.ok (message, ⟨[], ending⟩)) := by
  obtain ⟨body, same, rfl, fits, told⟩ := writeText_ok written
  have found := lengthHeader.find_frame told fits []
  rw [List.append_nil] at found
  unfold JoinStream.readMessage
  rw [found]
  dsimp only
  rw [read body same]

/-- With an approval both ends succeed, when no write is cut and nothing fails. -/
theorem approval_completes {identity : DeviceIdentity} {network : JoinNetwork} {attempt : Attempt}
    {info : PendingJoinInfo} {joinerAddr localAddrJson : String} {now : Nat}
    (awaits : network.Awaits attempt info joinerAddr now) {store joined : RosterStore}
    {text : String} {peerHints : OrderedMap String String} {bytes ack : List UInt8}
    {roster : List RosterRevision} {hints : List (EndpointId × String)}
    (built : (network.stores identity.endpointId).buildJoinApproval identity localAddrJson info
      joinerAddr = (store, .ok (.approved text peerHints)))
    (roundTrips : RoundTrips) (spelled : Attempt.Spelled (.approved text peerHints) bytes)
    (checked : RosterStore.checkResponse ⟨true, text, peerHints⟩ attempt.endpoint
      identity.endpointId attempt.request.deviceName = .ok (roster, hints))
    (other : attempt.endpoint ≠ identity.endpointId)
    (installed : (network.stores attempt.endpoint).installOrResumeJoinedState roster
      attempt.endpoint attempt.request.deviceName hints = (joined, .ok ()))
    (acked : writeText (JoinerMessages.ackToVec ⟨true⟩) joinRequestLimit = .ok ack)
    (reads : ∀ body, JoinerMessages.ackToVec ⟨true⟩ = some body →
      JoinerMessages.ackFromSlice body = some ⟨true⟩) :
    ∃ final attempt', run (JoinNetwork.step identity) network (approvalSteps localAddrJson now) =
        some final ∧ final.attempts = [attempt'] ∧ attempt'.installed = some roster ∧
      attempt'.joiner = .returned (.ok identity.endpointId) ∧
      attempt'.inviter = .returned (.ok attempt.endpoint) := by
  obtain ⟨stores, history, control, attempts⟩ := network
  obtain ⟨endpoint, request, joiner, inviter, up, down, channel, decision, before⟩ := attempt
  obtain ⟨rfl, rfl, rfl, rfl, ⟨rfl, rfl⟩, clock, deadline, early, coordinator⟩ := awaits
  obtain ⟨coordinator', clock', events⟩ := history
  dsimp only at *
  subst coordinator
  have decides : JoinCoordinator.perform ⟨.pending ⟨info, joinerAddr, 0, deadline⟩, [⟨true, []⟩]⟩
      (.decide info.requestId (.approved text peerHints)) now now =
        (⟨.idle, [⟨true, [.approved text peerHints]⟩]⟩, .decided) := by
    simp [JoinCoordinator.perform, JoinCoordinator.decide, expireLocked, JoinCoordinator.send,
      not_le.mpr early]
  have heard : JoinStream.readMessage JoinEncodings.fromSlice joinResponseLimit ⟨bytes, .none⟩ =
      some (.ok (⟨true, text, peerHints⟩, ⟨[], .none⟩)) :=
    readMessage_written spelled (fun body same => roundTrips.response _ body same) .none
  have acknowledged := readMessage_written acked reads .finished
  have answers : writeText (JoinEncodings.toVec ⟨true, text, peerHints⟩) joinResponseLimit =
      .ok bytes := spelled
  simp only [approvalSteps, run, JoinNetwork.step, JoinNetwork.build, built, Option.bind_some,
    JoinNetwork.settle, JoinNetwork.call, JoinHistory.step, JoinNetwork.setStore, decides, clock,
    le_refl, and_self, if_true, Option.map_some, List.getElem?_cons_zero, JoinNetwork.inviterStep,
    JoinNetwork.awaitDecision, JoinCoordinator.received, List.map_cons, List.map_nil,
    Option.getD_some, List.head?_cons, JoinNetwork.setAttempt, List.set_cons_zero, Attempt.answer,
    JoinDecision.response, answers, Bool.true_eq_false, if_false, JoinStream.fresh,
      JoinStream.write,
    List.nil_append, JoinNetwork.joinerStep, Attempt.hear, ne_eq, not_true_eq_false, heard, checked,
    Function.update_of_ne other, installed, Attempt.confirm, acked, JoinStream.close,
    Attempt.acknowledge, acknowledged, Attempt.finish, JoinStream.expectStreamEnd, Attempt.conclude]
  simp
end

section
attribute [local instance] Blake3.checksum Ed25519.checksum AddrJson.bare JoinEncodings.pair

open RosterSample

def secondRequest : JoinRequest := ⟨.fill 7, "d", bareAddr (device 2).endpointId⟩

/-- The JSON text of the request of the second device. -/
def secondRequestText : List UInt8 :=
  utf8 (String.ofList ("\x7b\"nonce\":[".toList ++
    List.intercalate [','] (List.replicate 32 ['7']) ++
    "],\"device_name\":\"d\",\"endpoint_addr_json\":".toList ++
    Json.string (bareAddr (device 2).endpointId) ++ "\x7d".toList))

def acceptedText : List UInt8 := utf8 "\x7b\"accepted\":true\x7d"

/-- Messages of the second device, to evaluate the model on. -/
@[reducible] def JoinerMessages.second : JoinerMessages where
  requestToVec request := if request = secondRequest then some secondRequestText else none
  requestFromSlice bytes := if bytes = secondRequestText then some secondRequest else none
  ackToVec ack := if ack = ⟨true⟩ then some acceptedText else none
  ackFromSlice bytes := if bytes = acceptedText then some ⟨true⟩ else none

attribute [local instance] JoinerMessages.second

theorem requestsRoundTrip_second : RequestsRoundTrip := by
  intro request bytes written
  simp only [JoinerMessages.requestToVec] at written
  split at written
  · rename_i same
    rw [same, ← Option.some.inj written]
    exact if_pos rfl
  · cases written

/-- The first device has admitted the second one, which has nothing. -/
def pairStores (endpoint : EndpointId) : RosterStore :=
  if endpoint = (device 1).endpointId then pair else .empty

/-- The second device asks to join by an invitation. -/
def askingSteps : List JoinLabel :=
  [.activate (.fill 7) minInvitationLifetime 5 6, .connect (device 2).endpointId secondRequest,
    .joiner 0 (.ask none), .inviter 0 (.receive "r" 8 9), .address "r" 10]

/-- The approval of the second device. -/
theorem pair_approves :
    ∃ next text bytes hints joined,
      pair.buildJoinApproval (device 1) (bareAddr (device 1).endpointId)
        ⟨"r", (device 2).endpointId, "d"⟩ (bareAddr (device 2).endpointId) =
          (next, .ok (.approved text firstHint)) ∧
      Attempt.Spelled (.approved text firstHint) bytes ∧
      RosterStore.checkResponse ⟨true, text, firstHint⟩ (device 2).endpointId
        (device 1).endpointId "d" = .ok ([genesis, admitted 2], hints) ∧
      RosterStore.empty.installOrResumeJoinedState [genesis, admitted 2] (device 2).endpointId "d"
        hints = (joined, .ok ()) := by
  have selects : pair.selectedRosterChain = .ok [genesis, admitted 2] := by decide +kernel
  have named : Lists (admitted 2) (device 2).endpointId "d" := by
    unfold Lists
    decide +kernel
  have hint : validatePeerHint (bareAddr (device 2).endpointId) = .ok () := by decide +kernel
  have allowed : RosterBundle.Transmittable [genesis, admitted 2] := by
    refine ⟨by simp, by decide, ?_, ?_⟩
    · decide +kernel
    · decide +kernel
  have fits : ((approvalText [genesis, admitted 2] firstHint).toList.map Char.utf8Size).sum ≤
      joinResponseLimit := by
    rw [approvalText, String.toList_ofList]
    decide +kernel
  have summed : firstHint.toList.foldlM (addHint (admitted 2)) 0 = .ok 148 := by decide +kernel
  have shared : RosterStore.approvalPeerHints
      { pair with peerHints :=
        pair.peerHints.insert (device 2).endpointId (bareAddr (device 2).endpointId) }
      ⟨"r", (device 2).endpointId, "d"⟩ (device 1) (bareAddr (device 1).endpointId) =
        .ok firstHint := by decide +kernel
  obtain ⟨decision, approved⟩ : ∃ decision,
      JoinDecision.approve [genesis, admitted 2] firstHint = .ok decision :=
    ⟨_, approve_only _ _ allowed rfl summed (by unfold maxJoinHintTextBytes; omega) fits⟩
  have built := @RosterStore.buildJoinApproval_listed _ _ _ _ pair (device 1)
    ⟨"r", (device 2).endpointId, "d"⟩ (bareAddr (device 1).endpointId)
    (bareAddr (device 2).endpointId) _ _ _ _ selects rfl named hint shared approved
  have tree : RosterTree genesis pair := RosterTree.of_selected selects
  have valid : validateRosterChain [genesis, admitted 2] = .ok () := by decide +kernel
  have member : ((admitted 2).members[(device 1).endpointId]?).isSome := by decide +kernel
  have others : ∀ hint ∈ firstHint.toList, endpointFromStr hint.1 ≠ some (device 2).endpointId := by
    decide +kernel
  have known : ∃ hint ∈ firstHint.toList, endpointFromStr hint.1 = some (device 1).endpointId := by
    decide +kernel
  have last : [genesis, admitted 2].getLast? = some (admitted 2) := rfl
  obtain ⟨encoded, rfl, approval⟩ := approve_ok approved
  obtain ⟨stream, written⟩ := approval.written
  rw [writeJson_eq] at written
  obtain ⟨validated, checked, hints⟩ :=
    RosterStore.checkResponse_approved (roundTrips_only _ _) valid last approval named member others
      known
  obtain ⟨joined, installed, -⟩ := RosterStore.install_empty tree selects last named hints
  exact ⟨_, encoded, stream, validated, joined, built, written, checked, installed⟩

/-- The second device joins by the invitation, and both ends succeed. -/
theorem second_joins :
    ∃ network attempt, run (JoinNetwork.step (device 1)) (.start pairStores)
        (askingSteps ++ approvalSteps (bareAddr (device 1).endpointId) 11) = some network ∧
      attempt ∈ network.attempts ∧ attempt.installed = some [genesis, admitted 2] ∧
      attempt.joiner = .returned (.ok (device 1).endpointId) ∧
      attempt.inviter = .returned (.ok (device 2).endpointId) := by
  have asked : (run (JoinNetwork.step (device 1)) (.start pairStores) askingSteps).map
      (fun network => (network.history.coordinator, network.history.clock, network.control)) =
      some (⟨.pending ⟨⟨"r", (device 2).endpointId, "d"⟩, bareAddr (device 2).endpointId, 0,
          6 + minInvitationLifetime⟩, [⟨true, []⟩]⟩, 10,
        .addressed ⟨"r", (device 2).endpointId, "d"⟩ (bareAddr (device 2).endpointId)) := by
    decide +kernel
  have waiting : (run (JoinNetwork.step (device 1)) (.start pairStores) askingSteps).map
      (fun network => (network.attempts, network.stores (device 1).endpointId,
        network.stores (device 2).endpointId)) =
      some ([⟨(device 2).endpointId, secondRequest, .waiting, .deciding 0 "r", .fresh,
        .fresh, some 0, none, none⟩], pair, .empty) := by decide +kernel
  obtain ⟨network, reached, shown⟩ := Option.map_eq_some_iff.mp asked
  rw [reached, Option.map_some, Option.some.injEq, Prod.mk.injEq, Prod.mk.injEq] at waiting
  obtain ⟨coordinator, clock, control⟩ : _ ∧ _ ∧ _ := by
    rw [Prod.mk.injEq, Prod.mk.injEq] at shown
    exact shown
  obtain ⟨attempts, first, second⟩ := waiting
  obtain ⟨next, text, bytes, hints, joined, built, spelled, checked, installed⟩ := pair_approves
  have awaits : network.Awaits ⟨(device 2).endpointId, secondRequest, .waiting, .deciding 0 "r",
      .fresh, .fresh, some 0, none, none⟩ ⟨"r", (device 2).endpointId, "d"⟩
      (bareAddr (device 2).endpointId) 11 :=
    ⟨attempts, control, rfl, rfl, ⟨rfl, rfl⟩, by omega, _, by decide, coordinator⟩
  obtain ⟨ack, acked⟩ : ∃ ack, writeText (JoinerMessages.ackToVec ⟨true⟩) joinRequestLimit =
        .ok ack :=
    ⟨_, rfl⟩
  rw [← first] at built
  rw [← second] at installed
  obtain ⟨final, attempt, ran, only, joins⟩ := approval_completes awaits built (roundTrips_only _ _)
    spelled checked (by decide +kernel) installed acked (fun body same => by
      cases same
      exact if_pos rfl)
  exact ⟨final, attempt, run_append.mpr ⟨network, reached, ran⟩,
    only ▸ List.mem_singleton_self _, joins⟩

end

section
variable [JoinEncodings] [JoinerMessages] [AddrJson] [Blake3] [Ed25519] {identity : DeviceIdentity}
  {stores : EndpointId → RosterStore} {labels : List JoinLabel} {network : JoinNetwork}

/-- In every run, a device joins only by an approval of its own request while an invitation runs,
and no invitation lets two devices join. -/
theorem joins_are_approved (roundTrips : RoundTrips) (requests : RequestsRoundTrip)
    (reached : run (JoinNetwork.step identity) (.start stores) labels = some network) :
    (∀ attempt ∈ network.attempts, ∀ roster, attempt.installed = some roster →
      network.Admitted identity attempt roster) ∧
    network.attempts.countP (fun attempt => attempt.installed.isSome) ≤
      network.history.events.countP fun event => decide (event.reply = .activated) := by
  have sound := JoinNetwork.run_sound roundTrips requests reached
  exact ⟨fun attempt listed roster installed => sound.admitted roundTrips listed installed,
    sound.activated⟩

end

section
attribute [local instance] Blake3.checksum Ed25519.checksum AddrJson.bare JoinEncodings.pair
  JoinerMessages.second

open RosterSample

/-- The join of the second device was approved. -/
theorem second_joins_approved :
    ∃ labels network, run (JoinNetwork.step (device 1)) (.start pairStores) labels = some network ∧
      (∃ attempt ∈ network.attempts, network.Admitted (device 1) attempt [genesis, admitted 2]) ∧
      network.attempts.countP (fun attempt => attempt.installed.isSome) ≤
        network.history.events.countP fun event => decide (event.reply = .activated) := by
  obtain ⟨network, attempt, reached, listed, installed, -⟩ := second_joins
  obtain ⟨approved, counted⟩ :=
    joins_are_approved (roundTrips_only _ _) requestsRoundTrip_second reached
  exact ⟨_, network, reached, ⟨attempt, listed, approved attempt listed _ installed⟩, counted⟩

end

section
variable [JoinEncodings] [JoinerMessages] [AddrJson] [Blake3] [Ed25519] {identity : DeviceIdentity}
  {stores : EndpointId → RosterStore} {labels : List JoinLabel} {network : JoinNetwork}

end

section
attribute [local instance] Blake3.checksum Ed25519.checksum AddrJson.bare JoinEncodings.pair
  JoinerMessages.second

open RosterSample

end

end Skillsync
