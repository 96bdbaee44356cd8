import Skillsync.JoinCoordinator
import Skillsync.Runs

set_option autoImplicit false

namespace Skillsync

open Runs

theorem foldl_or_eq_zero (bytes : List UInt8) (difference : UInt8) :
    bytes.foldl (fun difference byte => difference ||| byte) difference = 0 ↔
      difference = 0 ∧ ∀ byte ∈ bytes, byte = 0 := by
  induction bytes generalizing difference with
  | nil => simp
  | cons byte rest ih =>
      rw [List.foldl_cons, ih, List.forall_mem_cons, UInt8.or_eq_zero_iff, and_assoc]

theorem zipWith_xor_eq_zero {own other : List UInt8} (same : own.length = other.length) :
    (∀ byte ∈ List.zipWith (fun own byte => own ^^^ byte) own other, byte = 0) ↔ own = other := by
  induction own generalizing other with
  | nil =>
      cases other with
      | nil => simp
      | cons byte rest => cases same
  | cons first own ih =>
      cases other with
      | nil => cases same
      | cons byte rest =>
          rw [List.zipWith_cons_cons, List.forall_mem_cons, ih (by simpa using same),
            UInt8.xor_eq_zero_iff, List.cons.injEq]

/-- `matches` accepts exactly the nonce itself. -/
theorem nonceMatches_iff {nonce other : Bytes32} : nonceMatches nonce other = true ↔
    nonce = other := by
  have same : nonce.bytes.length = other.bytes.length := by
    rw [nonce.length_eq, other.length_eq]
  rw [nonceMatches, beq_iff_eq, foldl_or_eq_zero, zipWith_xor_eq_zero same, eq_self, true_and]
  exact ⟨Bytes32.ext_bytes, congrArg Bytes32.bytes⟩

/-- A call of the coordinator, or the end of a connection. -/
inductive JoinCall
  | activate (nonce : Bytes32) (lifetime : Nat)
  | claim (nonce : Bytes32) (remoteEndpoint : EndpointId)
      (deviceName endpointAddrJson requestId : String)
  | pending
  | pendingAddr (requestId : String)
  | decide (requestId : String) (decision : JoinDecision)
  | cancel (requestId : String)
  /-- The connection of a claim drops the receiver of its channel. -/
  | leave (channel : Nat)
deriving DecidableEq

inductive JoinReply
  | activated
  | claimed (channel remaining : Nat)
  | pending (info : Option PendingJoinInfo)
  | address (info : PendingJoinInfo) (endpointAddrJson : String)
  | decided
  | done
  | failed (reason : JoinError)
deriving DecidableEq

/-- A call with its readings of the clock and its reply. -/
structure JoinEvent where
  call : JoinCall
  now : Nat
  later : Nat
  reply : JoinReply
deriving DecidableEq

namespace JoinCoordinator

variable [AddrJson]

/-- One call. -/
def perform (coordinator : JoinCoordinator) (call : JoinCall) (now later : Nat) :
    JoinCoordinator × JoinReply :=
  match call with
  | .activate nonce lifetime =>
      match coordinator.activate nonce lifetime now later with
      | (next, .ok ()) => (next, .activated)
      | (next, .error reason) => (next, .failed reason)
  | .claim nonce remoteEndpoint deviceName endpointAddrJson requestId =>
      match coordinator.claim nonce remoteEndpoint deviceName endpointAddrJson requestId now
          later with
      | (next, .ok (channel, remaining)) => (next, .claimed channel remaining)
      | (next, .error reason) => (next, .failed reason)
  | .pending => ((coordinator.pending now).1, .pending (coordinator.pending now).2)
  | .pendingAddr requestId =>
      match coordinator.pendingAddr requestId now with
      | (next, .ok (info, endpointAddrJson)) => (next, .address info endpointAddrJson)
      | (next, .error reason) => (next, .failed reason)
  | .decide requestId decision =>
      match coordinator.decide requestId decision now with
      | (next, .ok ()) => (next, .decided)
      | (next, .error reason) => (next, .failed reason)
  | .cancel requestId => (coordinator.cancel requestId, .done)
  | .leave channel => (coordinator.leave channel, .done)

end JoinCoordinator

/-- The state keeps its invitation or its request, or has none. -/
def Lapsed (before after : JoinState) : Prop := after = before ∨ after = .idle

theorem lapsed_expire (now : Nat) (state : JoinState) : Lapsed state (expireLocked now state) := by
  cases state with
  | idle => exact Or.inr rfl
  | active invitation =>
      simp only [expireLocked]
      split
      · exact Or.inr rfl
      · exact Or.inl rfl
  | pending join =>
      simp only [expireLocked]
      split
      · exact Or.inr rfl
      · exact Or.inl rfl

theorem expire_active {now : Nat} {state : JoinState} {invitation : ActiveInvitation}
    (live : expireLocked now state = .active invitation) :
    state = .active invitation ∧ now < invitation.deadline := by
  cases state with
  | idle => cases live
  | active held =>
      simp only [expireLocked] at live
      split at live
      · cases live
      · rename_i early
        cases live
        exact ⟨rfl, not_le.mp early⟩
  | pending join =>
      simp only [expireLocked] at live
      split at live <;> cases live

theorem expire_pending {now : Nat} {state : JoinState} {join : PendingJoin}
    (live : expireLocked now state = .pending join) :
    state = .pending join ∧ now < join.deadline := by
  cases state with
  | idle => cases live
  | active invitation =>
      simp only [expireLocked] at live
      split at live <;> cases live
  | pending held =>
      simp only [expireLocked] at live
      split at live
      · cases live
      · rename_i early
        cases live
        exact ⟨rfl, not_le.mp early⟩

/-- Neither a successful activation nor a successful claim. -/
def JoinReply.quiet : JoinReply → Bool
  | .activated => false
  | .claimed _ _ => false
  | _ => true

/-- What a call does to a coordinator. -/
inductive JoinStep (before after : JoinCoordinator) (call : JoinCall) (now later : Nat)
    (reply : JoinReply) : Prop
  | activated (nonce : Bytes32) (lifetime : Nat) (called : call = .activate nonce lifetime)
      (replied : reply = .activated) (free : expireLocked now before.state = .idle)
      (next : after = { before with state := .active ⟨nonce, later + lifetime⟩ })
  | claimed (nonce : Bytes32) (remoteEndpoint : EndpointId)
      (deviceName endpointAddrJson requestId : String) (invitation : ActiveInvitation)
      (called : call = .claim nonce remoteEndpoint deviceName endpointAddrJson requestId)
      (replied : reply = .claimed before.channels.length (invitation.deadline - later))
      (live : expireLocked now before.state = .active invitation)
      (matching : invitation.nonce = nonce) (early : later < invitation.deadline)
      (next : after = ⟨.pending ⟨⟨requestId, remoteEndpoint, deviceName⟩, endpointAddrJson,
        before.channels.length, invitation.deadline⟩, before.channels ++ [⟨true, []⟩]⟩)
  | decided (decision : JoinDecision) (join : PendingJoin) (decisions : List JoinDecision)
      (called : call = .decide join.info.requestId decision) (replied : reply = .decided)
      (live : expireLocked now before.state = .pending join)
      (channel : before.channels[join.decision]? = some ⟨true, decisions⟩)
      (next : after = ⟨.idle, before.channels.set join.decision ⟨true, decisions ++ [decision]⟩⟩)
  | quiet (quiet : reply.quiet = true) (undecided : reply ≠ .decided)
      (state : Lapsed before.state after.state)
      (channels : after.channels.map DecisionChannel.decisions =
        before.channels.map DecisionChannel.decisions)

namespace JoinCoordinator

variable [AddrJson] {coordinator next : JoinCoordinator} {now later : Nat}

omit [AddrJson] in
/-- A reply of failure after the check of the time. -/
theorem quiet_expired (call : JoinCall) (reply : JoinReply) (quiet : reply.quiet = true)
    (undecided : reply ≠ .decided) :
    JoinStep coordinator { coordinator with state := expireLocked now coordinator.state } call now
      later reply :=
  .quiet quiet undecided (lapsed_expire now coordinator.state) rfl

theorem activate_step {nonce : Bytes32} {lifetime : Nat} {reply : JoinReply}
    (performed : coordinator.perform (.activate nonce lifetime) now later = (next, reply)) :
    JoinStep coordinator next (.activate nonce lifetime) now later reply := by
  simp only [perform, activate] at performed
  by_cases bounded : minInvitationLifetime ≤ lifetime ∧ lifetime ≤ maxInvitationLifetime
  · rw [if_neg (not_not.mpr bounded)] at performed
    cases live : expireLocked now coordinator.state with
    | idle =>
        rw [live] at performed
        cases performed
        exact .activated nonce lifetime rfl rfl live rfl
    | active invitation =>
        rw [live] at performed
        cases performed
        rw [← live]
        exact quiet_expired _ _ rfl (by simp)
    | pending join =>
        rw [live] at performed
        cases performed
        rw [← live]
        exact quiet_expired _ _ rfl (by simp)
  · rw [if_pos bounded] at performed
    cases performed
    exact .quiet rfl (by simp) (Or.inl rfl) rfl

theorem claim_step {nonce : Bytes32} {remoteEndpoint : EndpointId}
    {deviceName endpointAddrJson requestId : String} {reply : JoinReply}
    (performed : coordinator.perform
      (.claim nonce remoteEndpoint deviceName endpointAddrJson requestId) now later =
        (next, reply)) :
    JoinStep coordinator next (.claim nonce remoteEndpoint deviceName endpointAddrJson requestId)
      now later reply := by
  simp only [perform, claim] at performed
  cases named : validateJoinDeviceName deviceName with
  | error reason =>
      rw [named] at performed
      cases performed
      exact .quiet rfl (by simp) (Or.inl rfl) rfl
  | ok valid =>
      cases addressed : validateEndpointAddr endpointAddrJson remoteEndpoint with
      | error reason =>
          rw [named, addressed] at performed
          cases performed
          exact .quiet rfl (by simp) (Or.inl rfl) rfl
      | ok accepted =>
          rw [named, addressed] at performed
          cases live : expireLocked now coordinator.state with
          | idle =>
              rw [live] at performed
              cases performed
              rw [← live]
              exact quiet_expired _ _ rfl (by simp)
          | pending join =>
              rw [live] at performed
              cases performed
              rw [← live]
              exact quiet_expired _ _ rfl (by simp)
          | active invitation =>
              rw [live] at performed
              dsimp only at performed
              by_cases matching : nonceMatches invitation.nonce nonce
              · by_cases past : invitation.deadline - later = 0
                · rw [matching, past] at performed
                  cases performed
                  rw [← live]
                  exact quiet_expired _ _ rfl (by simp)
                · rw [matching, Bool.not_true, if_neg Bool.false_ne_true, if_neg past] at performed
                  cases performed
                  exact .claimed nonce remoteEndpoint deviceName endpointAddrJson requestId
                    invitation rfl rfl live (nonceMatches_iff.mp matching) (by omega) rfl
              · rw [Bool.not_eq_true] at matching
                rw [matching] at performed
                cases performed
                rw [← live]
                exact quiet_expired _ _ rfl (by simp)

theorem decide_step {requestId : String} {decision : JoinDecision} {reply : JoinReply}
    (performed : coordinator.perform (.decide requestId decision) now later = (next, reply)) :
    JoinStep coordinator next (.decide requestId decision) now later reply := by
  simp only [perform, decide] at performed
  cases live : expireLocked now coordinator.state with
  | idle =>
      rw [live] at performed
      cases performed
      rw [← live]
      exact quiet_expired _ _ rfl (by simp)
  | active invitation =>
      rw [live] at performed
      cases performed
      rw [← live]
      exact quiet_expired _ _ rfl (by simp)
  | pending join =>
      rw [live] at performed
      dsimp only at performed
      by_cases same : join.info.requestId = requestId
      · rw [if_neg (not_not.mpr same)] at performed
        unfold send at performed
        dsimp only at performed
        split at performed
        · rename_i decided
          split at decided
          · rename_i decisions channel
            cases decided
            cases performed
            rw [← same]
            exact .decided decision join decisions rfl rfl live channel rfl
          · cases decided
        · rename_i failed
          split at failed
          · cases failed
          · cases failed
            cases performed
            exact .quiet rfl (by simp) (Or.inr rfl) rfl
      · rw [if_pos same] at performed
        cases performed
        rw [← live]
        exact quiet_expired _ _ rfl (by simp)

/-- What a call can do. -/
theorem perform_step {call : JoinCall} {reply : JoinReply}
    (performed : coordinator.perform call now later = (next, reply)) :
    JoinStep coordinator next call now later reply := by
  cases call with
  | activate nonce lifetime => exact activate_step performed
  | claim nonce remoteEndpoint deviceName endpointAddrJson requestId => exact claim_step performed
  | decide requestId decision => exact decide_step performed
  | pending =>
      simp only [perform, pending] at performed
      cases live : expireLocked now coordinator.state <;>
        (rw [live] at performed
         dsimp only at performed
         cases performed
         rw [← live]
         exact quiet_expired _ _ rfl (by simp))
  | pendingAddr requestId =>
      simp only [perform, pendingAddr] at performed
      cases live : expireLocked now coordinator.state with
      | idle =>
          rw [live] at performed
          cases performed
          rw [← live]
          exact quiet_expired _ _ rfl (by simp)
      | active invitation =>
          rw [live] at performed
          cases performed
          rw [← live]
          exact quiet_expired _ _ rfl (by simp)
      | pending join =>
          rw [live] at performed
          dsimp only at performed
          split at performed <;>
            (cases performed
             rename_i outcome
             obtain ⟨same, -⟩ := Prod.mk.inj outcome
             rw [← same, ← live]
             exact quiet_expired _ _ rfl (by simp))
  | cancel requestId =>
      cases performed
      refine .quiet rfl (by simp) ?_ ?_
      · unfold cancel
        split
        · split
          · exact Or.inr rfl
          · exact Or.inl rfl
        · exact Or.inl rfl
      · unfold cancel
        split
        · split <;> rfl
        · rfl
  | leave channel =>
      cases performed
      refine .quiet rfl (by simp) (Or.inl rfl) ?_
      apply List.ext_getElem?
      intro index
      simp only [leave, List.getElem?_map, List.getElem?_modify]
      cases coordinator.channels[index]? with
      | none => rfl
      | some held => by_cases same : channel = index <;> simp [same]

end JoinCoordinator

namespace JoinCoordinator

/-- What a channel got. -/
def received (coordinator : JoinCoordinator) (channel : Nat) : List JoinDecision :=
  ((coordinator.channels.map DecisionChannel.decisions)[channel]?).getD []

variable {coordinator next : JoinCoordinator} {channel : Nat}

theorem received_congr (same : next.channels.map DecisionChannel.decisions =
    coordinator.channels.map DecisionChannel.decisions) :
    next.received channel = coordinator.received channel := by
  rw [received, received, same]

theorem received_fresh : coordinator.received coordinator.channels.length = [] := by
  rw [received, List.getElem?_eq_none (by simp)]
  rfl

theorem received_new {state : JoinState} :
    received ⟨state, coordinator.channels ++ [⟨true, []⟩]⟩ channel =
      coordinator.received channel := by
  rw [received, received, List.map_append, List.getElem?_append]
  split
  · rfl
  · rename_i outside
    rw [List.getElem?_eq_none (not_lt.mp outside)]
    cases channel - (coordinator.channels.map DecisionChannel.decisions).length <;> simp

theorem received_sent {state : JoinState} {sender : Nat} {decisions : List JoinDecision}
    {decision : JoinDecision} (open' : coordinator.channels[sender]? = some ⟨true, decisions⟩) :
    received ⟨state, coordinator.channels.set sender ⟨true, decisions ++ [decision]⟩⟩ channel =
      if channel = sender then coordinator.received sender ++ [decision]
      else coordinator.received channel := by
  obtain ⟨inside, found⟩ := List.getElem?_eq_some_iff.mp open'
  simp only [received, List.map_set, List.getElem?_set, List.length_map, List.getElem?_map]
  by_cases same : channel = sender
  · simp [same, inside, found]
  · simp [same, Ne.symm same]

end JoinCoordinator

/-- A call and its two readings of the clock. -/
structure TimedCall where
  call : JoinCall
  now : Nat
  later : Nat

/-- A coordinator, the last reading of the clock, and the calls so far. -/
structure JoinHistory where
  coordinator : JoinCoordinator
  clock : Nat
  events : List JoinEvent

namespace JoinHistory

def start : JoinHistory := ⟨.start, 0, []⟩

/-- The next call; the clock does not go back. -/
def step [AddrJson] (history : JoinHistory) (timed : TimedCall) : Option JoinHistory :=
  if history.clock ≤ timed.now ∧ timed.now ≤ timed.later then
    let performed := history.coordinator.perform timed.call timed.now timed.later
    some ⟨performed.1, timed.later,
      history.events ++ [⟨timed.call, timed.now, timed.later, performed.2⟩]⟩
  else none

end JoinHistory

/-- The channel that a successful claim made. -/
def JoinReply.channel : JoinReply → Option Nat
  | .claimed channel _ => some channel
  | _ => none

theorem JoinReply.channel_quiet {reply : JoinReply} (quiet : reply.quiet = true) :
    reply.channel = none := by
  cases reply <;> first | rfl | cases quiet

/-- The channels of the successful claims. -/
def claimedChannels (events : List JoinEvent) : List Nat :=
  events.filterMap fun event => event.reply.channel

theorem claimedChannels_snoc {events : List JoinEvent} {event : JoinEvent}
    (other : event.reply.channel = none) :
    claimedChannels (events ++ [event]) = claimedChannels events := by
  simp only [claimedChannels, List.filterMap_append, List.filterMap_cons, other,
    List.filterMap_nil, List.append_nil]

/-- The event activated an invitation with the nonce until the deadline. -/
structure Activated (event : JoinEvent) (nonce : Bytes32) (deadline : Nat) : Prop where
  call : ∃ lifetime, event.call = .activate nonce lifetime ∧ deadline = event.later + lifetime
  reply : event.reply = .activated

/-- The event claimed an invitation, before the deadline. -/
structure Claimed (event : JoinEvent) (nonce : Bytes32) (requestId : String)
    (channel deadline : Nat) : Prop where
  call : ∃ remoteEndpoint deviceName endpointAddrJson,
    event.call = .claim nonce remoteEndpoint deviceName endpointAddrJson requestId
  reply : event.reply = .claimed channel (deadline - event.later)
  early : event.later < deadline

/-- The last activation set up the invitation, and nobody claimed it since. -/
def Invited (events : List JoinEvent) (nonce : Bytes32) (deadline : Nat) : Prop :=
  ∃ before activation between, events = before ++ activation :: between ∧
    Activated activation nonce deadline ∧ ∀ event ∈ between, event.reply.quiet = true

/-- A decision that a channel got: it was passed with the request id of the claim that made the
channel, before the deadline of that claim. -/
def Delivered (events : List JoinEvent) (channel : Nat) (decision : JoinDecision) : Prop :=
  ∃ before claim between decided after nonce requestId deadline,
    events = before ++ claim :: between ++ decided :: after ∧
    Claimed claim nonce requestId channel deadline ∧
    decided.call = .decide requestId decision ∧ decided.reply = .decided ∧ decided.now < deadline

/-- What the calls so far say about the state of the coordinator. -/
structure JoinHistory.Explained (history : JoinHistory) : Prop where
  claims : ∀ front claim back channel remaining, history.events = front ++ claim :: back →
    claim.reply = .claimed channel remaining →
    ∃ nonce requestId deadline, Claimed claim nonce requestId channel deadline ∧
      Invited front nonce deadline
  active : ∀ invitation, history.coordinator.state = .active invitation →
    Invited history.events invitation.nonce invitation.deadline
  pending : ∀ join, history.coordinator.state = .pending join →
    history.coordinator.received join.decision = [] ∧
    ∃ front claim back nonce, history.events = front ++ claim :: back ∧
      Claimed claim nonce join.info.requestId join.decision join.deadline
  single : ∀ channel, (history.coordinator.received channel).length ≤ 1
  delivered : ∀ channel, ∀ decision ∈ history.coordinator.received channel,
    Delivered history.events channel decision
  apart : (claimedChannels history.events).Nodup
  numbered : ∀ channel ∈ claimedChannels history.events,
    channel < history.coordinator.channels.length

theorem Delivered.append {events : List JoinEvent} {channel : Nat} {decision : JoinDecision}
    (delivered : Delivered events channel decision) (event : JoinEvent) :
    Delivered (events ++ [event]) channel decision := by
  obtain ⟨before, claim, between, decided, after, nonce, requestId, deadline, rfl, rest⟩ :=
    delivered
  exact ⟨before, claim, between, decided, after ++ [event], nonce, requestId, deadline, by simp,
    rest⟩

theorem Invited.append {events : List JoinEvent} {nonce : Bytes32} {deadline : Nat}
    (invited : Invited events nonce deadline) {event : JoinEvent}
    (quiet : event.reply.quiet = true) : Invited (events ++ [event]) nonce deadline := by
  obtain ⟨before, activation, between, rfl, activated, silent⟩ := invited
  refine ⟨before, activation, between ++ [event], by simp, activated, fun other member => ?_⟩
  rcases List.mem_append.mp member with earlier | last
  · exact silent other earlier
  · rw [List.mem_singleton.mp last]
    exact quiet

/-- A place in a list with one more event is a place in the list, or the event. -/
theorem place_snoc {events front back : List JoinEvent} {last event : JoinEvent}
    (placed : events ++ [last] = front ++ event :: back) :
    (events = front ∧ last = event) ∨ ∃ rest, events = front ++ event :: rest := by
  rcases List.eq_nil_or_concat back with rfl | ⟨rest, final, rfl⟩
  · left
    exact ⟨(List.append_inj' placed rfl).1, by simpa using (List.append_inj' placed rfl).2⟩
  · right
    rw [List.concat_eq_append, ← List.cons_append, ← List.append_assoc] at placed
    exact ⟨rest, (List.append_inj' placed rfl).1⟩

/-- A quiet call explains nothing new. -/
theorem JoinHistory.Explained.claims_snoc {history : JoinHistory}
    (explained : JoinHistory.Explained history)
    {event : JoinEvent}
    (own : ∀ channel remaining, event.reply = .claimed channel remaining →
      ∃ nonce requestId deadline, Claimed event nonce requestId channel deadline ∧
        Invited history.events nonce deadline)
    {front back : List JoinEvent} {claim : JoinEvent} {channel remaining : Nat}
    (placed : history.events ++ [event] = front ++ claim :: back)
    (replied : claim.reply = .claimed channel remaining) :
    ∃ nonce requestId deadline, Claimed claim nonce requestId channel deadline ∧
      Invited front nonce deadline := by
  rcases place_snoc placed with ⟨rfl, rfl⟩ | ⟨rest, earlier⟩
  · exact own channel remaining replied
  · exact explained.claims front claim rest channel remaining earlier replied

/-- One call keeps the explanation: each kind of step adds its event to the history. -/
theorem JoinHistory.Explained.step [AddrJson] {history next : JoinHistory} {timed : TimedCall}
    (explained : JoinHistory.Explained history) (taken : history.step timed = some next) :
    JoinHistory.Explained next := by
  unfold JoinHistory.step at taken
  split at taken
  · cases taken
    cases performed : history.coordinator.perform timed.call timed.now timed.later with
    | mk after reply =>
        dsimp only
        cases JoinCoordinator.perform_step performed with
        | activated nonce lifetime called replied free outcome =>
            subst outcome
            refine ⟨fun front claim back channel remaining placed claimed => ?_,
              fun invitation state => ?_, fun join state => (by cases state), explained.single,
              fun channel decision got => (explained.delivered channel decision got).append _,
              ?_, ?_⟩
            · apply explained.claims_snoc _ placed claimed
              intro channel remaining impossible
              rw [replied] at impossible
              cases impossible
            · cases state
              exact ⟨history.events, _, [], rfl, ⟨⟨lifetime, called, rfl⟩, replied⟩, by simp⟩
            · rw [claimedChannels_snoc (by rw [replied]; rfl)]
              exact explained.apart
            · rw [claimedChannels_snoc (by rw [replied]; rfl)]
              exact explained.numbered
        | claimed nonce remoteEndpoint deviceName endpointAddrJson requestId invitation called
            replied live matching early outcome =>
            subst outcome
            have claims : Claimed ⟨timed.call, timed.now, timed.later, reply⟩ nonce requestId
                history.coordinator.channels.length invitation.deadline :=
              ⟨⟨remoteEndpoint, deviceName, endpointAddrJson, called⟩, replied, early⟩
            have made : claimedChannels (history.events ++
                [⟨timed.call, timed.now, timed.later, reply⟩]) =
                claimedChannels history.events ++ [history.coordinator.channels.length] := by
              rw [claimedChannels, List.filterMap_append, replied]
              rfl
            refine ⟨fun front claim back channel remaining placed claimed => ?_,
              fun held state => (by cases state), fun join state => ?_, fun channel => ?_,
              fun channel decision got => ?_, ?_, ?_⟩
            · apply explained.claims_snoc _ placed claimed
              intro channel remaining same
              rw [replied] at same
              cases same
              refine ⟨nonce, requestId, invitation.deadline, claims, ?_⟩
              rw [← matching]
              exact explained.active invitation (expire_active live).1
            · cases state
              refine ⟨?_, history.events, _, [], nonce, rfl, claims⟩
              rw [JoinCoordinator.received_new]
              exact JoinCoordinator.received_fresh
            · rw [JoinCoordinator.received_new]
              exact explained.single channel
            · rw [JoinCoordinator.received_new] at got
              exact (explained.delivered channel decision got).append _
            · rw [made]
              apply List.nodup_append.mpr ⟨explained.apart, List.nodup_singleton _, ?_⟩
              intro channel earlier other last
              have below := explained.numbered channel earlier
              rw [List.mem_singleton.mp last]
              omega
            · rw [made]
              intro channel listed
              dsimp only
              rw [List.length_append, List.length_singleton]
              rcases List.mem_append.mp listed with earlier | last
              · have below := explained.numbered channel earlier
                omega
              · rw [List.mem_singleton.mp last]
                omega
        | decided decision join decisions called replied live channel outcome =>
            subst outcome
            obtain ⟨pending, early⟩ := expire_pending live
            obtain ⟨nothing, front, claim, back, nonce, placed, claims⟩ :=
              explained.pending join pending
            refine ⟨fun front claim back channel remaining placed claimed => ?_,
              fun held state => (by cases state), fun join state => (by cases state),
              fun other => ?_, fun other got listed => ?_, ?_, ?_⟩
            · apply explained.claims_snoc _ placed claimed
              intro channel remaining impossible
              rw [replied] at impossible
              cases impossible
            · rw [JoinCoordinator.received_sent channel]
              split
              · rw [nothing]
                exact le_rfl
              · exact explained.single other
            · rw [JoinCoordinator.received_sent channel] at listed
              split at listed
              · rename_i same
                rw [nothing, List.nil_append, List.mem_singleton] at listed
                subst same listed
                refine ⟨front, claim, back, ⟨timed.call, timed.now, timed.later, reply⟩, [], nonce,
                  join.info.requestId, join.deadline, ?_, claims, called, replied, early⟩
                rw [placed]
              · exact (explained.delivered other got listed).append _
            · rw [claimedChannels_snoc (by rw [replied]; rfl)]
              exact explained.apart
            · rw [claimedChannels_snoc (by rw [replied]; rfl)]
              dsimp only
              rw [List.length_set]
              exact explained.numbered
        | quiet quiet undecided state channels =>
            have same : ∀ channel, after.received channel =
                history.coordinator.received channel :=
              fun channel => JoinCoordinator.received_congr channels
            have kept : ∀ held, after.state = held → held ≠ .idle →
                history.coordinator.state = held := by
              intro held reached some
              rcases state with equal | idle
              · rw [← equal]
                exact reached
              · rw [reached] at idle
                exact absurd idle some
            refine ⟨fun front claim back channel remaining placed claimed => ?_,
              fun invitation state => ?_, fun join state => ?_, fun channel => ?_,
              fun channel decision got => ?_, ?_, ?_⟩
            · apply explained.claims_snoc _ placed claimed
              intro channel remaining impossible
              rw [show reply = .claimed channel remaining from impossible] at quiet
              cases quiet
            · exact (explained.active invitation (kept _ state (by simp))).append quiet
            · obtain ⟨nothing, front, claim, back, nonce, placed, claims⟩ :=
                explained.pending join (kept _ state (by simp))
              refine ⟨(same join.decision).trans nothing, front, claim,
                back ++ [⟨timed.call, timed.now, timed.later, reply⟩], nonce, ?_, claims⟩
              dsimp only
              rw [placed, List.append_assoc, List.cons_append]
            · dsimp only
              rw [same channel]
              exact explained.single channel
            · dsimp only at got
              rw [same channel] at got
              exact (explained.delivered channel decision got).append _
            · rw [claimedChannels_snoc (JoinReply.channel_quiet quiet)]
              exact explained.apart
            · rw [claimedChannels_snoc (JoinReply.channel_quiet quiet)]
              have size := congrArg List.length channels
              rw [List.length_map, List.length_map] at size
              dsimp only
              rw [size]
              exact explained.numbered
  · cases taken

theorem explained_start : JoinHistory.Explained JoinHistory.start := by
  refine ⟨fun front claim back channel remaining placed _ => ?_, fun invitation state => ?_,
    fun join state => ?_, fun channel => ?_, fun channel decision got => ?_, List.nodup_nil,
    fun channel listed => ?_⟩
  · simp [JoinHistory.start] at placed
  · cases state
  · cases state
  · simp [JoinHistory.start, JoinCoordinator.start, JoinCoordinator.received]
  · simp [JoinHistory.start, JoinCoordinator.start, JoinCoordinator.received] at got
  · cases listed

theorem explained_run [AddrJson] {labels : List TimedCall} {history : JoinHistory}
    (reached : run JoinHistory.step JoinHistory.start labels = some history) :
    JoinHistory.Explained history := by
  have keeps : Preserves JoinHistory.step (fun _ _ => True) JoinHistory.Explained :=
    fun _ _ _ explained _ taken => explained.step taken
  exact keeps.run explained_start (Along.of_forall fun _ _ _ => trivial) reached

/-- An invitation or a request that is not over. -/
def JoinState.unexpired (now : Nat) : JoinState → Prop
  | .idle => False
  | .active invitation => now < invitation.deadline
  | .pending join => now < join.deadline

theorem expire_unexpired {now : Nat} {state : JoinState} (unexpired : state.unexpired now) :
    expireLocked now state = state := by
  cases state with
  | idle => exact absurd unexpired id
  | active invitation => exact if_neg (not_le.mpr unexpired)
  | pending join => exact if_neg (not_le.mpr unexpired)

namespace JoinCoordinator

variable [AddrJson] {coordinator next : JoinCoordinator} {now later : Nat}

/-- A failed claim leaves what is not over as it was. -/
theorem claim_failed (unexpired : coordinator.state.unexpired now) {nonce : Bytes32}
    {remoteEndpoint : EndpointId} {deviceName endpointAddrJson requestId : String}
    {reason : JoinError}
    (failed : coordinator.claim nonce remoteEndpoint deviceName endpointAddrJson requestId now
      later = (next, .error reason)) : next = coordinator := by
  unfold claim at failed
  split at failed
  · cases failed
    rfl
  split at failed
  · cases failed
    rfl
  rw [expire_unexpired unexpired] at failed
  split at failed
  · rename_i invitation state
    split at failed
    · cases failed
      rw [← state]
    split at failed
    · cases failed
      rw [← state]
    · cases failed
  · cases failed
    rfl

theorem activate_free {nonce : Bytes32} {lifetime : Nat}
    (activated : coordinator.activate nonce lifetime now later = (next, .ok ())) :
    ¬ coordinator.state.unexpired now := by
  intro unexpired
  have performed : coordinator.perform (.activate nonce lifetime) now later =
      (next, .activated) := by
    rw [perform, activated]
  cases perform_step performed with
  | activated nonce lifetime called replied free outcome =>
      rw [expire_unexpired unexpired] at free
      rw [free] at unexpired
      exact unexpired
  | claimed nonce remoteEndpoint deviceName endpointAddrJson requestId invitation called replied =>
      cases replied
  | decided decision join decisions called replied => cases replied
  | quiet quiet => cases quiet

end JoinCoordinator

/-- Between two successful claims there is a successful activation. -/
theorem JoinHistory.Explained.activated_between {history : JoinHistory}
    (explained : JoinHistory.Explained history)
    {front rest back : List JoinEvent} {first second : JoinEvent}
    {channel remaining channel' remaining' : Nat}
    (placed : history.events = front ++ first :: rest ++ second :: back)
    (claimed : first.reply = .claimed channel remaining)
    (claimed' : second.reply = .claimed channel' remaining') :
    ∃ again ∈ rest, again.reply = .activated := by
  obtain ⟨nonce, requestId, deadline, -, before, activation, between, whole, activated, silent⟩ :=
    explained.claims _ second back channel' remaining' placed claimed'
  have differs : activation ≠ first := by
    rintro rfl
    rw [activated.reply] at claimed
    cases claimed
  rcases List.append_eq_append_iff.mp whole with ⟨skipped, -, tail⟩ | ⟨skipped, -, tail⟩
  · cases skipped with
    | nil => exact absurd (List.cons.inj tail).1.symm differs
    | cons head skipped =>
        refine ⟨activation, ?_, activated.reply⟩
        rw [(List.cons.inj tail).2]
        exact List.mem_append_right _ List.mem_cons_self
  · cases skipped with
    | nil => exact absurd (List.cons.inj tail).1 differs
    | cons head skipped =>
        have listed : first ∈ between := by
          rw [(List.cons.inj tail).2]
          exact List.mem_append_right _ List.mem_cons_self
        have quiet := silent first listed
        rw [claimed] at quiet
        cases quiet

/-- In every run of calls, a successful claim has its own activation, whose nonce it presented
and whose deadline it met, and at most one decision, made for it before that deadline. -/
theorem invitation_admits_once [AddrJson] {labels : List TimedCall} {history : JoinHistory}
    (reached : run JoinHistory.step JoinHistory.start labels = some history) :
    (∀ front claim back channel remaining, history.events = front ++ claim :: back →
      claim.reply = .claimed channel remaining →
      ∃ nonce requestId deadline, Claimed claim nonce requestId channel deadline ∧
        Invited front nonce deadline) ∧
    (∀ front first rest second back channel remaining channel' remaining',
      history.events = front ++ first :: rest ++ second :: back →
      first.reply = .claimed channel remaining → second.reply = .claimed channel' remaining' →
      ∃ again ∈ rest, again.reply = .activated) ∧
    (claimedChannels history.events).Nodup ∧
    (∀ channel, (history.coordinator.received channel).length ≤ 1 ∧
      ∀ decision ∈ history.coordinator.received channel,
        Delivered history.events channel decision) ∧
    (∀ next nonce remoteEndpoint deviceName endpointAddrJson requestId now later reason,
      history.coordinator.state.unexpired now →
      history.coordinator.claim nonce remoteEndpoint deviceName endpointAddrJson requestId now
        later = (next, .error reason) →
      next = history.coordinator) ∧
    ∀ next nonce lifetime now later,
      history.coordinator.activate nonce lifetime now later = (next, .ok ()) →
      ¬ history.coordinator.state.unexpired now := by
  have explained := explained_run reached
  refine ⟨explained.claims, ?_, explained.apart,
    fun channel => ⟨explained.single channel, explained.delivered channel⟩, ?_, ?_⟩
  · intro front first rest second back channel remaining channel' remaining' placed claimed claimed'
    exact explained.activated_between placed claimed claimed'
  · intro next nonce remoteEndpoint deviceName endpointAddrJson requestId now later reason
      unexpired failed
    exact JoinCoordinator.claim_failed unexpired failed
  · intro next nonce lifetime now later activated
    exact JoinCoordinator.activate_free activated

section
attribute [local instance] AddrJson.bare

/-- A device is invited, asks to join and is rejected; then nobody is invited. -/
def refusedJoin : List TimedCall :=
  [⟨.activate (.fill 7) (60 * 10 ^ 9), 5, 6⟩,
    ⟨.claim (.fill 7) (.fill 2) "laptop" (bareAddr (.fill 2)) "r", 8, 9⟩,
    ⟨.decide "r" .rejected, 20, 20⟩, ⟨.pending, 21, 21⟩]

theorem refused_join_once :
    ∃ history, run JoinHistory.step JoinHistory.start refusedJoin = some history ∧
      history.coordinator.received 0 = [.rejected] ∧ Delivered history.events 0 .rejected := by
  have replies : (run JoinHistory.step JoinHistory.start refusedJoin).map
      (fun history => history.coordinator.received 0) = some [.rejected] := by decide +kernel
  obtain ⟨history, reached, got⟩ := Option.map_eq_some_iff.mp replies
  obtain ⟨-, -, -, decisions, -⟩ := invitation_admits_once reached
  refine ⟨history, reached, got, (decisions 0).2 .rejected ?_⟩
  rw [got]
  exact List.mem_cons_self

end

end Skillsync
