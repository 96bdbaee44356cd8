import Skillsync.JoinHandshake
import Skillsync.RosterRetention

set_option autoImplicit false

namespace Skillsync

open Fallible Framing Runs

namespace JoinStream

/-- The reader may take the end of the stream for the end of what was to be written. -/
def Ended (stream : JoinStream) : Prop := stream.ending = .finished ∨ stream.ending = .dropped

variable {Message : Type} {fromSlice : List UInt8 → Option Message} {limit : Nat}
  {stream rest : JoinStream} {message : Message}

@[simp] theorem unread_close (stream : JoinStream) (ending : StreamEnd) :
    (stream.close ending).unread = stream.unread := by
  unfold close
  split <;> rfl

@[simp] theorem unread_write (stream : JoinStream) (bytes : List UInt8) :
    (stream.write bytes).unread = stream.unread ++ bytes := rfl

theorem ended_reset (running : ¬ stream.Ended) : ¬ (stream.close .reset).Ended := by
  unfold close
  split
  · simp [Ended]
  · exact running

theorem readMessage_ok (read : stream.readMessage fromSlice limit = some (.ok (message, rest))) :
    ∃ body, lengthHeader.find limit stream.unread = .whole body rest.unread ∧
      fromSlice body = some message ∧ rest.ending = stream.ending := by
  unfold readMessage at read
  split at read
  · cases read
  · cases read
  rename_i body left found
  split at read
  · cases read
  rename_i parsed
  cases read
  exact ⟨body, found, parsed, rfl⟩

/-- There is no message in nothing. -/
theorem readMessage_unread {outcome : Except JoinError (Message × JoinStream)}
    (read : stream.readMessage fromSlice limit = some outcome) : stream.unread ≠ [] := by
  intro empty
  unfold readMessage at read
  rw [empty, Header.find_nil] at read
  cases read

end JoinStream

theorem writeText_ok {text : Option (List UInt8)} {limit : Nat} {bytes : List UInt8}
    (written : writeText text limit = .ok bytes) :
    ∃ body, text = some body ∧ bytes = lengthHeader.frame body ∧ body.length ≤ limit ∧
      body.length < lengthHeader.bound := by
  unfold writeText at written
  split at written
  · cases written
  rename_i body
  split at written
  · cases written
  split at written
  · cases written
  rename_i fits told
  cases written
  have bound : lengthHeader.bound = 2 ^ 32 := rfl
  exact ⟨body, rfl, rfl, not_lt.mp fits, by omega⟩

/-- Of the parts of a message only the whole is read, and nothing is left of it. -/
theorem readMessage_part {Message : Type} {fromSlice : List UInt8 → Option Message}
    {stream rest : JoinStream} {message : Message} {text : Option (List UInt8)} {limit : Nat}
    {bytes : List UInt8} (written : writeText text limit = .ok bytes)
    (part : stream.unread <+: bytes)
    (read : stream.readMessage fromSlice limit = some (.ok (message, rest))) :
    ∃ body, text = some body ∧ fromSlice body = some message ∧ stream.unread = bytes ∧
      rest.unread = [] ∧ rest.ending = stream.ending := by
  obtain ⟨body, same, rfl, fits, told⟩ := writeText_ok written
  obtain ⟨found, whole, parsed, kept⟩ := JoinStream.readMessage_ok read
  have complete : stream.unread = lengthHeader.frame body := by
    by_contra short
    have less : stream.unread.length < (lengthHeader.frame body).length := by
      have bound := part.length_le
      have other : stream.unread.length ≠ (lengthHeader.frame body).length :=
        fun equal => short (part.eq_of_length equal)
      omega
    rw [lengthHeader.find_part told fits part less] at whole
    cases whole
  have exact' := lengthHeader.find_frame told fits []
  rw [List.append_nil, ← complete, whole, Found.whole.injEq] at exact'
  obtain ⟨rfl, nothing⟩ := exact'
  exact ⟨found, same, parsed, complete, nothing, kept⟩

namespace Attempt

/-- The inviter's end has nothing more to do. -/
def Concluded (attempt : Attempt) : Prop :=
  attempt.inviter = .returned (.ok attempt.endpoint) ∨ attempt.inviter = .aborted

/-- What holds of the joiner's end, where it is. -/
inductive JoinerSound (attempt : Attempt) (inviter : EndpointId) : Prop
  | connected (phase : attempt.joiner = .connected) (unasked : attempt.up.unread = [])
      (nothing : attempt.installed = none)
  | waiting (phase : attempt.joiner = .waiting ∨ attempt.joiner = .refused)
      (nothing : attempt.installed = none)
  | joined (phase : attempt.joiner = .confirming ∨ attempt.joiner = .closing)
      (installed : attempt.installed ≠ none)
  | succeeded (phase : attempt.joiner = .returned (.ok inviter))
      (installed : attempt.installed ≠ none) (concluded : attempt.Concluded)
  | failed (reason : JoinError) (phase : attempt.joiner = .returned (.error reason))

section
variable [JoinEncodings]

/-- The bytes of the response to a decision. -/
def Spelled (decision : JoinDecision) (bytes : List UInt8) : Prop :=
  writeText (JoinEncodings.toVec decision.response) joinResponseLimit = .ok bytes

theorem Spelled.length_pos {decision : JoinDecision} {bytes : List UInt8}
    (spelled : Spelled decision bytes) : 0 < bytes.length := by
  obtain ⟨body, -, rfl, -, -⟩ := writeText_ok spelled
  rw [Header.length_frame]
  exact Nat.add_pos_left lengthHeader.width_pos _

/-- No approval can be read from the response. -/
def Withheld (attempt : Attempt) : Prop :=
  ∀ decision bytes, attempt.decision = some decision → decision.response.approved = true →
    Spelled decision bytes → attempt.down.unread.length < bytes.length

variable [JoinerMessages]

/-- A part of the request is there to be read. -/
def Asking (attempt : Attempt) : Prop :=
  attempt.up.unread = [] ∨
    ∃ bytes, writeText (JoinerMessages.requestToVec attempt.request) joinRequestLimit = .ok bytes ∧
      attempt.up.unread <+: bytes

/-- What holds of the inviter's end, where it is. -/
inductive InviterSound (attempt : Attempt) : Prop
  | accepting (phase : attempt.inviter = .accepting) (undecided : attempt.decision = none)
      (asking : attempt.Asking) (running : ¬ attempt.down.Ended)
  | deciding (channel : Nat) (requestId : String)
      (phase : attempt.inviter = .deciding channel requestId)
      (claimed : attempt.channel = some channel) (undecided : attempt.decision = none)
      (asked : attempt.joiner ≠ .connected) (read : attempt.up.unread = [])
      (running : ¬ attempt.down.Ended)
  | answering (decision : JoinDecision) (phase : attempt.inviter = .answering decision)
      (decided : attempt.decision = some decision) (unanswered : attempt.down.unread = [])
      (nothing : attempt.installed = none) (asked : attempt.joiner ≠ .connected)
      (read : attempt.up.unread = []) (running : ¬ attempt.down.Ended)
  | confirming (phase : attempt.inviter = .confirming) (asked : attempt.joiner ≠ .connected)
      (read : attempt.installed = none → attempt.up.unread = [])
      (running : ¬ attempt.down.Ended)
  | closing (phase : attempt.inviter = .closing) (installed : attempt.installed ≠ none)
      (running : ¬ attempt.down.Ended)
  | succeeded (phase : attempt.inviter = .returned (.ok attempt.endpoint))
      (installed : attempt.installed ≠ none)
  | failed (reason : JoinError) (phase : attempt.inviter = .returned (.error reason))
      (useless : attempt.down.Ended → attempt.installed = none ∧ attempt.Withheld)
  | aborted (phase : attempt.inviter = .aborted)

variable [Blake3] [Ed25519]

/-- The roster is the one in the approval, and its last revision lists both devices. -/
structure Granted (attempt : Attempt) (inviter : EndpointId) (roster : List RosterRevision) :
    Prop where
  approved : ∃ text peerHints, attempt.decision = some (.approved text peerHints) ∧
    decodeRoster text = .ok roster
  listed : ∃ tip, roster.getLast? = some tip ∧
    Lists tip attempt.endpoint attempt.request.deviceName ∧ (tip.members[inviter]?).isSome

/-- What is written to the joiner. -/
structure Spoken (attempt : Attempt) (inviter : EndpointId) : Prop where
  silent : attempt.decision = none → attempt.down.unread = [] ∧ attempt.installed = none
  response : ∀ decision, attempt.decision = some decision → attempt.down.unread = [] ∨
    ∃ bytes, Spelled decision bytes ∧ attempt.down.unread <+: bytes
  granted : ∀ roster, attempt.installed = some roster → attempt.Granted inviter roster

structure Sound (attempt : Attempt) (inviter : EndpointId) : Prop where
  joinerEnd : attempt.JoinerSound inviter
  inviterEnd : attempt.InviterSound
  spoken : attempt.Spoken inviter

end

section
variable [JoinEncodings] [Blake3] [Ed25519] {attempt next : Attempt} {inviter : EndpointId}

/-- What was written to the joiner does not depend on the ends. -/
theorem Spoken.congr (spoken : attempt.Spoken inviter) (endpoint : next.endpoint = attempt.endpoint)
    (request : next.request = attempt.request) (decision : next.decision = attempt.decision)
    (unread : next.down.unread = attempt.down.unread)
    (installed : next.installed = attempt.installed) : next.Spoken inviter where
  silent := by
    rw [decision, unread, installed]
    exact spoken.silent
  response := by
    rw [decision, unread]
    exact spoken.response
  granted := by
    intro roster there
    obtain ⟨approved, listed⟩ := spoken.granted roster (installed ▸ there)
    exact ⟨decision ▸ approved, by rw [endpoint, request]; exact listed⟩

variable [JoinerMessages]

theorem start_sound (endpoint : EndpointId) (request : JoinRequest) :
    (start endpoint request).Sound inviter where
  joinerEnd := .connected rfl rfl rfl
  inviterEnd := .accepting rfl rfl (Or.inl rfl)
    (by simp [start, JoinStream.fresh, JoinStream.Ended])
  spoken := ⟨fun _ => ⟨rfl, rfl⟩, fun _ impossible => (by cases impossible),
    fun _ impossible => (by cases impossible)⟩

theorem Sound.unasked (sound : attempt.Sound inviter) (phase : attempt.joiner = .connected) :
    attempt.up.unread = [] ∧ attempt.installed = none := by
  cases sound.joinerEnd with
  | connected _ unasked nothing => exact ⟨unasked, nothing⟩
  | waiting other _ => simp [phase] at other
  | joined other _ => simp [phase] at other
  | succeeded other _ _ => simp [phase] at other
  | failed _ other => simp [phase] at other

theorem Sound.unjoined (sound : attempt.Sound inviter)
    (phase : attempt.joiner = .waiting ∨ attempt.joiner = .refused) : attempt.installed = none := by
  cases sound.joinerEnd with
  | connected other _ _ => simp [other] at phase
  | waiting _ nothing => exact nothing
  | joined other _ => rcases other with other | other <;> simp [other] at phase
  | succeeded other _ _ => simp [other] at phase
  | failed _ other => simp [other] at phase

theorem Sound.joined (sound : attempt.Sound inviter)
    (phase : attempt.joiner = .confirming ∨ attempt.joiner = .closing) :
    attempt.installed ≠ none := by
  cases sound.joinerEnd with
  | connected other _ _ => simp [other] at phase
  | waiting other _ => rcases other with other | other <;> simp [other] at phase
  | joined _ installed => exact installed
  | succeeded other _ _ => simp [other] at phase
  | failed _ other => simp [other] at phase

omit [Blake3] [Ed25519] in
/-- A failure of the joiner takes nothing from the inviter's end. -/
theorem joinerFails_inviter (reason : JoinError) (sound : attempt.InviterSound) :
    (attempt.joinerFails reason).InviterSound := by
  have up : (attempt.joinerFails reason).up.unread = attempt.up.unread :=
    JoinStream.unread_close _ _
  have gone : (attempt.joinerFails reason).joiner ≠ .connected := by simp [joinerFails]
  cases sound with
  | accepting phase undecided asking running =>
      refine .accepting phase undecided ?_ running
      unfold Asking
      rw [up]
      exact asking
  | deciding channel requestId phase claimed undecided asked read running =>
      exact .deciding channel requestId phase claimed undecided gone (up.trans read) running
  | answering decision phase decided unanswered nothing asked read running =>
      exact .answering decision phase decided unanswered nothing gone (up.trans read) running
  | confirming phase asked read running =>
      exact .confirming phase gone (fun nothing => up.trans (read nothing)) running
  | closing phase installed running => exact .closing phase installed running
  | succeeded phase installed => exact .succeeded phase installed
  | failed reason phase useless => exact .failed reason phase useless
  | aborted phase => exact .aborted phase

theorem joinerFails_sound (reason : JoinError) (sound : attempt.InviterSound)
    (spoken : attempt.Spoken inviter) : (attempt.joinerFails reason).Sound inviter :=
  ⟨.failed reason rfl, joinerFails_inviter reason sound, spoken.congr rfl rfl rfl rfl rfl⟩

/-- The inviter's end waits for the request, as long as a part of it can be written. -/
theorem ask_inviter {part bytes : List UInt8} (sound : attempt.Sound inviter)
    (connected : attempt.joiner = .connected)
    (written : writeText (JoinerMessages.requestToVec attempt.request) joinRequestLimit = .ok bytes)
    (front : part <+: bytes) (phase : JoinerPhase) :
    InviterSound { attempt with joiner := phase, up := attempt.up.write part } := by
  obtain ⟨unasked, nothing⟩ := sound.unasked connected
  cases sound.inviterEnd with
  | accepting there undecided asking running =>
      refine .accepting there undecided (Or.inr ⟨bytes, written, ?_⟩) running
      rw [JoinStream.unread_write, unasked]
      exact front
  | deciding _ _ _ _ _ asked _ _ => exact absurd connected asked
  | answering _ _ _ _ _ asked _ _ => exact absurd connected asked
  | confirming _ asked _ _ => exact absurd connected asked
  | closing _ installed _ => exact absurd nothing installed
  | succeeded _ installed => exact absurd nothing installed
  | failed reason there useless => exact .failed reason there useless
  | aborted there => exact .aborted there

theorem ask_sound {cut : Option Nat} (sound : attempt.Sound inviter)
    (taken : attempt.ask cut = some next) : next.Sound inviter := by
  unfold ask at taken
  split at taken
  · cases taken
  rename_i connected
  rw [not_not] at connected
  split at taken
  · cases taken
    exact joinerFails_sound _ sound.inviterEnd sound.spoken
  · rename_i bytes written
    cases taken
    exact ⟨.waiting (Or.inl rfl) (sound.unasked connected).2,
      ask_inviter sound connected written List.prefix_rfl _, sound.spoken.congr rfl rfl rfl rfl rfl⟩
  · rename_i bytes count written
    split at taken
    · cases taken
      have waits := ask_inviter sound connected written (List.take_prefix count bytes)
        attempt.joiner
      exact joinerFails_sound _ waits (sound.spoken.congr rfl rfl rfl rfl rfl)
    · cases taken

/-- The acknowledgement, or a part of it, changes nothing for the inviter's end before it
is read. -/
theorem confirm_inviter {up : JoinStream} {phase : JoinerPhase} (sound : attempt.Sound inviter)
    (installed : attempt.installed ≠ none) (moved : phase ≠ .connected) :
    InviterSound { attempt with joiner := phase, up := up } := by
  have spoke : attempt.decision ≠ none :=
    fun undecided => installed (sound.spoken.silent undecided).2
  cases sound.inviterEnd with
  | accepting _ undecided _ _ => exact absurd undecided spoke
  | deciding _ _ _ _ undecided _ _ _ => exact absurd undecided spoke
  | answering _ _ _ _ nothing _ _ _ => exact absurd nothing installed
  | confirming there _ _ running =>
      exact .confirming there moved (fun nothing => absurd nothing installed) running
  | closing there _ running => exact .closing there installed running
  | succeeded there _ => exact .succeeded there installed
  | failed reason there useless => exact .failed reason there useless
  | aborted there => exact .aborted there

theorem confirm_sound {cut : Option Nat} (sound : attempt.Sound inviter)
    (taken : attempt.confirm cut = some next) : next.Sound inviter := by
  unfold confirm at taken
  split at taken
  · cases taken
  rename_i confirming
  rw [not_not] at confirming
  have installed := sound.joined (Or.inl confirming)
  split at taken
  · cases taken
    exact joinerFails_sound _ sound.inviterEnd sound.spoken
  · rename_i bytes written
    cases taken
    exact ⟨.joined (Or.inr rfl) installed, confirm_inviter sound installed (by simp),
      sound.spoken.congr rfl rfl rfl rfl rfl⟩
  · rename_i bytes count written
    split at taken
    · cases taken
      have waits : InviterSound { attempt with up := attempt.up.write (bytes.take count) } :=
        confirm_inviter sound installed (by simp [confirming])
      exact joinerFails_sound _ waits (sound.spoken.congr rfl rfl rfl rfl rfl)
    · cases taken

omit [JoinerMessages] in
/-- What the joiner read is gone from the response. -/
theorem Spoken.read {down : JoinStream} (spoken : attempt.Spoken inviter)
    (left : down.unread = []) : Spoken { attempt with down := down } inviter where
  silent := fun undecided => ⟨left, (spoken.silent undecided).2⟩
  response := fun _ _ => Or.inl left
  granted := fun roster there =>
    ⟨(spoken.granted roster there).approved, (spoken.granted roster there).listed⟩

/-- The response that the joiner reads is the one to the decision, and it reads all of it. -/
theorem Sound.response (roundTrips : RoundTrips) (sound : attempt.Sound inviter)
    {response : JoinResponse} {down : JoinStream}
    (read : attempt.down.readMessage JoinEncodings.fromSlice joinResponseLimit =
      some (.ok (response, down))) :
    ∃ decision, attempt.decision = some decision ∧ response = decision.response ∧
      Spelled decision attempt.down.unread ∧ down.unread = [] ∧
      down.ending = attempt.down.ending := by
  have there := JoinStream.readMessage_unread read
  cases decided : attempt.decision with
  | none => exact absurd (sound.spoken.silent decided).1 there
  | some decision =>
      rcases sound.spoken.response decision decided with nothing | ⟨bytes, spelled, part⟩
      · exact absurd nothing there
      · obtain ⟨body, text, parsed, whole, left, kept⟩ := readMessage_part spelled part read
        have same := roundTrips.response decision.response body text
        rw [parsed, Option.some.injEq] at same
        exact ⟨decision, rfl, same, whole ▸ spelled, left, kept⟩

/-- The inviter's end, when the joiner has read the response. -/
theorem heard_inviter {down : JoinStream} {phase : JoinerPhase} (sound : attempt.Sound inviter)
    (spoke : attempt.decision ≠ none) (there : attempt.down.unread ≠ [])
    (left : down.unread = []) (kept : down.ending = attempt.down.ending)
    (moved : phase ≠ .connected) :
    InviterSound { attempt with joiner := phase, down := down } := by
  have same : down.Ended ↔ attempt.down.Ended := by
    unfold JoinStream.Ended
    rw [kept]
  cases sound.inviterEnd with
  | accepting _ undecided _ _ => exact absurd undecided spoke
  | deciding _ _ _ _ undecided _ _ _ => exact absurd undecided spoke
  | answering _ _ _ unanswered _ _ _ _ => exact absurd unanswered there
  | confirming at' _ read running =>
      exact .confirming at' moved read (fun ended => running (same.mp ended))
  | closing at' installed running =>
      exact .closing at' installed fun ended => running (same.mp ended)
  | succeeded at' installed => exact .succeeded at' installed
  | failed reason at' useless =>
      refine .failed reason at' fun ended => ⟨(useless (same.mp ended)).1, ?_⟩
      intro decision bytes decided approved spelled
      dsimp only
      rw [left]
      exact spelled.length_pos
  | aborted at' => exact .aborted at'

/-- The inviter's end, when the joiner has installed the roster of a whole approval. -/
theorem joined_inviter {down : JoinStream} {phase : JoinerPhase} {roster : List RosterRevision}
    {decision : JoinDecision} (sound : attempt.Sound inviter)
    (decided : attempt.decision = some decision) (approved : decision.response.approved = true)
    (spelled : Spelled decision attempt.down.unread) (left : down.unread = [])
    (kept : down.ending = attempt.down.ending) (moved : phase ≠ .connected) :
    InviterSound { attempt with joiner := phase, down := down, installed := some roster } := by
  have spoke : attempt.decision ≠ none := by simp [decided]
  have there : attempt.down.unread ≠ [] := List.ne_nil_of_length_pos spelled.length_pos
  cases heard_inviter sound spoke there left kept moved with
  | accepting _ undecided _ _ => exact absurd undecided spoke
  | deciding _ _ _ _ undecided _ _ _ => exact absurd undecided spoke
  | answering other at' _ _ _ _ _ _ =>
      cases sound.inviterEnd with
      | answering _ _ _ unanswered _ _ _ _ => exact absurd unanswered there
      | _ => simp_all
  | confirming at' _ _ running =>
      exact .confirming at' moved (fun impossible => by cases impossible) running
  | closing at' _ running => exact .closing at' (by simp) running
  | succeeded at' _ => exact .succeeded at' (by simp)
  | failed reason at' _ =>
      refine .failed reason at' fun ended => ?_
      cases sound.inviterEnd with
      | failed _ _ useless =>
          have running : attempt.down.Ended := by
            unfold JoinStream.Ended at *
            rw [← kept]
            exact ended
          exact absurd ((useless running).2 decision _ decided approved spelled) (lt_irrefl _)
      | _ => simp_all
  | aborted at' => exact .aborted at'

omit [JoinerMessages] in
theorem checkResponse_ok [AddrJson] {response : JoinResponse} {localEndpoint : EndpointId}
    {deviceName : String} {roster : List RosterRevision} {hints : List (EndpointId × String)}
    (checked : RosterStore.checkResponse response localEndpoint inviter deviceName =
      .ok (roster, hints)) :
    decodeRoster response.roster = .ok roster ∧ ∃ tip, roster.getLast? = some tip ∧
      Lists tip localEndpoint deviceName ∧ (tip.members[inviter]?).isSome := by
  unfold RosterStore.checkResponse at checked
  split at checked
  · cases checked
  obtain ⟨decoded, read, checked⟩ := Except.bind_ok checked
  split at checked
  · cases checked
  rename_i tip last
  split at checked
  · cases checked
  rename_i listed
  rw [not_or, not_not, Option.isNone_iff_eq_none, ← ne_eq, ← Option.isSome_iff_ne_none] at listed
  obtain ⟨validated, -, checked⟩ := Except.bind_ok checked
  split at checked
  · cases checked
  cases checked
  exact ⟨read, tip, last, listed.1, listed.2⟩

omit [JoinEncodings] [Blake3] [Ed25519] [JoinerMessages] in
theorem approved_of_response {decision : JoinDecision}
    (approved : decision.response.approved = true) :
    ∃ peerHints, decision = .approved decision.response.roster peerHints := by
  cases decision with
  | rejected => cases approved
  | approved roster peerHints => exact ⟨peerHints, rfl⟩

theorem hear_sound [AddrJson] (roundTrips : RoundTrips) {store left : RosterStore}
    (sound : attempt.Sound inviter) (taken : attempt.hear inviter store = some (next, left)) :
    next.Sound inviter := by
  unfold hear at taken
  split at taken
  · cases taken
  rename_i waiting
  rw [not_not] at waiting
  split at taken
  · cases taken
  · cases taken
    exact joinerFails_sound _ sound.inviterEnd sound.spoken
  rename_i response down read
  obtain ⟨decision, decided, rfl, spelled, empty, kept⟩ := sound.response roundTrips read
  have there := JoinStream.readMessage_unread read
  have spoke : attempt.decision ≠ none := by simp [decided]
  have spoken := sound.spoken.read empty
  have heard : InviterSound { attempt with down := down } :=
    heard_inviter sound spoke there empty kept (by simp [waiting])
  dsimp only at taken
  split at taken
  · cases taken
    exact ⟨.waiting (Or.inr rfl) (sound.unjoined (Or.inl waiting)),
      heard_inviter sound spoke there empty kept (by simp), spoken.congr rfl rfl rfl rfl rfl⟩
  rename_i approved
  rw [Bool.not_eq_false] at approved
  split at taken
  · cases taken
    exact joinerFails_sound _ heard spoken
  rename_i roster validatedHints checked
  split at taken
  · cases taken
    exact joinerFails_sound _ heard spoken
  · cases taken
    obtain ⟨decoded, listed⟩ := checkResponse_ok checked
    obtain ⟨peerHints, same⟩ := approved_of_response approved
    refine ⟨.joined (Or.inl rfl) (by simp),
      joined_inviter sound decided approved spelled empty kept (by simp),
      fun undecided => absurd undecided spoke, fun _ _ => Or.inl empty, fun other there => ?_⟩
    cases there
    exact ⟨⟨decision.response.roster, peerHints, decided.trans (congrArg some same),
      decoded⟩, listed⟩

theorem conclude_sound (sound : attempt.Sound inviter)
    (taken : attempt.conclude inviter = some next) : next.Sound inviter := by
  unfold conclude at taken
  split at taken
  · cases taken
    exact joinerFails_sound _ sound.inviterEnd sound.spoken
  · cases taken
    exact joinerFails_sound _ sound.inviterEnd sound.spoken
  · rename_i closing read
    cases taken
    have installed := sound.joined (Or.inr closing)
    have ended : attempt.down.Ended := by
      unfold JoinStream.expectStreamEnd at read
      split at read
      · cases read
      unfold JoinStream.Ended
      split at read
      · cases read
      · cases read
      · rename_i finished
        exact Or.inl finished
      · rename_i dropped
        exact Or.inr dropped
    have concluded : attempt.Concluded := by
      cases sound.inviterEnd with
      | accepting _ undecided _ _ => exact absurd (sound.spoken.silent undecided).2 installed
      | deciding _ _ _ _ undecided _ _ _ => exact absurd (sound.spoken.silent undecided).2 installed
      | answering _ _ _ _ nothing _ _ _ => exact absurd nothing installed
      | confirming _ _ _ running => exact absurd ended running
      | closing _ _ running => exact absurd ended running
      | succeeded phase _ => exact Or.inl phase
      | failed _ _ useless => exact absurd (useless ended).1 installed
      | aborted phase => exact Or.inr phase
    refine ⟨.succeeded rfl installed concluded, ?_, sound.spoken.congr rfl rfl rfl rfl rfl⟩
    rcases concluded with phase | phase
    · exact .succeeded phase installed
    · exact .aborted phase
  · cases taken
    exact joinerFails_sound _ sound.inviterEnd sound.spoken
  · cases taken

theorem joinerLost_sound (sound : attempt.Sound inviter) (taken : attempt.joinerLost = some next) :
    next.Sound inviter := by
  unfold joinerLost at taken
  split at taken
  · cases taken
  · cases taken
    exact joinerFails_sound _ sound.inviterEnd sound.spoken

theorem Sound.confirmed (sound : attempt.Sound inviter) (phase : attempt.inviter = .confirming) :
    attempt.joiner ≠ .connected ∧ (attempt.installed = none → attempt.up.unread = []) ∧
      ¬ attempt.down.Ended := by
  cases sound.inviterEnd with
  | confirming _ asked read running => exact ⟨asked, read, running⟩
  | _ => simp_all

theorem Sound.closed (sound : attempt.Sound inviter) (phase : attempt.inviter = .closing) :
    attempt.installed ≠ none ∧ ¬ attempt.down.Ended := by
  cases sound.inviterEnd with
  | closing _ installed running => exact ⟨installed, running⟩
  | _ => simp_all

/-- The joiner's end does not see what the inviter's end does before it has concluded. -/
theorem inviterMoves {up down : JoinStream} {phase : InviterPhase} {channel : Option Nat}
    {decision : Option JoinDecision} (sound : attempt.Sound inviter)
    (unfinished : ¬ attempt.Concluded) (unread : attempt.joiner = .connected → up.unread = []) :
    JoinerSound { attempt with
      inviter := phase, up := up, down := down, channel := channel, decision := decision }
        inviter := by
  cases sound.joinerEnd with
  | connected at' _ nothing => exact .connected at' (unread at') nothing
  | waiting at' nothing => exact .waiting at' nothing
  | joined at' installed => exact .joined at' installed
  | succeeded _ _ concluded => exact absurd concluded unfinished
  | failed reason at' => exact .failed reason at'

theorem inviterFails_sound (reason : JoinError) {ending : StreamEnd}
    (joinerEnd : attempt.JoinerSound inviter) (spoken : attempt.Spoken inviter)
    (unfinished : ¬ attempt.Concluded)
    (useless : (attempt.down.close ending).Ended → attempt.installed = none ∧ attempt.Withheld) :
    (attempt.inviterFails reason ending).Sound inviter := by
  have unread : (attempt.inviterFails reason ending).down.unread = attempt.down.unread :=
    JoinStream.unread_close _ _
  refine ⟨?_, .failed reason rfl fun ended => ?_, spoken.congr rfl rfl rfl unread rfl⟩
  · cases joinerEnd with
    | connected at' unasked nothing => exact .connected at' unasked nothing
    | waiting at' nothing => exact .waiting at' nothing
    | joined at' installed => exact .joined at' installed
    | succeeded _ _ concluded => exact absurd concluded unfinished
    | failed reason at' => exact .failed reason at'
  · obtain ⟨nothing, withheld⟩ := useless ended
    refine ⟨nothing, fun decision bytes decided approved spelled => ?_⟩
    rw [unread]
    exact withheld decision bytes decided approved spelled

/-- What holds while the response is to be written. -/
theorem Sound.answers {decision : JoinDecision} (sound : attempt.Sound inviter)
    (phase : attempt.inviter = .answering decision) :
    attempt.decision = some decision ∧ attempt.down.unread = [] ∧ attempt.installed = none ∧
      attempt.joiner ≠ .connected ∧ attempt.up.unread = [] ∧ ¬ attempt.down.Ended := by
  cases sound.inviterEnd with
  | answering other at' decided unanswered nothing asked read running =>
      rw [phase] at at'
      cases at'
      exact ⟨decided, unanswered, nothing, asked, read, running⟩
  | _ => simp_all

omit [JoinerMessages] in
/-- A part of the response is written. -/
theorem Spoken.write {decision : JoinDecision} {part bytes : List UInt8}
    (decided : attempt.decision = some decision) (unanswered : attempt.down.unread = [])
    (nothing : attempt.installed = none) (spelled : Spelled decision bytes)
    (front : part <+: bytes) :
    Spoken { attempt with down := attempt.down.write part } inviter where
  silent := fun undecided => by simp [decided] at undecided
  response := fun other same => by
    dsimp only at same
    rw [decided] at same
    cases same
    rw [JoinStream.unread_write, unanswered, List.nil_append]
    exact Or.inr ⟨bytes, spelled, front⟩
  granted := fun _ there => by simp [nothing] at there

theorem answer_sound {cut : Option Nat} (sound : attempt.Sound inviter)
    (taken : attempt.answer cut = some next) : next.Sound inviter := by
  unfold answer at taken
  split at taken
  · rename_i decision answering
    have unfinished : ¬ attempt.Concluded := by simp [Concluded, answering]
    obtain ⟨decided, unanswered, nothing, asked, read, running⟩ := sound.answers answering
    have joinerEnd (part : List UInt8) :
        JoinerSound { attempt with down := attempt.down.write part } inviter :=
      inviterMoves sound unfinished fun _ => read
    split at taken
    · cases taken
      refine inviterFails_sound _ sound.joinerEnd sound.spoken unfinished fun _ => ⟨nothing, ?_⟩
      intro other bytes _ _ spelled
      rw [unanswered]
      exact spelled.length_pos
    · rename_i bytes written
      have spoken : Spoken { attempt with down := attempt.down.write bytes } inviter :=
        .write decided unanswered nothing written List.prefix_rfl
      dsimp only at taken
      split at taken
      · rename_i rejected
        cases taken
        refine inviterFails_sound _ (joinerEnd bytes) spoken unfinished fun _ => ⟨nothing, ?_⟩
        intro other _ same approved _
        dsimp only at same
        rw [decided] at same
        cases same
        rw [rejected] at approved
        cases approved
      · cases taken
        exact ⟨inviterMoves sound unfinished fun _ => read,
          .confirming rfl asked (fun _ => read) running, spoken.congr rfl rfl rfl rfl rfl⟩
    · rename_i bytes count written
      split at taken
      · rename_i short
        cases taken
        refine inviterFails_sound _ (joinerEnd _)
          (.write decided unanswered nothing written (List.take_prefix count bytes)) unfinished
          fun _ => ⟨nothing, ?_⟩
        intro other whole same _ spelled
        dsimp only at same
        rw [decided] at same
        cases same
        have equal : whole = bytes := Except.ok.inj (spelled.symm.trans written)
        rw [JoinStream.unread_write, unanswered, List.nil_append, List.length_take, equal]
        omega
      · cases taken
  · cases taken

theorem acknowledge_sound (sound : attempt.Sound inviter)
    (taken : attempt.acknowledge = some next) : next.Sound inviter := by
  unfold acknowledge at taken
  split at taken
  · cases taken
  rename_i confirming
  rw [not_not] at confirming
  obtain ⟨asked, unread, running⟩ := sound.confirmed confirming
  have unfinished : ¬ attempt.Concluded := by simp [Concluded, confirming]
  have reset := JoinStream.ended_reset running
  split at taken
  · cases taken
  · cases taken
    exact inviterFails_sound _ sound.joinerEnd sound.spoken unfinished fun ended =>
      absurd ended reset
  · rename_i ack up read
    have installed : attempt.installed ≠ none :=
      fun nothing => JoinStream.readMessage_unread read (unread nothing)
    dsimp only at taken
    split at taken
    · cases taken
      have joinerEnd : JoinerSound { attempt with up := up } inviter :=
        inviterMoves sound unfinished fun connected => absurd connected asked
      exact inviterFails_sound _ joinerEnd (sound.spoken.congr rfl rfl rfl rfl rfl) unfinished
        fun ended => absurd ended reset
    · cases taken
      exact ⟨inviterMoves sound unfinished fun connected => absurd connected asked,
        .closing rfl installed running, sound.spoken.congr rfl rfl rfl rfl rfl⟩

theorem finish_sound (sound : attempt.Sound inviter) (taken : attempt.finish = some next) :
    next.Sound inviter := by
  unfold finish at taken
  split at taken
  · cases taken
  rename_i closing
  rw [not_not] at closing
  obtain ⟨installed, running⟩ := sound.closed closing
  have unfinished : ¬ attempt.Concluded := by simp [Concluded, closing]
  split at taken
  · cases taken
  · cases taken
    exact inviterFails_sound _ sound.joinerEnd sound.spoken unfinished
      fun ended => absurd ended (JoinStream.ended_reset running)
  · cases taken
    exact ⟨inviterMoves sound unfinished fun connected => (sound.unasked connected).1,
      .succeeded rfl installed,
      sound.spoken.congr rfl rfl rfl (JoinStream.unread_close _ _) rfl⟩

theorem inviterLost_sound (sound : attempt.Sound inviter)
    (taken : attempt.inviterLost = some next) : next.Sound inviter := by
  unfold inviterLost at taken
  split at taken
  · rename_i accepting
    cases taken
    have undecided : attempt.decision = none := by
      cases sound.inviterEnd with
      | accepting _ undecided _ _ => exact undecided
      | _ => simp_all
    refine inviterFails_sound _ sound.joinerEnd sound.spoken (by simp [Concluded, accepting])
      fun _ => ⟨(sound.spoken.silent undecided).2, ?_⟩
    intro decision _ decided
    simp [undecided] at decided
  · rename_i confirming
    cases taken
    exact inviterFails_sound _ sound.joinerEnd sound.spoken (by simp [Concluded, confirming])
      fun ended => absurd ended (JoinStream.ended_reset (sound.confirmed confirming).2.2)
  · rename_i closing
    cases taken
    exact inviterFails_sound _ sound.joinerEnd sound.spoken (by simp [Concluded, closing])
      fun ended => absurd ended (JoinStream.ended_reset (sound.closed closing).2)
  · cases taken

theorem abort_sound (sound : attempt.Sound inviter) (taken : attempt.abort = some next) :
    next.Sound inviter := by
  unfold abort at taken
  split at taken
  · cases taken
  · cases taken
  · rename_i unreturned unaborted
    cases taken
    have unfinished : ¬ attempt.Concluded := by
      rintro (returned | aborted)
      · exact unreturned _ returned
      · exact unaborted aborted
    exact ⟨inviterMoves sound unfinished fun connected => (sound.unasked connected).1,
      .aborted rfl, sound.spoken.congr rfl rfl rfl (JoinStream.unread_close _ _) rfl⟩

end

end Attempt

end Skillsync
