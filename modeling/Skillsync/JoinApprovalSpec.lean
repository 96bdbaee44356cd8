import Skillsync.Base64
import Skillsync.JoinApproval

set_option autoImplicit false

namespace Skillsync

open Fallible

/-- A chain of valid children below a genesis. -/
theorem validateRosterChain_of_linked [Blake3] [Ed25519] {genesis : RosterRevision}
    {rest : List RosterRevision} (valid : genesis.validateGenesis = .ok ())
    (linked : Linked (genesis :: rest)) : validateRosterChain (genesis :: rest) = .ok () := by
  unfold validateRosterChain
  dsimp only
  rw [valid, RosterTree.validateLinks_ok.mpr linked]
  rfl

section
variable [JoinEncodings]

theorem encodeRoster_ok {revisions : List RosterRevision} {encoded : String}
    (success : encodeRoster revisions = .ok encoded) :
    ∃ canonical, RosterBundle.encode ⟨revisions⟩ = .ok canonical ∧
      encoded = JoinEncodings.base64Encode canonical := by
  obtain ⟨canonical, spelled, success⟩ := Except.bind_ok success
  cases success
  exact ⟨canonical, Except.mapError_ok spelled, rfl⟩

/-- The joiner reads the roster that the inviter encoded. -/
theorem decodeRoster_encoded [Blake3] [Ed25519] (roundTrips : RoundTrips)
    {revisions : List RosterRevision} {encoded : String}
    (success : encodeRoster revisions = .ok encoded)
    (valid : validateRosterChain revisions = .ok ()) : decodeRoster encoded = .ok revisions := by
  obtain ⟨canonical, spelled, rfl⟩ := encodeRoster_ok success
  obtain ⟨allowed, written⟩ := RosterBundle.encode_iff.mp spelled
  have size : canonical.length = RosterBundle.encodedLength revisions := by
    rw [written, RosterBundle.length_spelled]
  have short := allowed.short
  dsimp only at short
  have nonempty : JoinEncodings.base64Encode canonical ≠ "" := by
    intro empty
    have read := roundTrips.base64 canonical
    rw [empty, ← roundTrips.empty, roundTrips.base64, Option.some.injEq] at read
    rw [← read, RosterBundle.encodedLength, List.length_nil] at size
    omega
  have read := RosterBundle.decode_iff.mpr ⟨spelled, valid⟩
  unfold decodeRoster
  rw [if_neg nonempty, roundTrips.base64]
  dsimp only
  rw [if_neg (by omega), read]

/-- The response that was written is read back. -/
theorem readJson_written (roundTrips : RoundTrips) {response : JoinResponse}
    {stream : List UInt8} {limit : Nat} (written : writeJson response limit = .ok stream) :
    readJson stream limit = .ok response := by
  unfold writeJson at written
  split at written
  · cases written
  rename_i bytes spelled
  split at written
  · cases written
  rename_i fits
  split at written
  · cases written
  rename_i small
  cases written
  have front : (bigEndian 4 bytes.length ++ bytes).take 4 = bigEndian 4 bytes.length := by
    rw [List.take_left' (length_bigEndian 4 _)]
  have back : (bigEndian 4 bytes.length ++ bytes).drop 4 = bytes := by
    rw [List.drop_left' (length_bigEndian 4 _)]
  have number : fromBigEndian (bigEndian 4 bytes.length) = bytes.length := by
    rw [fromBigEndian_bigEndian, Nat.mod_eq_of_lt (by omega)]
  have long : ¬ (bigEndian 4 bytes.length ++ bytes).length < 4 := by
    rw [List.length_append, length_bigEndian]
    omega
  unfold readJson
  rw [if_neg long, front, back, number]
  dsimp only
  rw [if_neg fits, if_neg (lt_irrefl _), List.take_length,
    roundTrips.response response bytes spelled]

variable [AddrJson]

omit [JoinEncodings] in
theorem validateEndpointAddr_ok {encoded : String} {endpoint : EndpointId}
    (valid : validateEndpointAddr encoded endpoint = .ok ()) : AddressOf encoded endpoint := by
  unfold validateEndpointAddr at valid
  split at valid
  · cases valid
  · rename_i addr read
    exact readAddr_ok.mp ⟨addr, read⟩

/-- A hint that an approval and a joiner accept. -/
structure HintFor (tip : RosterRevision) (hint : String × String) (endpoint : EndpointId) :
    Prop where
  text : endpointFromStr hint.1 = some endpoint
  member : (tip.members[endpoint]?).isSome
  valid : validateEndpointAddr hint.2 endpoint = .ok ()

omit [JoinEncodings] in
theorem addHint_ok {tip : RosterRevision} {sum total : Nat} {hint : String × String}
    (added : addHint tip sum hint = .ok total) : ∃ endpoint, HintFor tip hint endpoint := by
  unfold addHint at added
  split at added
  · cases added
  rename_i endpoint text
  split at added
  · cases added
  rename_i member
  split at added
  · cases added
  split at added
  · cases added
  rename_i valid
  rw [Option.isNone_iff_eq_none, ← ne_eq, ← Option.isSome_iff_ne_none] at member
  exact ⟨endpoint, text, member, valid⟩

/-- What an approval went through. -/
structure Approved (roster : List RosterRevision) (peerHints : OrderedMap String String)
    (encoded : String) : Prop where
  encoding : encodeRoster roster = .ok encoded
  hints : ∃ tip, roster.getLast? = some tip ∧
    ∀ hint ∈ peerHints.toList, ∃ endpoint, HintFor tip hint endpoint
  response : ∃ bytes, JoinEncodings.toVec ⟨true, encoded, peerHints⟩ = some bytes ∧
    bytes.length ≤ joinResponseLimit

theorem validateApprovalPayload_ok {roster : List RosterRevision} {encoded : String}
    {peerHints : OrderedMap String String} (encoding : encodeRoster roster = .ok encoded)
    (valid : validateApprovalPayload roster encoded peerHints = .ok ()) :
    Approved roster peerHints encoded := by
  unfold validateApprovalPayload at valid
  split at valid
  · cases valid
  rename_i tip last
  obtain ⟨total, summed, valid⟩ := Except.bind_ok valid
  split at valid
  · cases valid
  split at valid
  · cases valid
  rename_i bytes spelled
  split at valid
  · cases valid
  rename_i fits
  refine ⟨encoding, ⟨tip, last, fun hint listed => ?_⟩, bytes, spelled, not_lt.mp fits⟩
  obtain ⟨before, after, added⟩ := foldlM_each summed hint listed
  exact addHint_ok added

theorem approve_ok {roster : List RosterRevision} {peerHints : OrderedMap String String}
    {decision : JoinDecision} (approved : JoinDecision.approve roster peerHints = .ok decision) :
    ∃ encoded, decision = .approved encoded peerHints ∧ Approved roster peerHints encoded := by
  obtain ⟨encoded, encoding, approved⟩ := Except.bind_ok approved
  obtain ⟨⟨⟩, valid, approved⟩ := Except.bind_ok approved
  cases approved
  exact ⟨encoded, rfl, validateApprovalPayload_ok encoding valid⟩

theorem Approved.written {roster : List RosterRevision} {peerHints : OrderedMap String String}
    {encoded : String} (approved : Approved roster peerHints encoded) :
    ∃ stream, writeJson ⟨true, encoded, peerHints⟩ joinResponseLimit = .ok stream := by
  obtain ⟨bytes, spelled, fits⟩ := approved.response
  have small : ¬ 2 ^ 32 ≤ bytes.length := by
    unfold joinResponseLimit maxRosterBytes at fits
    omega
  refine ⟨bigEndian 4 bytes.length ++ bytes, ?_⟩
  unfold writeJson
  rw [spelled]
  dsimp only
  rw [if_neg (not_lt.mpr fits), if_neg small]

namespace RosterStore

variable [Blake3] [Ed25519] {store next : RosterStore} {pending : PendingJoinInfo}
  {identity : DeviceIdentity} {localAddrJson joinerAddr : String}

/-- The hint that an approval has for a member. -/
def sharedHint (store : RosterStore) (pending : PendingJoinInfo) (identity : DeviceIdentity)
    (localAddrJson : String) (endpoint : EndpointId) : Option String :=
  if endpoint = pending.endpointId then none
  else store.approvalHint identity localAddrJson endpoint

omit [JoinEncodings] [Blake3] in
theorem sharedHints_iff (endpoints : List EndpointId) (text hint : String) :
    (endpoints.foldl (store.shareHint pending identity localAddrJson) ∅)[text]? = some hint ↔
    ∃ endpoint ∈ endpoints, text = endpointText endpoint ∧
      store.sharedHint pending identity localAddrJson endpoint = some hint := by
  induction endpoints using List.reverseRecOn with
  | nil => simp
  | append_singleton front last ih =>
      have split : (∃ endpoint ∈ front ++ [last], text = endpointText endpoint ∧
            store.sharedHint pending identity localAddrJson endpoint = some hint) ↔
          (∃ endpoint ∈ front, text = endpointText endpoint ∧
            store.sharedHint pending identity localAddrJson endpoint = some hint) ∨
          (text = endpointText last ∧
            store.sharedHint pending identity localAddrJson last = some hint) := by
        simp only [List.mem_append, List.mem_singleton, or_and_right, exists_or, exists_eq_left]
      have unshared : store.sharedHint pending identity localAddrJson last = none →
          ((∃ endpoint ∈ front, text = endpointText endpoint ∧
              store.sharedHint pending identity localAddrJson endpoint = some hint) ∨
            (text = endpointText last ∧
              store.sharedHint pending identity localAddrJson last = some hint) ↔
          ∃ endpoint ∈ front, text = endpointText endpoint ∧
            store.sharedHint pending identity localAddrJson endpoint = some hint) := by
        intro none
        rw [none]
        simp
      rw [List.foldl_append, List.foldl_cons, List.foldl_nil, split, shareHint]
      by_cases joiner : last = pending.endpointId
      · rw [if_pos joiner, unshared (if_pos joiner), ih]
      have shared : store.sharedHint pending identity localAddrJson last =
          store.approvalHint identity localAddrJson last := if_neg joiner
      rw [if_neg joiner]
      cases own : store.approvalHint identity localAddrJson last with
      | none =>
          rw [own] at shared
          rw [unshared shared]
          exact ih
      | some held =>
          rw [own] at shared
          dsimp only
          rw [OrderedMap.getElem?_insert, shared]
          by_cases same : endpointText last = text
          · rw [if_pos same]
            constructor
            · intro found
              exact Or.inr ⟨same.symm, found⟩
            · rintro (⟨endpoint, -, spelled, found⟩ | ⟨-, found⟩)
              · have equal : endpoint = last :=
                  endpointText_injective (spelled.symm.trans same.symm)
                rw [equal, shared] at found
                exact found
              · exact found
          · rw [if_neg same, ih]
            constructor
            · exact Or.inl
            · rintro (earlier | ⟨spelled, -⟩)
              · exact earlier
              · exact absurd spelled.symm same

omit [JoinEncodings] in
theorem approvalPeerHints_ok {peerHints : OrderedMap String String}
    (shared : store.approvalPeerHints pending identity localAddrJson = .ok peerHints) :
    ∃ tip, store.selectedTip = .ok tip ∧ ∀ text hint, peerHints[text]? = some hint ↔
      ∃ endpoint, (tip.members[endpoint]?).isSome ∧ text = endpointText endpoint ∧
        store.sharedHint pending identity localAddrJson endpoint = some hint := by
  unfold approvalPeerHints at shared
  split at shared
  · cases shared
  rename_i roster selects
  split at shared
  · cases shared
  rename_i tip last
  cases shared
  refine ⟨tip, ?_, fun text hint => ?_⟩
  · unfold selectedTip
    rw [selects, Except.ok_bind, last]
    rfl
  · rw [sharedHints_iff]
    simp only [OrderedMap.mem_keys]

theorem concludeApproval_ok {decision : JoinDecision}
    (concluded : store.concludeApproval identity localAddrJson pending = .ok decision) :
    ∃ chain tip peerHints encoded, store.selectedRosterChain = .ok chain ∧
      chain.getLast? = some tip ∧ Lists tip pending.endpointId pending.deviceName ∧
      store.approvalPeerHints pending identity localAddrJson = .ok peerHints ∧
      decision = .approved encoded peerHints ∧ Approved chain peerHints encoded := by
  obtain ⟨chain, selects, concluded⟩ := Except.bind_ok concluded
  have selects := Except.mapError_ok selects
  split at concluded
  · cases concluded
  rename_i named
  obtain ⟨peerHints, shared, concluded⟩ := Except.bind_ok concluded
  obtain ⟨encoded, same, approved⟩ := approve_ok (Except.mapError_ok concluded)
  rw [not_not] at named
  cases last : chain.getLast? with
  | none =>
      rw [last] at named
      cases named
  | some tip =>
      rw [last] at named
      exact ⟨chain, tip, peerHints, encoded, selects, last, named, shared, same, approved⟩

theorem buildJoinApproval_ok {decision : JoinDecision}
    (built : store.buildJoinApproval identity localAddrJson pending joinerAddr =
      (next, .ok decision)) :
    next.concludeApproval identity localAddrJson pending = .ok decision := by
  unfold buildJoinApproval at built
  split at built
  · cases built
  split at built
  · cases built
  dsimp only at built
  split at built
  · cases built
  split at built
  · cases built
  split at built
  · cases built
  split at built
  · split at built
    · cases built
    · obtain ⟨rfl, concluded⟩ := Prod.mk.inj built
      exact concluded
  · split at built
    · cases built
    · obtain ⟨rfl, concluded⟩ := Prod.mk.inj built
      exact concluded

end RosterStore

namespace RosterTree

variable [Blake3] [Ed25519] {genesis : RosterRevision} {store : RosterStore}
  {chain : List RosterRevision} {pending : PendingJoinInfo}

/-- An approval admits the joiner, when no revision of the selected chain lists it. -/
def Admits (pending : PendingJoinInfo) (chain : List RosterRevision) (change : RosterChange) :
    Prop :=
  ∃ member, change = .admitMember member ∧ member.endpointId = pending.endpointId ∧
    ∀ revision ∈ chain, revision.members[pending.endpointId]? = none

theorem admitted (tree : RosterTree genesis store)
    (selects : store.selectedRosterChain = .ok chain) (identity : DeviceIdentity)
    (joinerAddr : String) (tip : RosterRevision) (peerHints : OrderedMap String String)
    (unknown : ∀ revision ∈ chain, revision.members[pending.endpointId]? = none) :
    ∃ allowed, Applied genesis chain allowed
        (store.admitPending identity pending joinerAddr chain tip peerHints).1 ∧
      ∀ change ∈ allowed, Admits pending chain change := by
  have nothing : ∃ allowed, Applied genesis chain allowed store ∧
      ∀ change ∈ allowed, Admits pending chain change :=
    ⟨[], Applied.none tree selects _, by simp⟩
  unfold RosterStore.admitPending
  split
  · exact nothing
  rename_i member parsed
  split
  · exact nothing
  split
  · exact nothing
  have sameEndpoint : member.endpointId = pending.endpointId := by
    obtain ⟨name, -, built⟩ := Except.bind_ok parsed
    cases built
    rfl
  have applied : Applied genesis chain [.admitMember member]
      (store.applyRosterChangeWithPeerHint identity (.admitMember member) pending.endpointId
        joinerAddr).1 := by
    unfold RosterStore.applyRosterChangeWithPeerHint
    split
    · exact Applied.none tree selects _
    · exact tree.applied_loop selects identity (.admitMember member) _ _
  have admits : ∀ change ∈ [RosterChange.admitMember member], Admits pending chain change := by
    intro change listed
    exact ⟨member, List.mem_singleton.mp listed, sameEndpoint, unknown⟩
  split
  · rename_i outcome
    rw [outcome] at applied
    exact ⟨_, applied, admits⟩
  · rename_i outcome
    rw [outcome] at applied
    exact ⟨_, applied, admits⟩

theorem approved (tree : RosterTree genesis store)
    (selects : store.selectedRosterChain = .ok chain) (identity : DeviceIdentity)
    (localAddrJson : String) (pending : PendingJoinInfo) (joinerAddr : String) :
    ∃ allowed, Applied genesis chain allowed
        (store.buildJoinApproval identity localAddrJson pending joinerAddr).1 ∧
      ∀ change ∈ allowed, Admits pending chain change := by
  have nothing : ∃ allowed, Applied genesis chain allowed store ∧
      ∀ change ∈ allowed, Admits pending chain change :=
    ⟨[], Applied.none tree selects _, by simp⟩
  unfold RosterStore.buildJoinApproval
  rw [selects]
  dsimp only
  split
  · exact nothing
  rename_i tip last
  split
  · exact nothing
  split
  · exact nothing
  rename_i unlisted
  split
  · exact nothing
  rename_i peerHints shared
  split
  · rename_i absent
    have unknown : ∀ revision ∈ chain, revision.members[pending.endpointId]? = none := by
      intro revision listed
      by_contra active
      apply unlisted
      refine ⟨absent, List.any_eq_true.mpr ⟨revision, listed, ?_⟩⟩
      exact Option.isSome_iff_ne_none.mpr active
    have admission := tree.admitted selects identity joinerAddr tip peerHints unknown
    split
    · rename_i outcome
      rw [outcome] at admission
      exact admission
    · rename_i outcome
      rw [outcome] at admission
      exact admission
  · split
    · exact nothing
    · rename_i hinted
      obtain ⟨⟨⟩, -, hinting⟩ := Except.bind_ok hinted
      have same := replaceHint_ok (show store.replaceHint (some (_, _)) = .ok _ from hinting)
      exact ⟨[], Applied.none (tree.grown_hints same).tree ((selected_congr same).trans selects) _,
        by simp⟩

end RosterTree

namespace RosterStore

variable [Blake3] [Ed25519]

omit [JoinEncodings] [AddrJson] in
theorem selectedTip_chain {store : RosterStore} {tip : RosterRevision}
    (selects : store.selectedTip = .ok tip) :
    ∃ chain, store.selectedRosterChain = .ok chain ∧ chain.getLast? = some tip := by
  obtain ⟨chain, chosen, ends⟩ := Except.bind_ok selects
  refine ⟨chain, chosen, ?_⟩
  split at ends
  · cases ends
  · rename_i last
    cases ends
    exact last

/-- The joiner accepts the response of an approval that lists it and has a hint of the inviter. -/
theorem checkResponse_approved (roundTrips : RoundTrips) {chain : List RosterRevision}
    {tip : RosterRevision} {encoded deviceName : String} {peerHints : OrderedMap String String}
    {endpoint inviter : EndpointId} (valid : validateRosterChain chain = .ok ())
    (last : chain.getLast? = some tip) (approved : Approved chain peerHints encoded)
    (named : Lists tip endpoint deviceName) (member : (tip.members[inviter]?).isSome)
    (others : ∀ hint ∈ peerHints.toList, endpointFromStr hint.1 ≠ some endpoint)
    (known : ∃ hint ∈ peerHints.toList, endpointFromStr hint.1 = some inviter) :
    ∃ validated, checkResponse ⟨true, encoded, peerHints⟩ endpoint inviter deviceName =
        .ok (chain, validated) ∧ ∀ hint ∈ validated, validatePeerHint hint.2 = .ok () := by
  obtain ⟨held, ends, hints⟩ := approved.hints
  rw [last, Option.some.injEq] at ends
  subst ends
  have each : ∀ hint ∈ peerHints.toList, validateHint tip endpoint hint =
      .ok ((endpointFromStr hint.1).getD endpoint, hint.2) := by
    intro hint listed
    obtain ⟨peer, checked⟩ := hints hint listed
    have other : peer ≠ endpoint := by
      rintro rfl
      exact others hint listed checked.text
    have active : ¬ ((tip.members[peer]?).isNone ∨ peer = endpoint) := by
      rw [not_or, Option.isNone_iff_eq_none, ← ne_eq, ← Option.isSome_iff_ne_none]
      exact ⟨checked.member, other⟩
    unfold validateHint
    rw [checked.text]
    dsimp only
    rw [if_neg active, checked.valid]
    rfl
  have present : ((peerHints.toList.map fun hint =>
      ((endpointFromStr hint.1).getD endpoint, hint.2)).any
        fun hint => decide (hint.1 = inviter)) = true := by
    obtain ⟨hint, listed, text⟩ := known
    rw [List.any_map, List.any_eq_true]
    refine ⟨hint, listed, ?_⟩
    rw [Function.comp_apply, text]
    exact decide_eq_true rfl
  refine ⟨peerHints.toList.map fun hint => ((endpointFromStr hint.1).getD endpoint, hint.2), ?_, ?_⟩
  · have listed : ¬ ((tip.members[endpoint]?).map DeviceName.text ≠ some deviceName ∨
        (tip.members[inviter]?).isNone) := by
      rw [not_or, not_not, Option.isNone_iff_eq_none, ← ne_eq, ← Option.isSome_iff_ne_none]
      exact ⟨named, member⟩
    unfold checkResponse
    rw [if_neg (by simp), decodeRoster_encoded roundTrips approved.encoding valid, Except.ok_bind,
      last]
    dsimp only
    rw [if_neg listed, mapM_eq_ok each, Except.ok_bind, if_neg (by rw [present]; simp)]
    rfl
  · intro hint listed
    obtain ⟨shared, member, rfl⟩ := List.mem_map.mp listed
    obtain ⟨peer, checked⟩ := hints shared member
    have address := validateEndpointAddr_ok checked.valid
    exact if_neg (not_or.mpr ⟨address.nonempty, not_lt.mpr address.short⟩)

/-- Without a hint of the inviter the joiner refuses a response. -/
theorem checkResponse_unhinted (roundTrips : RoundTrips) {chain : List RosterRevision}
    {tip : RosterRevision} {encoded deviceName : String} {endpoint inviter : EndpointId}
    (valid : validateRosterChain chain = .ok ()) (last : chain.getLast? = some tip)
    (encoding : encodeRoster chain = .ok encoded) (named : Lists tip endpoint deviceName)
    (member : (tip.members[inviter]?).isSome) :
    checkResponse ⟨true, encoded, ∅⟩ endpoint inviter deviceName = .error .invalidAddress := by
  have listed : ¬ ((tip.members[endpoint]?).map DeviceName.text ≠ some deviceName ∨
      (tip.members[inviter]?).isNone) := by
    rw [not_or, not_not, Option.isNone_iff_eq_none, ← ne_eq, ← Option.isSome_iff_ne_none]
    exact ⟨named, member⟩
  unfold checkResponse
  rw [if_neg (by simp), decodeRoster_encoded roundTrips encoding valid, Except.ok_bind, last]
  dsimp only
  rw [if_neg listed]
  rfl

theorem runJoiner_refused (roundTrips : RoundTrips) (store : RosterStore) {endpoint inviter :
    EndpointId} {deviceName : String} {response : JoinResponse} {stream : List UInt8}
    {reason : JoinError} (accepted : validateJoinDeviceName deviceName = .ok ())
    (written : writeJson response joinResponseLimit = .ok stream)
    (refused : checkResponse response endpoint inviter deviceName = .error reason) :
    store.runJoiner endpoint inviter deviceName stream = (store, .error reason) := by
  unfold runJoiner
  rw [accepted]
  dsimp only
  rw [readJson_written roundTrips written]
  dsimp only
  rw [refused]

omit [JoinEncodings] [AddrJson] in
/-- Into an empty state the joiner installs a valid chain that lists it. -/
theorem install_empty {genesis tip : RosterRevision} {store : RosterStore}
    {chain : List RosterRevision} {endpoint : EndpointId} {deviceName : String}
    {validated : List (EndpointId × String)} (tree : RosterTree genesis store)
    (selects : store.selectedRosterChain = .ok chain) (last : chain.getLast? = some tip)
    (named : Lists tip endpoint deviceName)
    (hints : ∀ hint ∈ validated, validatePeerHint hint.2 = .ok ()) :
    ∃ joined, RosterStore.empty.installOrResumeJoinedState chain endpoint deviceName validated =
      (joined, .ok ()) ∧ joined.selectedRosterChain = .ok chain := by
  obtain ⟨rest, shape, linked, stored⟩ := tree.selected selects
  have nothing : ∀ revision, ¬ RosterStore.empty.Stored revision := by
    intro revision held
    cases held
  have distinguished : Distinguished fun revision =>
      RosterStore.empty.Stored revision ∨ revision ∈ chain :=
    fun a b heldA heldB same => stored_distinguished store a b
      (stored a (heldA.resolve_left (nothing a))) (stored b (heldB.resolve_left (nothing b))) same
  have active : (tip.members[endpoint]?).isSome = true := by
    obtain ⟨name, found, -⟩ := Option.map_eq_some_iff.mp named
    rw [found]
    rfl
  have ends : ∀ held, chain.getLast? = some held → held = tip := by
    intro held same
    rw [last] at same
    exact (Option.some.inj same).symm
  have checked : JoinChecked RosterStore.empty chain endpoint (some deviceName) validated true
      genesis rest [] := by
    refine ⟨shape, tree.valid, linked, fun held same => ends held same ▸ active,
      fun held same name given => ?_, Grounded.selected_nil rfl, fun _ => rfl,
      fun held impossible => (by cases impossible), fun _ held impossible => (by cases impossible),
      hints⟩
    cases given
    rw [ends held same]
    exact named
  obtain ⟨joined, selected, held, installed, chosen, -, -, either, -⟩ :=
    installOrResume_eq grounded_empty distinguished checked
  refine ⟨joined, installed, ?_⟩
  rcases either with same | ⟨impossible, -⟩
  · rw [chosen, same]
  · exact absurd rfl impossible

/-- For a device that is listed under its name only the hint is stored. -/
theorem buildJoinApproval_resumed {store : RosterStore} {identity : DeviceIdentity}
    {pending : PendingJoinInfo} {localAddrJson joinerAddr : String} {chain : List RosterRevision}
    {tip : RosterRevision} (selects : store.selectedRosterChain = .ok chain)
    (last : chain.getLast? = some tip) (named : Lists tip pending.endpointId pending.deviceName)
    (hint : validatePeerHint joinerAddr = .ok ()) :
    store.buildJoinApproval identity localAddrJson pending joinerAddr =
      ({ store with peerHints := store.peerHints.insert pending.endpointId joinerAddr },
        concludeApproval
          { store with peerHints := store.peerHints.insert pending.endpointId joinerAddr }
          identity localAddrJson pending) := by
  obtain ⟨name, active, text⟩ := Option.map_eq_some_iff.mp named
  have shared : ∃ peerHints, store.approvalPeerHints pending identity localAddrJson =
      .ok peerHints := by
    unfold approvalPeerHints
    rw [selects]
    dsimp only
    rw [last]
    exact ⟨_, rfl⟩
  obtain ⟨peerHints, shared⟩ := shared
  unfold buildJoinApproval
  rw [selects]
  dsimp only
  rw [last]
  dsimp only
  rw [active, shared]
  simp only [Option.any_some, text, ne_eq, not_true_eq_false, decide_false, Bool.false_eq_true,
    Option.isNone_some, false_and, ↓reduceIte]
  rw [replacePeerHintChecked, hint, Except.ok_bind, replacePeerHint_eq hint]

theorem concludeApproval_eq {store : RosterStore} {identity : DeviceIdentity}
    {pending : PendingJoinInfo} {localAddrJson : String} {chain : List RosterRevision}
    {tip : RosterRevision} {peerHints : OrderedMap String String} {decision : JoinDecision}
    (selects : store.selectedRosterChain = .ok chain) (last : chain.getLast? = some tip)
    (named : Lists tip pending.endpointId pending.deviceName)
    (shared : store.approvalPeerHints pending identity localAddrJson = .ok peerHints)
    (approved : JoinDecision.approve chain peerHints = .ok decision) :
    store.concludeApproval identity localAddrJson pending = .ok decision := by
  have listed : ¬ (chain.getLast?.bind fun tip => tip.members[pending.endpointId]?).map
      DeviceName.text ≠ some pending.deviceName := by
    rw [not_not, last]
    exact named
  unfold concludeApproval
  rw [selects, Except.mapError, Except.ok_bind, if_neg listed, shared, Except.ok_bind, approved]
  rfl

omit [JoinEncodings] [AddrJson] in
theorem selected_hinted (store : RosterStore) (peerHints : OrderedMap EndpointId String) :
    selectedRosterChain { store with peerHints } = store.selectedRosterChain := rfl

theorem buildJoinApproval_listed {store : RosterStore} {identity : DeviceIdentity}
    {pending : PendingJoinInfo} {localAddrJson joinerAddr : String} {chain : List RosterRevision}
    {tip : RosterRevision} {peerHints : OrderedMap String String} {decision : JoinDecision}
    (selects : store.selectedRosterChain = .ok chain) (last : chain.getLast? = some tip)
    (named : Lists tip pending.endpointId pending.deviceName)
    (hint : validatePeerHint joinerAddr = .ok ())
    (shared : approvalPeerHints
      { store with peerHints := store.peerHints.insert pending.endpointId joinerAddr } pending
        identity localAddrJson = .ok peerHints)
    (approved : JoinDecision.approve chain peerHints = .ok decision) :
    store.buildJoinApproval identity localAddrJson pending joinerAddr =
      ({ store with peerHints := store.peerHints.insert pending.endpointId joinerAddr },
        .ok decision) := by
  rw [buildJoinApproval_resumed selects last named hint,
    concludeApproval_eq ((selected_hinted store _).trans selects) last named shared approved]

/-- An approved join of another device completes: the response fits its limit, and the joiner
installs the chain that the inviter selects, which lists it under its name. -/
theorem approved_join_completes (roundTrips : RoundTrips) {store next : RosterStore}
    {identity : DeviceIdentity} {pending : PendingJoinInfo} {localAddrJson joinerAddr : String}
    {tip : RosterRevision} {decision : JoinDecision} (selects : store.selectedTip = .ok tip)
    (member : (tip.members[identity.endpointId]?).isSome)
    (accepted : validateJoinDeviceName pending.deviceName = .ok () ∧
      validateEndpointAddr joinerAddr pending.endpointId = .ok ())
    (other : pending.endpointId ≠ identity.endpointId)
    (built : store.buildJoinApproval identity localAddrJson pending joinerAddr =
      (next, .ok decision)) :
    ∃ roster peerHints stream chain joined last, decision = .approved roster peerHints ∧
      writeJson decision.response joinResponseLimit = .ok stream ∧
      decodeRoster roster = .ok chain ∧ next.selectedRosterChain = .ok chain ∧
      RosterStore.empty.runJoiner pending.endpointId identity.endpointId pending.deviceName
        stream = (joined, .ok ()) ∧
      joined.selectedRosterChain = .ok chain ∧ chain.getLast? = some last ∧
      Lists last pending.endpointId pending.deviceName := by
  obtain ⟨chain, last, peerHints, encoded, chosen, ends, named, shared, rfl, approved⟩ :=
    concludeApproval_ok (buildJoinApproval_ok built)
  obtain ⟨previous, before, tipLast⟩ := selectedTip_chain selects
  obtain ⟨genesis, rest, rfl⟩ := List.exists_cons_of_ne_nil (List.ne_nil_of_mem
    (List.mem_of_getLast? tipLast))
  have tree := RosterTree.of_selected before
  obtain ⟨allowed, applied, admits⟩ :=
    tree.approved before identity localAddrJson pending joinerAddr
  rw [built] at applied
  obtain ⟨added, longer, within⟩ := applied.selected
  rw [chosen, Except.ok.injEq] at longer
  obtain ⟨later, shape, linked, -⟩ := applied.tree.selected chosen
  have inviter : (last.members[identity.endpointId]?).isSome := by
    rw [RosterTree.members_after (longer ▸ linked) tipLast (longer ▸ ends)]
    · exact member
    · intro change made
      obtain ⟨joiner, rfl, same, -⟩ := admits change (within.subset made)
      rw [RosterChange.subject, same]
      exact other
  have valid : validateRosterChain chain = .ok () := by
    rw [shape] at linked ⊢
    exact validateRosterChain_of_linked tree.valid linked
  obtain ⟨held, heldTip, listed⟩ := approvalPeerHints_ok shared
  have sameTip := RosterTree.selectedTip_last chosen heldTip
  rw [ends, Option.some.injEq] at sameTip
  subst sameTip
  have others : ∀ hint ∈ peerHints.toList, endpointFromStr hint.1 ≠ some pending.endpointId := by
    intro hint inside text
    obtain ⟨endpoint, -, spelled, own⟩ := (listed hint.1 hint.2).mp
      (Std.ExtTreeMap.mem_toList_iff_getElem?_eq_some.mp inside)
    rw [spelled, endpointFromStr_text, Option.some.injEq] at text
    rw [sharedHint, if_pos text] at own
    cases own
  have known : ∃ hint ∈ peerHints.toList, endpointFromStr hint.1 = some identity.endpointId := by
    refine ⟨(endpointText identity.endpointId, localAddrJson), ?_, endpointFromStr_text _⟩
    apply Std.ExtTreeMap.mem_toList_iff_getElem?_eq_some.mpr
    refine (listed _ _).mpr ⟨identity.endpointId, inviter, rfl, ?_⟩
    rw [sharedHint, if_neg (Ne.symm other), approvalHint, if_pos rfl]
  obtain ⟨stream, written⟩ := approved.written
  obtain ⟨validated, checked, hints⟩ :=
    checkResponse_approved roundTrips valid ends approved named inviter others known
  obtain ⟨joined, installed, result⟩ := install_empty applied.tree chosen ends named hints
  refine ⟨encoded, peerHints, stream, chain, joined, last, rfl, written,
    decodeRoster_encoded roundTrips approved.encoding valid, chosen, ?_, result, ends, named⟩
  unfold runJoiner
  rw [accepted.1]
  dsimp only
  rw [readJson_written roundTrips written]
  dsimp only
  rw [checked]
  dsimp only
  rw [installed]

end RosterStore

end

/-- The JSON text of a response. -/
def responseText (approved roster : List Char) (peerHints : OrderedMap String String) :
    List Char :=
  "\x7b\"approved\":".toList ++ approved ++ ",\"roster\":\"".toList ++ roster.flatMap Json.escape ++
    "\",\"peer_hints\":\x7b".toList ++
    List.intercalate [','] (peerHints.toList.map fun hint =>
      Json.string hint.1 ++ ':' :: Json.string hint.2) ++ "\x7d\x7d".toList

section
variable (roster : List RosterRevision) (peerHints : OrderedMap String String)

/-- The base64 text of a roster that can be sent. -/
def rosterText : List Char := Base64.encode (RosterBundle.spelled ⟨roster⟩)

/-- The response of an approval. -/
def approvalResponse : JoinResponse := ⟨true, String.ofList (rosterText roster), peerHints⟩

def approvalText : String :=
  String.ofList (responseText "true".toList (rosterText roster) peerHints)

/-- Encodings that know one response, to evaluate the model on concrete inputs. -/
@[reducible] def JoinEncodings.only : JoinEncodings where
  base64Encode bytes := String.ofList (Base64.encode bytes)
  base64Decode text := Base64.decode text.toList
  toVec other :=
    if other = approvalResponse roster peerHints then some (utf8 (approvalText roster peerHints))
    else none
  fromSlice bytes :=
    if bytes = utf8 (approvalText roster peerHints) then some (approvalResponse roster peerHints)
    else none

theorem roundTrips_only : @RoundTrips (.only roster peerHints) := by
  refine @RoundTrips.mk (.only roster peerHints) (fun bytes => ?_) rfl fun other bytes written => ?_
  · show Base64.decode (String.ofList (Base64.encode bytes)).toList = some bytes
    rw [String.toList_ofList, Base64.decode_encode]
  · simp only [JoinEncodings.toVec] at written
    split at written
    · rename_i same
      rw [same, ← Option.some.inj written]
      exact if_pos rfl
    · cases written

/-- A roster that can be sent is approved when the hints are accepted and the response fits. -/
theorem approve_fitting [JoinEncodings] [AddrJson] {tip : RosterRevision} {total : Nat}
    {bytes : List UInt8} (allowed : RosterBundle.Transmittable roster)
    (last : roster.getLast? = some tip)
    (summed : peerHints.toList.foldlM (addHint tip) 0 = .ok total)
    (few : total ≤ maxJoinHintTextBytes)
    (written : JoinEncodings.toVec ⟨true, JoinEncodings.base64Encode
      (RosterBundle.spelled ⟨roster⟩), peerHints⟩ = some bytes)
    (fits : bytes.length ≤ joinResponseLimit) :
    JoinDecision.approve roster peerHints =
      .ok (.approved (JoinEncodings.base64Encode (RosterBundle.spelled ⟨roster⟩)) peerHints) := by
  have encoding : encodeRoster roster =
      .ok (JoinEncodings.base64Encode (RosterBundle.spelled ⟨roster⟩)) := by
    unfold encodeRoster
    rw [RosterBundle.encode_iff.mpr ⟨allowed, rfl⟩]
    rfl
  have payload : validateApprovalPayload roster
      (JoinEncodings.base64Encode (RosterBundle.spelled ⟨roster⟩)) peerHints = .ok () := by
    unfold validateApprovalPayload
    rw [last]
    dsimp only
    rw [summed, Except.ok_bind, if_neg (not_lt.mpr few), written]
    dsimp only
    rw [if_neg (not_lt.mpr fits)]
    rfl
  unfold JoinDecision.approve
  rw [encoding, Except.ok_bind, payload]
  rfl

/-- The known response is approved when the roster can be sent and the hints are accepted. -/
theorem approve_only [AddrJson] {tip : RosterRevision} {total : Nat}
    (allowed : RosterBundle.Transmittable roster) (last : roster.getLast? = some tip)
    (summed : peerHints.toList.foldlM (addHint tip) 0 = .ok total)
    (few : total ≤ maxJoinHintTextBytes)
    (fits : ((approvalText roster peerHints).toList.map Char.utf8Size).sum ≤ joinResponseLimit) :
    @JoinDecision.approve (.only roster peerHints) _ roster peerHints =
      .ok (.approved (String.ofList (rosterText roster)) peerHints) := by
  apply @approve_fitting _ _ (.only roster peerHints) _ _ _ _ allowed last summed few (if_pos rfl)
  rw [length_utf8]
  exact fits

end

/-- The JSON text of every response; nothing is read. -/
@[reducible] def JoinEncodings.written : JoinEncodings where
  base64Encode bytes := String.ofList (Base64.encode bytes)
  base64Decode text := Base64.decode text.toList
  toVec response := some (utf8 (String.ofList (responseText
    (if response.approved then "true" else "false").toList response.roster.toList
      response.peerHints)))
  fromSlice _ := none

theorem approve_written [AddrJson] {roster : List RosterRevision}
    {peerHints : OrderedMap String String} {tip : RosterRevision} {total : Nat}
    (allowed : RosterBundle.Transmittable roster) (last : roster.getLast? = some tip)
    (summed : peerHints.toList.foldlM (addHint tip) 0 = .ok total)
    (few : total ≤ maxJoinHintTextBytes)
    (fits : ((approvalText roster peerHints).toList.map Char.utf8Size).sum ≤ joinResponseLimit) :
    @JoinDecision.approve .written _ roster peerHints =
      .ok (.approved (String.ofList (rosterText roster)) peerHints) := by
  have text : (String.ofList (rosterText roster)).toList = rosterText roster :=
    String.toList_ofList
  have written : @JoinEncodings.toVec .written ⟨true, String.ofList (rosterText roster),
      peerHints⟩ = some (utf8 (approvalText roster peerHints)) := by
    show some (utf8 (String.ofList (responseText "true".toList
      (String.ofList (rosterText roster)).toList peerHints))) = _
    rw [text, approvalText]
  apply @approve_fitting _ _ .written _ _ _ _ allowed last summed few written
  rw [length_utf8]
  exact fits

section
attribute [local instance] Blake3.checksum Ed25519.checksum AddrJson.bare

open RosterSample

/-- The hints that the first device sends. -/
def firstHint : OrderedMap String String :=
  (∅ : OrderedMap String String).insert (endpointText (device 1).endpointId)
    (bareAddr (device 1).endpointId)

/-- The encodings of the response that lists both devices. -/
@[reducible] def JoinEncodings.pair : JoinEncodings := .only [genesis, admitted 2] firstHint

/-- The encodings of the response that lists the first device. -/
@[reducible] def JoinEncodings.alone : JoinEncodings := .only [genesis] ∅

section
attribute [local instance] JoinEncodings.pair

/-- The second device was admitted before, and asks again. -/
theorem resumed_join_completes :
    ∃ roster stream joined,
      writeJson (JoinDecision.approved roster firstHint).response joinResponseLimit = .ok stream ∧
      RosterStore.empty.runJoiner (device 2).endpointId (device 1).endpointId "d" stream =
        (joined, .ok ()) ∧
      joined.selectedRosterChain = .ok [genesis, admitted 2] := by
  have selects : pair.selectedRosterChain = .ok [genesis, admitted 2] := by decide +kernel
  have named : Lists (admitted 2) (device 2).endpointId "d" := by
    unfold Lists
    decide +kernel
  have hint : validatePeerHint (bareAddr (device 2).endpointId) = .ok () := by decide +kernel
  have allowed : RosterBundle.Transmittable [genesis, admitted 2] := by
    refine ⟨by simp, by decide, ?_, ?_⟩
    · decide +kernel
    · decide +kernel
  have fits : ((approvalText [genesis, admitted 2] firstHint).toList.map Char.utf8Size).sum ≤
      joinResponseLimit := by
    rw [approvalText, String.toList_ofList]
    decide +kernel
  have summed : firstHint.toList.foldlM (addHint (admitted 2)) 0 = .ok 148 := by decide +kernel
  have shared : RosterStore.approvalPeerHints
      { pair with peerHints :=
        pair.peerHints.insert (device 2).endpointId (bareAddr (device 2).endpointId) }
      ⟨"r", (device 2).endpointId, "d"⟩ (device 1) (bareAddr (device 1).endpointId) =
        .ok firstHint := by decide +kernel
  have approved := approve_only _ _ allowed rfl summed (by unfold maxJoinHintTextBytes; omega) fits
  have built := @RosterStore.buildJoinApproval_listed _ _ _ _ pair (device 1)
    ⟨"r", (device 2).endpointId, "d"⟩ (bareAddr (device 1).endpointId)
    (bareAddr (device 2).endpointId) _ _ _ _ selects rfl named hint shared approved
  have member : ((admitted 2).members[(device 1).endpointId]?).isSome := by decide +kernel
  have accepted : validateJoinDeviceName "d" = .ok () ∧
      validateEndpointAddr (bareAddr (device 2).endpointId) (device 2).endpointId = .ok () := by
    decide +kernel
  have tip : pair.selectedTip = .ok (admitted 2) := by
    unfold RosterStore.selectedTip
    rw [selects]
    rfl
  have other : (device 2).endpointId ≠ (device 1).endpointId := by decide +kernel
  obtain ⟨roster, peerHints, stream, chain, joined, last, same, written, -, chosen, ran,
      result, -⟩ :=
    RosterStore.approved_join_completes (roundTrips_only _ _) tip member accepted other built
  obtain ⟨-, hints⟩ := JoinDecision.approved.inj same
  rw [RosterStore.selected_hinted, selects, Except.ok.injEq] at chosen
  rw [same] at written
  rw [← hints] at written
  rw [← chosen] at result
  exact ⟨roster, stream, joined, written, ran, result⟩

end

section
attribute [local instance] JoinEncodings.alone

/-- The response to the endpoint of the inviter itself is refused, as it has no hint of the
inviter. -/
theorem own_join_refused :
    ¬ (RoundTrips → ∀ (store next : RosterStore) (identity : DeviceIdentity)
      (pending : PendingJoinInfo) (localAddrJson joinerAddr : String) (tip : RosterRevision)
      (decision : JoinDecision), store.selectedTip = .ok tip →
      (tip.members[identity.endpointId]?).isSome →
      validateJoinDeviceName pending.deviceName = .ok () ∧
        validateEndpointAddr joinerAddr pending.endpointId = .ok () →
      store.buildJoinApproval identity localAddrJson pending joinerAddr = (next, .ok decision) →
      ∃ stream joined, writeJson decision.response joinResponseLimit = .ok stream ∧
        RosterStore.empty.runJoiner pending.endpointId identity.endpointId pending.deviceName
          stream = (joined, .ok ())) := by
  intro claimed
  have selects : start.selectedRosterChain = .ok [genesis] := by decide +kernel
  have named : Lists genesis (device 1).endpointId "d" := by
    unfold Lists
    decide +kernel
  have hint : validatePeerHint (bareAddr (device 1).endpointId) = .ok () := by decide +kernel
  have allowed : RosterBundle.Transmittable [genesis] := by
    refine ⟨by simp, by decide, ?_, ?_⟩
    · decide +kernel
    · decide +kernel
  have fits : ((approvalText [genesis] ∅).toList.map Char.utf8Size).sum ≤ joinResponseLimit := by
    rw [approvalText, String.toList_ofList]
    decide +kernel
  have shared : RosterStore.approvalPeerHints
      { start with peerHints :=
        start.peerHints.insert (device 1).endpointId (bareAddr (device 1).endpointId) }
      ⟨"r", (device 1).endpointId, "d"⟩ (device 1) (bareAddr (device 1).endpointId) = .ok ∅ := by
    decide +kernel
  have approved := approve_only _ _ allowed rfl rfl (Nat.zero_le _) fits
  have built := @RosterStore.buildJoinApproval_listed _ _ _ _ start (device 1)
    ⟨"r", (device 1).endpointId, "d"⟩ (bareAddr (device 1).endpointId)
    (bareAddr (device 1).endpointId) _ _ _ _ selects rfl named hint shared approved
  have member : (genesis.members[(device 1).endpointId]?).isSome := by decide +kernel
  have accepted : validateJoinDeviceName "d" = .ok () ∧
      validateEndpointAddr (bareAddr (device 1).endpointId) (device 1).endpointId = .ok () := by
    decide +kernel
  have tip : start.selectedTip = .ok genesis := by
    unfold RosterStore.selectedTip
    rw [selects]
    rfl
  obtain ⟨stream, joined, written, ran⟩ :=
    claimed (roundTrips_only _ _) _ _ _ _ _ _ _ _ tip member accepted built
  obtain ⟨encoded, same, approval⟩ := approve_ok approved
  obtain ⟨spelled, -⟩ := JoinDecision.approved.inj same
  have valid : validateRosterChain [genesis] = .ok () := by decide +kernel
  rw [← spelled] at approval
  have refused := @RosterStore.checkResponse_unhinted _ _ _ _ (roundTrips_only _ _) [genesis]
    genesis _ "d" (device 1).endpointId (device 1).endpointId valid rfl approval.encoding named
    member
  have failed := RosterStore.runJoiner_refused (roundTrips_only _ _) .empty accepted.1 written
    refused
  obtain ⟨-, impossible⟩ := Prod.mk.inj (failed.symm.trans ran)
  cases impossible

end

end

end Skillsync
