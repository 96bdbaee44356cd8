import Skillsync.ProtocolSpec
import Skillsync.StateSpec

set_option autoImplicit false

namespace Skillsync

open Fallible

namespace Json

/-- The bytes of an encoded text. -/
def width (text : List Char) : Nat := (text.map Char.utf8Size).sum

/-- The bytes that one character of a string takes. -/
def escapedWidth (c : Char) : Nat :=
  if c ∈ ['"', '\\', '\n', '\r', '\t', '\x08', '\x0c'] then 2
  else if c.toNat < 32 then 6
  else c.utf8Size

/-- The bytes of a string between its quotes. -/
def escapedLength (value : String) : Nat := (value.toList.map escapedWidth).sum

theorem width_append (front back : List Char) :
    width (front ++ back) = width front + width back := by
  simp only [width, List.map_append, List.sum_append]

theorem width_cons (c : Char) (rest : List Char) : width (c :: rest) = c.utf8Size + width rest := by
  simp only [width, List.map_cons, List.sum_cons]

@[simp] theorem width_nil : width [] = 0 := rfl

theorem width_flatMap {α : Type} (encode : α → List Char) (items : List α) :
    width (items.flatMap encode) = (items.map fun item => width (encode item)).sum := by
  induction items with
  | nil => rfl
  | cons item rest ih => rw [List.flatMap_cons, width_append, ih, List.map_cons, List.sum_cons]

theorem utf8Size_hexDigit {n : Nat} (digit : n < 16) : (hexDigit n).utf8Size = 1 := by
  have all : ∀ n : Fin 16, (hexDigit n).utf8Size = 1 := by decide
  exact all ⟨n, digit⟩

theorem width_escape (c : Char) : width (escape c) = escapedWidth c := by
  unfold escapedWidth
  by_cases short : c ∈ ['"', '\\', '\n', '\r', '\t', '\x08', '\x0c']
  · rw [if_pos short]
    simp only [List.mem_cons, List.not_mem_nil, or_false] at short
    rcases short with rfl | rfl | rfl | rfl | rfl | rfl | rfl <;> rfl
  · rw [if_neg short]
    simp only [List.mem_cons, List.not_mem_nil, or_false, not_or] at short
    obtain ⟨quote, backslash, newline, carriage, tab, backspace, feed⟩ := short
    unfold escape
    rw [if_neg quote, if_neg backslash, if_neg newline, if_neg carriage, if_neg tab,
      if_neg backspace, if_neg feed]
    split
    · rename_i control
      have high : (hexDigit (c.toNat / 16)).utf8Size = 1 := utf8Size_hexDigit (by omega)
      have low : (hexDigit (c.toNat % 16)).utf8Size = 1 := utf8Size_hexDigit (by omega)
      simp only [width_cons, width_nil, high, low]
      rfl
    · rw [width_cons, width_nil, Nat.add_zero]

theorem width_string (value : String) : width (string value) = escapedLength value + 2 := by
  have letters : (value.toList.map fun c => width (escape c)) = value.toList.map escapedWidth :=
    List.map_congr_left fun c _ => width_escape c
  rw [string, width_cons, width_append, width_flatMap, letters, escapedLength, width_cons,
    width_nil]
  have quote : '"'.utf8Size = 1 := by decide
  omega

theorem width_endpoint (id : EndpointId) : width (endpoint id) = 66 := by
  have digits : ∀ byte : UInt8,
      width [hexDigit (byte.toNat / 16), hexDigit (byte.toNat % 16)] = 2 := by
    intro byte
    have bound := byte.toNat_lt
    rw [width_cons, width_cons, width_nil, utf8Size_hexDigit (by omega),
      utf8Size_hexDigit (by omega)]
  rw [endpoint, List.cons_append, width_cons, width_append, width_flatMap]
  simp only [digits, List.map_const', List.sum_replicate_nat, id.length_eq]
  rfl

theorem width_tagged (name : String) (fields : List (String × List Char)) :
    width (tagged name fields) = 12 + escapedLength name +
      (fields.map fun field => 4 + escapedLength field.1 + width field.2).sum := by
  have separator : ','.utf8Size = 1 ∧ ':'.utf8Size = 1 ∧ '{'.utf8Size = 1 ∧ '}'.utf8Size = 1 := by
    decide
  obtain ⟨comma, colon, brace, closing⟩ := separator
  have key : escapedLength "event" = 5 := by decide
  have each : ∀ field : String × List Char,
      width (',' :: (string field.1 ++ ':' :: field.2)) =
        4 + escapedLength field.1 + width field.2 := by
    intro field
    rw [width_cons, width_append, width_cons, width_string, comma, colon]
    omega
  rw [tagged, width_append, width_append, width_cons, width_append, width_cons, width_string,
    width_string, width_flatMap, width_cons, width_nil, List.map_congr_left fun field _ =>
      each field, key, colon, brace, closing]
  omega

end Json

namespace OperationalEvent

open Json

def peerWidth (peer : Option EndpointId) : Nat := if peer.isSome then 66 else 4

/-- What an entry that names a path takes besides its collection and its path. -/
def overhead : OperationalEvent → Nat
  | collectionWarning _ _ issue => 67 + (Json.issue issue).length
  | recordAccepted _ _ peer => 68 + peerWidth peer
  | recordRejected _ _ peer candidateNs _ winnerNs _ =>
      284 + peerWidth peer + width (integer candidateNs) + width (integer winnerNs)
  | fileInstalled _ _ => 52
  | fileApplyRejected _ _ => 57
  | repairRequired _ _ => 53
  | fileSent _ _ _ => 130
  | fileReceived _ _ _ => 134
  | transferRejected _ _ _ => 138
  | _ => 0

theorem width_peer (peer : Option EndpointId) :
    width (Json.option Json.endpoint peer) = peerWidth peer := by
  cases peer with
  | none => rfl
  | some id => exact width_endpoint id

theorem width_about (name collection : String) (path : ProtocolPath)
    (rest : List (String × List Char)) :
    width (tagged name (("collection", string collection) :: ("path", Json.path path) :: rest)) =
      escapedLength collection + escapedLength path.text + (38 + escapedLength name +
        (rest.map fun field => 4 + escapedLength field.1 + width field.2).sum) := by
  have names : escapedLength "collection" = 10 ∧ escapedLength "path" = 4 := by decide
  rw [width_tagged, List.map_cons, List.map_cons, List.sum_cons, List.sum_cons]
  simp only [Json.path, width_string, names]
  omega

theorem option_some {α : Type} (encode : α → List Char) (value : α) :
    Json.option encode (some value) = encode value := rfl

theorem escapedLength_names :
    escapedLength "collection_warning" = 18 ∧ escapedLength "record_accepted" = 15 ∧
    escapedLength "record_rejected" = 15 ∧ escapedLength "file_installed" = 14 ∧
    escapedLength "file_apply_rejected" = 19 ∧ escapedLength "repair_required" = 15 ∧
    escapedLength "file_sent" = 9 ∧ escapedLength "file_received" = 13 ∧
    escapedLength "transfer_rejected" = 17 ∧ escapedLength "issue" = 5 ∧
    escapedLength "source_peer" = 11 ∧ escapedLength "candidate_modified_ns" = 21 ∧
    escapedLength "candidate_author" = 16 ∧ escapedLength "winner_modified_ns" = 18 ∧
    escapedLength "winner_author" = 13 ∧ escapedLength "peer_endpoint" = 13 := by
  decide

theorem escapedLength_issue (issue : CollectionIssue) :
    escapedLength (Json.issue issue) = (Json.issue issue).length := by
  cases issue <;> decide

/-- The size of an entry about a path. -/
theorem payloadLength_eq {event : OperationalEvent} {collection : String} {path : ProtocolPath}
    (names : event.collection? = some collection) (about : event.path? = some path) :
    event.payloadLength =
      escapedLength collection + escapedLength path.text + event.overhead := by
  have size : event.payloadLength = width event.payload := rfl
  rw [size]
  cases event <;> cases names <;> cases about <;>
    simp only [payload, overhead, option_some, width_about, List.map_cons, List.map_nil,
      List.sum_cons,
      List.sum_nil, escapedLength_names, escapedLength_issue, width_peer, width_endpoint,
      width_string] <;>
    omega

end OperationalEvent

namespace StateStore

variable {store : StateStore} {event : OperationalEvent} {collection : String}
  {path : ProtocolPath} {createdNs : I64} {maxLogs : Nat}

/-- An entry about an allowed path is written exactly when its encoding is short enough. -/
theorem insertLog_iff (names : event.collection? = some collection)
    (about : event.path? = some path) (named : NameAllowed collection)
    (short : (utf8 path.text).length ≤ maxPathBytes) (kept : maxLogs < 2 ^ 63) :
    (∃ after, store.insertLog createdNs event maxLogs = .ok after) ↔
      Json.escapedLength collection + Json.escapedLength path.text + event.overhead ≤
        maxOperationalEventBytes := by
  have valid : validateOperationalEvent event = .ok () := by
    have first : ¬ (event.collection?.any fun c => decide (c = "" ∨ 255 < (utf8 c).length)) =
        true := by
      rw [names, Option.any_some, decide_eq_true_eq]
      rintro (empty | long)
      · exact named.1 empty
      · exact absurd named.2 (not_le.mpr long)
    have second : ¬ (event.path?.any fun p => decide (4096 < (utf8 p.text).length)) = true := by
      rw [about, Option.any_some, decide_eq_true_eq]
      exact not_lt.mpr short
    rw [validateOperationalEvent, if_neg first, if_neg second]
  rw [← OperationalEvent.payloadLength_eq names about]
  unfold insertLog
  rw [valid, Except.ok_bind]
  constructor
  · rintro ⟨after, written⟩
    by_contra long
    rw [if_pos (not_le.mp long)] at written
    cases written
  · intro fits
    rw [if_neg (not_lt.mpr fits), if_neg (not_le.mpr kept)]
    exact ⟨_, rfl⟩

section
variable [Blake3] {record : Record} {source : Option EndpointId}

theorem mergeEvent_names (current : Option Record) (record : Record)
    (source : Option EndpointId) :
    (mergeEvent current record source).collection? = some record.collection ∧
      (mergeEvent current record source).path? = some record.path := by
  unfold mergeEvent
  split <;> exact ⟨rfl, rfl⟩

/-- A merge into an attached collection fails only on its log entry. -/
theorem mergeRecord_iff (attached : (store.collections[record.collection]?).isSome = true)
    (named : NameAllowed record.collection)
    (short : (utf8 record.path.text).length ≤ maxPathBytes) (kept : maxLogs < 2 ^ 63) :
    (∃ after accepted, store.mergeRecord record createdNs source maxLogs =
        .ok (after, accepted)) ↔
      Json.escapedLength record.collection + Json.escapedLength record.path.text +
        (mergeEvent (store.record record.key) record source).overhead ≤
        maxOperationalEventBytes := by
  obtain ⟨names, about⟩ := mergeEvent_names (store.record record.key) record source
  obtain ⟨merged, upserted⟩ : ∃ merged,
      (if accepts (store.record record.key) record then store.upsertRecord record source.isNone
        else .ok store) = .ok merged := by
    unfold upsertRecord
    rw [if_pos attached]
    split
    · exact ⟨_, rfl⟩
    · exact ⟨_, rfl⟩
  have logged : (∃ after, merged.insertLog createdNs _ maxLogs = .ok after) ↔ _ :=
    insertLog_iff names about named short kept
  rw [← logged]
  unfold mergeRecord
  dsimp only
  rw [upserted, Except.ok_bind]
  constructor
  · rintro ⟨after, accepted, committed⟩
    obtain ⟨logged, written, -⟩ := Except.bind_ok committed
    exact ⟨logged, written⟩
  · rintro ⟨logged, written⟩
    rw [written]
    exact ⟨_, _, rfl⟩

end

end StateStore

/-- A merge of a record of a legal bundle, and an entry about it, fail exactly when the escaped
collection and path leave too little room for the rest of the entry. -/
theorem legal_records_logged [Blake3] {bytes : List UInt8} {bundle : ManifestBundle}
    {manifest : String × Manifest} {record : Record} {store : StateStore} {maxLogs : Nat}
    (decoded : ManifestBundle.decode bytes = .ok bundle)
    (listed : manifest ∈ bundle.manifests) (member : record ∈ manifest.2.records)
    (attached : (store.collections[manifest.1]?).isSome = true) (kept : maxLogs < 2 ^ 63) :
    (∀ (source : Option EndpointId) (observedNs : I64),
      (∃ after accepted, store.mergeRecord record observedNs source maxLogs =
          .ok (after, accepted)) ↔
        Json.escapedLength manifest.1 + Json.escapedLength record.path.text +
          (StateStore.mergeEvent (store.record record.key) record source).overhead ≤
          maxOperationalEventBytes) ∧
    ∀ (event : OperationalEvent) (now : I64), event.collection? = some manifest.1 →
      event.path? = some record.path →
      ((∃ after, store.appendLog now event maxLogs = .ok after) ↔
        Json.escapedLength manifest.1 + Json.escapedLength record.path.text + event.overhead ≤
          maxOperationalEventBytes) := by
  obtain ⟨-, allowed, -⟩ := ManifestBundle.decode_eq_ok.mp decoded
  have each := allowed.each manifest listed
  obtain ⟨same, short, -⟩ := each.records record member
  have named := each.name
  constructor
  · intro source observedNs
    rw [← same] at attached named ⊢
    exact StateStore.mergeRecord_iff attached named short kept
  · intro event now names about
    exact StateStore.insertLog_iff names about named short kept

def controlText (length : Nat) : String := String.ofList (List.replicate length '\x01')

theorem length_controlText (length : Nat) : (utf8 (controlText length)).length = length := by
  have one : '\x01'.utf8Size = 1 := by decide
  simp only [length_utf8, controlText, String.toList_ofList, List.map_replicate, one,
    List.sum_replicate_nat, Nat.mul_one]

theorem escapedLength_controlText (length : Nat) :
    Json.escapedLength (controlText length) = length * 6 := by
  have six : Json.escapedWidth '\x01' = 6 := by decide
  simp only [Json.escapedLength, controlText, String.toList_ofList, List.map_replicate, six,
    List.sum_replicate_nat]

theorem controlText_valid {length : Nat} (present : 0 < length) :
    validate (controlText length) = .ok () := by
  have letters : ∀ letter ∈ (controlText length).toList, letter = '\x01' := by
    intro letter member
    rw [controlText, String.toList_ofList] at member
    exact List.eq_of_mem_replicate member
  have other : ∀ letter text, letter ≠ '\x01' → letter ∈ String.toList text →
      controlText length ≠ text := by
    intro letter text differs inside same
    exact differs (letters letter (same ▸ inside))
  have plain : Plain (controlText length) := by
    refine ⟨fun slash => ?_, fun nul => ?_, fun empty => ?_, ?_, ?_⟩
    · exact absurd (letters _ slash) (by decide)
    · exact absurd (letters _ nul) (by decide)
    · have size := length_controlText length
      rw [empty] at size
      have none : (utf8 "").length = 0 := by decide
      omega
    · exact other '.' _ (by decide) (by decide)
    · exact other '.' _ (by decide) (by decide)
  have joined : joinSlash [controlText length] = controlText length := by
    simp [joinSlash]
  rw [← joined]
  exact validate_joinSlash (List.cons_ne_nil _ _) fun component listed =>
    List.mem_singleton.mp listed ▸ plain

theorem controlText_fits {length : Nat} (short : length ≤ maxPathBytes) :
    (utf8 (controlText length)).length < 2 ^ 32 := by
  rw [length_controlText]
  unfold maxPathBytes at short
  omega

/-- The tombstone of a path of control characters. -/
def controlRecord (length : Nat) (present : 0 < length) (short : length ≤ maxPathBytes) :
    Record :=
  { Record.sample .sample 0 (.fill 0) .tombstone with
    path := ⟨controlText length, controlText_valid present⟩
    path_fits := controlText_fits short }

/-- The bundle of one manifest with that tombstone. -/
def controlBundle (length : Nat) (present : 0 < length) (short : length ≤ maxPathBytes) :
    ManifestBundle :=
  ⟨[("c", ⟨[controlRecord length present short]⟩)]⟩

theorem controlBundle_legal {length : Nat} (present : 0 < length)
    (short : length ≤ maxPathBytes) :
    ManifestBundle.decode (controlBundle length present short).spelled =
      .ok (controlBundle length present short) := by
  have sameCollection : (controlRecord length present short).collection = "c" := rfl
  have pathLength : (utf8 (controlRecord length present short).path.text).length = length :=
    length_controlText length
  have name : (utf8 "c").length = 1 := by decide
  have named : NameAllowed "c" := by decide
  have recordLength : (controlRecord length present short).encodedLength = 1 + length + 69 := by
    unfold Record.encodedLength
    rw [sameCollection, pathLength, name]
    rfl
  have manifestLength : (⟨[controlRecord length present short]⟩ : Manifest).encodedLength =
      30 + (1 + length + 69) := by
    simp only [Manifest.encodedLength, List.map_cons, List.map_nil, List.sum_cons, List.sum_nil,
      recordLength]
    omega
  have bound := short
  unfold maxPathBytes at bound
  refine ManifestBundle.decode_eq_ok.mpr ⟨?_, ⟨?_, ?_, ?_, ?_⟩, ?_, ?_, rfl⟩
  · show 1 ≤ maxCollections
    decide
  · intro manifest listed
    rw [List.mem_singleton.mp listed]
    refine ⟨named, fun record member => ?_⟩
    rw [List.mem_singleton.mp member]
    exact ⟨sameCollection, pathLength.le.trans short, trivial⟩
  · exact fun _ _ => List.not_mem_nil
  · exact List.nodup_singleton _
  · show 1 ≤ maxManifestRecords
    decide
  · intro manifest listed
    rw [List.mem_singleton.mp listed]
    refine ⟨List.pairwise_singleton _ _, ?_⟩
    rw [manifestLength]
    unfold maxManifestBytes
    omega
  · simp only [ManifestBundle.encodedLength, controlBundle, List.map_cons, List.map_nil,
      List.sum_cons, List.sum_nil, manifestLength, name]
    unfold maxManifestBytes
    omega

section
attribute [local instance] Blake3.checksum

/-- A store with the collection `c`. -/
def attachedStore : StateStore :=
  (StateStore.empty.addCollection "c" "/c" none).toOption.getD StateStore.empty

/-- The longest such path can be sent and not be merged. -/
theorem escaped_path_not_merged :
    ∃ bytes bundle record, ManifestBundle.decode bytes = .ok bundle ∧
      (∃ manifest ∈ bundle.manifests, manifest.1 = "c" ∧ record ∈ manifest.2.records) ∧
      (attachedStore.collections["c"]?).isSome = true ∧
      ¬ ∃ after accepted,
        attachedStore.mergeRecord record 0 (some (.fill 1)) 1000 = .ok (after, accepted) := by
  have present : 0 < 4096 := by decide
  have short : 4096 ≤ maxPathBytes := le_refl _
  have attached : (attachedStore.collections["c"]?).isSome = true := by decide +kernel
  have legal := controlBundle_legal present short
  refine ⟨_, _, controlRecord 4096 present short, legal,
    ⟨_, List.mem_singleton_self _, rfl, List.mem_singleton_self _⟩, attached, ?_⟩
  have pathLength : (utf8 (controlRecord 4096 present short).path.text).length = 4096 :=
    length_controlText 4096
  have named : NameAllowed "c" := by decide
  rw [StateStore.mergeRecord_iff attached named (pathLength.le.trans short) (by decide)]
  have escaped : Json.escapedLength (controlRecord 4096 present short).path.text = 24576 :=
    escapedLength_controlText 4096
  rw [escaped]
  unfold maxOperationalEventBytes
  omega

theorem plain_path_merged :
    ∃ after accepted, attachedStore.mergeRecord (controlRecord 1 (by decide) (by decide)) 0
      (some (.fill 1)) 1000 = .ok (after, accepted) := by
  have attached : (attachedStore.collections["c"]?).isSome = true := by decide +kernel
  obtain ⟨merges, -⟩ := legal_records_logged
    (controlBundle_legal (by decide : 0 < 1) (by decide)) (List.mem_singleton_self _)
    (List.mem_singleton_self _) attached (show 1000 < 2 ^ 63 by decide)
  apply (merges _ _).mpr
  decide +kernel

end

end Skillsync
