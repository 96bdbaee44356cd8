import Skillsync.Roster

set_option autoImplicit false

namespace Skillsync

open Fallible Codec RosterFormat

namespace OrderedMap

variable {Key Value : Type} [LinearOrder Key]

theorem toList_ascending (map : OrderedMap Key Value) :
    map.toList.Pairwise fun left right => left.1 < right.1 :=
  Std.ExtTreeMap.ordered_keys_toList.imp fun less => compare_lt_iff_lt.mp less

variable [Std.TransOrd Key] [Std.LawfulEqOrd Key]

theorem mem_ofList {entries : List (Key × Value)} {key : Key} {value : Value}
    (ascending : entries.Pairwise fun left right => left.1 < right.1) :
    (key, value) ∈ (Std.ExtTreeMap.ofList entries : OrderedMap Key Value).toList ↔
      (key, value) ∈ entries := by
  rw [Std.ExtTreeMap.mem_toList_iff_getElem?_eq_some]
  have distinct : entries.Pairwise fun left right => ¬ compare left.1 right.1 = .eq :=
    ascending.imp fun less same => ne_of_lt less (compare_eq_iff_eq.mp same)
  constructor
  · intro found
    by_cases listed : key ∈ entries.map Prod.fst
    · obtain ⟨⟨other, stored⟩, member, rfl⟩ := List.mem_map.mp listed
      rw [Std.ExtTreeMap.getElem?_ofList_of_mem Std.ReflCmp.compare_self distinct member] at found
      rwa [← Option.some.inj found]
    · rw [Std.ExtTreeMap.getElem?_ofList_of_contains_eq_false (by simpa using listed)] at found
      cases found
  · intro member
    exact Std.ExtTreeMap.getElem?_ofList_of_mem Std.ReflCmp.compare_self distinct member

theorem toList_ofList {entries : List (Key × Value)}
    (ascending : entries.Pairwise fun left right => left.1 < right.1) :
    (Std.ExtTreeMap.ofList entries : OrderedMap Key Value).toList = entries := by
  have built := toList_ascending (Std.ExtTreeMap.ofList entries : OrderedMap Key Value)
  have same : (Std.ExtTreeMap.ofList entries : OrderedMap Key Value).toList.Perm entries := by
    apply (List.perm_ext_iff_of_nodup _ _).mpr
    · rintro ⟨key, value⟩
      exact mem_ofList ascending
    · exact built.imp fun less => ne_of_apply_ne Prod.fst (ne_of_lt less)
    · exact ascending.imp fun less => ne_of_apply_ne Prod.fst (ne_of_lt less)
  apply same.eq_of_pairwise _ built ascending
  intro a b _ _ less greater
  exact absurd less (lt_asymm greater)

theorem ofList_toList (map : OrderedMap Key Value) :
    (Std.ExtTreeMap.ofList map.toList : OrderedMap Key Value) = map :=
  Std.ExtTreeMap.toList_inj.mp (toList_ofList (toList_ascending map))

end OrderedMap

theorem fixed64_exact : Exact Signature.bytes Decoder.fixed64 (fun _ => True) where
  reads {signature} rest _ := by
    have length := signature.length_eq
    have enough : 64 ≤ (signature.bytes ++ rest).length := by
      rw [List.length_append]
      omega
    have front : (signature.bytes ++ rest).take 64 = signature.bytes := by
      rw [← length, List.take_left]
    have back : (signature.bytes ++ rest).drop 64 = rest := by
      rw [← length, List.drop_left]
    simp only [Decoder.fixed64, enough, ↓reduceDIte, front, back]
  spells {bytes _ _} accepted := by
    unfold Decoder.fixed64 at accepted
    split at accepted
    · cases accepted
      exact ⟨(List.take_append_drop 64 bytes).symm, trivial⟩
    · cases accepted

namespace RosterFormat

theorem parent_exact : Exact encodeParent decodeParent (fun _ => True) where
  reads {parentHash} rest _ := by
    cases parentHash with
    | none => rfl
    | some parentHash =>
        simp only [decodeParent, encodeParent, List.append_assoc, Decoder.u8_append,
          Decoder.fixed32_append, Except.mapError, Except.ok_bind]
        rfl
  spells accepted := by
    obtain ⟨⟨tag, fields⟩, tagged, decoded⟩ := Except.bind_ok accepted
    obtain ⟨rfl, -⟩ := u8_exact.spells (Except.mapError_ok tagged)
    dsimp only at decoded
    split at decoded
    · rename_i zero
      cases decoded
      exact ⟨by rw [zero]; rfl, trivial⟩
    split at decoded
    · rename_i one
      obtain ⟨⟨parentHash, last⟩, hashed, built⟩ := Except.bind_ok decoded
      cases built
      obtain ⟨rfl, -⟩ := fixed32_exact.spells (Except.mapError_ok hashed)
      exact ⟨by rw [one, encodeParent, List.append_assoc], trivial⟩
    · cases decoded

theorem RosterMember.new_ok {endpointId : EndpointId} {deviceName : String} {member : RosterMember}
    (built : RosterMember.new endpointId deviceName = .ok member) :
    member.endpointId = endpointId ∧ member.deviceName.text = deviceName := by
  obtain ⟨name, parsed, built⟩ := Except.bind_ok built
  cases built
  exact ⟨rfl, DeviceName.parse_ok parsed⟩

theorem member_exact : Exact encodeMember decodeMember (fun _ => True) where
  reads {member} rest _ := by
    simp only [decodeMember, encodeMember, List.append_assoc, Decoder.fixed32_append,
      Except.mapError, Except.ok_bind, Decoder.string_append _ member.deviceName.fits,
      RosterMember.new, DeviceName.parse_text]
    rfl
  spells accepted := by
    obtain ⟨⟨endpointId, afterId⟩, first, naming⟩ := Except.bind_ok accepted
    obtain ⟨⟨deviceName, last⟩, second, building⟩ := Except.bind_ok naming
    obtain ⟨member, built, returned⟩ := Except.bind_ok building
    cases returned
    obtain ⟨rfl, -⟩ := fixed32_exact.spells (Except.mapError_ok first)
    obtain ⟨rfl, -⟩ := string_exact.spells (Except.mapError_ok second)
    obtain ⟨sameId, sameName⟩ := RosterMember.new_ok built
    exact ⟨by rw [encodeMember, sameId, sameName, List.append_assoc], trivial⟩

theorem change_exact : Exact encodeChange decodeChange (fun _ => True) where
  reads {change} rest _ := by
    cases change with
    | initial member =>
        simp only [decodeChange, encodeChange, List.append_assoc, Decoder.u8_append,
          Except.mapError, Except.ok_bind, member_exact.reads _ trivial]
        rfl
    | admitMember member =>
        simp only [decodeChange, encodeChange, List.append_assoc, Decoder.u8_append,
          Except.mapError, Except.ok_bind, member_exact.reads _ trivial]
        rfl
    | remove endpointId =>
        simp only [decodeChange, encodeChange, List.append_assoc, Decoder.u8_append,
          Except.mapError, Except.ok_bind, Decoder.fixed32_append]
        rfl
  spells accepted := by
    obtain ⟨⟨tag, fields⟩, tagged, decoded⟩ := Except.bind_ok accepted
    obtain ⟨rfl, -⟩ := u8_exact.spells (Except.mapError_ok tagged)
    dsimp only at decoded
    split at decoded
    · rename_i zero
      obtain ⟨⟨member, last⟩, read, built⟩ := Except.bind_ok decoded
      cases built
      obtain ⟨rfl, -⟩ := member_exact.spells read
      exact ⟨by rw [zero, encodeChange, List.append_assoc], trivial⟩
    split at decoded
    · rename_i one
      obtain ⟨⟨member, last⟩, read, built⟩ := Except.bind_ok decoded
      cases built
      obtain ⟨rfl, -⟩ := member_exact.spells read
      exact ⟨by rw [one, encodeChange, List.append_assoc], trivial⟩
    split at decoded
    · rename_i two
      obtain ⟨⟨endpointId, last⟩, read, built⟩ := Except.bind_ok decoded
      cases built
      obtain ⟨rfl, -⟩ := fixed32_exact.spells (Except.mapError_ok read)
      exact ⟨by rw [two, encodeChange, List.append_assoc], trivial⟩
    · cases decoded

/-- The keys are strictly increasing and above the key before. -/
def Ascending : Option EndpointId → List (EndpointId × DeviceName) → Prop
  | _, [] => True
  | previous, entry :: rest =>
      (∀ key, previous = some key → key < entry.1) ∧ Ascending (some entry.1) rest

theorem ascending_some {key : EndpointId} {entries : List (EndpointId × DeviceName)} :
    Ascending (some key) entries ↔
      (∀ entry ∈ entries, key < entry.1) ∧
        entries.Pairwise fun left right => left.1 < right.1 := by
  induction entries generalizing key with
  | nil => simp [Ascending]
  | cons entry rest ih =>
      rw [Ascending, ih, List.forall_mem_cons, List.pairwise_cons]
      constructor
      · rintro ⟨first, above, sorted⟩
        have less := first key rfl
        exact ⟨⟨less, fun other member => less.trans (above other member)⟩, above, sorted⟩
      · rintro ⟨⟨less, -⟩, above, sorted⟩
        refine ⟨fun other same => ?_, above, sorted⟩
        rwa [← Option.some.inj same]

theorem ascending_none {entries : List (EndpointId × DeviceName)} :
    Ascending none entries ↔ entries.Pairwise fun left right => left.1 < right.1 := by
  cases entries with
  | nil => simp [Ascending]
  | cons entry rest => simp [Ascending, ascending_some]

theorem entries_exact (count : Nat) (previous : Option EndpointId) :
    Exact (List.flatMap encodeEntry) (decodeEntries count previous)
      (fun entries => entries.length = count ∧ Ascending previous entries) where
  reads {entries} rest fits := by
    obtain ⟨length, ascending⟩ := fits
    induction entries generalizing count previous with
    | nil =>
        subst length
        rfl
    | cons entry others ih =>
        rw [List.length_cons] at length
        subst length
        obtain ⟨above, ascending⟩ := ascending
        have fresh : (previous.any fun key => decide (entry.1 ≤ key)) = false := by
          cases previous with
          | none => rfl
          | some key => simpa using above key rfl
        simp only [decodeEntries, List.flatMap_cons, encodeEntry, encodeMember, List.append_assoc,
          Decoder.fixed32_append, Except.mapError, Except.ok_bind, fresh, Bool.false_eq_true,
          ↓reduceIte, Decoder.string_append _ entry.2.fits, DeviceName.parse_text]
        have tail := ih _ _ rfl ascending
        simp only [tail, Except.ok_bind]
        rfl
  spells {bytes entries rest} accepted := by
    induction count generalizing previous bytes entries with
    | zero =>
        cases accepted
        simp [Ascending]
    | succ count ih =>
        obtain ⟨⟨endpointId, afterId⟩, first, checking⟩ := Except.bind_ok accepted
        dsimp only at checking
        split at checking
        · cases checking
        rename_i above
        obtain ⟨⟨deviceName, afterName⟩, second, naming⟩ := Except.bind_ok checking
        obtain ⟨name, parsed, looping⟩ := Except.bind_ok naming
        obtain ⟨⟨others, last⟩, tail, returned⟩ := Except.bind_ok looping
        cases returned
        obtain ⟨rfl, -⟩ := fixed32_exact.spells (Except.mapError_ok first)
        obtain ⟨rfl, -⟩ := string_exact.spells (Except.mapError_ok second)
        obtain ⟨rfl, length, ascending⟩ := ih _ tail
        refine ⟨?_, ?_, ?_, ascending⟩
        · simp only [List.flatMap_cons, encodeEntry, encodeMember, DeviceName.parse_ok parsed,
            List.append_assoc]
        · rw [List.length_cons, length]
        · intro key same
          subst same
          simpa using above

end RosterFormat

theorem UnsignedRevision.exact (maxMembers : Nat) :
    Exact UnsignedRevision.unsignedCanonicalBytes
      (fun bytes => UnsignedRevision.decode bytes maxMembers)
      (fun revision => revision.members.size ≤ maxMembers) where
  reads {revision} rest allowed := by
    obtain ⟨groupId, number, parentHash, members, change, author, fits⟩ := revision
    change members.size ≤ maxMembers at allowed
    have within : ¬ maxMembers < members.size := by omega
    have numberFits : number.toNat < 2 ^ 64 := number.toNat_lt
    have listed : members.toList.length = members.size ∧ Ascending none members.toList :=
      ⟨Std.ExtTreeMap.length_toList, ascending_none.mpr (OrderedMap.toList_ascending members)⟩
    simp only [UnsignedRevision.decode, UnsignedRevision.unsignedCanonicalBytes,
      List.append_assoc, Decoder.new_append, Except.mapError, Except.ok_bind,
      Decoder.fixed32_append, Decoder.u64_append _ numberFits, parent_exact.reads _ trivial,
      Decoder.u32_append _ fits, within, ↓reduceIte, (entries_exact _ none).reads _ listed,
      change_exact.reads _ trivial, OrderedMap.ofList_toList, fits, ↓reduceDIte,
      UInt64.ofNat_toNat]
    rfl
  spells {bytes revision rest} accepted := by
    unfold UnsignedRevision.decode at accepted
    obtain ⟨start, versioned, afterDomain⟩ := Except.bind_ok accepted
    obtain ⟨⟨groupId, r₁⟩, grouped, afterGroup⟩ := Except.bind_ok afterDomain
    obtain ⟨⟨number, r₂⟩, numbered, afterNumber⟩ := Except.bind_ok afterGroup
    obtain ⟨⟨parentHash, r₃⟩, linked, afterParent⟩ := Except.bind_ok afterNumber
    obtain ⟨⟨count, r₄⟩, counted, afterCount⟩ := Except.bind_ok afterParent
    dsimp only at afterCount
    split at afterCount
    · cases afterCount
    rename_i within
    obtain ⟨⟨entries, r₅⟩, listed, afterMembers⟩ := Except.bind_ok afterCount
    obtain ⟨⟨change, r₆⟩, changed, afterChange⟩ := Except.bind_ok afterMembers
    obtain ⟨⟨author, r₇⟩, authored, building⟩ := Except.bind_ok afterChange
    dsimp only at building
    split at building
    swap
    · cases building
    rename_i fits
    cases building
    obtain ⟨rfl, -⟩ := fixed32_exact.spells (Except.mapError_ok grouped)
    obtain ⟨rfl, numberFits⟩ := u64_exact.spells (Except.mapError_ok numbered)
    obtain ⟨rfl, -⟩ := parent_exact.spells linked
    obtain ⟨rfl, -⟩ := u32_exact.spells (Except.mapError_ok counted)
    obtain ⟨rfl, length, ascending⟩ := (entries_exact _ none).spells listed
    obtain ⟨rfl, -⟩ := change_exact.spells changed
    obtain ⟨rfl, -⟩ := fixed32_exact.spells (Except.mapError_ok authored)
    have sameList := OrderedMap.toList_ofList (ascending_none.mp ascending)
    have size : (Std.ExtTreeMap.ofList entries : Members).size = count := by
      rw [← Std.ExtTreeMap.length_toList, sameList, length]
    refine ⟨?_, ?_⟩
    · simp only [UnsignedRevision.unsignedCanonicalBytes,
        Decoder.new_ok (Except.mapError_ok versioned),
        sameList, size, UInt64.toNat_ofNat', Nat.mod_eq_of_lt numberFits, List.append_assoc]
    · show (Std.ExtTreeMap.ofList entries : Members).size ≤ maxMembers
      omega

namespace UnsignedRevision

/-- The signed bytes determine every field they cover. -/
theorem unsignedCanonicalBytes_injective : Function.Injective unsignedCanonicalBytes := by
  intro a b same
  have ended : a.unsignedCanonicalBytes ++ [] = b.unsignedCanonicalBytes ++ [] := by rw [same]
  have exact := UnsignedRevision.exact (a.members.size + b.members.size)
  exact (exact.cancel (Nat.le_add_right _ _) (Nat.le_add_left _ _) ended).1

end UnsignedRevision

namespace RosterRevision

theorem fromCanonicalWithMemberLimit_canonicalBytes {revision : RosterRevision} {maxMembers : Nat}
    (allowed : revision.members.size ≤ maxMembers) :
    fromCanonicalWithMemberLimit revision.canonicalBytes maxMembers = .ok revision := by
  have unsigned := (UnsignedRevision.exact maxMembers).reads revision.signature.bytes allowed
  have signature := fixed64_exact.reads (a := revision.signature) [] trivial
  rw [List.append_nil] at signature
  simp only [fromCanonicalWithMemberLimit, canonicalBytes, unsigned, Except.ok_bind, signature,
    Except.mapError, Decoder.finish, ↓reduceIte]
  rfl

theorem fromCanonical_canonicalBytes (revision : RosterRevision) :
    fromCanonical revision.canonicalBytes = .ok revision := by
  have fits := revision.members_fit
  apply fromCanonicalWithMemberLimit_canonicalBytes
  omega

/-- What `from_canonical_with_member_limit` accepts. -/
theorem fromCanonicalWithMemberLimit_ok {bytes : List UInt8} {maxMembers : Nat}
    {revision : RosterRevision}
    (accepted : fromCanonicalWithMemberLimit bytes maxMembers = .ok revision) :
    revision.canonicalBytes = bytes ∧ revision.members.size ≤ maxMembers := by
  unfold fromCanonicalWithMemberLimit at accepted
  obtain ⟨⟨unsigned, afterFields⟩, first, signing⟩ := Except.bind_ok accepted
  obtain ⟨⟨signature, last⟩, second, finishing⟩ := Except.bind_ok signing
  obtain ⟨⟨⟩, finished, checking⟩ := Except.bind_ok finishing
  dsimp only at checking
  split at checking
  · rename_i canonical
    cases checking
    exact ⟨canonical, ((UnsignedRevision.exact maxMembers).spells first).2⟩
  · cases checking

theorem canonicalBytes_injective : Function.Injective canonicalBytes := by
  intro a b same
  have decoded := fromCanonical_canonicalBytes a
  rw [same, fromCanonical_canonicalBytes] at decoded
  exact (Except.ok.inj decoded).symm

end RosterRevision

/-- Reading what was written, and writing what was read, for revisions; the bytes a signature
covers determine all fields but the signature. -/
theorem roster_format_bijective :
    (∀ revision : RosterRevision,
      RosterRevision.fromCanonical revision.canonicalBytes = .ok revision) ∧
    (∀ bytes maxMembers revision,
      RosterRevision.fromCanonicalWithMemberLimit bytes maxMembers = .ok revision →
        revision.canonicalBytes = bytes ∧ revision.members.toList.length ≤ maxMembers ∧
        revision.members.toList.Pairwise fun left right => left.1 < right.1) ∧
    (∀ a b : RosterRevision, a.unsignedCanonicalBytes = b.unsignedCanonicalBytes →
      a.groupId = b.groupId ∧ a.number = b.number ∧ a.parentHash = b.parentHash ∧
      a.members = b.members ∧ a.change = b.change ∧ a.author = b.author) ∧
    ∀ a b : RosterRevision, a.canonicalBytes = b.canonicalBytes → a = b := by
  refine ⟨RosterRevision.fromCanonical_canonicalBytes, ?_, ?_,
    fun a b same => RosterRevision.canonicalBytes_injective same⟩
  · intro bytes maxMembers revision accepted
    obtain ⟨spelled, within⟩ := RosterRevision.fromCanonicalWithMemberLimit_ok accepted
    refine ⟨spelled, ?_, OrderedMap.toList_ascending revision.members⟩
    rw [Std.ExtTreeMap.length_toList]
    exact within
  · intro a b same
    have equal := UnsignedRevision.unsignedCanonicalBytes_injective same
    rw [equal]
    exact ⟨rfl, rfl, rfl, rfl, rfl, rfl⟩

end Skillsync
