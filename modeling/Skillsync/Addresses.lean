import Skillsync.Protocol
import Skillsync.State

set_option autoImplicit false

namespace Skillsync

/-- `Display` of an `EndpointId`. -/
def endpointText (id : EndpointId) : String :=
  String.ofList (id.bytes.flatMap fun byte =>
    [Json.hexDigit (byte.toNat / 16), Json.hexDigit (byte.toNat % 16)])

/-- `hex_nibble` -/
def hexNibble (byte : UInt8) : Option UInt8 :=
  if 48 ≤ byte ∧ byte ≤ 57 then some (byte - 48)
  else if 97 ≤ byte ∧ byte ≤ 102 then some (byte - 97 + 10)
  else if 65 ≤ byte ∧ byte ≤ 70 then some (byte - 65 + 10)
  else none

/-- The loop of `EndpointId::from_str`. -/
def hexBytes : List UInt8 → Option (List UInt8)
  | [] => some []
  | [_] => none
  | high :: low :: rest => do
      let first ← hexNibble high
      let second ← hexNibble low
      let others ← hexBytes rest
      return (first <<< 4 ||| second) :: others

/-- `EndpointId::from_str` -/
def endpointFromStr (value : String) : Option EndpointId :=
  if (utf8 value).length ≠ 64 then none
  else
    match hexBytes (utf8 value) with
    | none => none
    | some bytes => if size : bytes.length = 32 then some ⟨bytes, size⟩ else none

theorem utf8_ofList (text : List Char) :
    utf8 (String.ofList text) = text.flatMap String.utf8EncodeChar := by
  show (String.ofList text).toByteArray.data.toList = _
  rw [String.toByteArray_ofList]
  induction text with
  | nil => rfl
  | cons c rest ih =>
      rw [List.utf8Encode_cons, ByteArray.data_append, Array.toList_append, ih,
        List.utf8Encode_singleton, List.flatMap_cons]
      simp

theorem hexNibble_digit {n : Nat} (digit : n < 16) :
    String.utf8EncodeChar (Json.hexDigit n) = [UInt8.ofNat (Json.hexDigit n).toNat] ∧
      hexNibble (UInt8.ofNat (Json.hexDigit n).toNat) = some (UInt8.ofNat n) := by
  have all : ∀ n : Fin 16,
      String.utf8EncodeChar (Json.hexDigit n) = [UInt8.ofNat (Json.hexDigit n).toNat] ∧
        hexNibble (UInt8.ofNat (Json.hexDigit n).toNat) = some (UInt8.ofNat n) := by decide
  exact all ⟨n, digit⟩

theorem nibbles_join (byte : UInt8) :
    UInt8.ofNat (byte.toNat / 16) <<< 4 ||| UInt8.ofNat (byte.toNat % 16) = byte := by
  have all : ∀ n : Fin 256, UInt8.ofNat (n.val / 16) <<< 4 ||| UInt8.ofNat (n.val % 16) =
      UInt8.ofNat n.val := by decide +kernel
  rw [all ⟨byte.toNat, byte.toNat_lt⟩]
  exact UInt8.ofNat_toNat

theorem hexBytes_text (bytes : List UInt8) :
    hexBytes ((bytes.flatMap fun byte =>
      [Json.hexDigit (byte.toNat / 16), Json.hexDigit (byte.toNat % 16)]).flatMap
        String.utf8EncodeChar) = some bytes := by
  induction bytes with
  | nil => rfl
  | cons byte rest ih =>
      have small := byte.toNat_lt
      obtain ⟨high, highRead⟩ := hexNibble_digit (show byte.toNat / 16 < 16 by omega)
      obtain ⟨low, lowRead⟩ := hexNibble_digit (show byte.toNat % 16 < 16 by omega)
      simp only [List.flatMap_cons, high, low, List.cons_append, List.nil_append, hexBytes,
        highRead, lowRead, ih, Option.bind_eq_bind, Option.bind_some, nibbles_join]
      rfl

theorem length_hexBytes {text bytes : List UInt8} (read : hexBytes text = some bytes) :
    text.length = 2 * bytes.length := by
  induction text using hexBytes.induct generalizing bytes with
  | case1 =>
      cases read
      rfl
  | case2 => cases read
  | case3 high low rest ih =>
      simp only [hexBytes, Option.bind_eq_bind, Option.bind_eq_some_iff] at read
      obtain ⟨first, -, second, -, others, tail, whole⟩ := read
      cases whole
      rw [List.length_cons, List.length_cons, ih tail, List.length_cons]
      omega

/-- The text of an endpoint is read back. -/
theorem endpointFromStr_text (id : EndpointId) : endpointFromStr (endpointText id) = some id := by
  have spelled := utf8_ofList (id.bytes.flatMap fun byte =>
    [Json.hexDigit (byte.toNat / 16), Json.hexDigit (byte.toNat % 16)])
  have read := hexBytes_text id.bytes
  rw [← spelled] at read
  have size : (utf8 (endpointText id)).length = 64 := by
    rw [endpointText, length_hexBytes read, id.length_eq]
  unfold endpointFromStr
  rw [if_neg (not_not.mpr size), endpointText, read]
  dsimp only
  rw [dif_pos id.length_eq]

theorem endpointText_injective : Function.Injective endpointText := by
  intro a b same
  have read := endpointFromStr_text a
  rw [same, endpointFromStr_text] at read
  exact (Option.some.inj read).symm

def maxEndpointAddrs : Nat := 32

/-- What the program reads of an `EndpointAddr`: its endpoint and the number of its
addresses. -/
structure EndpointAddr where
  id : EndpointId
  addrs : Nat
deriving DecidableEq

/-- The JSON form of an `EndpointAddr`. -/
class AddrJson where
  fromStr : String → Option EndpointAddr

/-- The JSON text of an endpoint without addresses. -/
def bareAddr (id : EndpointId) : String :=
  "\x7b\"id\":\"" ++ endpointText id ++ "\",\"addrs\":[]\x7d"

/-- The addresses of a few devices without addresses, to evaluate the model on concrete inputs. -/
@[reducible] def AddrJson.bare : AddrJson where
  fromStr encoded :=
    ([1, 2, 3].find? fun byte => encoded == bareAddr (.fill byte)).map fun byte =>
      ⟨.fill byte, 0⟩

/-- Why a text is not taken as the address of an endpoint. -/
inductive AddrRefusal
  | size
  | json
  | identity
  | addresses
deriving DecidableEq

section
variable [AddrJson]

/-- The checks of the address of an endpoint, of which `validate_endpoint_addr`,
`decode_peer_hint` and `accept_remote_roster_and_hint` each have a copy. -/
def readAddr (encoded : String) (endpoint : EndpointId) : Except AddrRefusal EndpointAddr :=
  if encoded = "" ∨ maxAddressHintBytes < (utf8 encoded).length then .error .size
  else match AddrJson.fromStr encoded with
    | none => .error .json
    | some addr =>
        if addr.id ≠ endpoint then .error .identity
        else if maxEndpointAddrs < addr.addrs then .error .addresses
        else .ok addr

/-- A text that is taken as the address of an endpoint. -/
structure AddressOf (encoded : String) (endpoint : EndpointId) : Prop where
  nonempty : encoded ≠ ""
  short : (utf8 encoded).length ≤ maxAddressHintBytes
  reads : ∃ addr, AddrJson.fromStr encoded = some addr ∧ addr.id = endpoint ∧
    addr.addrs ≤ maxEndpointAddrs

theorem readAddr_ok {encoded : String} {endpoint : EndpointId} :
    (∃ addr, readAddr encoded endpoint = .ok addr) ↔ AddressOf encoded endpoint := by
  constructor
  · rintro ⟨addr, accepted⟩
    unfold readAddr at accepted
    split at accepted
    · cases accepted
    rename_i sized
    rw [not_or, not_lt] at sized
    split at accepted
    · cases accepted
    rename_i found reads
    split at accepted
    · cases accepted
    rename_i same
    split at accepted
    · cases accepted
    · rename_i few
      exact ⟨sized.1, sized.2, found, reads, not_not.mp same, not_lt.mp few⟩
  · rintro ⟨nonempty, short, addr, reads, rfl, few⟩
    refine ⟨addr, ?_⟩
    have sized : ¬ (encoded = "" ∨ maxAddressHintBytes < (utf8 encoded).length) :=
      not_or.mpr ⟨nonempty, not_lt.mpr short⟩
    unfold readAddr
    rw [if_neg sized, reads]
    dsimp only
    rw [if_neg (not_not.mpr rfl), if_neg (not_lt.mpr few)]

end

end Skillsync
