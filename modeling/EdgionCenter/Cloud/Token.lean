import EdgionCenter.Cloud.RecordSet
import EdgionCenter.Lib.Base64
import EdgionCenter.Lib.JsonText

/-! Opaque tokens: a payload in JSON and its authentication code, in base64. -/
namespace EdgionCenter

open JsonText

/-- HMAC with SHA-256. -/
class Hmac (Key : Type) where
  mac : Key → List UInt8 → List UInt8
  mac_length : ∀ key message, (mac key message).length = 32

/-- `serde_json::to_vec`. -/
class Serialize (α : Type) where
  toVec : α → List UInt8

/-- `serde_json::from_slice`, which reads what was written. -/
class Deserialize (α : Type) [Serialize α] where
  fromSlice : List UInt8 → Option α
  fromSlice_toVec : ∀ a, fromSlice (Serialize.toVec a) = some a

theorem toVec_injective {α : Type} [Serialize α] [Deserialize α] :
    Function.Injective (Serialize.toVec : α → List UInt8) := by
  intro a b h
  have hread := congrArg (Deserialize.fromSlice (α := α)) h
  rwa [Deserialize.fromSlice_toVec, Deserialize.fromSlice_toVec, Option.some.injEq] at hread

/-- Any reader of what was written. -/
@[reducible] noncomputable def readBack {α : Type} [Serialize α]
    (h : Function.Injective (Serialize.toVec : α → List UInt8)) : Deserialize α :=
  ⟨Function.partialInv Serialize.toVec, fun a => Function.partialInv_left h a⟩

/-- `URL_SAFE_NO_PAD.encode`. -/
def base64 (bytes : List UInt8) : String := String.ofList (Base64.encode bytes)

theorem base64_injective : Function.Injective base64 := by
  intro a b h
  exact Base64.encode_injective (String.ofList_injective h)

/-- `URL_SAFE_NO_PAD.decode`. -/
def decodeBase64 (text : String) : Option (List UInt8) := Base64.decode text.toList

@[simp] theorem decodeBase64_base64 (bytes : List UInt8) :
    decodeBase64 (base64 bytes) = some bytes := by
  rw [decodeBase64, base64, String.toList_ofList, Base64.decode_encode]

variable {bytes : List UInt8} {c : Char} {text : List Char}

theorem isGraphic_base64 (h : c ∈ (base64 bytes).toList) : isGraphic c = true := by
  have hall : Base64.alphabet.all isGraphic = true := by decide
  rw [base64, String.toList_ofList] at h
  exact List.all_eq_true.mp hall c (Base64.mem_alphabet_of_mem_encode h)

theorem base64_length (bytes : List UInt8) :
    (base64 bytes).toList.length = (4 * bytes.length + 2) / 3 := by
  rw [base64, String.toList_ofList, Base64.length_encode]

theorem utf8Len_base64 (bytes : List UInt8) :
    utf8Len (base64 bytes).toList = (4 * bytes.length + 2) / 3 := by
  rw [utf8Len_of_graphic fun c hc => isGraphic_base64 hc, base64_length]

section Sealing

variable {Key : Type} [Hmac Key] {key key' : Key} {domain payload signature : List UInt8}

/-- `authenticated.split_at(authenticated.len() - 32)`. -/
def splitSignature (authenticated : List UInt8) : List UInt8 × List UInt8 :=
  authenticated.splitAt (authenticated.length - 32)

/-- The payload with the code for it in some domain. -/
def authenticate (key : Key) (domain payload : List UInt8) : List UInt8 :=
  payload ++ Hmac.mac key (domain ++ payload)

def verifySignature (key : Key) (domain payload signature : List UInt8) : Bool :=
  Hmac.mac key (domain ++ payload) == signature

@[simp] theorem length_authenticate :
    (authenticate key domain payload).length = payload.length + 32 := by
  rw [authenticate, List.length_append, Hmac.mac_length]

@[simp] theorem splitSignature_authenticate : splitSignature (authenticate key domain payload) =
      (payload, Hmac.mac key (domain ++ payload)) := by
  rw [splitSignature, length_authenticate, Nat.add_sub_cancel, authenticate, List.splitAt_eq,
    List.take_left, List.drop_left]

@[simp] theorem verifySignature_eq_true : verifySignature key domain payload signature = true ↔
      Hmac.mac key (domain ++ payload) = signature := by
  simp [verifySignature]

end Sealing

/-- No message has the same code under two keys. -/
def KeySeparating (Key : Type) [Hmac Key] : Prop :=
  ∀ (key key' : Key) (message : List UInt8),
    Hmac.mac key message = Hmac.mac key' message → key = key'

end EdgionCenter
