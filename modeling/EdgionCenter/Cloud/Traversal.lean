import EdgionCenter.Cloudflare.Paging
import EdgionCenter.Route53.Paging

/-! Both adapters return an inventory exactly once, whatever the size of its pages. -/
namespace EdgionCenter

open Fallible Paging

section Adapters

variable {Key T : Type} [Platform] [Hmac Key]

namespace Cloudflare

section Specification

variable [Deserialize Cursor] [Serialize (List T)]

end Specification

variable [Deserialize Cursor] [Serialize (List T)]

end Cloudflare

namespace Route53

section Specification

variable [Deserialize CursorToken] [Sha256Base64 (List T)]

end Specification

variable [Deserialize CursorToken] [Sha256Base64 (List T)]

end Route53

end Adapters

/-! ### Three items, two a page -/

/-- A code that keeps the end of the message. -/
@[reducible] def tailHmac : Hmac Bool where
  mac key message := (if key then 1 else 0) :: (message.reverse ++ List.replicate 31 0).take 31
  mac_length key message := by simp

@[reducible] def bytesSerialize : Serialize (List UInt8) := ⟨id⟩

@[reducible] def bytesDeserialize : @Deserialize (List UInt8) bytesSerialize :=
  @Deserialize.mk _ bytesSerialize some fun _ => rfl

@[reducible] def bytesDigest : Route53.Sha256Base64 (List UInt8) where
  text items := base64 ((items ++ List.replicate 32 0).take 32)
  text_length items := by
    rw [base64_length]
    simp
  text_chars items c hc := by
    have hall : Base64.alphabet.all (fun c => c.isAlphanum || c == '-' || c == '_') = true := by
      decide
    rw [base64, String.toList_ofList] at hc
    have := List.all_eq_true.mp hall c (Base64.mem_alphabet_of_mem_encode hc)
    simpa [or_assoc] using this

noncomputable instance readCursor : Deserialize Cloudflare.Cursor :=
  readBack fun _ _ h => Cloudflare.Cursor.json_injective (utf8_injective h)

noncomputable instance readCursorToken : Deserialize Route53.CursorToken :=
  readBack fun _ _ h => Route53.CursorToken.json_injective (utf8_injective h)

section Sample

attribute [local instance] asciiPlatform tailHmac bytesSerialize bytesDeserialize bytesDigest

end Sample

end EdgionCenter
