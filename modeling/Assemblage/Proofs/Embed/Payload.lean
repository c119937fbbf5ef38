import Assemblage.Embed.Container
import Assemblage.Proofs.Base64

/-!
# Embedded payloads

What is embedded is a base64 text that holds the payload and nothing of its owner: strict decoding
gives the payload back, whatever the two are.

Main statement: `Blob.ofPayload_decode`.
-/

namespace Assemblage.Blob
set_option autoImplicit false
open Assemblage.Text (Bytes)

theorem toList_ofPayload (owner : String) (payload : Bytes) :
    (ofPayload owner payload).base64.toList = Base64.encode payload := by
  rw [ofPayload, String.toList_ofList]

theorem decode_ofPayload (owner : String) (payload : Bytes) :
    (ofPayload owner payload).decode = .ok payload := by
  rw [decode, toList_ofPayload, Base64.decode_encode_bytes]

/-- **An embedded payload is read back**, never refused, from a text of the standard form. So the
texts of two payloads are the same only if the payloads are, whoever owns them. -/
theorem ofPayload_decode (owner : String) (payload : Bytes) :
    (ofPayload owner payload).decode = .ok payload ∧
    Base64.Form payload.length (ofPayload owner payload).base64.toList ∧
    ∀ owner' payload', (ofPayload owner' payload').base64 = (ofPayload owner payload).base64 ↔
      payload' = payload := by
  refine ⟨decode_ofPayload owner payload, ?_, fun owner' payload' => ⟨fun h => ?_, ?_⟩⟩
  · rw [toList_ofPayload]
    exact Base64.form_encode payload
  · have hdecode := decode_ofPayload owner' payload'
    rw [decode, h, ← decode, decode_ofPayload] at hdecode
    exact (Except.ok.inj hdecode).symm
  · rintro rfl
    rfl

end Assemblage.Blob
