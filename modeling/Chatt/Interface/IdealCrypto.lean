import Chatt.Model.Crypto

/-!
# Ideal primitives

What a run assumes of the AEAD: a body that opens was sealed, under the same key, with the same
nonce and associated data.  The assumption is made of each body as it is delivered, against the
calls that the sealing functions have made until then.
-/

namespace Chatt

/-- The body is no forgery: if it opens under `key`, its plaintext was sealed by one of the calls.
-/
def Aead.Authentic (aead : Aead) (key : ByteArr 32) (seals : List AeadSeal)
    (nonce aad body : Bytes) : Prop :=
  ∀ plaintext ∈ aead.opened key nonce aad body, ⟨key, nonce, aad, plaintext⟩ ∈ seals

instance Aead.decidableAuthentic (aead : Aead) (key : ByteArr 32) (seals : List AeadSeal)
    (nonce aad body : Bytes) : Decidable (aead.Authentic key seals nonce aad body) :=
  inferInstanceAs (Decidable (∀ plaintext ∈ aead.opened key nonce aad body, _))

/-- An AEAD to run examples with: it writes the plaintext and a tag of zeros. -/
def Aead.sample : Aead where
  sealInPlace _ _ _ buffer := (buffer, some (ByteArr.replicate 16 0))
  openInPlace _ _ _ buffer := (buffer, if 16 ≤ buffer.length then some (buffer.length - 16)
    else none)
  length_seal _ _ _ _ := rfl
  length_open _ _ _ _ := rfl
  open_le _ _ _ buffer len h := by
    split at h
    · cases h
      exact Nat.sub_le _ _
    · cases h

end Chatt
