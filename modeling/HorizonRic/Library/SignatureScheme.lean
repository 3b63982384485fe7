import Mathlib.Logic.Basic

/-!
Signatures over encoded values. A scheme is unforgeable when a signature verifies
under its key for the message that was signed and for no other one; a signed value
is then accepted exactly in the place of values with the same encoding.
-/

structure SignatureScheme (Message Signature : Type) where
  PrivateKey : Type
  PublicKey : Type
  publicKey : PrivateKey → PublicKey
  sign : PrivateKey → Message → Signature
  verify : PublicKey → Signature → Message → Bool

namespace SignatureScheme
variable {Message Signature Content : Type} (scheme : SignatureScheme Message Signature)

structure Unforgeable : Prop where
  verifies : ∀ key message,
    scheme.verify (scheme.publicKey key) (scheme.sign key message) message = true
  onlySigned : ∀ key message other,
    scheme.verify (scheme.publicKey key) (scheme.sign key message) other = true → other = message

/-- Under every key, one its owner made up included, a signature verifies for at most one
    message. -/
def Binding : Prop :=
  ∀ key signature message other, scheme.verify key signature message = true →
    scheme.verify key signature other = true → other = message

variable {scheme}

theorem Unforgeable.verify_encoded_iff (secure : scheme.Unforgeable) (encode : Content → Message)
    (key : scheme.PrivateKey) (signed other : Content) :
    scheme.verify (scheme.publicKey key) (scheme.sign key (encode signed)) (encode other) = true ↔
      encode other = encode signed := by
  constructor
  · exact secure.onlySigned key _ _
  · intro same
    rw [same]
    exact secure.verifies key _

end SignatureScheme
