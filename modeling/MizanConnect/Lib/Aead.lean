import Mathlib.Data.List.Basic

/-!
# `MizanConnect.Lib.Aead`: authenticated encryption

`Aead` is a seal and an open over keys and nonces, and `Aead.Sound` says what
a deterministic one promises: sealing adds a tag of fixed length, and opening
inverts it in both directions. `StreamTag` is the shape of the counter modes
(a key stream and a tag over the ciphertext); every one of them is sound
(`StreamTag.sound`).
-/

set_option autoImplicit false

/-- The sealing and opening of texts. `none` is a failure. -/
structure Aead (Key Nonce : Type) where
  encrypt : Key → Nonce → List UInt8 → Option (List UInt8)
  decrypt : Key → Nonce → List UInt8 → Option (List UInt8)

namespace Aead

variable {Key Nonce : Type}

/-- Sealing works and adds `tagLength` bytes, and `decrypt` accepts exactly what
`encrypt` gives for the same key and nonce. -/
structure Sound (a : Aead Key Nonce) (tagLength : Nat) : Prop where
  total : ∀ k n p, ∃ c, a.encrypt k n p = some c ∧ c.length = p.length + tagLength
  decrypt_encrypt : ∀ k n p c, a.encrypt k n p = some c → a.decrypt k n c = some p
  encrypt_decrypt : ∀ k n p c, a.decrypt k n c = some p → a.encrypt k n p = some c

variable {a : Aead Key Nonce} {tagLength : Nat} (ha : a.Sound tagLength)
include ha

theorem Sound.decrypt_eq_some_iff {k : Key} {n : Nonce} {p c : List UInt8} :
    a.decrypt k n c = some p ↔ a.encrypt k n p = some c :=
  ⟨ha.encrypt_decrypt k n p c, ha.decrypt_encrypt k n p c⟩

end Aead

/-- A key stream, one byte for each position, and a tag over the ciphertext. -/
structure StreamTag (Key Nonce : Type) (tagLength : Nat) where
  stream : Key → Nonce → Nat → UInt8
  tag : Key → Nonce → List UInt8 → List UInt8
  length_tag : ∀ k n c, (tag k n c).length = tagLength

namespace StreamTag

variable {Key Nonce : Type} {tagLength : Nat} (m : StreamTag Key Nonce tagLength)

/-- The text under the key stream. -/
def mask (k : Key) (n : Nonce) (bs : List UInt8) : List UInt8 :=
  bs.mapIdx fun i b => b ^^^ m.stream k n i

/-- The masked text with its tag; opening checks the tag first. -/
def toAead : Aead Key Nonce where
  encrypt k n p := some (m.mask k n p ++ m.tag k n (m.mask k n p))
  decrypt k n c :=
    let body := c.take (c.length - tagLength)
    if c.drop (c.length - tagLength) = m.tag k n body then some (m.mask k n body) else none

/-- Masking twice changes nothing. -/
theorem mask_mask (k : Key) (n : Nonce) (bs : List UInt8) :
    m.mask k n (m.mask k n bs) = bs := by
  have hcancel : ∀ b s : UInt8, b ^^^ s ^^^ s = b := by
    intro b s
    rw [UInt8.xor_assoc, UInt8.xor_self, UInt8.xor_zero]
  refine List.ext_getElem (by simp [mask]) ?_
  intro i _ _
  simp only [mask, List.getElem_mapIdx, hcancel]

@[simp] theorem length_mask (k : Key) (n : Nonce) (bs : List UInt8) :
    (m.mask k n bs).length = bs.length := List.length_mapIdx

theorem sound : m.toAead.Sound tagLength where
  total k n p := ⟨_, rfl, by simp [m.length_tag]⟩
  decrypt_encrypt k n p c h := by
    cases h
    have hcut : (m.mask k n p ++ m.tag k n (m.mask k n p)).length - tagLength =
        (m.mask k n p).length := by
      rw [List.length_append, m.length_tag, Nat.add_sub_cancel]
    simp only [toAead, hcut, List.take_left, List.drop_left, if_true, mask_mask]
  encrypt_decrypt k n p c h := by
    simp only [toAead] at h ⊢
    split at h
    · rename_i htag
      cases h
      rw [mask_mask, ← htag, List.take_append_drop]
    · cases h

end StreamTag
