import MizanConnect.Snaptrade.Encryption
import MizanConnect.Snaptrade.Handlers

/-!
# `MizanConnect.Proofs.Snaptrade.SecretBlob`: the blob of a user secret

A blob is a nonce and what the cipher makes of the secret under it
(`decrypt_eq_ok_iff`), so `decrypt` inverts `encrypt` and accepts nothing that
`encrypt` cannot have written. The cipher is any one with `Aead.Sound`; the
secrets that a handler stores are those it reads back (`SealsWith.decryptSecret_encrypt`).
-/

set_option autoImplicit false

namespace MizanConnect.Proofs.Snaptrade

open MizanConnect.Snaptrade
open MizanConnect.Snaptrade.Encryption

/-- The nonce that a blob starts with. -/
def nonceOf (blob : List UInt8) (h : 28 ≤ blob.length) : Nonce :=
  ⟨blob.take nonceLen, List.length_take_of_le (Nat.le_trans (by decide) h)⟩

section
variable {cipher : Cipher} {key : EncryptionKey}

/-- The blob is cut where `encrypt` has joined it. -/
theorem nonceOf_append (nonce : Nonce) (rest : List UInt8)
    (h : 28 ≤ (nonce.1 ++ rest).length) : nonceOf (nonce.1 ++ rest) h = nonce :=
  Subtype.ext (List.take_left' nonce.2)

theorem decrypt_short {blob : List UInt8} (h : blob.length < 28) :
    decrypt cipher key blob = .error (.blobTooShort blob.length) :=
  dif_pos h

/-- `decrypt` on a blob that is long enough, by what the cipher makes of it. -/
theorem decrypt_long {blob : List UInt8} (h : 28 ≤ blob.length) :
    decrypt cipher key blob =
      match cipher.decrypt key (nonceOf blob h) (blob.drop nonceLen) with
      | none => .error .decryptFailed
      | some plaintext =>
        match Utf8.fromUtf8 plaintext with
        | none => .error .plaintextNotUtf8
        | some secret => .ok secret :=
  dif_neg (Nat.not_lt.mpr h)

theorem decrypt_eq_ok_iff {blob : List UInt8} (h : 28 ≤ blob.length) {p : String} :
    decrypt cipher key blob = .ok p ↔
      cipher.decrypt key (nonceOf blob h) (blob.drop nonceLen) = some (Utf8.encode p.toList) := by
  rw [decrypt_long h]
  constructor
  · intro hok
    cases hopen : cipher.decrypt key (nonceOf blob h) (blob.drop nonceLen) with
    | none =>
      rw [hopen] at hok
      cases hok
    | some plaintext =>
      rw [hopen] at hok
      cases htext : Utf8.fromUtf8 plaintext with
      | none =>
        simp only [htext] at hok
        cases hok
      | some secret =>
        simp only [htext] at hok
        cases hok
        rw [Utf8.fromUtf8_eq_some_iff.mp htext]
  · intro hopen
    rw [hopen]
    simp only [Utf8.fromUtf8_encode]

/-- The blob is too short if and only if there is no room for a nonce and a
tag. -/
theorem decrypt_blobTooShort_iff {blob : List UInt8} :
    (∃ got, decrypt cipher key blob = .error (.blobTooShort got)) ↔ blob.length < 28 := by
  constructor
  · rintro ⟨got, hgot⟩
    by_contra hlong
    rw [decrypt_long (Nat.not_lt.mp hlong)] at hgot
    split at hgot
    · cases hgot
    · split at hgot <;> cases hgot
  · intro hshort
    exact ⟨blob.length, decrypt_short hshort⟩

section
variable (hcipher : cipher.Sound 16)
include hcipher

variable (key) in
/-- What `encrypt` writes. -/
theorem encrypt_ok (nonce : Nonce) (p : String) :
    ∃ ciphertext, cipher.encrypt key nonce (Utf8.encode p.toList) = some ciphertext ∧
      encrypt cipher key nonce p = .ok (nonce.1 ++ ciphertext) ∧
      (nonce.1 ++ ciphertext).length = 28 + (Utf8.encode p.toList).length := by
  obtain ⟨ciphertext, hseal, hlength⟩ :=
    hcipher.total key nonce (Utf8.encode p.toList)
  refine ⟨ciphertext, hseal, by rw [encrypt, hseal], ?_⟩
  rw [List.length_append, nonce.2, hlength, nonceLen]
  omega

/-- A blob is accepted if and only if it is a nonce and the secret sealed
under it. -/
theorem decrypt_eq_ok_iff_sealed {blob : List UInt8} {p : String} :
    decrypt cipher key blob = .ok p ↔ ∃ nonce : Nonce, encrypt cipher key nonce p = .ok blob := by
  constructor
  · intro hok
    have hlong : 28 ≤ blob.length := by
      by_contra hshort
      rw [decrypt_short (Nat.not_le.mp hshort)] at hok
      cases hok
    rw [decrypt_eq_ok_iff hlong, hcipher.decrypt_eq_some_iff] at hok
    refine ⟨nonceOf blob hlong, ?_⟩
    rw [encrypt, hok]
    exact congrArg Except.ok (List.take_append_drop nonceLen blob)
  · rintro ⟨nonce, hencrypt⟩
    obtain ⟨ciphertext, hseal, hblob, hlength⟩ := encrypt_ok key hcipher nonce p
    rw [hblob] at hencrypt
    cases hencrypt
    have hlong : 28 ≤ (nonce.1 ++ ciphertext).length := by omega
    rw [decrypt_eq_ok_iff hlong, nonceOf_append, List.drop_left' nonce.2]
    exact hcipher.decrypt_encrypt _ _ _ _ hseal

/-- The blob format: `decrypt` inverts `encrypt`, and every byte string is
either too short, or accepted exactly when the cipher opens it to a text. -/
theorem secret_blob :
    (∀ (nonce : Nonce) (p : String), ∃ ciphertext,
      cipher.encrypt key nonce (Utf8.encode p.toList) = some ciphertext ∧
      encrypt cipher key nonce p = .ok (nonce.1 ++ ciphertext) ∧
      (nonce.1 ++ ciphertext).length = 28 + (Utf8.encode p.toList).length ∧
      decrypt cipher key (nonce.1 ++ ciphertext) = .ok p) ∧
    ∀ blob : List UInt8,
      ((∃ got, decrypt cipher key blob = .error (.blobTooShort got)) ↔ blob.length < 28) ∧
      (∀ (h : 28 ≤ blob.length) (p : String), decrypt cipher key blob = .ok p ↔
        cipher.decrypt key (nonceOf blob h) (blob.drop 12) = some (Utf8.encode p.toList)) ∧
      ∀ p : String, decrypt cipher key blob = .ok p →
        ∃ (nonce : Nonce) (ciphertext : List UInt8), nonce.1 = blob.take 12 ∧
          cipher.encrypt key nonce (Utf8.encode p.toList) = some ciphertext ∧
          blob = nonce.1 ++ ciphertext := by
  refine ⟨?_, ?_⟩
  · intro nonce p
    obtain ⟨ciphertext, hseal, hblob, hlength⟩ := encrypt_ok key hcipher nonce p
    exact ⟨ciphertext, hseal, hblob, hlength,
      (decrypt_eq_ok_iff_sealed hcipher).mpr ⟨nonce, hblob⟩⟩
  · intro blob
    refine ⟨decrypt_blobTooShort_iff, fun h p => decrypt_eq_ok_iff h, ?_⟩
    intro p hok
    obtain ⟨nonce, hencrypt⟩ := (decrypt_eq_ok_iff_sealed hcipher).mp hok
    obtain ⟨ciphertext, hseal, hblob, -⟩ := encrypt_ok key hcipher nonce p
    rw [hblob] at hencrypt
    cases hencrypt
    exact ⟨nonce, ciphertext, (List.take_left' nonce.2).symm, hseal, rfl⟩

/-- The start-up test passes if and only if the generator did not repeat its
nonce. -/
theorem selfTest_ok_iff {nonce nonce2 : Nonce} :
    selfTest cipher key nonce nonce2 = .ok () ↔ nonce ≠ nonce2 := by
  obtain ⟨c, hseal, hblob, hlength⟩ :=
    encrypt_ok key hcipher nonce "mizan-encryption-self-test"
  obtain ⟨c2, hseal2, hblob2, -⟩ :=
    encrypt_ok key hcipher nonce2 "mizan-encryption-self-test"
  have hopen := (decrypt_eq_ok_iff_sealed hcipher).mpr ⟨nonce, hblob⟩
  have hdistinct : nonce.1 ++ c = nonce2.1 ++ c2 ↔ nonce = nonce2 := by
    constructor
    · intro h
      exact Subtype.ext (List.append_inj_left h (nonce.2.trans nonce2.2.symm))
    · rintro rfl
      rw [hseal] at hseal2
      cases hseal2
      rfl
  have hrun : selfTest cipher key nonce nonce2 =
      if nonce.1 ++ c = nonce2.1 ++ c2 then .error .selfTestFailed else .ok () := by
    simp only [selfTest, hblob, hblob2, bind, Except.bind, hopen]
    rfl
  rw [hrun]
  split
  · rename_i hrepeated
    simp [hdistinct.mp hrepeated]
  · rename_i hfresh
    rw [hdistinct] at hfresh
    simp [hfresh]

/-- The context of the handlers encrypts and decrypts under `key`. -/
structure SealsWith (ctx : BrokerContext) (cipher : Cipher) (key : EncryptionKey) : Prop where
  encrypt : ∀ secret, ∃ nonce, ctx.encrypt secret = (encrypt cipher key nonce secret).toOption
  decrypt : ∀ blob, ctx.decrypt blob = (decrypt cipher key blob).toOption

/-- The secret that a handler stores is the one that every later handler reads
out of the row. -/
theorem SealsWith.decryptSecret_encrypt {ctx : BrokerContext} (h : SealsWith ctx cipher key)
    {secret : String} {blob : List UInt8} (hblob : ctx.encrypt secret = some blob) :
    decryptSecret ctx.toSnaptradeContext blob = .ok secret := by
  obtain ⟨nonce, hencrypt⟩ := h.encrypt secret
  obtain ⟨ciphertext, -, hok, -⟩ := encrypt_ok key hcipher nonce secret
  rw [hencrypt, hok] at hblob
  cases hblob
  have hopen := (decrypt_eq_ok_iff_sealed hcipher).mpr ⟨nonce, hok⟩
  rw [decryptSecret, h.decrypt, hopen]
  rfl

end

end

/-! ### The key of the tests -/

/-- Thirty-two bytes 7. -/
def fixedKey : EncryptionKey := ⟨List.replicate 32 7, by decide⟩

/-- The nonce of zeros. -/
def zeroNonce : Nonce := ⟨List.replicate 12 0, by decide⟩

/-- "hello-snaptrade" under AES-256-GCM with `fixedKey` and `zeroNonce`. -/
def helloSealed : List UInt8 :=
  [9, 189, 200, 222, 148, 191, 120, 134, 128, 119, 251, 22, 165, 31, 46,
    14, 183, 24, 160, 176, 178, 236, 156, 168, 18, 211, 63, 168, 77, 151, 103]

/-- A cipher with the first bytes of the key stream of AES-256-GCM for
`fixedKey` and `zeroNonce`, and its tag of that one text. -/
def fixedCipher : StreamTag EncryptionKey Nonce 16 where
  stream _ _ i :=
    [97, 216, 164, 178, 251, 146, 11, 232, 225, 7, 143, 100, 196, 123, 75].getD i 0
  tag _ _ c := if c = helloSealed.take 15 then helloSealed.drop 15 else List.replicate 16 0
  length_tag _ _ c := by split <;> decide

/-- The blob of the tests' text. -/
theorem secret_blob_hello :
    encrypt fixedCipher.toAead fixedKey zeroNonce "hello-snaptrade" =
        .ok (zeroNonce.1 ++ helloSealed) ∧
      decrypt fixedCipher.toAead fixedKey (zeroNonce.1 ++ helloSealed) = .ok "hello-snaptrade" := by
  obtain ⟨hround, -⟩ := @secret_blob fixedCipher.toAead fixedKey fixedCipher.sound
  obtain ⟨ciphertext, hseal, hblob, -, hopen⟩ := hround zeroNonce "hello-snaptrade"
  have hsealed : fixedCipher.toAead.encrypt fixedKey zeroNonce
      (Utf8.encode "hello-snaptrade".toList) = some helloSealed := by decide
  rw [hsealed] at hseal
  cases hseal
  exact ⟨hblob, hopen⟩

end MizanConnect.Proofs.Snaptrade
