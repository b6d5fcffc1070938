import MizanConnect.Lib.Aead
import MizanConnect.Lib.Utf8

/-!
# `MizanConnect.Snaptrade.Encryption`: the user secret at rest

`src/snaptrade/encryption.rs`. AES-256-GCM is a parameter (`Aead`), and the
nonce that the random generator gives is an input of `encrypt`.
-/

set_option autoImplicit false

namespace MizanConnect.Snaptrade.Encryption

/-- `NONCE_LEN`. -/
def nonceLen : Nat := 12

/-- `KEY_LEN`. -/
def keyLen : Nat := 32

/-- `EncryptionError`. -/
inductive EncryptionError where
  | invalidKeyLength (got : Nat)
  | encryptFailed
  | decryptFailed
  | selfTestFailed
  | blobTooShort (got : Nat)
  | plaintextNotUtf8
deriving DecidableEq, Repr

/-- `EncryptionKey`. -/
structure EncryptionKey where
  inner : List UInt8
  length_inner : inner.length = keyLen

/-- A nonce of AES-GCM. -/
abbrev Nonce := { bytes : List UInt8 // bytes.length = nonceLen }

/-- AES-256-GCM without associated data. -/
abbrev Cipher := Aead EncryptionKey Nonce

/-- `EncryptionKey::from_bytes`. -/
def EncryptionKey.fromBytes (bytes : List UInt8) : Except EncryptionError EncryptionKey :=
  if h : bytes.length = keyLen then .ok ⟨bytes, h⟩
  else .error (.invalidKeyLength bytes.length)

variable (cipher : Cipher)

/-- `EncryptionKey::encrypt`. -/
def encrypt (key : EncryptionKey) (nonce : Nonce) (plaintext : String) :
    Except EncryptionError (List UInt8) :=
  match cipher.encrypt key nonce (Utf8.encode plaintext.toList) with
  | none => .error .encryptFailed
  | some ciphertext => .ok (nonce.1 ++ ciphertext)

/-- `EncryptionKey::decrypt`. -/
def decrypt (key : EncryptionKey) (blob : List UInt8) : Except EncryptionError String :=
  -- 16 bytes of tag follow the nonce in the shortest blob
  if h : blob.length < nonceLen + 16 then .error (.blobTooShort blob.length)
  else
    let nonce : Nonce := ⟨blob.take nonceLen, List.length_take_of_le (by omega)⟩
    match cipher.decrypt key nonce (blob.drop nonceLen) with
    | none => .error .decryptFailed
    | some plaintext =>
      match Utf8.fromUtf8 plaintext with
      | none => .error .plaintextNotUtf8
      | some secret => .ok secret

/-- `EncryptionKey::self_test`, with the nonces of its two encryptions. -/
def selfTest (key : EncryptionKey) (nonce nonce2 : Nonce) : Except EncryptionError Unit := do
  let plaintext := "mizan-encryption-self-test"
  let blob ← encrypt cipher key nonce plaintext
  let decrypted ← decrypt cipher key blob
  if decrypted ≠ plaintext then throw .selfTestFailed
  let blob2 ← encrypt cipher key nonce2 plaintext
  if blob = blob2 then throw .selfTestFailed

end MizanConnect.Snaptrade.Encryption
