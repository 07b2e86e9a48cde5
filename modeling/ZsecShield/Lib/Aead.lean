import ZsecShield.Lib.Text

/-!
# Authenticated encryption in counter mode

A cipher that adds a keystream to the text and puts a tag on the result, as AES-GCM does.  The
keystream and the tag are parameters.  A text given in pieces is encrypted piece by piece
(`crypt_append`), and encrypting twice gives the text back (`crypt_crypt`).  `encrypt` and
`decrypt` are the one-call forms, with the tag behind the ciphertext.
-/

structure Aead where
  /-- A byte of the keystream of a key and a nonce. -/
  keystream : (key nonce : Bytes) → Nat → UInt8
  tag : (key nonce aad ciphertext : Bytes) → Bytes
  length_tag : ∀ key nonce aad ciphertext, (tag key nonce aad ciphertext).length = 16

namespace Aead

variable (A : Aead) (key nonce aad : Bytes)

/-- The text with the keystream from `offset` on added. -/
def crypt (offset : Nat) : Bytes → Bytes
  | [] => []
  | b :: text => (b ^^^ A.keystream key nonce offset) :: crypt (offset + 1) text

theorem length_crypt (offset : Nat) (text : Bytes) :
    (A.crypt key nonce offset text).length = text.length := by
  induction text generalizing offset with
  | nil => rfl
  | cons b text ih => simp [crypt, ih]

/-- The second piece goes on where the first one ended. -/
theorem crypt_append (offset : Nat) (s t : Bytes) :
    A.crypt key nonce offset (s ++ t) =
      A.crypt key nonce offset s ++ A.crypt key nonce (offset + s.length) t := by
  induction s generalizing offset with
  | nil => rfl
  | cons b s ih =>
      have hnext : offset + 1 + s.length = offset + (b :: s).length := by
        simp only [List.length_cons]
        omega
      rw [List.cons_append, crypt, ih, hnext, crypt, List.cons_append]

theorem crypt_crypt (offset : Nat) (text : Bytes) :
    A.crypt key nonce offset (A.crypt key nonce offset text) = text := by
  induction text generalizing offset with
  | nil => rfl
  | cons b text ih => simp [crypt, ih, UInt8.xor_assoc]

/-- `AESGCM(key).encrypt(nonce, text, aad)`. -/
def encrypt (text : Bytes) : Bytes :=
  let ciphertext := A.crypt key nonce 0 text
  ciphertext ++ A.tag key nonce aad ciphertext

/-- `AESGCM(key).decrypt(nonce, data, aad)`: nothing where it raises `InvalidTag`. -/
def decrypt (data : Bytes) : Option Bytes :=
  let ciphertext := data.take (data.length - 16)
  if 16 ≤ data.length ∧ A.tag key nonce aad ciphertext = data.drop (data.length - 16) then
    some (A.crypt key nonce 0 ciphertext)
  else none

theorem length_encrypt (text : Bytes) : (A.encrypt key nonce aad text).length = text.length + 16 := by
  simp [encrypt, length_crypt, A.length_tag]

theorem decrypt_encrypt (text : Bytes) : A.decrypt key nonce aad (A.encrypt key nonce aad text) =
    some text := by
  have hlength : (A.crypt key nonce 0 text).length = text.length := A.length_crypt key nonce 0 text
  have hend : (A.encrypt key nonce aad text).length - 16 = (A.crypt key nonce 0 text).length := by
    rw [length_encrypt, hlength]
    omega
  have htake : (A.encrypt key nonce aad text).take (A.crypt key nonce 0 text).length =
      A.crypt key nonce 0 text := List.take_left
  have hdrop : (A.encrypt key nonce aad text).drop (A.crypt key nonce 0 text).length =
      A.tag key nonce aad (A.crypt key nonce 0 text) := List.drop_left
  have hlong : 16 ≤ (A.encrypt key nonce aad text).length := by
    rw [length_encrypt]
    omega
  simp only [decrypt, hend, htake, hdrop, crypt_crypt]
  exact if_pos ⟨hlong, trivial⟩

end Aead
