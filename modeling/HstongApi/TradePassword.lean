import HstongApi.Bytes
import Mathlib.Logic.Equiv.Defs
import Mathlib.Order.Bounds.Defs

/-!
# The trade password

`EncryptTradePassword` pads a password to whole blocks, encrypts each block on its own and writes the
result in base64. The key is a constant of the protocol, and the block function of AES is left open:
it is any permutation of the blocks of sixteen bytes.

`decryptTradePassword` is what the Gateway has to do to get the password back. It is strict about the
padding, and it undoes the encryption for every password (`decrypt_encrypt`).
-/

namespace HstongApi

/-! ## Base64 -/

namespace Base64

/-- A letter of the standard alphabet. -/
def letter (v : ℕ) : UInt8 :=
  if v < 26 then .ofNat (v + 65)
  else if v < 52 then .ofNat (v + 71)
  else if v < 62 then .ofNat (v - 4)
  else if v = 62 then 43 else 47

/-- The value of a letter. -/
def value (c : UInt8) : Option ℕ :=
  if 65 ≤ c ∧ c ≤ 90 then some (c.toNat - 65)
  else if 97 ≤ c ∧ c ≤ 122 then some (c.toNat - 71)
  else if 48 ≤ c ∧ c ≤ 57 then some (c.toNat + 4)
  else if c = 43 then some 62
  else if c = 47 then some 63
  else none

/-- `base64.StdEncoding.EncodeToString` -/
def encodeToString : Bytes → Bytes
  | [] => []
  | [a] => [letter (a.toNat / 4), letter (a.toNat % 4 * 16), 61, 61]
  | [a, b] =>
    [letter (a.toNat / 4), letter (a.toNat % 4 * 16 + b.toNat / 16), letter (b.toNat % 16 * 4), 61]
  | a :: b :: c :: rest =>
    letter (a.toNat / 4) :: letter (a.toNat % 4 * 16 + b.toNat / 16) ::
      letter (b.toNat % 16 * 4 + c.toNat / 64) :: letter (c.toNat % 64) :: encodeToString rest

/-- Four bytes of a text, the last ones of which may be padding. -/
def quantum (p q r s : UInt8) : Option Bytes := do
  let p ← value p
  let q ← value q
  if r = 61 ∧ s = 61 then return [.ofNat (p * 4 + q / 16)]
  let r ← value r
  if s = 61 then return [.ofNat (p * 4 + q / 16), .ofNat (q % 16 * 16 + r / 4)]
  let s ← value s
  return [.ofNat (p * 4 + q / 16), .ofNat (q % 16 * 16 + r / 4), .ofNat (r % 4 * 64 + s)]

/-- `base64.StdEncoding.DecodeString`, for a text without line breaks. -/
def decodeString : Bytes → Option Bytes
  | [] => some []
  | p :: q :: r :: s :: rest => do
    let data ← quantum p q r s
    -- after padding there is nothing
    if s = 61 ∧ rest ≠ [] then none else return data ++ (← decodeString rest)
  | _ => none

theorem value_letter {v : ℕ} (h : v < 64) : value (letter v) = some v := by
  have hall : ∀ v < 64, value (letter v) = some v := by decide
  exact hall v h

theorem letter_ne_padding {v : ℕ} (h : v < 64) : letter v ≠ 61 := by
  intro heq
  have := value_letter h
  rw [heq] at this
  cases this

/-- Letters are read as the bits that they stand for. -/
theorem quantum_letters {p q r s : ℕ} (hp : p < 64) (hq : q < 64) (hr : r < 64) (hs : s < 64) :
    quantum (letter p) (letter q) 61 61 = some [.ofNat (p * 4 + q / 16)] ∧
      quantum (letter p) (letter q) (letter r) 61 =
        some [.ofNat (p * 4 + q / 16), .ofNat (q % 16 * 16 + r / 4)] ∧
      quantum (letter p) (letter q) (letter r) (letter s) =
        some [.ofNat (p * 4 + q / 16), .ofNat (q % 16 * 16 + r / 4), .ofNat (r % 4 * 64 + s)] := by
  simp [quantum, value_letter, letter_ne_padding, hp, hq, hr, hs]

/-- **What is written is read back.** -/
theorem decode_encode (data : Bytes) : decodeString (encodeToString data) = some data := by
  have hbyte : ∀ (a : UInt8) {n : ℕ}, n = a.toNat → UInt8.ofNat n = a :=
    fun a n hn => hn ▸ UInt8.ofNat_toNat
  induction data using encodeToString.induct with
  | case1 => rfl
  | case2 a =>
    have ha := a.toNat_lt
    rw [encodeToString, decodeString, (quantum_letters (r := 0) (s := 0) _ _ _ _).1, hbyte a] <;>
      first | rfl | omega
  | case3 a b =>
    have ha := a.toNat_lt
    have hb := b.toNat_lt
    rw [encodeToString, decodeString, (quantum_letters (s := 0) _ _ _ _).2.1, hbyte a, hbyte b] <;>
      first | rfl | omega
  | case4 a b c rest ih =>
    have ha := a.toNat_lt
    have hb := b.toNat_lt
    have hc := c.toNat_lt
    rw [encodeToString, decodeString, (quantum_letters _ _ _ _).2.2, hbyte a, hbyte b, hbyte c, ih]
    · have hlast := letter_ne_padding (v := c.toNat % 64) (by omega)
      simp [hlast]
    all_goals omega

end Base64

/-! ## Blocks -/

/-- A block of AES. -/
abbrev Block : Type := {b : Bytes // b.length = 16}

/-- Each block is replaced. The code goes through a text of whole blocks. -/
def mapBlocks (f : Block → Block) (t : Bytes) : Bytes :=
  if h : 16 ≤ t.length then
    (f ⟨t.take 16, by rw [List.length_take]; omega⟩).1 ++ mapBlocks f (t.drop 16)
  else []
termination_by t.length
decreasing_by
  rw [List.length_drop]
  omega

theorem mapBlocks_append (f : Block → Block) (b : Block) (t : Bytes) :
    mapBlocks f (b.1 ++ t) = (f b).1 ++ mapBlocks f t := by
  rw [mapBlocks, dif_pos (by rw [List.length_append, b.2]; omega)]
  simp only [List.take_left' b.2, List.drop_left' b.2]

/-- **Blocks are decrypted one by one.** -/
theorem mapBlocks_leftInverse {f g : Block → Block} (h : Function.LeftInverse g f) {n : ℕ} {t : Bytes}
    (ht : t.length = 16 * n) :
    mapBlocks g (mapBlocks f t) = t ∧ (mapBlocks f t).length = t.length := by
  induction n generalizing t with
  | zero =>
    obtain rfl := List.length_eq_zero_iff.mp ht
    simp [mapBlocks]
  | succ n ih =>
    have hb : (t.take 16).length = 16 := by
      rw [List.length_take]
      omega
    obtain ⟨hinverse, hlength⟩ := ih (t := t.drop 16) (by rw [List.length_drop]; omega)
    have hsplit : t = (⟨t.take 16, hb⟩ : Block).1 ++ t.drop 16 := (List.take_append_drop 16 t).symm
    rw [hsplit, mapBlocks_append, mapBlocks_append, h, hinverse, List.length_append,
      List.length_append, hlength, (f _).2, hb]
    exact ⟨rfl, rfl⟩

/-! ## Padding -/

/-- `pkcs7Pad` -/
def pkcs7Pad (data : Bytes) (blockSize : ℕ) : Bytes :=
  let pad := blockSize - data.length % blockSize
  data ++ List.replicate pad (.ofNat pad)

/-- The data of a padded text. The last byte must be the number of bytes of a padding, and all of
these must be equal to it. -/
def pkcs7Unpad (text : Bytes) (blockSize : ℕ) : Option Bytes := do
  let last ← text.getLast?
  let pad := last.toNat
  if 1 ≤ pad ∧ pad ≤ blockSize ∧ pad ≤ text.length ∧ blockSize ∣ text.length ∧
      text.drop (text.length - pad) = List.replicate pad last then
    some (text.take (text.length - pad))
  else none

theorem length_pkcs7Pad (data : Bytes) : (pkcs7Pad data 16).length = 16 * (data.length / 16 + 1) := by
  rw [pkcs7Pad, List.length_append, List.length_replicate]
  omega

/-- **Padding is taken off again**, also where the data ends like a padding. -/
theorem unpad_pad (data : Bytes) : pkcs7Unpad (pkcs7Pad data 16) 16 = some data := by
  obtain ⟨n, hn⟩ : ∃ n, 16 - data.length % 16 = n + 1 := ⟨15 - data.length % 16, by omega⟩
  have hpad : pkcs7Pad data 16 = data ++ List.replicate (n + 1) (.ofNat (n + 1)) := by
    rw [pkcs7Pad, hn]
  have hlength := length_pkcs7Pad data
  rw [hpad] at hlength ⊢
  have hbyte : (UInt8.ofNat (n + 1)).toNat = n + 1 := by
    rw [UInt8.toNat_ofNat']
    omega
  have hlast : (data ++ List.replicate (n + 1) (UInt8.ofNat (n + 1))).getLast? =
      some (.ofNat (n + 1)) := by simp [List.replicate_succ']
  have htake : (data ++ List.replicate (n + 1) (UInt8.ofNat (n + 1))).length - (n + 1) =
      data.length := by simp
  simp only [pkcs7Unpad, hlast, Option.bind_eq_bind, Option.bind_some, hbyte, htake, List.drop_left,
    List.take_left]
  exact if_pos ⟨by omega, by omega, by omega, ⟨_, hlength⟩, trivial⟩

/-! ## Encryption -/

/-- The block function of AES for a key. -/
class Aes where
  block : Bytes → Equiv.Perm Block

/-- The errors of the encryption. -/
inductive EncryptError
  /-- `base64.CorruptInputError` -/
  | corruptInput
  /-- `ErrInvalidKeyLength` -/
  | invalidKeyLength
  deriving DecidableEq

/-- `tradePasswordKeyBase64` -/
def tradePasswordKeyBase64 : Bytes := bytes "m+qS04/2CH1OweCnmXZ3TDZkCQS+hBzY"

/-- The key of the protocol. -/
def tradePasswordKey : Bytes := (Base64.decodeString tradePasswordKeyBase64).getD []

variable [Aes]

/-- `encryptECB`; there is a cipher for each key of these lengths. -/
def encryptECB (key plaintext : Bytes) : Except EncryptError Bytes :=
  if key.length ≠ 16 ∧ key.length ≠ 24 ∧ key.length ≠ 32 then .error .invalidKeyLength
  else .ok (mapBlocks (Aes.block key) (pkcs7Pad plaintext 16))

/-- `EncryptTradePassword` -/
def encryptTradePassword (plaintext : Bytes) : Except EncryptError Bytes := do
  let key ← match Base64.decodeString tradePasswordKeyBase64 with
    | none => .error .corruptInput
    | some key => .ok key
  let ciphertext ← encryptECB key plaintext
  return Base64.encodeToString ciphertext

/-- How the password is got back. -/
def decryptTradePassword (text : Bytes) : Option Bytes := do
  let ciphertext ← Base64.decodeString text
  pkcs7Unpad (mapBlocks (Aes.block tradePasswordKey).symm ciphertext) 16

/-- The key is in order, so that there is no error. -/
theorem encryptTradePassword_eq (plaintext : Bytes) : encryptTradePassword plaintext =
    .ok (Base64.encodeToString
      (mapBlocks (Aes.block tradePasswordKey) (pkcs7Pad plaintext 16))) := by
  have hkey : Base64.decodeString tradePasswordKeyBase64 = some tradePasswordKey := by decide +kernel
  have hlength : tradePasswordKey.length = 24 := by decide +kernel
  rw [encryptTradePassword, hkey]
  simp [encryptECB, hlength, bind, Except.bind, pure, Except.pure]

/-- The blocks of a password are decrypted, and there are as many as of the padded password. -/
theorem decrypt_blocks (key plaintext : Bytes) :
    mapBlocks (Aes.block key).symm (mapBlocks (Aes.block key) (pkcs7Pad plaintext 16)) =
        pkcs7Pad plaintext 16 ∧
      (mapBlocks (Aes.block key) (pkcs7Pad plaintext 16)).length =
        16 * (plaintext.length / 16 + 1) := by
  have hlength := length_pkcs7Pad plaintext
  obtain ⟨hinverse, hcount⟩ := mapBlocks_leftInverse (Aes.block key).leftInverse_symm hlength
  exact ⟨hinverse, hcount.trans hlength⟩

/-- **The password is got back.** -/
theorem decrypt_encrypt {plaintext text : Bytes} (h : encryptTradePassword plaintext = .ok text) :
    decryptTradePassword text = some plaintext := by
  rw [encryptTradePassword_eq] at h
  rw [← Except.ok.inj h, decryptTradePassword, Base64.decode_encode, Option.bind_eq_bind,
    Option.bind_some, (decrypt_blocks ..).1, unpad_pad]

/-- **The encryption of a trade password can be undone**, for every password: there is no error, the
ciphertext has the least number of whole blocks that is longer than the password, the password is got
back, and no other password has this text. -/
theorem encryptTradePassword_invertible (plaintext : Bytes) :
    ∃ ciphertext, encryptTradePassword plaintext = .ok (Base64.encodeToString ciphertext) ∧
      IsLeast {n | 16 ∣ n ∧ plaintext.length < n} ciphertext.length ∧
      decryptTradePassword (Base64.encodeToString ciphertext) = some plaintext ∧
      ∀ other, encryptTradePassword other = encryptTradePassword plaintext → other = plaintext := by
  have hencrypt := encryptTradePassword_eq plaintext
  refine ⟨_, hencrypt, ?_, decrypt_encrypt hencrypt, fun other hother => ?_⟩
  · rw [(decrypt_blocks ..).2]
    refine ⟨⟨⟨_, rfl⟩, by omega⟩, ?_⟩
    rintro _ ⟨⟨k, rfl⟩, hk⟩
    omega
  · have hpassword := decrypt_encrypt (hother.trans hencrypt)
    rw [decrypt_encrypt hencrypt] at hpassword
    exact (Option.some.inj hpassword).symm

end HstongApi
