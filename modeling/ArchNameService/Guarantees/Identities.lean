import ArchNameService.Guarantees.Signers
import ArchNameService.Lib.Base58

/-!
# One key, many spellings

An account is written in hex or in base 58, with a parity byte or without one. Every
spelling is read as the key, and two spellings are the same account where their keys are.
-/

namespace ArchNameService

namespace Manager
open JsString

/-- What is relied on of `bs58`: it writes every string of bytes in one way, without the
letters that look alike, in no fewer characters than bytes, and five bytes in seven. -/
structure Bs58 (env : Environment) (encode : List UInt8 → JsString) : Prop where
  decode_encode : ∀ bytes, env.bs58Decode (encode bytes) = some bytes
  encode_decode : ∀ text bytes, env.bs58Decode text = some bytes → encode bytes = text
  alphabet : ∀ bytes, ∀ u ∈ encode bytes, u ∈ base58Alphabet
  length_le : ∀ bytes, (encode bytes).length ≤ (7 * bytes.length + 4) / 5
  le_length : ∀ bytes, bytes.length ≤ (encode bytes).length

/-- The bytes of a key, or of the compressed key with its parity. -/
inductive KeyBytes (key : ArchAddress) : List UInt8 → Prop where
  | plain : KeyBytes key key.toList
  | even : KeyBytes key (2 :: key.toList)
  | odd : KeyBytes key (3 :: key.toList)

/-- What is accepted as the key. -/
inductive Spelling (encode : List UInt8 → JsString) (key : ArchAddress) : JsString → Prop where
  | hex {bytes text} (hbytes : KeyBytes key bytes) (hhex : IsHexOf bytes text) :
      Spelling encode key text
  | prefixed {bytes text} (x : UInt16) (hx : x = 120 ∨ x = 88) (hbytes : KeyBytes key bytes)
      (hhex : IsHexOf bytes text) : Spelling encode key (48 :: x :: text)
  | base58 {bytes} (hbytes : KeyBytes key bytes) : Spelling encode key (encode bytes)
  | surrounded {text} (front back : JsString) (hfront : ∀ u ∈ front, isSpace u = true)
      (hback : ∀ u ∈ back, isSpace u = true) (hspelling : Spelling encode key text) :
      Spelling encode key (front ++ text ++ back)

section
variable {env : Environment} {encode : List UInt8 → JsString} {key : ArchAddress}
  {bytes : List UInt8} {text a b c : JsString}

/-! ## Reading a spelling -/

theorem KeyBytes.length (h : KeyBytes key bytes) : bytes.length = 32 ∨ bytes.length = 33 := by
  cases h with
  | plain => exact .inl key.toList_length
  | even => exact .inr (congrArg Nat.succ key.toList_length)
  | odd => exact .inr (congrArg Nat.succ key.toList_length)

/-- The parity is dropped. -/
theorem KeyBytes.reads_key (h : KeyBytes key bytes) :
    Bytes.ofList? 32 (if bytes.length = 33 ∧ (bytes.head? = some 2 ∨ bytes.head? = some 3) then
      bytes.drop 1 else bytes) = some key := by
  have hlength := key.toList_length
  have hcompressed : (key.toList).length + 1 = 33 := by rw [hlength]
  apply Bytes.ofList?_eq_some.mpr
  cases h with
  | plain => exact if_neg fun h => absurd (hlength.symm.trans h.1) (by decide)
  | even => exact if_pos ⟨hcompressed, .inl rfl⟩
  | odd => exact if_pos ⟨hcompressed, .inr rfl⟩

theorem canonicalArchKey_of_hex (hstrip : stripHexPrefix a.trim = text)
    (hbytes : KeyBytes key bytes) (hhex : IsHexOf bytes text) :
    canonicalArchKey env a = some key := by
  have hlength : text.length = 64 ∨ text.length = 66 := by
    rw [hhex.length]
    rcases hbytes.length with h | h <;> omega
  have hne : text ≠ [] := by
    rintro rfl
    rcases hlength with h | h <;> cases h
  simp only [canonicalArchKey, hstrip, if_neg hne]
  rw [if_pos ⟨hlength, hhex.digits⟩, bytesOfHexPairs_hex hhex, Option.bind_some]
  exact hbytes.reads_key

/-- The text of a key in base 58 is too short for hex. -/
theorem canonicalArchKey_of_base58 (hbs58 : Bs58 env encode) (htrim : a.trim = encode bytes)
    (hbytes : KeyBytes key bytes) : canonicalArchKey env a = some key := by
  have hupper := hbs58.length_le bytes
  have hlower := hbs58.le_length bytes
  have hlength : 32 ≤ (encode bytes).length ∧ (encode bytes).length < 64 := by
    rcases hbytes.length with h | h <;> omega
  have hne : encode bytes ≠ [] := by
    intro hempty
    rw [hempty] at hlength
    exact absurd hlength.1 (by decide)
  have hstrip : stripHexPrefix a.trim = encode bytes := by
    rw [htrim]
    apply stripHexPrefix_eq_self
    exact .inl fun h => absurd (hbs58.alphabet _ _ h) (by decide)
  simp only [canonicalArchKey, hstrip, if_neg hne]
  rw [if_neg fun h => by omega, hbs58.decode_encode, Option.bind_some]
  exact hbytes.reads_key

/-- White space around a text does not count. -/
theorem canonicalArchKey_congr (h : a.trim = b.trim) :
    canonicalArchKey env a = canonicalArchKey env b := by
  rw [canonicalArchKey, canonicalArchKey, h]

theorem Spelling.canonical (hbs58 : Bs58 env encode) (h : Spelling encode key text) :
    canonicalArchKey env text = some key := by
  induction h with
  | hex hbytes hhex =>
      apply canonicalArchKey_of_hex _ hbytes hhex
      rw [trim_eq_self hhex.not_space]
      exact stripHexPrefix_eq_self (.inr hhex.digits)
  | prefixed x hx hbytes hhex =>
      apply canonicalArchKey_of_hex _ hbytes hhex
      rw [trim_eq_self]
      · rcases hx with rfl | rfl <;> rfl
      · rintro u (_ | ⟨_, _ | ⟨_, hu⟩⟩)
        · rfl
        · rcases hx with rfl | rfl <;> rfl
        · exact hhex.not_space u hu
  | base58 hbytes =>
      apply canonicalArchKey_of_base58 hbs58 (trim_eq_self _) hbytes
      exact fun u hu => base58_not_space (hbs58.alphabet _ u hu)
  | surrounded front back hfront hback _ ih =>
      rw [← ih]
      exact canonicalArchKey_congr (trim_surrounded hfront hback)

/-! ## Comparing accounts -/

/-- Two texts are the same account where they are the same key, or the same text that is
no key. -/
theorem archIdentitiesEqual_iff : archIdentitiesEqual env a b = true ↔
    canonicalArchKey env a = canonicalArchKey env b ∧
      (canonicalArchKey env a = none → a.trim = b.trim) := by
  unfold archIdentitiesEqual
  split
  · rename_i left right hleft hright
    rw [hleft, hright, beq_iff_eq]
    exact ⟨fun h => ⟨congrArg some h, by rintro ⟨⟩⟩, fun h => Option.some.inj h.1⟩
  · rename_i hneither
    rw [beq_iff_eq]
    constructor
    · exact fun h => ⟨canonicalArchKey_congr h, fun _ => h⟩
    · rintro ⟨hsame, htext⟩
      cases hleft : canonicalArchKey env a with
      | none => exact htext hleft
      | some left => exact absurd (hsame ▸ hleft) (hneither left left hleft)

theorem archIdentitiesEqual_equivalence :
    Equivalence fun a b => archIdentitiesEqual env a b = true := by
  constructor
  · exact fun a => archIdentitiesEqual_iff.mpr ⟨rfl, fun _ => rfl⟩
  · intro a b h
    obtain ⟨hkey, htext⟩ := archIdentitiesEqual_iff.mp h
    exact archIdentitiesEqual_iff.mpr ⟨hkey.symm, fun hb => (htext (hkey.trans hb)).symm⟩
  · intro a b c hab hbc
    obtain ⟨hkey, htext⟩ := archIdentitiesEqual_iff.mp hab
    obtain ⟨hkey', htext'⟩ := archIdentitiesEqual_iff.mp hbc
    refine archIdentitiesEqual_iff.mpr ⟨hkey.trans hkey', fun ha => ?_⟩
    exact (htext ha).trans (htext' (hkey ▸ ha))

theorem archIdentitiesEqual_of_keys {left right : ArchAddress}
    (hleft : canonicalArchKey env a = some left) (hright : canonicalArchKey env b = some right) :
    archIdentitiesEqual env a b = true ↔ left = right := by
  rw [archIdentitiesEqual_iff, hleft, hright, Option.some.injEq]
  exact ⟨fun h => h.1, fun h => ⟨h, by rintro ⟨⟩⟩⟩

end

/-- Every spelling of a key is read as the key, the comparison is an equivalence, and it
tells keys apart. -/
theorem identities_canonical (env : Environment) (encode : List UInt8 → JsString)
    (hbs58 : Bs58 env encode) :
    (∀ key text, Spelling encode key text → canonicalArchKey env text = some key) ∧
      Equivalence (fun a b => archIdentitiesEqual env a b = true) ∧
      ∀ a b left right, canonicalArchKey env a = some left → canonicalArchKey env b = some right →
        (archIdentitiesEqual env a b = true ↔ left = right) := by
  refine ⟨?_, archIdentitiesEqual_equivalence, ?_⟩
  · exact fun _ _ h => h.canonical hbs58
  · exact fun _ _ _ _ hleft hright => archIdentitiesEqual_of_keys hleft hright

/-- The wallet of base 58. -/
def base58Wallet : Environment := { HexWallet.env with bs58Decode := base58Decode }

theorem bs58_base58Wallet : Bs58 base58Wallet base58Encode where
  decode_encode := base58Decode_encode
  encode_decode _ _ h := base58Encode_decode h
  alphabet := base58Encode_alphabet
  length_le := base58Encode_length
  le_length := length_le_base58Encode

/-- A key in base 58 and the compressed key in hex are the same account. -/
theorem spellings_of_ann :
    archIdentitiesEqual base58Wallet (base58Encode Testnet.ann.toList)
      (48 :: 120 :: bytesToHex (2 :: Testnet.ann.toList)) = true := by
  obtain ⟨hspelling, -, hequal⟩ := identities_canonical base58Wallet base58Encode bs58_base58Wallet
  have hhex : IsHexOf (2 :: Testnet.ann.toList) (bytesToHex (2 :: Testnet.ann.toList)) := by
    unfold IsHexOf
    decide +kernel
  exact (hequal _ _ _ _ (hspelling Testnet.ann _ (.base58 .plain))
    (hspelling Testnet.ann _ (.prefixed 120 (.inl rfl) .even hhex))).mpr rfl

end Manager

end ArchNameService
