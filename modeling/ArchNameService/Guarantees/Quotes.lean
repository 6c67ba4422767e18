import ArchNameService.Guarantees.Resolvers
import ArchNameService.Manager.Quote
import ArchNameService.Sdk.Builders
import Mathlib.Data.Nat.Digits.Lemmas

/-!
# Prices, from text to the chain

A price is printed and read back without loss, at any size. The instruction that
carries it holds 64 bits and takes them without a check, so the program reads the
price that was entered exactly where it is below `2 ^ 64`.
-/

namespace ArchNameService
open JsString (ofAscii)

namespace Manager
open JsString
open Sdk (text)

/-! ## Amounts -/

section
variable {whole fraction s : JsString}

theorem matchAmount_whole (h : ∀ u ∈ whole, isDigit u = true) :
    matchAmount whole = some (whole, none) := by
  rw [matchAmount, ← List.append_nil whole, List.dropWhile_append_of_pos h, List.append_nil]
  rfl

theorem matchAmount_point (h : ∀ u ∈ whole, isDigit u = true) (h' : ∀ u ∈ fraction, isDigit u = true) :
    matchAmount (whole ++ text "." ++ fraction) = some (whole, some fraction) := by
  have hdrop : (whole ++ text "." ++ fraction).dropWhile isDigit = 0x2E :: fraction := by
    rw [List.append_assoc, List.dropWhile_append_of_pos h]
    rfl
  have htake : (whole ++ text "." ++ fraction).takeWhile isDigit = whole := by
    rw [List.append_assoc, List.takeWhile_append_of_pos h]
    exact List.append_nil whole
  rw [matchAmount, hdrop]
  simp only [true_and, if_pos (List.all_eq_true.mpr h'), htake]

theorem isDigit_not_space {u : UInt16} (h : isDigit u = true ∨ u = 0x2E) : isSpace u = false := by
  have hu : 0x2E ≤ u.toNat ∧ u.toNat ≤ 0x39 := by
    simp only [isDigit, Bool.and_eq_true, decide_eq_true_eq, UInt16.le_iff_toNat_le,
      ← UInt16.toNat_inj, UInt16.reduceToNat] at h
    omega
  simp only [isSpace, Bool.or_eq_false_iff, Bool.and_eq_false_iff, decide_eq_false_iff_not,
    beq_eq_false_iff_ne, Ne, UInt16.le_iff_toNat_le, ← UInt16.toNat_inj, UInt16.reduceToNat]
  omega

/-- Trailing zeros that were dropped are padded again. -/
theorem padEnd_rdropWhile (s : JsString) :
    padEnd s.length digitZero (s.rdropWhile (· == digitZero)) = s := by
  have hsplit : s.rdropWhile (· == digitZero) ++ s.rtakeWhile (· == digitZero) = s :=
    List.rdropWhile_append_rtakeWhile
  have hlength := congrArg List.length hsplit
  rw [List.length_append] at hlength
  have hzeros : s.rtakeWhile (· == digitZero) = List.replicate
      (s.length - (s.rdropWhile (· == digitZero)).length) digitZero := by
    refine List.eq_replicate_iff.mpr ⟨?_, ?_⟩
    · omega
    · intro u hu
      exact eq_of_beq (List.mem_rtakeWhile_imp (p := (· == digitZero)) hu)
  rw [padEnd, ← hzeros, hsplit]

theorem quoteDecimals_pos (currency : QuoteCurrency) : 0 < quoteDecimals currency := by
  cases currency <;> decide

/-- The digits after the point, before zeros are dropped. -/
theorem padStart_decimal {n d : Nat} (hd : 0 < d) (h : n < 10 ^ d) :
    (padStart d digitZero (decimal n)).length = d ∧
    (∀ u ∈ padStart d digitZero (decimal n), isDigit u = true) ∧
    bigInt (padStart d digitZero (decimal n)) = n := by
  refine ⟨?_, ?_, ?_⟩
  · rw [padStart, List.length_append, List.length_replicate]
    exact Nat.sub_add_cancel (decimal_length hd h)
  · intro u hu
    rcases List.mem_append.mp hu with hu | hu
    · rw [List.eq_of_mem_replicate hu]
      rfl
    · exact decimal_isDigit n u hu
  · rw [padStart, bigInt_append, bigInt_zeros, bigInt_decimal, Nat.zero_mul, Nat.zero_add]

/-- What is read where both parts are known. -/
theorem parse_parts {currency : QuoteCurrency} {value : JsString} {fraction : Option JsString}
    (htrim : value.trim = value) (hmatch : matchAmount value = some (whole, fraction))
    (hwhole : whole ≠ []) (hlength : (fraction.getD []).length ≤ quoteDecimals currency) :
    parseQuoteAmount value currency = some (bigInt whole * 10 ^ quoteDecimals currency +
      bigInt (padEnd (quoteDecimals currency) digitZero (fraction.getD []))) := by
  have hpadded : padEnd (quoteDecimals currency) digitZero (fraction.getD []) ≠ [] := by
    intro hnil
    have hzero := congrArg List.length hnil
    rw [padEnd, List.length_append, List.length_replicate, List.length_nil] at hzero
    have hpos := quoteDecimals_pos currency
    omega
  have hvalid : ¬ ((whole = [] ∧ fraction.getD [] = []) ∨
      quoteDecimals currency < (fraction.getD []).length) := by
    rintro (⟨hnil, -⟩ | hlt)
    · exact hwhole hnil
    · exact Nat.not_lt.mpr hlength hlt
  simp only [parseQuoteAmount, htrim, hmatch, if_neg hvalid, if_neg hwhole, if_neg hpadded]

theorem parse_format (amount : Nat) (currency : QuoteCurrency) :
    parseQuoteAmount (formatQuoteBaseUnits amount currency) currency = some amount := by
  have hpos := quoteDecimals_pos currency
  obtain ⟨hlength, hdigits, hvalue⟩ := padStart_decimal hpos
    (Nat.mod_lt amount (Nat.pow_pos (n := quoteDecimals currency) (by decide : 0 < 10)))
  rw [formatQuoteBaseUnits]
  generalize hpadded : padStart (quoteDecimals currency) digitZero
    (decimal (amount % 10 ^ quoteDecimals currency)) = padded at *
  have hfront : padded.rdropWhile (· == digitZero) <+: padded := List.rdropWhile_prefix ..
  have hpad := padEnd_rdropWhile padded
  rw [hlength] at hpad
  have hwhole := decimal_isDigit (amount / 10 ^ quoteDecimals currency)
  have hsum : bigInt (decimal (amount / 10 ^ quoteDecimals currency)) * 10 ^ quoteDecimals currency +
      bigInt padded = amount := by
    rw [bigInt_decimal, hvalue, Nat.mul_comm]
    exact Nat.div_add_mod amount _
  split
  · rename_i hnil
    rw [hnil] at hpad
    rw [parse_parts (trim_eq_self fun u hu => isDigit_not_space (.inl (hwhole u hu)))
      (matchAmount_whole hwhole) (decimal_ne_nil _) (Nat.zero_le _)]
    exact congrArg some ((congrArg _ (congrArg bigInt hpad)).trans hsum)
  · have hfraction : ∀ u ∈ padded.rdropWhile (· == digitZero), isDigit u = true :=
      fun u hu => hdigits u (hfront.subset hu)
    have htrim : ∀ u ∈ decimal (amount / 10 ^ quoteDecimals currency) ++ text "." ++
        padded.rdropWhile (· == digitZero), isSpace u = false := by
      intro u hu
      apply isDigit_not_space
      rcases List.mem_append.mp hu with hu | hu
      · rcases List.mem_append.mp hu with hu | hu
        · exact .inl (hwhole u hu)
        · exact .inr (List.mem_singleton.mp hu)
      · exact .inl (hfraction u hu)
    rw [parse_parts (trim_eq_self htrim) (matchAmount_point hwhole hfraction) (decimal_ne_nil _)
      (hlength ▸ hfront.length_le)]
    exact congrArg some ((congrArg _ (congrArg bigInt hpad)).trans hsum)

end

end Manager

/-! ## Prices on the wire -/

namespace Sdk
open BorshWriter
open Borsh (serialize)

theorem bigBytes_eq (n v : Nat) : bigBytes n v = leBytes n v := by
  induction n generalizing v with
  | zero => rfl
  | succ n ih =>
      have hbyte : UInt8.ofNat ((v : Int) % 256).toNat = UInt8.ofNat v := by
        apply UInt8.toNat_inj.mp
        rw [UInt8.toNat_ofNat', UInt8.toNat_ofNat']
        omega
      have hrest : ((v : Int) / 256) = ((v / 256 : Nat) : Int) := rfl
      rw [bigBytes, leBytes, hbyte, hrest, ih]

/-- The writer keeps the low 64 bits of a price. -/
theorem bigU64_eq (price : Nat) : bigU64 price = serialize (UInt64.ofNat price) := by
  have hbytes := leBytes_leNat (leBytes 8 price)
  rw [leNat_leBytes, length_leBytes] at hbytes
  rw [bigU64, bigBytes_eq, ← hbytes]
  exact congrArg (leBytes 8) (UInt64.toNat_ofNat').symm

theorem encodeListName_eq (hash : Bytes 32) (currency : QuoteCurrency) (price : Nat) :
    encodeListName hash currency price =
      serialize (ArchNameService.NameInstruction.listName hash currency (UInt64.ofNat price)) := by
  rw [encodeListName, bigU64_eq, ← u64_eq]
  exact encodeInstruction_eq (.listName hash currency (UInt64.ofNat price))

theorem encodeMakeOffer_eq (hash : Bytes 32) (currency : QuoteCurrency) (price : Nat) :
    encodeMakeOffer hash currency price =
      serialize (ArchNameService.NameInstruction.makeOffer hash currency (UInt64.ofNat price)) := by
  rw [encodeMakeOffer, bigU64_eq, ← u64_eq]
  exact encodeInstruction_eq (.makeOffer hash currency (UInt64.ofNat price))

end Sdk

section
variable [Crypto] [Sdk.Platform]

/-- Every instruction built with a price is read by the program with that price. -/
structure PriceCarried (currency : QuoteCurrency) (price : Nat) : Prop where
  listName : ∀ programId registryConfig ns seller name instruction,
    Sdk.buildListNameInstruction programId registryConfig ns seller name currency price =
        .ok instruction →
      ∃ hash p, NameInstruction.deserialize instruction.data = some (.listName hash currency p) ∧
        p.toNat = price
  makeOffer : ∀ programId registryConfig ns buyer name instruction,
    Sdk.buildMakeOfferInstruction programId registryConfig ns buyer name currency price =
        .ok instruction →
      ∃ hash p, NameInstruction.deserialize instruction.data = some (.makeOffer hash currency p) ∧
        p.toNat = price

/-- Some listing is built, whatever the price. -/
theorem listName_built (currency : QuoteCurrency) (price : Nat) :
    ∃ hash instruction, Sdk.buildListNameInstruction (Bytes.fill 32 0) (Bytes.fill 32 0) [] []
        (ofAscii (ascii "a" ++ archSuffix)) currency price = .ok instruction ∧
      instruction.data = Borsh.serialize
        (NameInstruction.listName hash currency (UInt64.ofNat price)) := by
  have hlabel : validateLabel (ascii "a") = .ok () := by decide
  rw [Sdk.buildListNameInstruction, Sdk.nameHash_label hlabel]
  exact ⟨labelHash (ascii "a"), _, rfl, Sdk.encodeListName_eq ..⟩

theorem priceCarried_iff (currency : QuoteCurrency) (price : Nat) :
    PriceCarried currency price ↔ price < 2 ^ 64 := by
  constructor
  · intro h
    obtain ⟨hash, instruction, hbuilt, hdata⟩ := listName_built currency price
    obtain ⟨hash', p, hread, hp⟩ := h.listName _ _ _ _ _ _ hbuilt
    rw [hdata, NameInstruction.deserialize_serialize] at hread
    cases hread
    rw [← hp]
    exact UInt64.toNat_lt _
  · intro h
    have hp : (UInt64.ofNat price).toNat = price := UInt64.toNat_ofNat_of_lt' h
    constructor
    · intro programId registryConfig ns seller name instruction hbuilt
      obtain ⟨hash, -, hinstruction⟩ := Outcome.bind_ok.mp hbuilt
      cases hinstruction
      refine ⟨hash, UInt64.ofNat price, ?_, hp⟩
      rw [Sdk.encodeListName_eq, NameInstruction.deserialize_serialize]
    · intro programId registryConfig ns buyer name instruction hbuilt
      obtain ⟨hash, -, hinstruction⟩ := Outcome.bind_ok.mp hbuilt
      cases hinstruction
      refine ⟨hash, UInt64.ofNat price, ?_, hp⟩
      rw [Sdk.encodeMakeOffer_eq, NameInstruction.deserialize_serialize]

/-- A price that was entered is carried exactly where it fits; printed, it is read back. -/
theorem amounts_carried_iff :
    (∀ value currency amount, Manager.parseQuoteAmount value currency = some amount → 0 < amount →
      (PriceCarried currency amount ↔ amount < 2 ^ 64)) ∧
    ∀ amount currency, Manager.parseQuoteAmount (Manager.formatQuoteBaseUnits amount currency)
      currency = some amount := by
  refine ⟨?_, Manager.parse_format⟩
  intro value currency amount _ _
  exact priceCarried_iff currency amount

end

open Taproot in
theorem one_and_a_half_carried :
    Manager.parseQuoteAmount (Sdk.text "1.5") .arch = some 1500000000 ∧
      PriceCarried .arch 1500000000 := by
  have hparse : Manager.parseQuoteAmount (Sdk.text "1.5") .arch = some 1500000000 := by
    decide +kernel
  exact ⟨hparse, (amounts_carried_iff.1 _ _ _ hparse (by decide)).mpr (by decide)⟩

/-- An amount just above `2 ^ 64` lamports, read as one lamport. -/
def hugePrice : JsString := Sdk.text "18446744073.709551617"

open Taproot in
theorem huge_price_truncated :
    Manager.parseQuoteAmount hugePrice .arch = some (2 ^ 64 + 1) ∧
    ¬ PriceCarried .arch (2 ^ 64 + 1) ∧
    ∃ hash instruction, Sdk.buildListNameInstruction Testnet.program config.address
        (Sdk.text ".arch") Testnet.ann.toList (Sdk.text "alice.arch") .arch ((2 ^ 64 + 1 : Nat) : Int) =
        .ok instruction ∧
      NameInstruction.deserialize instruction.data = some (.listName hash .arch 1) := by
  refine ⟨by decide +kernel, fun h => ?_, Testnet.alice, ?_⟩
  · exact absurd ((priceCarried_iff .arch (2 ^ 64 + 1)).mp h) (by decide)
  · have hname : Sdk.nameHash (Sdk.text "alice.arch") = .ok Testnet.alice :=
      @Sdk.nameHash_label _ _ (ascii "alice") (by decide)
    rw [Sdk.buildListNameInstruction, hname]
    refine ⟨_, rfl, ?_⟩
    rw [Sdk.encodeListName_eq, NameInstruction.deserialize_serialize]
    rfl

end ArchNameService
