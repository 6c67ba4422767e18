import ArchNameService.Lib.Outcome
import ArchNameService.Protocol.State

/-! Canonical names and derived addresses (`name.rs`, `derive.rs`). -/

namespace ArchNameService

/-- What the crates outside the repository compute: the hash, the derived
addresses, and the text form of a Taproot output (refused or not). -/
class Crypto where
  sha256 : List UInt8 → Bytes 32
  findProgramAddress : List (List UInt8) → ArchAddress → ArchAddress × UInt8
  createWithSeed : ArchAddress → List UInt8 → ArchAddress → Option ArchAddress
  taprootAddress : Bytes 32 → BitcoinNetwork → Option (List UInt8)

open Crypto

/-- The bytes of a literal. -/
def ascii (s : String) : List UInt8 := s.toUTF8.data.toList

/-! ## Names -/

def archSuffix : List UInt8 := ascii ".arch"
def nameHashDomain : List UInt8 := ascii "arch-name-service:name-hash:v1" ++ [0]

def isAsciiLowercase (b : UInt8) : Bool := 0x61 ≤ b && b ≤ 0x7A
def isAsciiDigit (b : UInt8) : Bool := 0x30 ≤ b && b ≤ 0x39

/-- `str::strip_suffix`. -/
def stripSuffix (suffix s : List UInt8) : Option (List UInt8) :=
  if suffix.isSuffixOf s then some (s.take (s.length - suffix.length)) else none

theorem stripSuffix_append (suffix s : List UInt8) : stripSuffix suffix (s ++ suffix) = some s := by
  have hsuffix : suffix.isSuffixOf (s ++ suffix) = true :=
    List.isSuffixOf_iff_suffix.mpr (List.suffix_append s suffix)
  simp only [stripSuffix, hsuffix, if_true, List.length_append, Nat.add_sub_cancel, List.take_left]

theorem stripSuffix_some {suffix s rest : List UInt8} (h : stripSuffix suffix s = some rest) :
    s = rest ++ suffix := by
  rw [stripSuffix] at h
  split at h
  · rename_i hsuffix
    obtain ⟨front, rfl⟩ := List.isSuffixOf_iff_suffix.mp hsuffix
    rw [List.length_append, Nat.add_sub_cancel, List.take_left, Option.some.injEq] at h
    rw [h]
  · exact nomatch h

/-- `str::contains("--")`. -/
def hasDoubleHyphen : List UInt8 → Bool
  | a :: b :: rest => (a == 0x2D && b == 0x2D) || hasDoubleHyphen (b :: rest)
  | _ => false

def validateLabel (label : List UInt8) : Except AnsError Unit := do
  reject (¬ (1 ≤ label.length ∧ label.length ≤ 63)) .invalidLabelLength
  reject (label.head? = some 0x2D ∨ label.getLast? = some 0x2D ∨ hasDoubleHyphen label)
    .invalidHyphenPlacement
  reject (¬ label.all fun b => isAsciiLowercase b || isAsciiDigit b || b == 0x2D)
    .invalidLabelCharacter

def canonicalizeName (input : List UInt8) : Except AnsError (List UInt8) := do
  let label ← orElseError .invalidSuffix (stripSuffix archSuffix input)
  validateLabel label
  pure (label ++ archSuffix)

def nameHash [Crypto] (canonicalName : List UInt8) : Except AnsError (Bytes 32) := do
  let canonicalName ← canonicalizeName canonicalName
  pure (sha256 (nameHashDomain ++ canonicalName))

theorem canonicalizeName_label {label : List UInt8} (h : validateLabel label = .ok ()) :
    canonicalizeName (label ++ archSuffix) = .ok (label ++ archSuffix) := by
  simp only [canonicalizeName, Outcome.bind_ok, Outcome.orElseError_ok, stripSuffix_append]
  exact ⟨label, rfl, (), h, rfl⟩

/-- The hash under which a label is registered, for a label that passes its check. -/
def labelHash [Crypto] (label : List UInt8) : Bytes 32 :=
  sha256 (nameHashDomain ++ (label ++ archSuffix))

theorem nameHash_label [Crypto] {label : List UInt8} {hash : Bytes 32} :
    nameHash (label ++ archSuffix) = .ok hash ↔
      validateLabel label = .ok () ∧ labelHash label = hash := by
  simp only [nameHash, canonicalizeName, Outcome.bind_ok, Outcome.orElseError_ok,
    stripSuffix_append, Outcome.pure_ok, Option.some.injEq]
  constructor
  · rintro ⟨c, ⟨l, rfl, u, hu, rfl⟩, rfl⟩
    exact ⟨hu, rfl⟩
  · rintro ⟨hu, rfl⟩
    exact ⟨_, ⟨label, rfl, (), hu, rfl⟩, rfl⟩

theorem validateLabel_length {label : List UInt8} (h : validateLabel label = .ok ()) :
    1 ≤ label.length ∧ label.length ≤ 63 := by
  simp only [validateLabel, Outcome.bind_ok, Outcome.reject_ok, not_not] at h
  obtain ⟨_, hlen, _⟩ := h
  exact hlen

theorem characters_ascii {label : List UInt8}
    (hall : label.all (fun b => isAsciiLowercase b || isAsciiDigit b || b == 0x2D) = true) :
    ∀ b ∈ label, b < 0x80 := by
  intro b hb
  have hcase := List.all_eq_true.mp hall b hb
  simp only [isAsciiLowercase, isAsciiDigit, Bool.or_eq_true, Bool.and_eq_true, decide_eq_true_eq,
    beq_iff_eq] at hcase
  simp only [UInt8.le_iff_toNat_le, UInt8.lt_iff_toNat_lt] at hcase ⊢
  rcases hcase with (⟨-, hle⟩ | ⟨-, hle⟩) | rfl
  · exact Nat.lt_of_le_of_lt hle (by decide)
  · exact Nat.lt_of_le_of_lt hle (by decide)
  · decide

theorem validateLabel_characters {label : List UInt8} (h : validateLabel label = .ok ()) :
    label.all (fun b => isAsciiLowercase b || isAsciiDigit b || b == 0x2D) = true := by
  simp only [validateLabel, Outcome.bind_ok, Outcome.reject_ok, not_not] at h
  obtain ⟨_, _, _, _, hall⟩ := h
  exact hall

theorem validateLabel_ascii {label : List UInt8} (h : validateLabel label = .ok ()) :
    ∀ b ∈ label, b < 0x80 := characters_ascii (validateLabel_characters h)

theorem canonical_ascii {label : List UInt8} (h : validateLabel label = .ok ()) :
    ∀ b ∈ label ++ archSuffix, b < 0x80 := by
  have hsuffix : ∀ b ∈ archSuffix, b < 0x80 := by decide +kernel
  intro b hb
  rcases List.mem_append.mp hb with hb | hb
  · exact validateLabel_ascii h b hb
  · exact hsuffix b hb

theorem canonicalizeName_ok {input canonicalName : List UInt8} :
    canonicalizeName input = .ok canonicalName ↔
      ∃ label, validateLabel label = .ok () ∧ input = label ++ archSuffix ∧ canonicalName = input := by
  constructor
  · intro h
    simp only [canonicalizeName, Outcome.bind_ok, Outcome.orElseError_ok, Outcome.pure_ok] at h
    obtain ⟨label, hstrip, _, hlabel, hname⟩ := h
    have hinput := stripSuffix_some hstrip
    exact ⟨label, hlabel, hinput, hname.symm.trans hinput.symm⟩
  · rintro ⟨label, hlabel, rfl, rfl⟩
    exact canonicalizeName_label hlabel

/-! ## Addresses -/

def configSeed : List UInt8 := ascii "ans:config:v1"
def nameSeed : List UInt8 := ascii "ans:name:v1"
def recordSeed : List UInt8 := ascii "ans:record:v1"
def reverseSeed : List UInt8 := ascii "ans:reverse:v1"
def listingSeed : List UInt8 := ascii "ans:listing:v1"
def offerSeed : List UInt8 := ascii "ans:offer:v1"
def namespaceDomain : List UInt8 := ascii "arch-name-service:namespace:v1" ++ [0]
def recordKeyDomain : List UInt8 := ascii "arch-name-service:record-key:v1" ++ [0]

/-- The discriminant cast `record_type as u8`. -/
def RecordType.byte : RecordType → UInt8
  | .archOwner => 0
  | .bitcoinTaproot => 1
  | .tokenAta => 2
  | .text => 3

section Addresses
variable [Crypto]

def namespaceHash (ns : List UInt8) : Bytes 32 := sha256 (namespaceDomain ++ ns)

def recordKeyHash (key : List UInt8) : Bytes 32 := sha256 (recordKeyDomain ++ key)

def derive (programId : ArchAddress) (seeds : List (List UInt8)) : ArchAddress :=
  (findProgramAddress seeds programId).1

def deriveConfigAddress (programId : ArchAddress) (networkId : UInt32) (ns : List UInt8) :
    ArchAddress :=
  derive programId [configSeed, leBytes 4 networkId.toNat, (namespaceHash ns).toList]

def deriveNameAddress (programId : ArchAddress) (ns : List UInt8) (nameHash : Bytes 32) :
    ArchAddress :=
  derive programId [nameSeed, (namespaceHash ns).toList, nameHash.toList]

def deriveRecordAddress (programId : ArchAddress) (ns : List UInt8) (nameHash : Bytes 32)
    (recordType : RecordType) : ArchAddress :=
  derive programId [recordSeed, (namespaceHash ns).toList, nameHash.toList, [recordType.byte]]

def deriveTextRecordAddress (programId : ArchAddress) (ns : List UInt8) (nameHash : Bytes 32)
    (key : List UInt8) : ArchAddress :=
  derive programId [recordSeed, (namespaceHash ns).toList, nameHash.toList,
    [RecordType.text.byte], (recordKeyHash key).toList]

/-- `none` is the panic of `text_key.expect(..)`. -/
def deriveRecordAddressForValue (programId : ArchAddress) (ns : List UInt8) (nameHash : Bytes 32)
    (recordType : RecordType) (textKey : Option (List UInt8)) : Option ArchAddress :=
  match recordType with
  | .text => textKey.map (deriveTextRecordAddress programId ns nameHash)
  | _ => some (deriveRecordAddress programId ns nameHash recordType)

def deriveReverseAddress (programId : ArchAddress) (ns : List UInt8) (owner : ArchAddress) :
    ArchAddress :=
  derive programId [reverseSeed, (namespaceHash ns).toList, owner.toList]

def deriveListingAddress (programId : ArchAddress) (ns : List UInt8) (nameHash : Bytes 32) :
    ArchAddress :=
  derive programId [listingSeed, (namespaceHash ns).toList, nameHash.toList]

def deriveOfferAddress (programId : ArchAddress) (ns : List UInt8) (nameHash : Bytes 32)
    (buyer : ArchAddress) : ArchAddress :=
  derive programId [offerSeed, (namespaceHash ns).toList, nameHash.toList, buyer.toList]

end Addresses

end ArchNameService
