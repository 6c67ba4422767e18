import ArchNameService.Refinement.Codec
import ArchNameService.Registry.Idl

/-!
# What the SDK reads of what the program wrote

The two decoders of an account agree on exactly the bytes in which every flag is
0 or 1 and every string is UTF-8 without a leading byte order mark. Instructions
also differ in the bytes left over, and a round trip through the SDK loses the
mark of a string and nothing else.
-/

namespace ArchNameService
open Borsh (serialize Str)

/-! ## Accounts -/

open Sdk (NameAvailability classifyNameAccountData)
open Availability (ensureProgramOwnedNameAvailable)

/-- The client classifies the bytes as the registry does. -/
structure SameClassification (data : List UInt8) : Prop where
  available : (classifyNameAccountData (some data)).availability = .available ↔
    ensureProgramOwnedNameAvailable data = .ok ()
  taken : (classifyNameAccountData (some data)).availability = .taken ↔
    ensureProgramOwnedNameAvailable data = .error .nameTaken
  unavailable : (classifyNameAccountData (some data)).availability = .unavailable ↔
    ensureProgramOwnedNameAvailable data = .error .unsupportedAccountVersion

/-- The account that the client finds under the bytes of a taken name. -/
def ReadsName (data : List UInt8) : Prop :=
  ∃ name, Sdk.decodeNameAccount data = .ok name ∧
    Sdk.validateHeader name.header nameAccountDiscriminator = .ok ()

theorem classify_blank {data : List UInt8} (h : Sdk.isBlankAccountData data = true) :
    (classifyNameAccountData (some data)).availability = .available := by
  rw [classifyNameAccountData, if_pos h]

theorem classify_taken {data : List UInt8} (hblank : Sdk.isBlankAccountData data = false)
    (h : ReadsName data) : (classifyNameAccountData (some data)).availability = .taken := by
  obtain ⟨name, hname, hheader⟩ := h
  rw [classifyNameAccountData, hblank, hname]
  simp only [Bool.false_eq_true, if_false]
  split
  · rfl
  · rename_i e hread
    rw [Outcome.ok_bind, hheader] at hread
    cases hread

theorem classify_unavailable {data : List UInt8} (hblank : Sdk.isBlankAccountData data = false)
    (h : ¬ ReadsName data) : (classifyNameAccountData (some data)).availability = .unavailable := by
  rw [classifyNameAccountData, hblank]
  simp only [Bool.false_eq_true, if_false]
  split
  · rename_i account hread
    obtain ⟨name, hname, hrest⟩ := Outcome.bind_ok.mp hread
    obtain ⟨_, hheader, -⟩ := Outcome.bind_ok.mp hrest
    exact absurd ⟨name, hname, hheader⟩ h
  · rfl

open Availability (isInitializedNameAccount isResumableNameAccountData)

theorem isInitializedNameAccount_iff {data : List UInt8} :
    isInitializedNameAccount data = true ↔ ∃ name : NameAccount,
      decodeState data = some name ∧ name.header.validate nameAccountDiscriminator = .ok () := by
  unfold isInitializedNameAccount
  constructor
  · intro h
    split at h
    · rename_i name hname
      cases hheader : name.header.validate nameAccountDiscriminator with
      | ok u => exact ⟨name, hname, hheader⟩
      | error e =>
          rw [hheader] at h
          exact nomatch h
    · exact nomatch h
  · rintro ⟨name, hname, hheader⟩
    rw [hname]
    exact congrArg Except.isOk hheader

/-- An initialized name account is not blank: it begins with its discriminator. -/
theorem not_blank_of_initialized {data : List UInt8} (h : isInitializedNameAccount data = true) :
    isResumableNameAccountData data = false := by
  obtain ⟨name, hname, hheader⟩ := isInitializedNameAccount_iff.mp h
  obtain rfl := decodeState_eq_some.mp hname
  have hfresh := AccountHeader.validate_ok_iff.mp hheader
  cases name
  subst hfresh
  rfl

theorem nameAccount_parity (data : List UInt8) :
    Parity NameAccount.toSdk Sdk.decodeNameAccount Sdk.encodeNameAccount data ↔
      NameAccount.layout.Faithful data :=
  NameAccount.layout.parity_iff (Sdk.finish_ok Sdk.reads_nameAccount) encodeNameAccount_eq data

theorem readsName_iff {data : List UInt8}
    (parity : Parity NameAccount.toSdk Sdk.decodeNameAccount Sdk.encodeNameAccount data) :
    ReadsName data ↔ isInitializedNameAccount data = true := by
  rw [isInitializedNameAccount_iff]
  constructor
  · rintro ⟨s, hs, hheader⟩
    obtain ⟨name, hname⟩ := parity.accepts.mp ⟨s, hs⟩
    obtain ⟨rfl, -⟩ := parity.agrees s name hs hname
    exact ⟨name, hname, validateHeader_ok.mp hheader⟩
  · rintro ⟨name, hname, hheader⟩
    obtain ⟨s, hs⟩ := parity.accepts.mpr ⟨name, hname⟩
    obtain ⟨rfl, -⟩ := parity.agrees s name hs hname
    exact ⟨_, hs, validateHeader_ok.mpr hheader⟩

/-- Where the decoders agree, so do the classifications. -/
theorem sameClassification {data : List UInt8}
    (parity : Parity NameAccount.toSdk Sdk.decodeNameAccount Sdk.encodeNameAccount data) :
    SameClassification data := by
  have hreads := readsName_iff parity
  have hblank : Sdk.isBlankAccountData data = isResumableNameAccountData data := rfl
  cases hinit : isInitializedNameAccount data with
  | true =>
      have hclass := classify_taken (hblank.trans (not_blank_of_initialized hinit)) (hreads.mpr hinit)
      have hensure : ensureProgramOwnedNameAvailable data = .error .nameTaken := by
        rw [ensureProgramOwnedNameAvailable, hinit]
        rfl
      constructor <;> rw [hclass, hensure] <;> simp
  | false =>
      have hnot : ¬ ReadsName data := fun h => by rw [hreads.mp h] at hinit; cases hinit
      cases hdata : isResumableNameAccountData data with
      | true =>
          have hclass := classify_blank (hblank.trans hdata)
          have hensure : ensureProgramOwnedNameAvailable data = .ok () := by
            rw [ensureProgramOwnedNameAvailable, hinit, hdata]
            rfl
          constructor <;> rw [hclass, hensure] <;> simp
      | false =>
          have hclass := classify_unavailable (hblank.trans hdata) hnot
          have hensure : ensureProgramOwnedNameAvailable data = .error .unsupportedAccountVersion := by
            rw [ensureProgramOwnedNameAvailable, hinit, hdata]
            rfl
          constructor <;> rw [hclass, hensure] <;> simp

/-- The decoders of each account kind agree on the bytes in which every flag is 0 or 1 and
every string is UTF-8 without a leading byte order mark, and on no others. -/
theorem decoding_parity_iff (data : List UInt8) :
    (Parity RegistryConfig.toSdk Sdk.decodeRegistryConfig Sdk.encodeRegistryConfig data ↔
      RegistryConfig.layout.Faithful data) ∧
    (Parity NameAccount.toSdk Sdk.decodeNameAccount Sdk.encodeNameAccount data ∧
        SameClassification data ↔ NameAccount.layout.Faithful data) ∧
    (Parity RecordAccount.toSdk Sdk.decodeRecordAccount Sdk.encodeRecordAccount data ↔
      RecordAccount.layout.Faithful data) ∧
    (Parity (id : ReverseAccount → ReverseAccount) Sdk.decodeReverseAccount
        Sdk.encodeReverseAccount data ↔ ReverseAccount.layout.Faithful data) ∧
    (Parity (id : ListingAccount → ListingAccount) Sdk.decodeListingAccount
        Sdk.encodeListingAccount data ↔ ListingAccount.layout.Faithful data) ∧
    (Parity (id : OfferAccount → OfferAccount) Sdk.decodeOfferAccount Sdk.encodeOfferAccount data ↔
      OfferAccount.layout.Faithful data) := by
  refine ⟨?_, ?_, ?_, ?_, ?_, ?_⟩
  · exact RegistryConfig.layout.parity_iff (Sdk.finish_ok Sdk.reads_registryConfig)
      encodeRegistryConfig_eq data
  · rw [← nameAccount_parity]
    exact ⟨fun h => h.1, fun h => ⟨h, sameClassification h⟩⟩
  · exact RecordAccount.layout.parity_iff (Sdk.finish_ok Sdk.reads_recordAccount)
      encodeRecordAccount_eq data
  · exact ReverseAccount.layout.parity_iff (Sdk.finish_ok Sdk.reads_reverseAccount)
      encodeReverseAccount_eq data
  · exact ListingAccount.layout.parity_iff (Sdk.finish_ok Sdk.reads_listingAccount)
      encodeListingAccount_eq data
  · exact OfferAccount.layout.parity_iff (Sdk.finish_ok Sdk.reads_offerAccount)
      encodeOfferAccount_eq data

/-- A name account whose flag byte is 2, with nothing else in it. -/
def looseName : List UInt8 :=
  nameAccountDiscriminator.toList ++ [2, 1, 0] ++ List.replicate 32 0 ++ [0, 0, 0, 0] ++
    List.replicate 64 0

/-- The client shows it as taken, and the registry refuses it as no account. -/
theorem loose_name_disagrees :
    ¬ (Parity NameAccount.toSdk Sdk.decodeNameAccount Sdk.encodeNameAccount looseName ∧
      SameClassification looseName) := by
  rintro ⟨parity, -⟩
  have hread : (Sdk.decodeNameAccount looseName).isOk = true := by decide +kernel
  have hreject : Borsh.fromSlice (α := NameAccount) looseName = none := by decide +kernel
  cases hs : Sdk.decodeNameAccount looseName with
  | ok s =>
      obtain ⟨name, hname⟩ := parity.accepts.mp ⟨s, hs⟩
      rw [hreject] at hname
      exact nomatch hname
  | error e =>
      rw [hs] at hread
      exact nomatch hread

/-! ## Instructions -/

/-- The client reads the instruction that the program executes, and no other, exactly when
the payload is no more than a strict encoding without a mark, or has bytes left over
after one that is not strict. -/
theorem instruction_parity_iff (data : List UInt8) :
    (∀ ix, Sdk.decodeInstruction data = .ok ix ↔
      ∃ instruction, NameInstruction.deserialize data = some instruction ∧ instruction.toSdk = ix) ↔
    ∀ w rest, data = serialize w ++ rest →
      (rest = [] ∧ NameInstruction.layout.Strict w ∧ NameInstruction.layout.Plain w) ∨
      (rest ≠ [] ∧ ¬ NameInstruction.layout.Strict w) :=
  NameInstruction.layout.front_iff (Sdk.finish_ok Sdk.reads_instruction) data

/-- A `ClearPrimary` with one byte more is executed, and the client drops it. -/
theorem trailing_byte_dropped : Idl.payload? [7, 0] = none ∧
    ¬ ∀ ix, Sdk.decodeInstruction [7, 0] = .ok ix ↔
      ∃ instruction, NameInstruction.deserialize [7, 0] = some instruction ∧
        instruction.toSdk = ix := by
  refine ⟨by decide, fun h => ?_⟩
  have hread := (h .clearPrimary).mpr ⟨.clearPrimary, by decide, rfl⟩
  exact absurd hread (by decide)

/-! ## Round trips -/

section Marks
open JsString (HasMark)

/-- No text of the value begins with a byte order mark. -/
def RecordValue.Unmarked : RecordValue → Prop
  | .text key value => ¬ HasMark key.bytes ∧ ¬ HasMark value.bytes
  | _ => True

def NameInstruction.Unmarked : NameInstruction → Prop
  | .register label _ => ¬ HasMark label.bytes
  | .setRecord _ _ value _ => value.Unmarked
  | .deleteRecord _ _ textKey _ => ¬ HasMark textKey.bytes
  | .reclaimExpired label _ => ¬ HasMark label.bytes
  | _ => True

theorem RegistryConfig.plain_iff (config : RegistryConfig) :
    RegistryConfig.layout.Plain (RegistryConfig.layout.wire config) ↔
      ¬ HasMark config.namespace.bytes := by
  have hplain : RegistryConfig.layout.Plain (RegistryConfig.layout.wire config) =
      ((True ∧ True ∧ True) ∧ True ∧ True ∧ ¬ HasMark config.namespace.bytes ∧ True ∧ True ∧ True ∧
        True ∧ True ∧ True ∧ True ∧ True) := rfl
  rw [hplain]
  simp only [true_and, and_true]

theorem NameAccount.plain_iff (name : NameAccount) :
    NameAccount.layout.Plain (NameAccount.layout.wire name) ↔ ¬ HasMark name.canonicalLabel.bytes := by
  have hplain : NameAccount.layout.Plain (NameAccount.layout.wire name) =
      ((True ∧ True ∧ True) ∧ True ∧ ¬ HasMark name.canonicalLabel.bytes ∧ True ∧ True ∧ True ∧
        True ∧ True) := rfl
  rw [hplain]
  simp only [true_and, and_true]

theorem RecordValue.plain_iff (value : RecordValue) :
    RecordValue.layout.Plain (RecordValue.layout.wire value) ↔ value.Unmarked := by
  cases value <;> exact Iff.rfl

theorem RecordAccount.plain_iff (record : RecordAccount) :
    RecordAccount.layout.Plain (RecordAccount.layout.wire record) ↔ record.value.Unmarked := by
  have hplain : RecordAccount.layout.Plain (RecordAccount.layout.wire record) =
      ((True ∧ True ∧ True) ∧ True ∧ True ∧ True ∧ True ∧ True ∧
        RecordValue.layout.Plain (RecordValue.layout.wire record.value) ∧ True) := rfl
  rw [hplain, RecordValue.plain_iff]
  simp only [true_and, and_true]

theorem NameInstruction.plain_iff (instruction : NameInstruction) :
    NameInstruction.layout.Plain (NameInstruction.layout.wire instruction) ↔ instruction.Unmarked := by
  cases instruction with
  | register label _ => exact Iff.of_eq (and_true _)
  | setRecord nameHash recordType value expectedRevision =>
      have hplain : NameInstruction.layout.Plain (NameInstruction.layout.wire
          (.setRecord nameHash recordType value expectedRevision)) =
          (True ∧ True ∧ RecordValue.layout.Plain (RecordValue.layout.wire value) ∧ True) := rfl
      rw [hplain, RecordValue.plain_iff]
      simp only [true_and, and_true]
      exact Iff.rfl
  | deleteRecord nameHash recordType textKey expectedRevision =>
      have hplain : NameInstruction.layout.Plain (NameInstruction.layout.wire
          (.deleteRecord nameHash recordType textKey expectedRevision)) =
          (True ∧ True ∧ ¬ HasMark textKey.bytes ∧ True) := rfl
      rw [hplain]
      simp only [true_and, and_true]
      exact Iff.rfl
  | reclaimExpired label _ => exact Iff.of_eq (and_true _)
  | updateConfig paused gracePeriodSlots =>
      cases paused <;> cases gracePeriodSlots <;> exact Iff.of_eq (and_true _)
  | _ => exact Iff.rfl

end Marks

/-- The encoding is the one of the crate, and the decoder gives the value back. -/
def RoundTrips {α σ : Type} [Borsh α] (toSdk : α → σ) (decode : List UInt8 → Except Sdk.Thrown σ)
    (encode : σ → List UInt8) (a : α) : Prop :=
  decode (encode (toSdk a)) = .ok (toSdk a) ∧ encode (toSdk a) = serialize a

theorem roundTrips_iff {α σ : Type} [Borsh α] (l : Layout α σ) {reader : Sdk.BorshReader σ}
    {encode : σ → List UInt8} (hreader : Reads reader l.read)
    (hencode : ∀ a, encode (l.view a) = serialize a) (a : α) :
    RoundTrips l.view (Sdk.BorshReader.finish reader) encode a ↔ l.Plain (l.wire a) := by
  rw [← l.round_trip_iff (Sdk.finish_ok hreader) hencode a]
  exact ⟨fun h => h.1, fun h => ⟨h, hencode a⟩⟩

/-- Every value comes back from its encoding, except for one with a text that begins with a
byte order mark. -/
theorem codec_round_trip_iff (config : RegistryConfig) (name : NameAccount) (record : RecordAccount)
    (reverse : ReverseAccount) (listing : ListingAccount) (offer : OfferAccount)
    (value : RecordValue) (instruction : NameInstruction) :
    (RoundTrips RegistryConfig.toSdk Sdk.decodeRegistryConfig Sdk.encodeRegistryConfig config ↔
      ¬ JsString.HasMark config.namespace.bytes) ∧
    (RoundTrips NameAccount.toSdk Sdk.decodeNameAccount Sdk.encodeNameAccount name ↔
      ¬ JsString.HasMark name.canonicalLabel.bytes) ∧
    (RoundTrips RecordAccount.toSdk Sdk.decodeRecordAccount Sdk.encodeRecordAccount record ↔
      record.value.Unmarked) ∧
    RoundTrips id Sdk.decodeReverseAccount Sdk.encodeReverseAccount reverse ∧
    RoundTrips id Sdk.decodeListingAccount Sdk.encodeListingAccount listing ∧
    RoundTrips id Sdk.decodeOfferAccount Sdk.encodeOfferAccount offer ∧
    (RoundTrips RecordValue.toSdk (Sdk.BorshReader.finish Sdk.decodeRecordValue)
      Sdk.encodeRecordValue value ↔ value.Unmarked) ∧
    (RoundTrips NameInstruction.toSdk Sdk.decodeInstruction Sdk.encodeInstruction instruction ↔
      instruction.Unmarked) := by
  refine ⟨?_, ?_, ?_, ?_, ?_, ?_, ?_, ?_⟩
  · rw [← RegistryConfig.plain_iff]
    exact roundTrips_iff RegistryConfig.layout Sdk.reads_registryConfig encodeRegistryConfig_eq config
  · rw [← NameAccount.plain_iff]
    exact roundTrips_iff NameAccount.layout Sdk.reads_nameAccount encodeNameAccount_eq name
  · rw [← RecordAccount.plain_iff]
    exact roundTrips_iff RecordAccount.layout Sdk.reads_recordAccount encodeRecordAccount_eq record
  · apply (roundTrips_iff ReverseAccount.layout Sdk.reads_reverseAccount encodeReverseAccount_eq
      reverse).mpr
    exact ⟨⟨trivial, trivial, trivial⟩, trivial, trivial, trivial, trivial⟩
  · apply (roundTrips_iff ListingAccount.layout Sdk.reads_listingAccount encodeListingAccount_eq
      listing).mpr
    exact ⟨⟨trivial, trivial, trivial⟩, trivial, trivial, trivial, trivial, trivial, trivial⟩
  · apply (roundTrips_iff OfferAccount.layout Sdk.reads_offerAccount encodeOfferAccount_eq offer).mpr
    exact ⟨⟨trivial, trivial, trivial⟩, trivial, trivial, trivial, trivial, trivial, trivial⟩
  · rw [← RecordValue.plain_iff]
    exact roundTrips_iff RecordValue.layout Sdk.reads_recordValue encodeRecordValue_eq value
  · rw [← NameInstruction.plain_iff]
    exact roundTrips_iff NameInstruction.layout Sdk.reads_instruction encodeInstruction_eq instruction

/-- A text record whose value is a mark and the letter `a`. -/
def markedValue : RecordValue :=
  .text ⟨[0x6B], by decide, by decide⟩ ⟨[0xEF, 0xBB, 0xBF, 0x61], by decide, by decide⟩

/-- It comes back as the letter alone. -/
theorem marked_value_changes : ¬ RoundTrips RecordValue.toSdk
    (Sdk.BorshReader.finish Sdk.decodeRecordValue) Sdk.encodeRecordValue markedValue := by
  rintro ⟨h, -⟩
  exact absurd h (by decide +kernel)

end ArchNameService
