import ArchNameService.Refinement.Execution
import ArchNameService.Refinement.Frame
import ArchNameService.Refinement.Resolve

/-!
# The seeds of the derived addresses

Every account of the registry is found under a list of seeds. The handler that creates
the account, the crate and the SDK spell the same list out, and the bytes that are hashed,
one seed after the other and the bump, tell which account it is.
-/

namespace ArchNameService
open Borsh (Str)
open Crypto Deployment JsString

/-- The accounts of the registry, with the hashes and the addresses that they are found by. -/
inductive Pda where
  | config (networkId : UInt32) (namespaceHash : Bytes 32)
  | name (namespaceHash nameHash : Bytes 32)
  | record (namespaceHash nameHash : Bytes 32) (recordType : RecordType)
  | textRecord (namespaceHash nameHash keyHash : Bytes 32)
  | reverse (namespaceHash : Bytes 32) (owner : ArchAddress)
  | listing (namespaceHash nameHash : Bytes 32)
  | offer (namespaceHash nameHash : Bytes 32) (buyer : ArchAddress)

namespace Pda

/-- The labels that the lists begin with. -/
inductive Label where
  | config | name | record | reverse | listing | offer

def Label.seed : Label → List UInt8
  | .config => configSeed
  | .name => nameSeed
  | .record => recordSeed
  | .reverse => reverseSeed
  | .listing => listingSeed
  | .offer => offerSeed

/-- The label that a byte string begins with: seven characters are enough. -/
def Label.of : List UInt8 → Option Label
  | _ :: _ :: _ :: _ :: 0x63 :: _ => some .config
  | _ :: _ :: _ :: _ :: 0x6E :: _ => some .name
  | _ :: _ :: _ :: _ :: 0x72 :: _ :: 0x63 :: _ => some .record
  | _ :: _ :: _ :: _ :: 0x72 :: _ :: 0x76 :: _ => some .reverse
  | _ :: _ :: _ :: _ :: 0x6C :: _ => some .listing
  | _ :: _ :: _ :: _ :: 0x6F :: _ => some .offer
  | _ => none

def label : Pda → Label
  | config .. => .config
  | name .. => .name
  | record .. => .record
  | textRecord .. => .record
  | reverse .. => .reverse
  | listing .. => .listing
  | offer .. => .offer

def arguments : Pda → List (List UInt8)
  | config networkId ns => [leBytes 4 networkId.toNat, ns.toList]
  | name ns nameHash => [ns.toList, nameHash.toList]
  | record ns nameHash recordType => [ns.toList, nameHash.toList, [recordType.byte]]
  | textRecord ns nameHash keyHash =>
      [ns.toList, nameHash.toList, [RecordType.text.byte], keyHash.toList]
  | reverse ns owner => [ns.toList, owner.toList]
  | listing ns nameHash => [ns.toList, nameHash.toList]
  | offer ns nameHash buyer => [ns.toList, nameHash.toList, buyer.toList]

def seeds (pda : Pda) : List (List UInt8) := pda.label.seed :: pda.arguments

/-- What `find_program_address` hashes before the program: the seeds and the bump. -/
def preimage (pda : Pda) (bump : UInt8) : List UInt8 := pda.seeds.flatten ++ [bump]

/-! ## No two accounts hash the same bytes -/

theorem Label.of_append (l : Label) (rest : List UInt8) : Label.of (l.seed ++ rest) = some l := by
  cases l <;> rfl

theorem byte_injective : Function.Injective RecordType.byte := by
  intro s t h
  cases s <;> cases t <;> first | rfl | cases h

theorem leBytes_injective {n m : UInt32} (h : leBytes 4 n.toNat = leBytes 4 m.toNat) : n = m := by
  have hvalue := congrArg leNat h
  rw [leNat_leBytes, leNat_leBytes] at hvalue
  have hn : n.toNat < 256 ^ 4 := n.toNat_lt
  have hm : m.toNat < 256 ^ 4 := m.toNat_lt
  rwa [Nat.mod_eq_of_lt hn, Nat.mod_eq_of_lt hm, UInt32.toNat_inj] at hvalue

theorem fields_inj {a b a' b' : Bytes 32} {rest rest' : List UInt8}
    (h : a.toList ++ (b.toList ++ rest) = a'.toList ++ (b'.toList ++ rest')) :
    a = a' ∧ b = b' ∧ rest = rest' := by
  obtain ⟨ha, htail⟩ := Bytes.append_inj h
  obtain ⟨hb, hrest⟩ := Bytes.append_inj htail
  exact ⟨ha, hb, hrest⟩

theorem label_inj {p q : Pda} {bump bump' : UInt8} (h : p.preimage bump = q.preimage bump') :
    p.label = q.label := by
  simp only [preimage, seeds, List.flatten_cons, List.append_assoc] at h
  have hof := congrArg Label.of h
  rwa [Label.of_append, Label.of_append, Option.some.injEq] at hof

/-- What is hashed tells the account and the bump. A record with a key is longer than one
without; the other labels are followed by fields of fixed lengths. -/
theorem preimage_inj {p q : Pda} {bump bump' : UInt8} (h : p.preimage bump = q.preimage bump') :
    p = q ∧ bump = bump' := by
  have hlabel := label_inj h
  have hlength := congrArg List.length h
  rw [preimage, preimage, seeds, seeds, hlabel, List.flatten_cons, List.flatten_cons,
    List.append_assoc, List.append_assoc, List.append_cancel_left_eq] at h
  cases p with
  | config networkId ns =>
      cases q with
      | config networkId' ns' =>
          simp only [arguments, List.flatten_cons, List.flatten_nil, List.append_nil,
            List.append_assoc] at h
          obtain ⟨hnetwork, htail⟩ := List.append_inj h (by rw [length_leBytes, length_leBytes])
          obtain ⟨rfl, hbump⟩ := Bytes.append_inj htail
          cases leBytes_injective hnetwork
          cases hbump
          exact ⟨rfl, rfl⟩
      | _ => cases hlabel
  | name ns nameHash =>
      cases q with
      | name ns' nameHash' =>
          simp only [arguments, List.flatten_cons, List.flatten_nil, List.append_nil,
            List.append_assoc] at h
          obtain ⟨rfl, rfl, hbump⟩ := fields_inj h
          cases hbump
          exact ⟨rfl, rfl⟩
      | _ => cases hlabel
  | record ns nameHash recordType =>
      cases q with
      | record ns' nameHash' recordType' =>
          simp only [arguments, List.flatten_cons, List.flatten_nil, List.append_nil,
            List.append_assoc, List.cons_append, List.nil_append] at h
          obtain ⟨rfl, rfl, htail⟩ := fields_inj h
          obtain ⟨hbyte, hbump⟩ := List.cons.inj htail
          cases byte_injective hbyte
          cases hbump
          exact ⟨rfl, rfl⟩
      | textRecord ns' nameHash' keyHash' =>
          simp [preimage, seeds, hlabel, arguments] at hlength
      | _ => cases hlabel
  | textRecord ns nameHash keyHash =>
      cases q with
      | textRecord ns' nameHash' keyHash' =>
          simp only [arguments, List.flatten_cons, List.flatten_nil, List.append_nil,
            List.append_assoc, List.cons_append, List.nil_append] at h
          obtain ⟨rfl, rfl, htail⟩ := fields_inj h
          obtain ⟨rfl, hbump⟩ := Bytes.append_inj (List.cons.inj htail).2
          cases hbump
          exact ⟨rfl, rfl⟩
      | record ns' nameHash' recordType' =>
          simp [preimage, seeds, hlabel, arguments] at hlength
      | _ => cases hlabel
  | reverse ns owner =>
      cases q with
      | reverse ns' owner' =>
          simp only [arguments, List.flatten_cons, List.flatten_nil, List.append_nil,
            List.append_assoc] at h
          obtain ⟨rfl, rfl, hbump⟩ := fields_inj h
          cases hbump
          exact ⟨rfl, rfl⟩
      | _ => cases hlabel
  | listing ns nameHash =>
      cases q with
      | listing ns' nameHash' =>
          simp only [arguments, List.flatten_cons, List.flatten_nil, List.append_nil,
            List.append_assoc] at h
          obtain ⟨rfl, rfl, hbump⟩ := fields_inj h
          cases hbump
          exact ⟨rfl, rfl⟩
      | _ => cases hlabel
  | offer ns nameHash buyer =>
      cases q with
      | offer ns' nameHash' buyer' =>
          simp only [arguments, List.flatten_cons, List.flatten_nil, List.append_nil,
            List.append_assoc] at h
          obtain ⟨rfl, rfl, htail⟩ := fields_inj h
          obtain ⟨rfl, hbump⟩ := Bytes.append_inj htail
          cases hbump
          exact ⟨rfl, rfl⟩
      | _ => cases hlabel

/-! ## The handlers, the crate and the SDK -/

/-- The seeds are those the handler creates the account with and those that the address is
derived from, by the crate and by the SDK. -/
structure Spelt [Crypto] (pda : Pda) (handler : List (List UInt8))
    (crate sdk : ArchAddress → ArchAddress) : Prop where
  handler : handler = pda.seeds
  crate : ∀ programId, crate programId = derive programId pda.seeds
  sdk : ∀ programId, sdk programId = derive programId pda.seeds

end Pda

section
variable [Crypto]

/-- The seeds that `set_record` creates the account of a record with. -/
def setRecordSeedsFor (nameHash : Bytes 32) (recordType : RecordType)
    (textKey : Option (List UInt8)) : List (List UInt8) :=
  match textKey.map recordKeyHash with
  | some keyHash => setRecordKeySeeds nameHash recordType keyHash
  | none => setRecordSeeds nameHash recordType

/-- The account of a record, with the text key or without one. -/
def Pda.ofRecord (ns nameHash : Bytes 32) (recordType : RecordType) :
    Option (List UInt8) → Pda
  | some key => .textRecord ns nameHash (recordKeyHash key)
  | none => .record ns nameHash recordType

/-- In a namespace, all accounts are spelt alike. -/
structure SpeltIn (ns : Str) (loaded : RegistryConfig) : Prop where
  config : ∀ networkId, (Pda.config networkId (namespaceHash ns.bytes)).Spelt
    (initializeRegistrySeeds networkId) (deriveConfigAddress · networkId ns.bytes)
    (Sdk.deriveConfigAddress · networkId (ofUtf8 ns.bytes))
  name : ∀ nameHash, (Pda.name (namespaceHash ns.bytes) nameHash).Spelt (registerSeeds nameHash)
    (deriveNameAddress · ns.bytes nameHash) (Sdk.deriveNameAddress · (ofUtf8 ns.bytes) nameHash)
  record : ∀ nameHash recordType, (Pda.record (namespaceHash ns.bytes) nameHash recordType).Spelt
    (setRecordSeeds nameHash recordType) (deriveRecordAddress · ns.bytes nameHash recordType)
    (Sdk.deriveRecordAddress · (ofUtf8 ns.bytes) nameHash recordType)
  textRecord : ∀ nameHash (key : Str),
    (Pda.textRecord (namespaceHash ns.bytes) nameHash (recordKeyHash key.bytes)).Spelt
      (setRecordKeySeeds nameHash .text (recordKeyHash key.bytes))
      (deriveTextRecordAddress · ns.bytes nameHash key.bytes)
      (Sdk.deriveTextRecordAddress · (ofUtf8 ns.bytes) nameHash (ofUtf8 key.bytes))
  written : ∀ nameHash name existing recordType value expected record programId,
    Transition.setRecord loaded name existing recordType value expected = .ok record →
      setRecordSeedsFor nameHash recordType value.textKey =
          (Pda.ofRecord (namespaceHash ns.bytes) nameHash recordType value.textKey).seeds ∧
        deriveRecordAddressForValue programId ns.bytes nameHash recordType value.textKey =
          some (derive programId
            (Pda.ofRecord (namespaceHash ns.bytes) nameHash recordType value.textKey).seeds) ∧
        Sdk.deriveRecordAddressFor programId (ofUtf8 ns.bytes) nameHash recordType
            (value.textKey.map ofUtf8) =
          .ok (derive programId
            (Pda.ofRecord (namespaceHash ns.bytes) nameHash recordType value.textKey).seeds)
  reverse : ∀ owner, (Pda.reverse (namespaceHash ns.bytes) owner).Spelt (setPrimarySeeds owner)
    (deriveReverseAddress · ns.bytes owner)
    (Sdk.deriveReverseAddress · (ofUtf8 ns.bytes) owner.toList)
  listing : ∀ nameHash, (Pda.listing (namespaceHash ns.bytes) nameHash).Spelt
    (listNameSeeds nameHash) (deriveListingAddress · ns.bytes nameHash)
    (Sdk.deriveListingAddress · (ofUtf8 ns.bytes) nameHash)
  offer : ∀ nameHash buyer, (Pda.offer (namespaceHash ns.bytes) nameHash buyer).Spelt
    (makeOfferSeeds nameHash buyer) (deriveOfferAddress · ns.bytes nameHash buyer)
    (Sdk.deriveOfferAddress · (ofUtf8 ns.bytes) nameHash buyer.toList)

/-- The accounts of the namespace that every loaded config has. -/
theorem speltIn (config : RegistryConfig) : SpeltIn testnetNamespace config where
  config networkId := ⟨rfl, fun _ => rfl, fun _ => Sdk.deriveConfigAddress_eq ..⟩
  name nameHash := ⟨rfl, fun _ => rfl, fun _ => Sdk.deriveNameAddress_eq ..⟩
  record nameHash recordType :=
    ⟨rfl, fun _ => rfl, fun _ => Sdk.deriveRecordAddress_eq ..⟩
  textRecord nameHash key := ⟨rfl, fun _ => rfl, fun _ => Sdk.deriveTextRecordAddress_eq ..⟩
  reverse owner := ⟨rfl, fun _ => rfl, fun _ => Sdk.deriveReverseAddress_eq ..⟩
  listing nameHash := ⟨rfl, fun _ => rfl, fun _ => by
    rw [Sdk.deriveListingAddress, Sdk.namespaceHash_eq]
    rfl⟩
  offer nameHash buyer := ⟨rfl, fun _ => rfl, fun _ => by
    rw [Sdk.deriveOfferAddress, Sdk.namespaceHash_eq]
    rfl⟩
  written := by
    intro nameHash name existing recordType value expected record programId h
    simp only [Transition.setRecord, Outcome.bind_ok] at h
    obtain ⟨_, hvalid, -⟩ := h
    cases validateRecordValue_recordType hvalid
    cases value with
    | archOwner owner => exact ⟨rfl, rfl, congrArg Except.ok (Sdk.deriveRecordAddress_eq ..)⟩
    | bitcoinTaproot program =>
        exact ⟨rfl, rfl, congrArg Except.ok (Sdk.deriveRecordAddress_eq ..)⟩
    | tokenAta tokenId ata => exact ⟨rfl, rfl, congrArg Except.ok (Sdk.deriveRecordAddress_eq ..)⟩
    | text key text =>
        refine ⟨rfl, rfl, ?_⟩
        simp only [validateRecordValue, Outcome.bind_ok] at hvalid
        obtain ⟨_, -, _, -, _, hkey, -⟩ := hvalid
        have hne : ofUtf8 key.bytes ≠ [] := by
          intro hnil
          rw [Sdk.ofUtf8_eq_nil key.utf8] at hnil
          simp only [validateTextKey, Outcome.bind_ok, Outcome.reject_ok, hnil] at hkey
          obtain ⟨_, hempty, -⟩ := hkey
          exact hempty (.inl rfl)
        have hfilter : (some (ofUtf8 key.bytes)).filter (· ≠ []) = some (ofUtf8 key.bytes) :=
          Option.filter_eq_some_iff.mpr ⟨rfl, decide_eq_true hne⟩
        change (orElseError _ ((some (ofUtf8 key.bytes)).filter (· ≠ [])) >>= _) = _
        rw [hfilter]
        exact congrArg Except.ok (Sdk.deriveTextRecordAddress_eq ..)

end

/-- For a loaded config, the handlers create every account with the seeds that the crate and
the SDK derive its address from; and no two accounts hash the same bytes. -/
theorem seeds_spelt_alike [Deployment] :
    (∀ L account config, loadConfig L account = .ok config → SpeltIn config.namespace config) ∧
      Function.Injective (Function.uncurry Pda.preimage) := by
  constructor
  · intro L account config hconfig
    rw [loadConfig_namespace hconfig]
    exact speltIn config
  · rintro ⟨p, bump⟩ ⟨q, bump'⟩ h
    obtain ⟨rfl, rfl⟩ := Pda.preimage_inj h
    rfl

open Testnet in
/-- The config of the testnet is loaded once the registry is open. -/
theorem seeds_of_testnet : ∃ L config, loadConfig L ⟨configKey, false, false⟩ = .ok config ∧
    SpeltIn config.namespace config := by
  obtain ⟨L, -, -, -, hload⟩ := reached opening
    (fun L => (loadConfig L ⟨configKey, false, false⟩).toOption.isSome) (by decide +kernel)
    (by decide +kernel)
  obtain ⟨config, hconfig⟩ := Option.isSome_iff_exists.mp hload
  have hloaded := Outcome.toOption_eq_some.mp hconfig
  exact ⟨L, config, hloaded, seeds_spelt_alike.1 L _ config hloaded⟩

end ArchNameService
