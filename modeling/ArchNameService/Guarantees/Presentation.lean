import ArchNameService.Guarantees.Profiles
import ArchNameService.Guarantees.Resolution
import ArchNameService.Manager.NameProfile

/-!
# What the profile shows of a name

The profile shows every record account that decodes. On a ledger that the program
has reached, such a record resolves exactly when it was written in the present
tenure of its name.
-/

namespace ArchNameService
open Deployment
open JsString (ofUtf8 ofAscii HasMark)
open Borsh (serialize)

namespace Sdk

/-! ## The records of a profile -/

/-- A record that a profile has a place for. -/
inductive ProfileRecord where
  | archOwner
  | taproot
  | text (key : JsString)

namespace ProfileRecord

def recordType : ProfileRecord → RecordType
  | .archOwner => .archOwner
  | .taproot => .bitcoinTaproot
  | .text _ => .text

def textKey : ProfileRecord → Option JsString
  | .text key => some key
  | _ => none

/-- The key as it is hashed. -/
def slot (place : ProfileRecord) : RecordSlot :=
  .of place.recordType (place.textKey.getD []).encode

end ProfileRecord

def NameProfile.record (profile : NameProfile) : ProfileRecord → Option RecordAccount
  | .archOwner => profile.archOwner
  | .taproot => profile.taproot
  | .text key => (profile.textByKey.get key).join

/-- A record is found under a key only where it was asked for, and it is the record of the key. -/
theorem Dictionary.get_build_some {α : Type} {f : JsString → Option α} {keys : List JsString}
    {key : JsString} {a : α} (h : ((build f keys).get key).join = some a) :
    key ∈ keys ∧ f key = some a := by
  rw [Option.join_eq_some_iff] at h
  unfold get at h
  by_cases hproto : key = protoKey
  · subst hproto
    rw [build_own_proto, build_prototype] at h
    by_cases hmem : protoKey ∈ keys
    · cases hf : f protoKey with
      | none =>
          by_cases hmany : 1 < keys.count protoKey
          · simp [hf, hmany] at h
          · simp [hf, hmany, hmem] at h
      | some b =>
          simp only [hf, hmem, reduceCtorEq, false_and, if_false, if_true, Option.some.injEq] at h
          exact ⟨hmem, congrArg some h⟩
    · have hcount : keys.count protoKey = 0 := List.count_eq_zero.mpr hmem
      simp [hmem, hcount] at h
  · rw [build_own f hproto] at h
    by_cases hmem : key ∈ keys
    · rw [if_pos hmem] at h
      exact ⟨hmem, Option.some.inj h⟩
    · rw [if_neg hmem] at h
      dsimp only at h
      split at h
      · rw [if_neg hproto] at h
        exact nomatch h
      · exact nomatch h

end Sdk

/-! ## Stored accounts, as the SDK decodes them -/

theorem not_hasMark_of_ascii {bytes : List UInt8} (h : ∀ b ∈ bytes, b < 0x80) : ¬ HasMark bytes := by
  intro hmark
  have hfirst : 0xEF ∈ bytes := by
    apply List.mem_of_mem_take (i := 3)
    rw [hmark]
    exact List.mem_cons_self
  exact absurd (h 0xEF hfirst) (by decide)

theorem decode_serialize {α σ : Type} [Borsh α] (l : Layout α σ) {reader : Sdk.BorshReader σ}
    (hreader : Reads reader l.read) {a : α} (hplain : l.Plain (l.wire a)) :
    Sdk.BorshReader.finish reader (serialize a) = .ok (l.view a) :=
  (Sdk.finish_ok hreader _ _).mpr ⟨l.wire a, (l.plain_iff a).mpr hplain, (l.serialize_wire a).symm⟩

theorem decode_config (authority : ArchAddress) :
    Sdk.decodeRegistryConfig (serialize (initialConfig testnetNetworkId authority)) =
      .ok (initialConfig testnetNetworkId authority).toSdk := by
  apply decode_serialize RegistryConfig.layout Sdk.reads_registryConfig
  apply (RegistryConfig.plain_iff _).mpr
  exact (by decide : ¬ HasMark testnetNamespace.bytes)

theorem decode_registration (n : Registration) (h : Bytes 32) :
    Sdk.decodeNameAccount (serialize (n.account h)) = .ok (n.account h).toSdk := by
  apply decode_serialize NameAccount.layout Sdk.reads_nameAccount
  apply (NameAccount.plain_iff _).mpr
  exact not_hasMark_of_ascii (validateLabel_ascii n.label.valid)

theorem unmarked_of_valid [Crypto] {config : RegistryConfig} {name : NameAccount}
    {recordType : RecordType} {value : RecordValue}
    (h : validateRecordValue config name recordType value = .ok ()) : value.Unmarked := by
  cases value with
  | text key value =>
      simp only [validateRecordValue, validateTextKey, validateTextValue, Outcome.bind_ok,
        Outcome.reject_ok, not_not, not_or, List.all_eq_true] at h
      obtain ⟨_, -, _, -, _, ⟨_, -, hkey⟩, _, -, hvalue, -⟩ := h
      constructor
      · apply not_hasMark_of_ascii
        intro b hb
        have hunit := hkey b hb
        rw [← Sdk.isTextKeyUnit_toUInt16] at hunit
        exact UInt8.toUInt16_lt.mp (Sdk.isTextKeyUnit_ascii hunit)
      · apply not_hasMark_of_ascii
        intro b hb
        exact of_decide_eq_true (hvalue b hb)
  | _ => trivial

theorem decode_publication {p : Publication} (h : Bytes 32) (hvalue : p.value.Unmarked) :
    Sdk.decodeRecordAccount (serialize (p.account h)) = .ok (p.account h).toSdk := by
  apply decode_serialize RecordAccount.layout Sdk.reads_recordAccount
  exact (RecordAccount.plain_iff _).mpr hvalue

theorem recordOf_publication {p : Publication} (h : Bytes 32) (hvalue : p.value.Unmarked)
    (owner : List UInt8) :
    Sdk.AnsClient.recordOf ⟨encodeState (p.account h), owner⟩ = .ok (p.account h).toSdk := by
  have hdecode : Sdk.decodeRecordAccount (encodeState (p.account h)) = .ok (p.account h).toSdk :=
    decode_publication h hvalue
  have hheader : Sdk.validateHeader (p.account h).toSdk.header recordAccountDiscriminator = .ok () :=
    validateHeader_ok.mpr (AccountHeader.validate_ok_iff.mpr rfl)
  simp only [Sdk.AnsClient.recordOf, hdecode, Outcome.ok_bind, hheader]
  rfl

/-! ## A client of the deployment -/

/-- The accounts of a ledger as they are read; one without data may be missing. -/
def Sdk.Snapshot.Of (snapshot : Sdk.Snapshot) (L : Ledger) : Prop :=
  ∀ k, snapshot.account k = some ⟨L.data k, (L.owner k).toList⟩ ∨
    snapshot.account k = none ∧ L.data k = []

section
variable [Deployment] {L L₀ : Ledger} {S : Scope} {client : Sdk.AnsClient}
  {snapshot : Sdk.Snapshot} {h : Bytes 32}

structure Sdk.AnsClient.Deployed (client : Sdk.AnsClient) : Prop where
  programId : client.programId = Deployment.programId
  registryConfigAddress : client.registryConfigAddress = Site.config.address
  «namespace» : client.namespace = ofUtf8 testnetNamespace.bytes

theorem Holds.served {T : Type} [Borsh T] {k : ArchAddress} {x : T} (holds : Holds L k x)
    (hne : encodeState x ≠ []) (hof : snapshot.Of L) :
    snapshot.account k = some ⟨serialize x, programId.toList⟩ := by
  rcases hof k with hsome | ⟨-, hempty⟩
  · rw [hsome, holds.1, holds.2]
    rfl
  · rw [holds.2] at hempty
    exact absurd hempty hne

theorem deriveTextRecordAddress_site (h : Bytes 32) (key : JsString) :
    Sdk.deriveTextRecordAddress programId (ofUtf8 testnetNamespace.bytes) h key =
      (Site.record h (.text key.encode)).address := by
  rw [Sdk.deriveTextRecordAddress, Sdk.namespaceHash_eq]
  rfl

/-- The SDK looks for a record where the program keeps it. -/
theorem deriveRecordAddressFor_site (h : Bytes 32) {place : Sdk.ProfileRecord}
    (hkey : ∀ key, place = .text key → key ≠ []) :
    Sdk.deriveRecordAddressFor programId (ofUtf8 testnetNamespace.bytes) h place.recordType
      place.textKey = .ok (Site.record h place.slot).address := by
  cases place with
  | archOwner => exact congrArg Except.ok (Sdk.deriveRecordAddress_eq ..)
  | taproot => exact congrArg Except.ok (Sdk.deriveRecordAddress_eq ..)
  | text key =>
      have hfilter : (some key).filter (· ≠ []) = some key :=
        Option.filter_eq_some_iff.mpr ⟨rfl, decide_eq_true (hkey key rfl)⟩
      change (orElseError _ ((some key).filter (· ≠ [])) >>= _) = _
      rw [hfilter]
      exact congrArg Except.ok (deriveTextRecordAddress_site h key)

namespace Sdk.AnsClient.Deployed
variable (deployed : client.Deployed)
include deployed

theorem nameAddress (h : Bytes 32) :
    Sdk.deriveNameAddress client.programId client.namespace h = (Site.name h).address := by
  rw [deployed.programId, deployed.namespace]
  exact Sdk.deriveNameAddress_eq ..

theorem recordAddress (h : Bytes 32) {place : Sdk.ProfileRecord}
    (hkey : ∀ key, place = .text key → key ≠ []) :
    Sdk.deriveRecordAddressFor client.programId client.namespace h place.recordType place.textKey =
      .ok (Site.record h place.slot).address := by
  rw [deployed.programId, deployed.namespace]
  exact deriveRecordAddressFor_site h hkey

theorem config_served {authority : ArchAddress} (hserves : client.transport.Serves snapshot)
    (hof : snapshot.Of L)
    (holds : Holds L Site.config.address (initialConfig testnetNetworkId authority)) :
    client.fetchRegistryConfig = .ok (initialConfig testnetNetworkId authority).toSdk := by
  have hserved := holds.served (encode_config_ne _) hof
  simp only [fetchRegistryConfig, hserves.read, deployed.registryConfigAddress, hserved,
    Outcome.bind_ok, Outcome.orElseError_ok, Outcome.reject_ok, Outcome.pure_ok, Except.ok.injEq,
    exists_eq_left', Option.some.injEq, deployed.programId, not_not, decode_config]
  exact ⟨(), trivial, (), validateHeader_ok.mpr (AccountHeader.validate_ok_iff.mpr rfl), trivial⟩

end Sdk.AnsClient.Deployed

/-! ## Resolution by the client -/

variable [Sdk.Platform] {n : Registration} {p : Publication} {name : JsString}
  {place : Sdk.ProfileRecord} {slot : UInt64}

omit [Deployment] [Sdk.Platform] in
theorem recordType_of_addressed {value : RecordValue} (h : value.slot = place.slot) :
    value.recordType = place.recordType := by
  cases value <;> cases place <;> first | rfl | exact nomatch h

omit [Deployment] in
theorem canonicalizeName_stored (n : Registration) :
    Sdk.canonicalizeName (ofUtf8 (n.label.str.bytes ++ archSuffix)) =
      .ok (ofUtf8 (n.label.str.bytes ++ archSuffix)) := by
  rw [JsString.ofUtf8_ascii (canonical_ascii n.label.valid)]
  exact Sdk.canonicalizeName_label n.label.valid

theorem nameHash_stored (hhash : labelHash n.label.str.bytes = h) :
    Sdk.nameHash (ofUtf8 (n.label.str.bytes ++ archSuffix)) = .ok h := by
  rw [JsString.ofUtf8_ascii (canonical_ascii n.label.valid), Sdk.nameHash_label n.label.valid, hhash]

/-- Every spelling of the name has its hash. -/
theorem nameHash_requested (hhash : labelHash n.label.str.bytes = h)
    (hrequested : Sdk.canonicalizeName name = .ok (ofUtf8 (n.label.str.bytes ++ archSuffix))) :
    Sdk.nameHash name = .ok h := by
  have hstored := nameHash_stored hhash
  rw [Sdk.nameHash, canonicalizeName_stored] at hstored
  rw [Sdk.nameHash, hrequested]
  exact hstored

theorem validateName_requested (authority : ArchAddress) (hhash : labelHash n.label.str.bytes = h)
    (hrequested : Sdk.canonicalizeName name = .ok (ofUtf8 (n.label.str.bytes ++ archSuffix)))
    (hslot : slot < Transition.permanentExpiry) {u : Unit} :
    Sdk.validateName programId (initialConfig testnetNetworkId authority).toSdk name
      ⟨(Site.name h).address, (n.account h).toSdk⟩ slot = .ok u := by
  have hcanonical := canonicalizeName_label n.label.valid
  have hsame := (@validateName_iff _ _ programId
    ⟨Site.config.address, initialConfig testnetNetworkId authority⟩
    ⟨(Site.name h).address, n.account h⟩ slot _ _ hcanonical u).mpr (validateName_ok hhash hslot)
  -- the two spellings have one canonical form, and only that is read
  unfold Sdk.validateName at hsame ⊢
  rw [hrequested]
  rwa [canonicalizeName_stored] at hsame

/-- A stored record resolves to its value exactly when its stamp is that of the name. -/
theorem resolveRecord_stored (hlibraries : Sdk.SameAddresses) (authority : ArchAddress)
    (hhash : labelHash n.label.str.bytes = h)
    (hrequested : Sdk.canonicalizeName name = .ok (ofUtf8 (n.label.str.bytes ++ archSuffix)))
    (haddressed : p.value.slot = place.slot) (hkey : ∀ key, place = .text key → key ≠ [])
    (hslot : slot < Transition.permanentExpiry)
    (hvalid : n.owner = p.ownerSnapshot → validateRecordValue
      (initialConfig testnetNetworkId authority) (n.account h) p.value.recordType p.value = .ok ()) :
    Sdk.resolveRecord programId
        ⟨Site.config.address, (initialConfig testnetNetworkId authority).toSdk⟩ name
        ⟨(Site.name h).address, (n.account h).toSdk⟩
        ⟨(Site.record h place.slot).address, (p.account h).toSdk⟩ place.recordType slot
        place.textKey = .ok p.value.toSdk ↔
      p.ownerSnapshot = n.owner ∧ p.recordEpoch = n.recordEpoch := by
  have htype := recordType_of_addressed haddressed
  simp only [Sdk.resolveRecord, Outcome.bind_ok, Outcome.reject_ok, Outcome.pure_ok, not_or, not_not]
  constructor
  · rintro ⟨-, -, -, -, -, -, _, -, -, -, -, ⟨-, -, howner, hepoch⟩, -⟩
    exact ⟨howner, hepoch⟩
  · rintro ⟨howner, hepoch⟩
    have hconfig := (@validateConfig_iff _ programId
      ⟨Site.config.address, initialConfig testnetNetworkId authority⟩ ()).mpr validateConfig_ok
    have hvalue := (Sdk.validateRecordValue_iff hlibraries _ _ _ _).mpr (hvalid howner.symm)
    rw [htype] at hvalue
    refine ⟨(), hconfig, (), validateName_requested authority hhash hrequested hslot, (),
      validateHeader_ok.mpr (AccountHeader.validate_ok_iff.mpr rfl), (Site.record h place.slot).address,
      ?_, (), rfl, (), ⟨rfl, htype, howner, hepoch⟩, (), hvalue, rfl⟩
    have hderive := deriveRecordAddressFor_site h hkey
    cases place with
    | archOwner => exact hderive
    | taproot => exact hderive
    | text key => exact hderive

/-! ## What is shown -/

/-- The profile is not fetched with an empty key. -/
theorem Sdk.AnsClient.textKeys_of_fetched {textKeys : List JsString}
    {primaryOwner : Option ArchAddress} {profile : Sdk.NameProfile}
    (hprofile : client.fetchNameProfile name textKeys primaryOwner = .ok profile) :
    ∀ key ∈ textKeys, key ≠ [] := by
  simp only [fetchNameProfile, Outcome.bind_ok] at hprofile
  obtain ⟨_, -, hash, -, _, -, _, -, addresses, haddresses, -⟩ := hprofile
  clear primaryOwner
  induction textKeys generalizing addresses with
  | nil => exact fun _ h => nomatch h
  | cons key textKeys ih =>
      simp only [List.mapM_cons, Outcome.bind_ok] at haddresses
      obtain ⟨_, hfirst, rest, hrest, -⟩ := haddresses
      intro other hother
      rcases List.mem_cons.mp hother with rfl | hother
      · rintro rfl
        exact nomatch hfirst
      · exact ih rest hrest other hother

/-- What the profile shows is decoded from the account of its place. -/
theorem record_served {textKeys : List JsString} {primaryOwner : Option ArchAddress}
    {profile : Sdk.NameProfile} {record : Sdk.RecordAccount} (deployed : client.Deployed)
    (hserves : client.transport.Serves snapshot) (hhash : labelHash n.label.str.bytes = h)
    (hrequested : Sdk.canonicalizeName name = .ok (ofUtf8 (n.label.str.bytes ++ archSuffix)))
    (hprofile : client.fetchNameProfile name textKeys primaryOwner = .ok profile)
    (hshown : profile.record place = some record) :
    (∀ key, place = .text key → key ≠ []) ∧
      Sdk.AnsClient.decodeRecord (snapshot.account (Site.record h place.slot).address) =
        some record := by
  have htextKeys := Sdk.AnsClient.textKeys_of_fetched hprofile
  obtain ⟨-, harchOwner, htaproot, htext, -⟩ := (Sdk.AnsClient.fetchNameProfile_served hserves
    hrequested (nameHash_stored hhash) htextKeys).mp hprofile
  rw [deployed.programId, deployed.namespace] at harchOwner htaproot htext
  cases place with
  | archOwner =>
      rw [Sdk.deriveRecordAddress_eq] at harchOwner
      exact ⟨fun _ h => (nomatch h), harchOwner.symm.trans hshown⟩
  | taproot =>
      rw [Sdk.deriveRecordAddress_eq] at htaproot
      exact ⟨fun _ h => (nomatch h), htaproot.symm.trans hshown⟩
  | text key =>
      change (profile.textByKey.get key).join = some record at hshown
      rw [htext] at hshown
      obtain ⟨hmem, hrecord⟩ := Sdk.Dictionary.get_build_some hshown
      rw [deriveTextRecordAddress_site] at hrecord
      refine ⟨?_, hrecord⟩
      rintro _ ⟨⟩
      exact htextKeys key hmem

omit [Sdk.Platform] in
/-- A stored record that is served decodes to what was published. -/
theorem publication_of_served {R : Registry} {record : Sdk.RecordAccount} {site : RecordSlot}
    (agrees : Agrees S L R.content) (clean : Clean S L) (hsite : .record h site ∈ S)
    (hof : snapshot.Of L) (hvalues : ∀ p, R.record (h, site) = some p → p.value.Unmarked)
    (hserved : Sdk.AnsClient.decodeRecord (snapshot.account (Site.record h site).address) =
      some record) :
    ∃ p, R.record (h, site) = some p ∧ record = (p.account h).toSdk ∧
      Holds L (Site.record h site).address (p.account h) := by
  rcases hof (Site.record h site).address with hsome | ⟨hnone, -⟩
  · rw [hsome] at hserved
    have hdata : L.data (Site.record h site).address ≠ [] := by
      intro hempty
      rw [hempty] at hserved
      cases hserved
    have howner : L.owner (Site.record h site).address = programId := by
      rcases clean _ hsite with howner | ⟨-, hempty⟩
      · exact howner
      · exact absurd hempty hdata
    have hcontent := agrees _ hsite
    rw [Ledger.content_of_owner howner] at hcontent
    cases hrecord : R.record (h, site) with
    | none =>
        simp only [Registry.content, hrecord, Option.map_none, encoded] at hcontent
        exact absurd hcontent hdata
    | some p =>
        simp only [Registry.content, hrecord, Option.map_some, encoded] at hcontent
        refine ⟨p, rfl, ?_, howner, hcontent⟩
        simp only [Sdk.AnsClient.decodeRecord, hcontent, if_neg (encode_record_ne _),
          recordOf_publication h (hvalues p hrecord)] at hserved
        exact (Option.some.inj hserved).symm
  · rw [hnone] at hserved
    cases hserved

/-- The client resolves a stored record from the accounts of the ledger. -/
theorem client_resolveRecord {p : Publication} {authority : ArchAddress} (deployed : client.Deployed)
    (hserves : client.transport.Serves snapshot) (hof : snapshot.Of L)
    (hhash : labelHash n.label.str.bytes = h)
    (hrequested : Sdk.canonicalizeName name = .ok (ofUtf8 (n.label.str.bytes ++ archSuffix)))
    (hkey : ∀ key, place = .text key → key ≠ []) (hvalue : p.value.Unmarked)
    (hconfig : Holds L Site.config.address (initialConfig testnetNetworkId authority))
    (hname : Holds L (Site.name h).address (n.account h))
    (hrecord : Holds L (Site.record h place.slot).address (p.account h)) :
    client.resolveRecord name place.recordType place.textKey =
      Sdk.resolveRecord programId
        ⟨Site.config.address, (initialConfig testnetNetworkId authority).toSdk⟩ name
        ⟨(Site.name h).address, (n.account h).toSdk⟩
        ⟨(Site.record h place.slot).address, (p.account h).toSdk⟩ place.recordType snapshot.slot
        place.textKey := by
  simp only [Sdk.AnsClient.resolveRecord, deployed.config_served hserves hof hconfig,
    nameHash_requested hhash hrequested, deployed.nameAddress, deployed.recordAddress h hkey,
    hserves.read, hserves.slot, hname.served (encode_name_ne _) hof,
    hrecord.served (encode_record_ne _) hof, orElseError, decode_registration,
    decode_publication h hvalue, Outcome.ok_bind]
  rw [deployed.programId, deployed.registryConfigAddress]

/-- A record that the profile shows resolves exactly when its account carries the present owner
and epoch of its name. -/
theorem shown_record_resolves_iff (hlibraries : Sdk.SameAddresses) (genesis : Genesis L₀)
    (untouched : Untouched S L₀) {history : List Event} (run : Run (Ledger.Step S) L₀ history L)
    (hconfig : .config ∈ S) (hsite : .name h ∈ S) (hrecord : .record h place.slot ∈ S)
    (deployed : client.Deployed) (hserves : client.transport.Serves snapshot)
    (hof : snapshot.Of L) (hslot : snapshot.slot < Transition.permanentExpiry)
    {registered : NameAccount} (hregistered : L.storedName h = some registered)
    (hrequested : Sdk.canonicalizeName name =
      .ok (ofUtf8 (registered.canonicalLabel.bytes ++ archSuffix)))
    {textKeys : List JsString} {primaryOwner : Option ArchAddress} {profile : Sdk.NameProfile}
    {record : Sdk.RecordAccount}
    (hprofile : client.fetchNameProfile name textKeys primaryOwner = .ok profile)
    (hshown : profile.record place = some record) :
    client.resolveRecord name place.recordType place.textKey = .ok record.value ↔
      ∃ stored, L.storedRecord h place.slot = some stored ∧
        stored.ownerSnapshot = registered.owner ∧ stored.recordEpoch = registered.recordEpoch := by
  obtain ⟨R, hreached, corresponds⟩ := genesis.reached run
  have agrees := corresponds.agrees
  obtain ⟨n, hn, rfl⟩ := agrees.name_of_stored hsite hregistered
  have hhash := (Registry.tenure hreached hn).hash
  have htrace := Registry.record_trace hreached h place.slot
  have hvalues : ∀ p, R.record (h, place.slot) = some p → p.value.Unmarked := by
    intro p hp
    rw [hp] at htrace
    obtain ⟨_, -, hvalid⟩ := htrace.valid
    exact unmarked_of_valid (hvalid { n with owner := p.ownerSnapshot } rfl)
  obtain ⟨hkey, hserved⟩ := record_served deployed hserves hhash hrequested hprofile hshown
  obtain ⟨p, hp, rfl, holds⟩ := publication_of_served agrees (corresponds.clean untouched.clean)
    hrecord hof hvalues hserved
  rw [hp] at htrace
  obtain ⟨authority, hopen, hvalid⟩ := htrace.valid
  have hconfigured : Holds L Site.config.address (initialConfig testnetNetworkId authority) := by
    apply stored_eq_some.mp
    exact (agrees.storedConfig hconfig).trans (by rw [hopen]; rfl)
  rw [client_resolveRecord deployed hserves hof hhash hrequested hkey (hvalues p hp) hconfigured
    (stored_eq_some.mp hregistered) holds]
  refine (resolveRecord_stored hlibraries authority hhash hrequested htrace.addressed hkey hslot
    (hvalid n)).trans ?_
  have hstored : L.storedRecord h place.slot = some (p.account h) := stored_eq_some.mpr holds
  constructor
  · rintro ⟨howner, hepoch⟩
    exact ⟨_, hstored, howner, hepoch⟩
  · rintro ⟨stored, hother, hfresh⟩
    cases hstored.symm.trans hother
    exact hfresh

end

/-! What is shown of `alice.arch`, whose first owner publishes a text. -/

namespace Testnet

/-- No Taproot address is written. -/
scoped instance platform : Sdk.Platform where
  lowerUnicode s := s
  bech32mToWords _ := []
  bech32mEncode _ _ := .error (.error "Exceeds length limit")

theorem sameAddresses : Sdk.SameAddresses := fun _ _ => rfl

def served (L : Ledger) : Sdk.Snapshot :=
  { account := fun k => some ⟨L.data k, (L.owner k).toList⟩, slot := 0 }

theorem served_of (L : Ledger) : (served L).Of L := fun _ => .inl rfl

def site (L : Ledger) : Sdk.AnsClient :=
  { programId := program
    registryConfigAddress := configKey
    «namespace» := ofUtf8 testnetNamespace.bytes
    transport := (served L).transport }

theorem site_deployed (L : Ledger) : (site L).Deployed := ⟨rfl, rfl, rfl⟩

def requested : JsString := Sdk.text "alice.arch"

def urlPlace : Sdk.ProfileRecord := .text (Sdk.text "url")

def profile (L : Ledger) : Except Sdk.Thrown Sdk.NameProfile :=
  (site L).fetchNameProfile requested [Sdk.text "url"] none

def shownUrl (L : Ledger) : Option Sdk.RecordAccount :=
  (profile L).toOption.bind (·.record urlPlace)

theorem shownUrl_some {L : Ledger} {record : Sdk.RecordAccount} (h : shownUrl L = some record) :
    ∃ shown, profile L = .ok shown ∧ shown.record urlPlace = some record := by
  obtain ⟨shown, hshown, hrecord⟩ := Option.bind_eq_some_iff.mp h
  exact ⟨shown, Outcome.toOption_eq_some.mp hshown, hrecord⟩

/-- Who owns the name, and who has written the text that the page shows. -/
def page (L : Ledger) : Option ArchAddress × Option (ArchAddress × Option (UInt64 × JsString)) :=
  ((L.storedName alice).map (·.owner), (shownUrl L).map fun record =>
    (record.ownerSnapshot, Manager.textFromRecord (some record)))

def handover : Call := call ann [configKey, nameKey, listingKey] (.transfer alice ben)

end Testnet

open Testnet in
/-- After a transfer the text of the previous owner is still shown, and does not resolve. -/
theorem previous_record_shown :
    ∃ (history : List Event) (L : Ledger) (shown : Sdk.NameProfile) (record : Sdk.RecordAccount),
      Run (Ledger.Step scope) start history L ∧ (L.storedName alice).map (·.owner) = some ben ∧
        (site L).fetchNameProfile requested [Sdk.text "url"] none = .ok shown ∧
        shown.record urlPlace = some record ∧ record.ownerSnapshot = ann ∧
        Manager.textFromRecord (some record) = some (1, Sdk.text "a") ∧
        (site L).resolveRecord requested .text (some (Sdk.text "url")) ≠ .ok record.value := by
  obtain ⟨L, run, -, -, hp⟩ := reached (opening ++ [publication oldUrl 0, handover])
    (fun L => decide (page L = (some ben, some (ann, some (1, Sdk.text "a")))) &&
      ((site L).resolveRecord requested .text (some (Sdk.text "url"))).toOption.isNone)
    (by decide +kernel) (by decide +kernel)
  obtain ⟨hpage, hfails⟩ := Bool.and_eq_true_iff.mp hp
  obtain ⟨howner, hshown⟩ := Prod.mk.inj (of_decide_eq_true hpage)
  obtain ⟨record, hrecord, hwritten⟩ := Option.map_eq_some_iff.mp hshown
  obtain ⟨hwriter, htext⟩ := Prod.mk.inj hwritten
  obtain ⟨shown, hprofile, hplace⟩ := shownUrl_some hrecord
  refine ⟨_, L, shown, record, run, howner, hprofile, hplace, hwriter, htext, fun hresolves => ?_⟩
  rw [hresolves] at hfails
  exact nomatch hfails

open Testnet in
/-- What Ann publishes is shown and resolves, as long as the name is hers. -/
theorem present_record_resolves :
    ∃ (L : Ledger) (record : Sdk.RecordAccount), shownUrl L = some record ∧
      (site L).resolveRecord requested .text (some (Sdk.text "url")) = .ok record.value := by
  obtain ⟨L, run, -, -, hp⟩ := reached (opening ++ [publication oldUrl 0])
    (fun L => decide ((L.storedName alice).map (fun n => (n.canonicalLabel.bytes, n.owner,
        n.recordEpoch)) = some (ascii "alice", ann, 1)) &&
      (decide ((L.storedRecord alice urlSlot).map (fun r => (r.ownerSnapshot, r.recordEpoch)) =
        some (ann, 1)) && (shownUrl L).isSome)) (by decide +kernel) (by decide +kernel)
  obtain ⟨hname, hrest⟩ := Bool.and_eq_true_iff.mp hp
  obtain ⟨hstamp, hsome⟩ := Bool.and_eq_true_iff.mp hrest
  obtain ⟨registered, hregistered, hvalues⟩ :=
    Option.map_eq_some_iff.mp (of_decide_eq_true hname)
  obtain ⟨hlabel, hvalues⟩ := Prod.mk.inj hvalues
  obtain ⟨howner, hepoch⟩ := Prod.mk.inj hvalues
  obtain ⟨stored, hstored, hwritten⟩ := Option.map_eq_some_iff.mp (of_decide_eq_true hstamp)
  obtain ⟨hwriter, hwrittenIn⟩ := Prod.mk.inj hwritten
  obtain ⟨record, hrecord⟩ := Option.isSome_iff_exists.mp hsome
  obtain ⟨shown, hprofile, hplace⟩ := shownUrl_some hrecord
  have hrequested : Sdk.canonicalizeName requested =
      .ok (ofUtf8 (registered.canonicalLabel.bytes ++ archSuffix)) := by
    rw [hlabel]
    exact Outcome.toOption_eq_some.mp (by decide +kernel)
  refine ⟨L, record, hrecord, ?_⟩
  apply (shown_record_resolves_iff sameAddresses start_genesis start_untouched run
    (by decide : .config ∈ sites) (by decide : .name alice ∈ sites)
    (by decide +kernel : .record alice urlPlace.slot ∈ sites) (site_deployed L)
    (Sdk.Snapshot.serves _) (served_of L) (by decide : (0 : UInt64) < Transition.permanentExpiry)
    hregistered hrequested hprofile hplace).mpr
  exact ⟨stored, hstored, hwriter.trans howner.symm, hwrittenIn.trans hepoch.symm⟩

end ArchNameService
