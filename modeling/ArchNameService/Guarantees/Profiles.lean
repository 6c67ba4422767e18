import ArchNameService.Guarantees.Decoding
import ArchNameService.Guarantees.Resolvers
import ArchNameService.Sdk.Client

/-!
# The batched profile

On one snapshot of the accounts, the profile that is loaded in one batch shows what
the single reads show, unless the name account is filled with zeros, which the
batch cannot read, or a missing record has the one key that sets a prototype.
-/

namespace ArchNameService
open JsString (ofUtf8 ofAscii)
open Borsh (serialize)

namespace Sdk

/-! ## The object of records -/

namespace Dictionary
variable {α : Type} (f : JsString → Option α)

theorem set_own {d : Dictionary α} {key : JsString} (hkey : key ≠ protoKey) (value : Option α) :
    (d.set key value).own = (key, value) :: d.own := by
  unfold set
  cases d.prototype <;> simp [hkey]

theorem set_prototype {d : Dictionary α} {key : JsString} (hkey : key ≠ protoKey)
    (value : Option α) : (d.set key value).prototype = d.prototype := by
  unfold set
  cases d.prototype <;> simp [hkey]

theorem lookup_set {d : Dictionary α} {key last : JsString} (hkey : key ≠ last)
    (value : Option α) : (d.set last value).own.lookup key = d.own.lookup key := by
  have hbeq : (key == last) = false := beq_eq_false_iff_ne.2 hkey
  unfold set
  by_cases hlast : last = protoKey
  · rw [hlast] at hbeq ⊢
    cases d.prototype <;> simp [hbeq, List.lookup_cons]
  · cases d.prototype <;> simp [hlast, hbeq, List.lookup_cons]

theorem set_protoKey (d : Dictionary α) (value : Option α) :
    d.set protoKey value =
      match d.prototype with
      | .null => { d with own := (protoKey, value) :: d.own }
      | _ => { d with prototype := match value with | none => .null | some a => .value a } := by
  unfold set
  cases d.prototype <;> cases value <;> simp

/-- Each key in turn is set to its record. -/
def build (keys : List JsString) : Dictionary α := keys.foldl (fun d key => d.set key (f key)) empty

theorem build_append (keys : List JsString) (key : JsString) :
    build f (keys ++ [key]) = (build f keys).set key (f key) := List.foldl_append ..

/-- The prototype after the keys: only one of them touches it. -/
theorem build_prototype (keys : List JsString) :
    (build f keys).prototype =
      if protoKey ∈ keys then (match f protoKey with | none => .null | some a => .value a)
      else .standard := by
  induction keys using List.reverseRecOn with
  | nil => rfl
  | append_singleton keys key ih =>
      rw [build_append]
      by_cases hkey : key = protoKey
      · subst hkey
        rw [set_protoKey]
        by_cases hmem : protoKey ∈ keys
        · cases hf : f protoKey <;> simp [ih, hmem, hf]
        · simp [ih, hmem]
      · have hne : protoKey ≠ key := fun h => hkey h.symm
        rw [set_prototype hkey, ih]
        simp [hne]

theorem build_own {keys : List JsString} {key : JsString} (hkey : key ≠ protoKey) :
    (build f keys).own.lookup key = if key ∈ keys then some (f key) else none := by
  induction keys using List.reverseRecOn with
  | nil => rfl
  | append_singleton keys last ih =>
      rw [build_append]
      by_cases h : key = last
      · subst h
        simp [set_own hkey]
      · rw [lookup_set h, ih]
        simp [h]

/-- An own `__proto__` appears only once the prototype is gone. -/
theorem build_own_proto (keys : List JsString) :
    (build f keys).own.lookup protoKey =
      if f protoKey = none ∧ 1 < keys.count protoKey then some none else none := by
  induction keys using List.reverseRecOn with
  | nil => simp [build, empty]
  | append_singleton keys last ih =>
      rw [build_append]
      by_cases hlast : last = protoKey
      · subst hlast
        rw [set_protoKey, build_prototype]
        by_cases hmem : protoKey ∈ keys
        · have hcount : 0 < keys.count protoKey := List.count_pos_iff.2 hmem
          cases hf : f protoKey with
          | none => simp [hmem, hcount]
          | some a =>
              simp only [hmem, hf, ih, if_true]
              simp
        · have hcount : keys.count protoKey = 0 := List.count_eq_zero.2 hmem
          simp only [hmem, ih, if_false]
          simp [hcount]
      · have hne : protoKey ≠ last := fun h => hlast h.symm
        rw [lookup_set hne, ih]
        simp [List.count_append, hlast]

/-- Every key reads back as its record, but for the missing record of a single `__proto__`. -/
theorem get_build {keys : List JsString} {key : JsString} (hkey : key ∈ keys) :
    (build f keys).get key = some (f key) ↔
      ¬ (key = protoKey ∧ f protoKey = none ∧ keys.count protoKey = 1) := by
  unfold get
  by_cases h : key = protoKey
  · subst h
    have hcount : 0 < keys.count protoKey := List.count_pos_iff.2 hkey
    rw [build_own_proto, build_prototype]
    cases hf : f protoKey with
    | none =>
        by_cases hone : 1 < keys.count protoKey
        · have : keys.count protoKey ≠ 1 := by omega
          simp [hone, this]
        · have : keys.count protoKey = 1 := by omega
          simp [this, hkey]
    | some a => simp [hkey]
  · rw [build_own f h]
    simp [hkey, h]

end Dictionary

/-! ## One snapshot -/

/-- The accounts of the chain at one slot. -/
structure Snapshot where
  account : ArchAddress → Option AccountInfo
  slot : UInt64

/-- Every read of the transport returns what the snapshot holds. -/
structure AnsTransport.Serves (transport : AnsTransport) (snapshot : Snapshot) : Prop where
  read : ∀ address, transport.readAccountInfo address = .ok (snapshot.account address)
  batch : ∀ getMultipleAccounts, transport.getMultipleAccounts = some getMultipleAccounts →
    ∀ addresses, getMultipleAccounts addresses = .ok (addresses.map snapshot.account)
  slot : transport.getCurrentSlot = .ok snapshot.slot

/-- A transport that reads one account at a time. -/
def Snapshot.transport (snapshot : Snapshot) : AnsTransport :=
  { readAccountInfo := fun address => .ok (snapshot.account address)
    getMultipleAccounts := none
    getCurrentSlot := .ok snapshot.slot }

theorem Snapshot.serves (snapshot : Snapshot) : snapshot.transport.Serves snapshot :=
  ⟨fun _ => rfl, nofun, rfl⟩

namespace AnsClient
variable {client : AnsClient} {snapshot : Snapshot}

theorem readAccounts_served (hserves : client.transport.Serves snapshot)
    (addresses : List ArchAddress) :
    client.readAccounts addresses = .ok (addresses.map snapshot.account) := by
  unfold readAccounts
  cases hbatch : client.transport.getMultipleAccounts with
  | some getMultipleAccounts => exact hserves.batch _ hbatch addresses
  | none =>
      have hread : client.transport.readAccountInfo = fun address => pure (snapshot.account address) :=
        funext hserves.read
      rw [hread]
      exact List.mapM_pure

section Reads
variable [Crypto] [Platform]

/-- What the single reads return. -/
structure SingleReads (client : AnsClient) (name : JsString) (textKeys : List JsString)
    (primaryOwner : Option ArchAddress) where
  nameAccount : Option NameAccount
  archOwner : Option RecordAccount
  taproot : Option RecordAccount
  text : JsString → Option RecordAccount
  primaryName : Option JsString
  nameAccount_ok : client.fetchNameAccount name = .ok nameAccount
  archOwner_ok : client.fetchRecord name .archOwner none = .ok archOwner
  taproot_ok : client.fetchRecord name .bitcoinTaproot none = .ok taproot
  text_ok : ∀ key ∈ textKeys, client.fetchRecord name .text (some key) = .ok (text key)
  primaryName_ok : primaryOwner.elim (.ok none) client.resolvePrimary = .ok primaryName

/-- The batched profile shows what the single reads return. -/
def SingleReads.Agree {name : JsString} {textKeys : List JsString}
    {primaryOwner : Option ArchAddress} (reads : SingleReads client name textKeys primaryOwner) :
    Prop :=
  ∃ profile, client.fetchNameProfile name textKeys primaryOwner = .ok profile ∧
    profile.nameAccount = reads.nameAccount ∧ profile.archOwner = reads.archOwner ∧
    profile.taproot = reads.taproot ∧
    (∀ key ∈ textKeys, profile.textByKey.get key = some (reads.text key)) ∧
    profile.primaryName = reads.primaryName

/-- There is an account at the address of the name, and its data are zeros. -/
def ZeroFilled (client : AnsClient) (snapshot : Snapshot) (name : JsString) : Prop :=
  ∃ hash info, nameHash name = .ok hash ∧
    snapshot.account (deriveNameAddress client.programId client.namespace hash) = some info ∧
    info.data ≠ [] ∧ isBlankAccountData info.data = true

/-- The key `__proto__` is asked for once, and its record is missing. -/
def LosesKey (client : AnsClient) (snapshot : Snapshot) (name : JsString)
    (textKeys : List JsString) : Prop :=
  textKeys.count Dictionary.protoKey = 1 ∧ ∃ hash, nameHash name = .ok hash ∧
    ∀ info, snapshot.account (deriveTextRecordAddress client.programId client.namespace hash
      Dictionary.protoKey) = some info → info.data = []

omit [Crypto] [Platform] in
/-- What reads as a name account begins with the discriminator. -/
theorem not_blank_of_readsName {data : List UInt8} (h : ReadsName data) :
    isBlankAccountData data = false := by
  obtain ⟨name, hname, hheader⟩ := h
  obtain ⟨⟨⟨discriminator, initialized, version⟩, fields⟩, rfl, rfl⟩ :=
    (finish_ok reads_nameAccount _ _).mp hname
  have hfresh := AccountHeader.validate_ok_iff.mp (validateHeader_ok.mp hheader)
  have hdiscriminator : discriminator = nameAccountDiscriminator :=
    congrArg AccountHeader.discriminator hfresh
  subst hdiscriminator
  rfl

omit [Crypto] [Platform] in
theorem profileName_ok {info : AccountInfo} {nameAccount : Option NameAccount}
    (hdata : info.data ≠ []) :
    client.profileName (some info) = .ok nameAccount ↔
      info.owner = client.programId.toList ∧ ∃ name, decodeNameAccount info.data = .ok name ∧
        validateHeader name.header nameAccountDiscriminator = .ok () ∧ some name = nameAccount := by
  simp only [profileName, if_neg hdata, Outcome.bind_ok, Outcome.reject_ok, Outcome.pure_ok, not_not]
  constructor
  · rintro ⟨_, howner, name, hname, _, hheader, hnameAccount⟩
    exact ⟨howner, name, hname, hheader, hnameAccount⟩
  · rintro ⟨howner, name, hname, hheader, hnameAccount⟩
    exact ⟨(), howner, name, hname, (), hheader, hnameAccount⟩

omit [Crypto] [Platform] in
theorem classify_account {data : List UInt8} {name : NameAccount}
    (hblank : isBlankAccountData data = false) (hname : decodeNameAccount data = .ok name)
    (hheader : validateHeader name.header nameAccountDiscriminator = .ok ()) :
    classifyNameAccountData (some data) = ⟨.taken, some name⟩ := by
  rw [classifyNameAccountData, hblank, hname]
  simp only [Bool.false_eq_true, if_false]
  split
  · rename_i account hread
    rw [Outcome.ok_bind, hheader] at hread
    cases hread
    rfl
  · rename_i e hread
    rw [Outcome.ok_bind, hheader] at hread
    cases hread

/-- What the single read returns, and the accounts it rejects. -/
theorem fetchNameAccount_found {name canonical : JsString} {hash : Bytes 32} {info : AccountInfo}
    {nameAccount : Option NameAccount} (hserves : client.transport.Serves snapshot)
    (hcanonical : canonicalizeName name = .ok canonical) (hhash : nameHash canonical = .ok hash)
    (hsome : snapshot.account (deriveNameAddress client.programId client.namespace hash) = some info)
    (hdata : info.data ≠ []) (hsingle : client.fetchNameAccount name = .ok nameAccount) :
    info.owner = client.programId.toList ∧
      (isBlankAccountData info.data = true ∨ isBlankAccountData info.data = false ∧
        ∃ name, decodeNameAccount info.data = .ok name ∧
          validateHeader name.header nameAccountDiscriminator = .ok () ∧
          some name = nameAccount) := by
  simp only [fetchNameAccount, getNameAvailability, Outcome.bind_ok, hcanonical, hhash, hserves.read,
    Except.ok.injEq, exists_eq_left', hsome, if_neg hdata, Outcome.reject_ok, Outcome.pure_ok,
    not_not] at hsingle
  obtain ⟨_, ⟨_, howner, rfl⟩, hstatus⟩ := hsingle
  refine ⟨howner, ?_⟩
  cases hblank : isBlankAccountData info.data with
  | true => exact .inl rfl
  | false =>
      refine .inr ⟨rfl, ?_⟩
      by_cases hreads : ReadsName info.data
      · obtain ⟨found, hfound, hheader⟩ := hreads
        rw [classify_account hblank hfound hheader] at hstatus
        exact ⟨found, hfound, hheader, Except.ok.inj hstatus⟩
      · simp only [classify_unavailable hblank hreads] at hstatus
        cases hstatus

theorem fetchNameAccount_missing {name canonical : JsString} {hash : Bytes 32}
    {nameAccount : Option NameAccount} (hserves : client.transport.Serves snapshot)
    (hcanonical : canonicalizeName name = .ok canonical) (hhash : nameHash canonical = .ok hash)
    (hmissing : ∀ info, snapshot.account
      (deriveNameAddress client.programId client.namespace hash) = some info → info.data = [])
    (hsingle : client.fetchNameAccount name = .ok nameAccount) : nameAccount = none := by
  simp only [fetchNameAccount, getNameAvailability, Outcome.bind_ok, hcanonical, hhash, hserves.read,
    Except.ok.injEq, exists_eq_left'] at hsingle
  cases haccount : snapshot.account (deriveNameAddress client.programId client.namespace hash) with
  | none =>
      rw [haccount] at hsingle
      obtain ⟨_, hstatus, hnone⟩ := hsingle
      cases hstatus
      exact (Except.ok.inj hnone).symm
  | some info =>
      rw [haccount] at hsingle
      simp only [if_pos (hmissing info haccount)] at hsingle
      obtain ⟨_, hstatus, hnone⟩ := hsingle
      cases hstatus
      exact (Except.ok.inj hnone).symm

/-- The profile reads the name account as the single read does, unless it is zeros. -/
theorem profileName_iff {name canonical : JsString} {hash : Bytes 32}
    {nameAccount : Option NameAccount} (hserves : client.transport.Serves snapshot)
    (hcanonical : canonicalizeName name = .ok canonical) (hhash : nameHash canonical = .ok hash)
    (hsingle : client.fetchNameAccount name = .ok nameAccount) :
    client.profileName (snapshot.account
        (deriveNameAddress client.programId client.namespace hash)) = .ok nameAccount ↔
      ∀ info, snapshot.account (deriveNameAddress client.programId client.namespace hash) =
        some info → ¬ (info.data ≠ [] ∧ isBlankAccountData info.data = true) := by
  cases haccount : snapshot.account (deriveNameAddress client.programId client.namespace hash) with
  | none =>
      have hnone := fetchNameAccount_missing hserves hcanonical hhash
        (fun info h => by rw [haccount] at h; cases h) hsingle
      subst hnone
      exact ⟨by rintro _ _ ⟨⟩, fun _ => rfl⟩
  | some info =>
      simp only [Option.some.injEq, forall_eq']
      by_cases hdata : info.data = []
      · have hnone := fetchNameAccount_missing hserves hcanonical hhash
          (fun other h => by rw [haccount] at h; cases h; exact hdata) hsingle
        subst hnone
        refine ⟨fun _ h => h.1 hdata, fun _ => ?_⟩
        simp only [profileName, if_pos hdata]
        rfl
      · obtain ⟨howner, hfound⟩ :=
          fetchNameAccount_found hserves hcanonical hhash haccount hdata hsingle
        rw [profileName_ok hdata]
        constructor
        · rintro ⟨-, name, hname, hheader, -⟩ ⟨-, hblank⟩
          rw [not_blank_of_readsName ⟨name, hname, hheader⟩] at hblank
          cases hblank
        · intro hzero
          rcases hfound with hblank | ⟨-, hreads⟩
          · exact absurd ⟨hdata, hblank⟩ hzero
          · exact ⟨howner, hreads⟩

theorem fetchRecord_ok {name : JsString} {hash : Bytes 32} {recordType : RecordType}
    {textKey : Option JsString} {record : Option RecordAccount}
    (hserves : client.transport.Serves snapshot) (hhash : nameHash name = .ok hash)
    (hsingle : client.fetchRecord name recordType textKey = .ok record) :
    ∃ address, deriveRecordAddressFor client.programId client.namespace hash recordType textKey =
        .ok address ∧ decodeRecord (snapshot.account address) = record ∧
      (record = none ↔ ∀ info, snapshot.account address = some info → info.data = []) := by
  simp only [fetchRecord, Outcome.bind_ok, hhash, hserves.read, Except.ok.injEq,
    exists_eq_left'] at hsingle
  obtain ⟨address, haddress, hsingle⟩ := hsingle
  refine ⟨address, haddress, ?_⟩
  cases haccount : snapshot.account address with
  | none =>
      rw [haccount] at hsingle
      obtain rfl := Except.ok.inj hsingle
      exact ⟨rfl, by rintro _ _ ⟨⟩, fun _ => rfl⟩
  | some info =>
      rw [haccount] at hsingle
      simp only [decodeRecord, Option.some.injEq, forall_eq']
      by_cases hdata : info.data = []
      · simp only [if_pos hdata] at hsingle ⊢
        obtain rfl := Except.ok.inj hsingle
        exact ⟨rfl, fun _ => hdata, fun _ => rfl⟩
      · simp only [if_neg hdata, Outcome.bind_ok, Outcome.pure_ok] at hsingle ⊢
        obtain ⟨found, hfound, rfl⟩ := hsingle
        exact ⟨Outcome.toOption_eq_some.mpr hfound, by rintro ⟨⟩, fun h => absurd h hdata⟩

/-- The reverse check of the profile gives the primary name of the owner. -/
theorem profilePrimary_ok {owner nameAddress : ArchAddress} {primaryName : Option JsString}
    (hserves : client.transport.Serves snapshot)
    (hsingle : client.resolvePrimary owner = .ok primaryName) :
    client.profilePrimary nameAddress
        (deriveReverseAddress client.programId client.namespace owner.toList)
        (snapshot.account nameAddress) (snapshot.account
          (deriveReverseAddress client.programId client.namespace owner.toList)) =
      .ok primaryName := by
  simp only [resolvePrimary, Outcome.bind_ok, hserves.read, hserves.slot, Except.ok.injEq,
    exists_eq_left'] at hsingle
  obtain ⟨config, hconfig, hsingle⟩ := hsingle
  cases hreverse : snapshot.account
      (deriveReverseAddress client.programId client.namespace owner.toList) with
  | none =>
      rw [hreverse] at hsingle
      exact hsingle
  | some reverseInfo =>
      rw [hreverse] at hsingle
      simp only [profilePrimary]
      by_cases hdata : reverseInfo.data = []
      · simp only [if_pos hdata] at hsingle ⊢
        exact hsingle
      · simp only [if_neg hdata, Outcome.bind_ok] at hsingle ⊢
        obtain ⟨reverse, hdecoded, _, hheader, hsingle⟩ := hsingle
        simp only [hdecoded, hheader, Outcome.ok_bind]
        -- the account that was loaded is the one that a read would find
        have hfound : catchInvalidBinding (client.boundPrimary
            (deriveReverseAddress client.programId client.namespace owner.toList)
            (deriveNameAddress client.programId client.namespace reverse.primaryNameHash) reverse
            (snapshot.account (deriveNameAddress client.programId client.namespace
              reverse.primaryNameHash))) = .ok primaryName := by
          simp only [Except.ok.injEq, exists_eq_left', Outcome.ok_bind] at hsingle
          cases hname : snapshot.account (deriveNameAddress client.programId client.namespace
              reverse.primaryNameHash) with
          | none =>
              rw [hname] at hsingle
              obtain rfl := Except.ok.inj hsingle
              rfl
          | some nameInfo =>
              rw [hname] at hsingle
              -- an empty account is no name, so the single read does not return
              have hdata : nameInfo.data ≠ [] := by
                intro hempty
                simp only [hempty] at hsingle
                cases hsingle
              simp only [boundPrimary, if_neg hdata, hconfig, hserves.slot, Outcome.ok_bind]
              exact hsingle
        split
        · rename_i raw hraw
          split at hraw
          · rename_i heq
            rw [← heq] at hraw
            rw [hraw] at hfound
            exact hfound
          · cases hraw
        · rw [hserves.read]
          exact hfound

omit [Crypto] [Platform] in
/-- Each account of the batch is found at its place. -/
theorem batch_places (snapshot : Snapshot) (first second third : ArchAddress)
    (textAddresses : List ArchAddress) (last : Option ArchAddress) {accounts : List (Option AccountInfo)}
    (h : ([first, second, third] ++ textAddresses ++ last.toList).map snapshot.account = accounts) :
    accounts[0]?.join = snapshot.account first ∧ accounts[1]?.join = snapshot.account second ∧
      accounts[2]?.join = snapshot.account third ∧
      (∀ index, index < textAddresses.length →
        accounts[3 + index]?.join = textAddresses[index]?.bind snapshot.account) ∧
      accounts[3 + textAddresses.length]?.join = last.bind snapshot.account := by
  subst h
  refine ⟨rfl, rfl, rfl, fun index hindex => ?_, ?_⟩
  · have hplace : 3 + index < ([first, second, third] ++ textAddresses).length := by
      rw [List.length_append]
      exact Nat.add_lt_add_left hindex 3
    rw [List.getElem?_map, List.getElem?_append_left hplace, Nat.add_comm]
    change (textAddresses[index]?.map snapshot.account).join = _
    cases textAddresses[index]? <;> rfl
  · have hlength : 3 + textAddresses.length = ([first, second, third] ++ textAddresses).length := by
      rw [List.length_append]
      rfl
    rw [List.getElem?_map, hlength, List.getElem?_append_right (Nat.le_refl _), Nat.sub_self]
    cases last <;> rfl

omit [Crypto] [Platform] in
/-- The texts of the profile, by their places in the batch. -/
theorem textByKey_eq {f : Nat → Option RecordAccount} {g : JsString → Option RecordAccount}
    {textKeys : List JsString}
    (h : ∀ index key, textKeys[index]? = some key → f index = g key) :
    textKeys.zipIdx.foldl (fun d entry => d.set entry.1 (f entry.2)) Dictionary.empty =
      Dictionary.build g textKeys := by
  have hfold : textKeys.zipIdx.foldl (fun d entry => d.set entry.1 (f entry.2)) Dictionary.empty =
      textKeys.zipIdx.foldl (fun d entry => d.set entry.1 (g entry.1)) Dictionary.empty := by
    apply List.foldl_ext
    intro d entry hentry
    rw [h entry.2 entry.1 (List.mk_mem_zipIdx_iff_getElem?.mp hentry)]
  have hkeys : textKeys.zipIdx.foldl (fun d entry => d.set entry.1 (g entry.1)) Dictionary.empty =
      (textKeys.zipIdx.map Prod.fst).foldl (fun d key => d.set key (g key)) Dictionary.empty := by
    rw [List.foldl_map]
  rw [hfold, hkeys, List.zipIdx_map_fst]
  rfl

omit [Platform] in
theorem textAddresses_ok {programId : ArchAddress} {ns : JsString} {hash : Bytes 32}
    {textKeys : List JsString} (h : ∀ key ∈ textKeys, key ≠ []) :
    (textKeys.mapM fun key => deriveRecordAddressFor programId ns hash .text (some key)) =
      .ok (textKeys.map (deriveTextRecordAddress programId ns hash)) := by
  induction textKeys with
  | nil => rfl
  | cons key textKeys ih =>
      have hkey : deriveRecordAddressFor programId ns hash .text (some key) =
          .ok (deriveTextRecordAddress programId ns hash key) := by
        simp only [deriveRecordAddressFor, Option.filter_some, h key (List.mem_cons_self ..),
          ne_eq, not_false_eq_true, decide_true, if_true]
        rfl
      rw [List.mapM_cons, hkey, Outcome.ok_bind, ih fun key hkey => h key (List.mem_cons_of_mem _ hkey)]
      rfl

/-- The records and the names that the profile takes from a snapshot. -/
theorem fetchNameProfile_served {name canonical : JsString} {hash : Bytes 32}
    {textKeys : List JsString} {primaryOwner : Option ArchAddress} {profile : NameProfile}
    (hserves : client.transport.Serves snapshot) (hcanonical : canonicalizeName name = .ok canonical)
    (hhash : nameHash canonical = .ok hash) (htextKeys : ∀ key ∈ textKeys, key ≠ []) :
    client.fetchNameProfile name textKeys primaryOwner = .ok profile ↔
      client.profileName (snapshot.account
          (deriveNameAddress client.programId client.namespace hash)) = .ok profile.nameAccount ∧
        profile.archOwner = decodeRecord (snapshot.account
          (deriveRecordAddress client.programId client.namespace hash .archOwner)) ∧
        profile.taproot = decodeRecord (snapshot.account
          (deriveRecordAddress client.programId client.namespace hash .bitcoinTaproot)) ∧
        profile.textByKey = Dictionary.build (fun key => decodeRecord (snapshot.account
          (deriveTextRecordAddress client.programId client.namespace hash key))) textKeys ∧
        primaryOwner.elim (.ok none) (fun owner => client.profilePrimary
          (deriveNameAddress client.programId client.namespace hash)
          (deriveReverseAddress client.programId client.namespace owner.toList)
          (snapshot.account (deriveNameAddress client.programId client.namespace hash))
          (snapshot.account (deriveReverseAddress client.programId client.namespace owner.toList))) =
          .ok profile.primaryName := by
  rw [fetchNameProfile]
  simp only [hcanonical, hhash, Outcome.ok_bind, textAddresses_ok htextKeys, readAccounts_served hserves]
  simp only [deriveRecordAddressFor, pure_bind]
  generalize haccounts : List.map snapshot.account _ = accounts
  obtain ⟨hname, harchOwner, htaproot, htext, hreverse⟩ := batch_places snapshot _ _ _ _ _ haccounts
  have htexts : textKeys.zipIdx.foldl
      (fun d entry => d.set entry.1 (decodeRecord accounts[3 + entry.2]?.join)) Dictionary.empty =
      Dictionary.build (fun key => decodeRecord (snapshot.account
        (deriveTextRecordAddress client.programId client.namespace hash key))) textKeys := by
    apply textByKey_eq (f := fun index => decodeRecord accounts[3 + index]?.join)
    intro index key hkey
    have hindex := (List.getElem?_eq_some_iff.mp hkey).1
    rw [htext index (by rw [List.length_map]; exact hindex), List.getElem?_map, hkey]
    rfl
  rw [List.length_map] at hreverse
  simp only [hname, harchOwner, htaproot, hreverse, htexts]
  cases profile with
  | mk nameAccount archOwner taproot textByKey primaryName =>
      cases primaryOwner with
      | none =>
          simp only [Option.map_none, Outcome.bind_ok, Outcome.pure_ok, NameProfile.mk.injEq,
            Option.elim_none, Except.ok.injEq]
          constructor
          · rintro ⟨_, hname, rfl, rfl, rfl, rfl, hprimary⟩
            exact ⟨hname, rfl, rfl, rfl, hprimary⟩
          · rintro ⟨hname, rfl, rfl, rfl, hprimary⟩
            exact ⟨_, hname, rfl, rfl, rfl, rfl, hprimary⟩
      | some owner =>
          simp only [Option.map_some, Outcome.bind_ok, Outcome.pure_ok, NameProfile.mk.injEq,
            Option.elim_some, Option.bind_some]
          constructor
          · rintro ⟨_, hname, _, hprimary, rfl, rfl, rfl, rfl, rfl⟩
            exact ⟨hname, rfl, rfl, rfl, hprimary⟩
          · rintro ⟨hname, rfl, rfl, rfl, hprimary⟩
            exact ⟨_, hname, _, hprimary, rfl, rfl, rfl, rfl, rfl⟩

/-- A name that is read is accepted, and its canonical form has the same hash. -/
theorem SingleReads.hash {name : JsString} {textKeys : List JsString}
    {primaryOwner : Option ArchAddress} (reads : SingleReads client name textKeys primaryOwner) :
    ∃ canonical hash, canonicalizeName name = .ok canonical ∧ nameHash canonical = .ok hash ∧
      nameHash name = .ok hash := by
  have hread := reads.nameAccount_ok
  simp only [fetchNameAccount, getNameAvailability, Outcome.bind_ok] at hread
  obtain ⟨_, ⟨canonical, hcanonical, -⟩, -⟩ := hread
  obtain ⟨label, hlabel, hlabelled⟩ := canonicalizeName_ok hcanonical
  refine ⟨canonical, hashName canonical, hcanonical, ?_, ?_⟩
  · rw [nameHash, hlabelled, canonicalizeName_label hlabel]
    rfl
  · rw [nameHash, hcanonical]
    rfl

/-- A text record is only read under a key. -/
theorem SingleReads.textKeys_ne {name : JsString} {textKeys : List JsString}
    {primaryOwner : Option ArchAddress} (reads : SingleReads client name textKeys primaryOwner)
    (hserves : client.transport.Serves snapshot) : ∀ key ∈ textKeys, key ≠ [] := by
  rintro key hkey rfl
  obtain ⟨_, _, -, -, hhash⟩ := reads.hash
  obtain ⟨_, haddress, -⟩ := fetchRecord_ok hserves hhash (reads.text_ok [] hkey)
  exact nomatch haddress

theorem SingleReads.record_eq {name : JsString} {textKeys : List JsString} {hash : Bytes 32}
    {primaryOwner : Option ArchAddress} (reads : SingleReads client name textKeys primaryOwner)
    (hserves : client.transport.Serves snapshot) (hhash : nameHash name = .ok hash) :
    reads.archOwner = decodeRecord (snapshot.account
        (deriveRecordAddress client.programId client.namespace hash .archOwner)) ∧
      reads.taproot = decodeRecord (snapshot.account
        (deriveRecordAddress client.programId client.namespace hash .bitcoinTaproot)) := by
  obtain ⟨_, harchOwner, hao, -⟩ := fetchRecord_ok hserves hhash reads.archOwner_ok
  obtain ⟨_, htaproot, htap, -⟩ := fetchRecord_ok hserves hhash reads.taproot_ok
  cases harchOwner
  cases htaproot
  exact ⟨hao.symm, htap.symm⟩

theorem SingleReads.text_eq {name : JsString} {textKeys : List JsString} {hash : Bytes 32}
    {primaryOwner : Option ArchAddress} (reads : SingleReads client name textKeys primaryOwner)
    (hserves : client.transport.Serves snapshot) (hhash : nameHash name = .ok hash)
    {key : JsString} (hkey : key ∈ textKeys) :
    decodeRecord (snapshot.account
        (deriveTextRecordAddress client.programId client.namespace hash key)) = reads.text key ∧
      (reads.text key = none ↔ ∀ info, snapshot.account
        (deriveTextRecordAddress client.programId client.namespace hash key) = some info →
          info.data = []) := by
  obtain ⟨address, haddress, hrecord⟩ := fetchRecord_ok hserves hhash (reads.text_ok key hkey)
  simp only [deriveRecordAddressFor, Option.filter_some, reads.textKeys_ne hserves key hkey,
    ne_eq, not_false_eq_true, decide_true, if_true, Outcome.bind_ok, Outcome.orElseError_ok,
    Option.some.injEq, exists_eq_left', Outcome.pure_ok] at haddress
  subst haddress
  exact hrecord

end Reads

end AnsClient

end Sdk

section
variable [Crypto] [Sdk.Platform] {client : Sdk.AnsClient} {snapshot : Sdk.Snapshot}
  {name : JsString} {textKeys : List JsString} {primaryOwner : Option ArchAddress}

/-- Where the single reads return, the profile shows what they return, unless the name account
is filled with zeros or the missing record of a single `__proto__` is asked for. -/
theorem profile_agrees_iff (hserves : client.transport.Serves snapshot)
    (reads : client.SingleReads name textKeys primaryOwner) :
    reads.Agree ↔ ¬ client.ZeroFilled snapshot name ∧ ¬ client.LosesKey snapshot name textKeys := by
  obtain ⟨canonical, hash, hcanonical, hhash, hname⟩ := reads.hash
  have htextKeys := reads.textKeys_ne hserves
  have hprofileName :=
    Sdk.AnsClient.profileName_iff hserves hcanonical hhash reads.nameAccount_ok
  have htexts : ∀ key ∈ textKeys, _ := fun key => reads.text_eq hserves hname
  constructor
  · rintro ⟨profile, hprofile, hnameAccount, -, -, htextByKey, -⟩
    obtain ⟨hread, -, -, hbuild, -⟩ :=
      (Sdk.AnsClient.fetchNameProfile_served hserves hcanonical hhash htextKeys).mp hprofile
    rw [hnameAccount] at hread
    constructor
    · rintro ⟨_, info, hother, hinfo, hdata⟩
      obtain rfl := Except.ok.inj (hname.symm.trans hother)
      exact hprofileName.mp hread info hinfo hdata
    · rintro ⟨hcount, _, hother, hempty⟩
      obtain rfl := Except.ok.inj (hname.symm.trans hother)
      have hmem : Sdk.Dictionary.protoKey ∈ textKeys := List.count_pos_iff.mp (by omega)
      obtain ⟨hdecoded, hmissing⟩ := htexts _ hmem
      have hget := htextByKey _ hmem
      rw [hbuild, ← hdecoded, Sdk.Dictionary.get_build _ hmem, hdecoded] at hget
      exact hget ⟨rfl, hmissing.mpr hempty, hcount⟩
  · rintro ⟨hzero, hkey⟩
    obtain ⟨harchOwner, htaproot⟩ := reads.record_eq hserves hname
    refine ⟨⟨reads.nameAccount, reads.archOwner, reads.taproot, _, reads.primaryName⟩,
      (Sdk.AnsClient.fetchNameProfile_served hserves hcanonical hhash htextKeys).mpr
        ⟨?_, harchOwner, htaproot, rfl, ?_⟩, rfl, rfl, rfl, ?_, rfl⟩
    · apply hprofileName.mpr
      intro info hinfo hdata
      exact hzero ⟨hash, info, hname, hinfo, hdata⟩
    · cases primaryOwner with
      | none => exact reads.primaryName_ok
      | some owner => exact Sdk.AnsClient.profilePrimary_ok hserves reads.primaryName_ok
    · intro key hmem
      obtain ⟨hdecoded, hmissing⟩ := htexts key hmem
      rw [← hdecoded]
      apply (Sdk.Dictionary.get_build _ hmem).mpr
      rintro ⟨rfl, hnone, hcount⟩
      exact hkey ⟨hcount, hash, hname, hmissing.mp (hdecoded.symm.trans hnone)⟩

end

namespace Taproot

def client (snapshot : Sdk.Snapshot) : Sdk.AnsClient :=
  { programId := Testnet.program
    registryConfigAddress := config.address
    «namespace» := ofUtf8 testnetNamespace.bytes
    transport := snapshot.transport }

/-- The accounts of a registered name with a Taproot record. -/
def snapshot : Sdk.Snapshot :=
  { account := fun address =>
      if address = name.address then some ⟨serialize name.state, Testnet.program.toList⟩
      else if address = record.address then some ⟨serialize record.state, Testnet.program.toList⟩
      else none
    slot := 0 }

/-- A name account of zeros, as an allocation without an initialization leaves it. -/
def zeros : Sdk.Snapshot :=
  { account := fun address =>
      if address = name.address then some ⟨[0], Testnet.program.toList⟩ else none
    slot := 0 }

def requested : JsString := ofAscii (ascii "alice.arch")

def reads : (client snapshot).SingleReads requested [Sdk.text "url"] none :=
  { nameAccount := some name.state.toSdk
    archOwner := none
    taproot := some record.state.toSdk
    text := fun _ => none
    primaryName := none
    nameAccount_ok := Outcome.toOption_eq_some.mp (by decide +kernel)
    archOwner_ok := Outcome.toOption_eq_some.mp (by decide +kernel)
    taproot_ok := Outcome.toOption_eq_some.mp (by decide +kernel)
    text_ok := fun key hkey => by
      rw [List.mem_singleton.mp hkey]
      exact Outcome.toOption_eq_some.mp (by decide +kernel)
    primaryName_ok := rfl }

def zeroReads : (client zeros).SingleReads requested [] none :=
  { nameAccount := none
    archOwner := none
    taproot := none
    text := fun _ => none
    primaryName := none
    nameAccount_ok := Outcome.toOption_eq_some.mp (by decide +kernel)
    archOwner_ok := Outcome.toOption_eq_some.mp (by decide +kernel)
    taproot_ok := Outcome.toOption_eq_some.mp (by decide +kernel)
    text_ok := nofun
    primaryName_ok := rfl }

end Taproot

open Taproot in
theorem taproot_profile_agrees : reads.Agree := by
  have hhash : Sdk.nameHash requested = .ok Testnet.alice :=
    Outcome.toOption_eq_some.mp (by decide +kernel)
  have haddress : Sdk.deriveNameAddress (client snapshot).programId (client snapshot).namespace
      Testnet.alice = name.address := by decide +kernel
  have hblank : Sdk.isBlankAccountData (serialize name.state) = false := by decide +kernel
  apply (profile_agrees_iff snapshot.serves reads).mpr
  constructor
  · rintro ⟨hash, info, hother, hinfo, -, hzero⟩
    obtain rfl := Except.ok.inj (hhash.symm.trans hother)
    rw [haddress, snapshot] at hinfo
    simp only [if_true, Option.some.injEq] at hinfo
    rw [← hinfo, hblank] at hzero
    exact nomatch hzero
  · rintro ⟨hcount, -⟩
    exact absurd hcount (by decide)

open Taproot in
/-- The single reads find the name available, and the profile does not return. -/
theorem zero_filled_disagrees : (client zeros).transport.Serves zeros ∧ ¬ zeroReads.Agree := by
  refine ⟨zeros.serves, ?_⟩
  rintro ⟨profile, hprofile, -⟩
  have hfail : ((client zeros).fetchNameProfile requested [] none).isOk = false := by decide +kernel
  rw [hprofile] at hfail
  exact nomatch hfail

end ArchNameService
