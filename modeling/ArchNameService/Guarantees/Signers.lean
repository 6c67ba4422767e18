import ArchNameService.Guarantees.Taproot
import ArchNameService.Manager.Views

/-!
# The payer signs what it pays for

A closure of a view is signed by the bytes that it decodes from one address. They are
the key of the payer where that address is a key and denotes the acting account.
-/

namespace ArchNameService
open JsString

/-! ## One signer -/

namespace Sdk

def BuiltInstruction.signers (instruction : BuiltInstruction) : List (List UInt8) :=
  (instruction.accounts.filter AccountMeta.isSigner).map AccountMeta.pubkey

/-- What is built is signed by the bytes that are read, alone, and is built for one key as for
another. -/
structure SignedBy {β : Type} (read : β → Except Thrown (List UInt8))
    (build : β → Except Thrown BuiltInstruction) : Prop where
  signers : ∀ b instruction, build b = .ok instruction →
    ∃ owner, read b = .ok owner ∧ instruction.signers = [owner]
  uniform : ∀ b b' instruction owner, build b = .ok instruction → read b' = .ok owner →
    owner.length = 32 → ∃ instruction', build b' = .ok instruction'

namespace SignedBy
variable {α β : Type} {read : β → Except Thrown (List UInt8)}

/-- What comes before does not read the address. -/
theorem bind {x : Except Thrown α} {f : α → β → Except Thrown BuiltInstruction}
    (h : ∀ a, x = .ok a → SignedBy read (f a)) : SignedBy read fun b => x >>= fun a => f a b := by
  constructor
  · intro b instruction hbuilt
    obtain ⟨a, ha, hrest⟩ := Outcome.bind_ok.mp hbuilt
    exact (h a ha).signers b instruction hrest
  · intro b b' instruction owner hbuilt hread hkey
    obtain ⟨a, ha, hrest⟩ := Outcome.bind_ok.mp hbuilt
    obtain ⟨instruction', hbuilt'⟩ := (h a ha).uniform b b' instruction owner hrest hread hkey
    exact ⟨instruction', Outcome.bind_ok.mpr ⟨a, ha, hbuilt'⟩⟩

theorem pure {f : List UInt8 → BuiltInstruction} (h : ∀ owner, (f owner).signers = [owner]) :
    SignedBy .ok fun owner => Pure.pure (f owner) := by
  constructor
  · rintro owner _ ⟨⟩
    exact ⟨owner, rfl, h owner⟩
  · intro _ owner' _ _ _ _ _
    exact ⟨f owner', rfl⟩

/-- The address is decoded where its bytes are used. -/
theorem decoded {build : List UInt8 → Except Thrown BuiltInstruction} (h : SignedBy .ok build) :
    SignedBy read fun b => read b >>= build := by
  constructor
  · intro b instruction hbuilt
    obtain ⟨owner, hread, hrest⟩ := Outcome.bind_ok.mp hbuilt
    obtain ⟨_, ⟨⟩, hsigners⟩ := h.signers owner instruction hrest
    exact ⟨owner, hread, hsigners⟩
  · intro b b' instruction owner' hbuilt hread' hkey
    obtain ⟨owner, -, hrest⟩ := Outcome.bind_ok.mp hbuilt
    obtain ⟨instruction', hbuilt'⟩ := h.uniform owner owner' instruction owner' hrest rfl hkey
    exact ⟨instruction', Outcome.bind_ok.mpr ⟨owner', hread', hbuilt'⟩⟩

end SignedBy

/-! ## The builders -/

section
variable [Crypto] [Platform] (client : AnsClient)

theorem buildRegister_signedBy (label : JsString) :
    SignedBy .ok fun owner => client.buildRegister owner label := by
  refine .bind fun label _ => .bind fun hash _ => .pure ?_
  intro owner
  rfl

theorem buildTransfer_signedBy (name : JsString) (newOwner : List UInt8) :
    SignedBy .ok fun owner => client.buildTransfer owner name newOwner := by
  refine .bind fun hash _ => .bind fun newOwner _ => .pure ?_
  intro owner
  rfl

theorem buildListName_signedBy (name : JsString) (currency : QuoteCurrency) (price : Int) :
    SignedBy .ok fun seller => client.buildListName seller name currency price := by
  refine .bind fun hash _ => .pure ?_
  intro seller
  rfl

theorem buildCancelListing_signedBy (name : JsString) :
    SignedBy .ok fun seller => client.buildCancelListing seller name := by
  refine .bind fun hash _ => .pure ?_
  intro seller
  rfl

/-- The token accounts of a purchase do not sign. -/
theorem buildBuyName_signedBy (seller : List UInt8) (name : JsString) (currency : QuoteCurrency)
    (buyerAta : List UInt8 → ArchAddress) (sellerAta : ArchAddress) :
    SignedBy .ok fun buyer => client.buildBuyName buyer seller name currency
      (if currency = .btc then some (buyerAta buyer, sellerAta) else none) := by
  cases currency with
  | arch =>
      refine .bind fun hash _ => .pure ?_
      intro buyer
      rfl
  | btc =>
      refine .bind fun hash _ => .pure ?_
      intro buyer
      rfl

theorem buildMakeOffer_signedBy (name : JsString) (currency : QuoteCurrency) (price : Int) :
    SignedBy .ok fun buyer => client.buildMakeOffer buyer name currency price := by
  refine .bind fun hash _ => .pure ?_
  intro buyer
  rfl

theorem buildCancelOffer_signedBy (name : JsString) :
    SignedBy .ok fun buyer => client.buildCancelOffer buyer name := by
  refine .bind fun hash _ => .pure ?_
  intro buyer
  rfl

/-- The buyer of an offer in ARCH does not sign. -/
theorem buildAcceptOffer_signedBy (buyer : List UInt8) (name : JsString) {currency : QuoteCurrency}
    (harch : currency ≠ .btc) :
    SignedBy .ok fun seller => client.buildAcceptOffer seller buyer name currency none := by
  cases currency with
  | arch =>
      refine .bind fun hash _ => .bind fun tokens htokens => .bind fun buyerKey _ => .pure ?_
      intro seller
      cases htokens
      rfl
  | btc => exact absurd rfl harch

theorem buildSetRecord_signedBy (name : JsString) (recordType : RecordType) (value : RecordValue)
    (expectedRevision : UInt64) :
    SignedBy .ok fun owner => client.buildSetRecord owner name recordType value expectedRevision := by
  refine .bind fun hash _ => .bind fun recordAccount _ => .pure ?_
  intro owner
  rfl

/-- The owner is written into the record as well, where its bytes are a key. -/
theorem buildSetOwnRecord_signedBy (name : JsString) (expectedRevision : UInt64) :
    SignedBy .ok fun owner => asPubkey owner >>= fun value =>
      client.buildSetRecord owner name .archOwner (.archOwner value) expectedRevision := by
  constructor
  · intro owner instruction hbuilt
    obtain ⟨value, -, hrest⟩ := Outcome.bind_ok.mp hbuilt
    exact (buildSetRecord_signedBy client name _ _ _).signers owner instruction hrest
  · intro owner owner' instruction key hbuilt hkey hlength
    cases hkey
    obtain ⟨value, -, hrest⟩ := Outcome.bind_ok.mp hbuilt
    obtain ⟨hash, hhash, -⟩ := Outcome.bind_ok.mp hrest
    have hvalue : asPubkey owner' = .ok ⟨owner', hlength⟩ :=
      Outcome.orElseError_ok.mpr (Bytes.ofList?_eq_some.mpr rfl)
    have hrecord : ∃ instruction', client.buildSetRecord owner' name .archOwner
        (.archOwner ⟨owner', hlength⟩) expectedRevision = .ok instruction' :=
      ⟨_, Outcome.bind_ok.mpr ⟨hash, hhash, rfl⟩⟩
    obtain ⟨instruction', hrecord⟩ := hrecord
    exact ⟨instruction', Outcome.bind_ok.mpr ⟨_, hvalue, hrecord⟩⟩

theorem buildSetPrimary_signedBy (name : JsString) :
    SignedBy .ok fun owner => client.buildSetPrimary owner name := by
  refine .bind fun hash _ => .pure ?_
  intro owner
  rfl

omit [Platform] in
theorem buildClearPrimary_signedBy :
    SignedBy .ok fun owner => Pure.pure (client.buildClearPrimary owner) := by
  apply SignedBy.pure
  intro owner
  rfl

end

end Sdk

namespace Manager

/-! ## Addresses that are keys -/

/-- What is relied on of `bs58`: its alphabet has no zero, and a key takes 32 to 44 characters. -/
structure Base58 (env : Environment) : Prop where
  alphabet : ∀ text bytes, env.bs58Decode text = some bytes → 0x30 ∉ text
  keyLength : ∀ text bytes, env.bs58Decode text = some bytes → bytes.length = 32 →
    32 ≤ text.length ∧ text.length ≤ 44

/-- The address is 64 hex digits or 32 bytes in base58. -/
def ReadsAsKey (env : Environment) (address : JsString) : Prop :=
  (address.trim.length = 64 ∧ address.trim.all isHexDigit = true) ∨
    ∃ bytes, env.bs58Decode address.trim = some bytes ∧ bytes.length = 32

section
variable {env : Environment} {address : JsString}

theorem canonicalArchKey_hex (hlength : address.trim.length = 64)
    (hhex : address.trim.all isHexDigit = true) :
    canonicalArchKey env address = Bytes.ofList? 32 (bytesOfHexPairs address.trim) := by
  have hne : address.trim ≠ [] := by
    intro h
    rw [h] at hlength
    cases hlength
  have hbytes : (bytesOfHexPairs address.trim).length = 32 := by
    rw [bytesOfHexPairs, List.length_map, List.length_range, hlength]
  simp only [canonicalArchKey, stripHexPrefix_eq_self (.inr hhex), if_neg hne]
  rw [if_pos ⟨.inl hlength, hhex⟩, Option.bind_some, if_neg]
  rw [hbytes]
  exact fun h => absurd h.1 (by decide)

theorem canonicalArchKey_base58 (hbs58 : Base58 env) {bytes : List UInt8}
    (hdecode : env.bs58Decode address.trim = some bytes) (hkey : bytes.length = 32) :
    canonicalArchKey env address = Bytes.ofList? 32 bytes := by
  obtain ⟨hshort, hlong⟩ := hbs58.keyLength _ _ hdecode hkey
  have hne : address.trim ≠ [] := by
    intro h
    rw [h] at hshort
    cases hshort
  simp only [canonicalArchKey, stripHexPrefix_eq_self (.inl (hbs58.alphabet _ _ hdecode)),
    if_neg hne]
  rw [if_neg fun h => by omega, hdecode, Option.bind_some, if_neg]
  rw [hkey]
  exact fun h => absurd h.1 (by decide)

/-- The two readings agree on an address that is a key. -/
theorem ReadsAsKey.decoded (hbs58 : Base58 env) (h : ReadsAsKey env address) :
    ∃ key : ArchAddress, decodeArchAddress env address = .ok key.toList ∧
      canonicalArchKey env address = some key := by
  rcases h with ⟨hlength, hhex⟩ | ⟨bytes, hdecode, hkey⟩
  · have hbytes : (bytesOfHexPairs address.trim).length = 32 := by
      rw [bytesOfHexPairs, List.length_map, List.length_range, hlength]
    refine ⟨⟨_, hbytes⟩, if_pos ⟨hlength, hhex⟩, ?_⟩
    rw [canonicalArchKey_hex hlength hhex]
    exact Bytes.ofList?_eq_some.mpr rfl
  · obtain ⟨-, hlong⟩ := hbs58.keyLength _ _ hdecode hkey
    refine ⟨⟨bytes, hkey⟩, ?_, ?_⟩
    · rw [decodeArchAddress, if_neg fun h => by omega, hdecode]
      rfl
    · rw [canonicalArchKey_base58 hbs58 hdecode hkey]
      exact Bytes.ofList?_eq_some.mpr rfl

/-- What is decoded as 32 bytes is a key. -/
theorem readsAsKey_of_decode {bytes : List UInt8} (h : decodeArchAddress env address = .ok bytes)
    (hkey : bytes.length = 32) : ReadsAsKey env address := by
  unfold decodeArchAddress at h
  dsimp only at h
  split at h
  · rename_i hhex
    exact .inl hhex
  · exact .inr ⟨bytes, Outcome.orElseError_ok.mp h, hkey⟩

theorem decodeArchAddress_key_iff (hbs58 : Base58 env) {key : ArchAddress} :
    decodeArchAddress env address = .ok key.toList ↔
      ReadsAsKey env address ∧ canonicalArchKey env address = some key := by
  constructor
  · intro h
    have hreads := readsAsKey_of_decode h key.toList_length
    obtain ⟨key', hdecode, hcanonical⟩ := hreads.decoded hbs58
    rw [hdecode] at h
    have hsame : key' = key := Subtype.ext (Except.ok.inj h)
    exact ⟨hreads, hsame ▸ hcanonical⟩
  · rintro ⟨hreads, hkey⟩
    obtain ⟨key', hdecode, hcanonical⟩ := hreads.decoded hbs58
    rw [hcanonical] at hkey
    cases hkey
    exact hdecode

end

/-! ## The closures -/

section
variable (env : Environment) [Crypto] [Sdk.Bech32m] (client : Sdk.AnsClient)

/-- The address that the closure decodes: in `ViewNameView` that of the view. -/
def Mutation.decodes (reported actor : JsString) : Mutation → JsString
  | .buy .. | .makeOffer .. | .cancelOffer .. | .acceptOffer .. => reported
  | _ => actor

/-- Every closure is signed by what it decodes. -/
theorem Mutation.signedBy (m : Mutation) :
    ∃ closure : JsString → Except Sdk.Thrown Sdk.BuiltInstruction,
      Sdk.SignedBy (decodeArchAddress env) closure ∧
        ∀ reported actor, m.build env client reported actor = closure (m.decodes reported actor) := by
  cases m with
  | register label =>
      exact ⟨_, .decoded (Sdk.buildRegister_signedBy client _), fun _ _ => rfl⟩
  | setArchOwner name =>
      refine ⟨_, .decoded (.bind fun existing _ => ?_), fun _ _ => rfl⟩
      exact Sdk.buildSetOwnRecord_signedBy client name (ManageView.revisionOf existing)
  | setTaproot name draft =>
      refine ⟨_, .bind fun value _ => .bind fun existing _ => .decoded ?_, fun _ _ => rfl⟩
      exact Sdk.buildSetRecord_signedBy client name _ value (ManageView.revisionOf existing)
  | setText name key draft =>
      refine ⟨_, .bind fun existing _ => .decoded ?_, fun _ _ => rfl⟩
      exact Sdk.buildSetRecord_signedBy client name _ _ (ManageView.revisionOf existing)
  | setPrimary name => exact ⟨_, .decoded (Sdk.buildSetPrimary_signedBy client name), fun _ _ => rfl⟩
  | clearPrimary => exact ⟨_, .decoded (Sdk.buildClearPrimary_signedBy client), fun _ _ => rfl⟩
  | list name currency price =>
      exact ⟨_, .decoded (Sdk.buildListName_signedBy client name currency price), fun _ _ => rfl⟩
  | cancelListing name =>
      exact ⟨_, .decoded (Sdk.buildCancelListing_signedBy client name), fun _ _ => rfl⟩
  | transfer name transferTo =>
      refine ⟨_, .decoded (.bind fun newOwner _ => ?_), fun _ _ => rfl⟩
      exact Sdk.buildTransfer_signedBy client name newOwner
  | buy name ownerDisplay currency =>
      refine ⟨_, .decoded (.bind fun seller _ => ?_), fun _ _ => rfl⟩
      exact Sdk.buildBuyName_signedBy client seller name currency abtcTokenAta (abtcTokenAta seller)
  | makeOffer name currency price =>
      exact ⟨_, .decoded (Sdk.buildMakeOffer_signedBy client name currency price), fun _ _ => rfl⟩
  | cancelOffer name =>
      exact ⟨_, .decoded (Sdk.buildCancelOffer_signedBy client name), fun _ _ => rfl⟩
  | acceptOffer name offerBuyer currency =>
      refine ⟨_, .bind fun _ harch => .decoded ?_, fun _ _ => rfl⟩
      exact Sdk.buildAcceptOffer_signedBy client offerBuyer.toList name (Outcome.reject_ok.mp harch)

/-- The attempt has an instruction, and who pays for it is its only signer. -/
def PayerSigns (m : Mutation) (reported actor : JsString) : Prop :=
  ∃ instruction feePayer, instructionAndPayer env client m reported actor =
      .ok (instruction, feePayer) ∧
    canonicalArchKey env actor = some feePayer ∧ instruction.signers = [feePayer.toList]

/-- Of a mutation that can be built, the payer signs the instruction where the address that the
closure decodes is a key, and that of the payer. -/
theorem payer_signs_iff (hbs58 : Base58 env) (m : Mutation) (reported actor : JsString)
    {key : ArchAddress} (hkey : canonicalArchKey env actor = some key)
    (hbuilds : ∃ reported' actor' instruction,
      m.build env client reported' actor' = .ok instruction) :
    PayerSigns env client m reported actor ↔
      ReadsAsKey env (m.decodes reported actor) ∧
        canonicalArchKey env (m.decodes reported actor) = some key := by
  obtain ⟨closure, hsigned, hclosure⟩ := m.signedBy env client
  rw [← decodeArchAddress_key_iff hbs58]
  constructor
  · rintro ⟨instruction, feePayer, hattempt, hpayer, hsigners⟩
    rw [hkey] at hpayer
    cases hpayer
    obtain ⟨built, hbuilt, hrest⟩ := Outcome.bind_ok.mp hattempt
    rw [hkey] at hrest
    cases hrest
    rw [hclosure] at hbuilt
    obtain ⟨owner, hdecode, howner⟩ := hsigned.signers _ _ hbuilt
    rw [howner] at hsigners
    rw [hdecode, List.head_eq_of_cons_eq hsigners]
  · intro hdecode
    obtain ⟨reported', actor', some', hsome⟩ := hbuilds
    rw [hclosure] at hsome
    obtain ⟨instruction, hbuilt⟩ :=
      hsigned.uniform _ _ _ _ hsome hdecode key.toList_length
    obtain ⟨owner, hdecode', hsigners⟩ := hsigned.signers _ _ hbuilt
    rw [hdecode] at hdecode'
    cases hdecode'
    refine ⟨instruction, key, ?_, hkey, hsigners⟩
    rw [instructionAndPayer, hclosure, hbuilt, hkey]
    rfl

end

/-! A client of the testnet, and a wallet whose addresses are in hex. -/

namespace HexWallet

def env : Environment where
  bs58Decode _ := none
  adjustSignature signature := .ok signature
  messageHash _ _ _ := none
  activePort _ := none
  walletAccount _ := none
  signMessageHash _ _ := .error .other
  checkSignature _ _ _ _ := .unverifiable
  observation _ := none
  seenAccounts _ := []
  readAccountInfo _ _ := .error .other
  bestBlockHash _ := .error .other
  faucetMessageHash _ _ := .error .other
  sendTransaction _ _ := .error .other
  waitForTransaction _ _ _ := .returns .complete
  build _ _ := .error .other

def client : Sdk.AnsClient where
  programId := Testnet.program
  registryConfigAddress := Testnet.program
  «namespace» := Sdk.text ".arch"
  transport :=
    { readAccountInfo := fun _ => .ok none, getMultipleAccounts := none, getCurrentSlot := .ok 0 }

/-- `Testnet.ann` and `Testnet.ben`. -/
def ann : JsString := (List.replicate 32 (Sdk.text "09")).flatten
def ben : JsString := (List.replicate 32 (Sdk.text "05")).flatten

theorem base58 : Base58 env := ⟨fun _ _ h => (nomatch h), fun _ _ h => (nomatch h)⟩

theorem ann_key : canonicalArchKey env ann = some Testnet.ann := by decide +kernel

theorem ben_key : canonicalArchKey env ben = some Testnet.ben := by decide +kernel

end HexWallet

open HexWallet Bip350 in
/-- Ben pays for the offer that the view has made in the name of Ann. -/
theorem captured_account_signs :
    canonicalArchKey env ben = some Testnet.ben ∧
      ¬ PayerSigns env client (.makeOffer (Sdk.text "alice.arch") .arch 1) ann ben ∧
      ∃ instruction, instructionAndPayer env client (.makeOffer (Sdk.text "alice.arch") .arch 1) ann
          ben = .ok (instruction, Testnet.ben) ∧
        instruction.signers = [Testnet.ann.toList] := by
  have hname : Sdk.nameHash (Sdk.text "alice.arch") = .ok (labelHash (ascii "alice")) :=
    @Sdk.nameHash_label _ _ (ascii "alice") (by decide)
  have hann : decodeArchAddress env ann = .ok Testnet.ann.toList :=
    (decodeArchAddress_key_iff base58).mpr ⟨.inl (by decide +kernel), ann_key⟩
  have hbuilds : ∃ instruction,
      instructionAndPayer env client (.makeOffer (Sdk.text "alice.arch") .arch 1) ann ben =
        .ok (instruction, Testnet.ben) ∧ instruction.signers = [Testnet.ann.toList] := by
    simp only [instructionAndPayer, Mutation.build, ViewNameView.onMakeOffer, hann, ben_key,
      Outcome.ok_bind, Sdk.AnsClient.buildMakeOffer, Sdk.buildMakeOfferInstruction, hname]
    exact ⟨_, rfl, rfl⟩
  refine ⟨ben_key, ?_, hbuilds⟩
  rintro ⟨instruction, feePayer, hattempt, -, hsigners⟩
  obtain ⟨built, hbuilt, hann'⟩ := hbuilds
  rw [hbuilt] at hattempt
  cases hattempt
  rw [hann'] at hsigners
  exact absurd (List.head_eq_of_cons_eq hsigners) (by decide)

open HexWallet Bip350 in
theorem set_primary_payer_signs :
    PayerSigns env client (.setPrimary (Sdk.text "alice.arch")) ann ben := by
  have hname : Sdk.nameHash (Sdk.text "alice.arch") = .ok (labelHash (ascii "alice")) :=
    @Sdk.nameHash_label _ _ (ascii "alice") (by decide)
  have hben : ReadsAsKey env ben := .inl (by decide +kernel)
  apply (payer_signs_iff env client base58 (.setPrimary (Sdk.text "alice.arch")) ann ben ben_key ?_).mpr
  · exact ⟨hben, ben_key⟩
  · have hdecode := (decodeArchAddress_key_iff base58).mpr ⟨hben, ben_key⟩
    refine ⟨ann, ben, ?_⟩
    simp only [Mutation.build, ManageView.setPrimary, hdecode, Outcome.ok_bind,
      Sdk.AnsClient.buildSetPrimary, Sdk.buildSetPrimaryInstruction, hname]
    exact ⟨_, rfl⟩

end Manager

end ArchNameService
