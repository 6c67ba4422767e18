import ArchNameService.Manager.Submit
import ArchNameService.Sdk.Client
import ArchNameService.Sdk.Taproot

/-!
# What the views submit

The closures that `RegisterView.tsx`, `ManageView.tsx` and `ViewNameView.tsx` pass to
`submitWithWindowArch`. Each is called with the acting address of an attempt; in
`ViewNameView` the address that the wallet reported to the view is captured instead.
-/

namespace ArchNameService

namespace Manager
open JsString
open Sdk (Bech32m Thrown asPubkey toLowerCase)

def associatedTokenProgramId : ArchAddress :=
  ⟨[140, 151, 35, 17, 132, 146, 123, 119, 181, 241, 128, 17, 143, 204, 104, 52, 20, 183, 124, 82,
    30, 90, 119, 8, 28, 247, 29, 95, 96, 106, 83, 132], rfl⟩

section
variable (env : Environment)

/-- `decodeArchAddress`: any number of bytes, where the address is not in hex. -/
def decodeArchAddress (value : JsString) : Except Thrown (List UInt8) :=
  let trimmed := value.trim
  if trimmed.length = 64 ∧ trimmed.all isHexDigit then pure (bytesOfHexPairs trimmed)
  else orElseError (.error "Non-base58 character") (env.bs58Decode trimmed)

variable [Crypto] [Bech32m] (client : Sdk.AnsClient)

/-- `deriveTokenAta` of the aBTC mint; the bytes of the owner need not be a key. -/
def abtcTokenAta (owner : List UInt8) : ArchAddress :=
  (Crypto.findProgramAddress [owner, Sdk.tokenProgramId.toList, Sdk.testnetAbtcMint.toList]
    associatedTokenProgramId).1

/-! ## The closures -/

namespace RegisterView

def register (label : JsString) : JsString → Except Thrown Sdk.BuiltInstruction := fun actor => do
  let owner ← decodeArchAddress env actor
  client.buildRegister owner (toLowerCase label.trim)

end RegisterView

namespace ManageView

/-- `existing?.revision ?? 0n`. -/
def revisionOf (existing : Option Sdk.RecordAccount) : UInt64 := (existing.map (·.revision)).getD 0

def saveArchOwner (name : JsString) : JsString → Except Thrown Sdk.BuiltInstruction :=
  fun archAddress => do
    let owner ← decodeArchAddress env archAddress
    let existing ← client.fetchRecord name .archOwner none
    -- the writer's check of the value, after the two derivations that the read has made as well
    let value ← asPubkey owner
    client.buildSetRecord owner name .archOwner (.archOwner value) (revisionOf existing)

def saveTaproot (name draft : JsString) : JsString → Except Thrown Sdk.BuiltInstruction :=
  fun archAddress => do
    let value ← Sdk.parseTaprootAddress draft .testnet
    let existing ← client.fetchRecord name .bitcoinTaproot none
    let owner ← decodeArchAddress env archAddress
    client.buildSetRecord owner name .bitcoinTaproot value (revisionOf existing)

def saveText (name key draft : JsString) : JsString → Except Thrown Sdk.BuiltInstruction :=
  fun archAddress => do
    let existing ← client.fetchRecord name .text (some key)
    let owner ← decodeArchAddress env archAddress
    client.buildSetRecord owner name .text (.text key draft) (revisionOf existing)

def setPrimary (name : JsString) : JsString → Except Thrown Sdk.BuiltInstruction :=
  fun archAddress => do
    let owner ← decodeArchAddress env archAddress
    client.buildSetPrimary owner name

def clearPrimary : JsString → Except Thrown Sdk.BuiltInstruction := fun archAddress => do
  let owner ← decodeArchAddress env archAddress
  pure (client.buildClearPrimary owner)

def cancelListing (name : JsString) : JsString → Except Thrown Sdk.BuiltInstruction :=
  fun archAddress => do
    let seller ← decodeArchAddress env archAddress
    client.buildCancelListing seller name

def list (name : JsString) (currency : QuoteCurrency) (price : Int) :
    JsString → Except Thrown Sdk.BuiltInstruction := fun archAddress => do
  let seller ← decodeArchAddress env archAddress
  client.buildListName seller name currency price

def transfer (name transferTo : JsString) : JsString → Except Thrown Sdk.BuiltInstruction :=
  fun archAddress => do
    let owner ← decodeArchAddress env archAddress
    let newOwner ← decodeArchAddress env transferTo
    client.buildTransfer owner name newOwner

end ManageView

namespace ViewNameView

/-- The two decodings come before the submission. -/
def onBuy (name ownerDisplay : JsString) (currency : QuoteCurrency) (actor : JsString) :
    JsString → Except Thrown Sdk.BuiltInstruction := fun _ => do
  let buyer ← decodeArchAddress env actor
  let seller ← decodeArchAddress env ownerDisplay
  let tokenAccounts :=
    if currency = .btc then some (abtcTokenAta buyer, abtcTokenAta seller) else none
  client.buildBuyName buyer seller name currency tokenAccounts

def onMakeOffer (name : JsString) (currency : QuoteCurrency) (price : Int) (actor : JsString) :
    JsString → Except Thrown Sdk.BuiltInstruction := fun _ => do
  let buyer ← decodeArchAddress env actor
  client.buildMakeOffer buyer name currency price

def onCancelOffer (name actor : JsString) : JsString → Except Thrown Sdk.BuiltInstruction := fun _ => do
  let buyer ← decodeArchAddress env actor
  client.buildCancelOffer buyer name

/-- An offer in aBTC is not submitted. -/
def onAcceptOffer (name : JsString) (offerBuyer : ArchAddress) (currency : QuoteCurrency)
    (actor : JsString) : JsString → Except Thrown Sdk.BuiltInstruction := fun _ => do
  reject (currency = .btc) (.error
    "aBTC offers need the buyer to co-sign Accept. Use an ARCH offer, or cancel and re-offer in ARCH.")
  let seller ← decodeArchAddress env actor
  client.buildAcceptOffer seller offerBuyer.toList name currency none

end ViewNameView

/-! ## The mutations -/

/-- What a view submits, with the values of its form. -/
inductive Mutation where
  | register (label : JsString)
  | setArchOwner (name : JsString)
  | setTaproot (name draft : JsString)
  | setText (name key draft : JsString)
  | setPrimary (name : JsString)
  | clearPrimary
  | list (name : JsString) (currency : QuoteCurrency) (price : Int)
  | cancelListing (name : JsString)
  | transfer (name transferTo : JsString)
  | buy (name ownerDisplay : JsString) (currency : QuoteCurrency)
  | makeOffer (name : JsString) (currency : QuoteCurrency) (price : Int)
  | cancelOffer (name : JsString)
  | acceptOffer (name : JsString) (offerBuyer : ArchAddress) (currency : QuoteCurrency)

/-- The closure that is submitted, with the address that the wallet reported to the view. -/
def Mutation.build (reported : JsString) :
    Mutation → JsString → Except Thrown Sdk.BuiltInstruction
  | .register label => RegisterView.register env client label
  | .setArchOwner name => ManageView.saveArchOwner env client name
  | .setTaproot name draft => ManageView.saveTaproot env client name draft
  | .setText name key draft => ManageView.saveText env client name key draft
  | .setPrimary name => ManageView.setPrimary env client name
  | .clearPrimary => ManageView.clearPrimary env client
  | .list name currency price => ManageView.list env client name currency price
  | .cancelListing name => ManageView.cancelListing env client name
  | .transfer name transferTo => ManageView.transfer env client name transferTo
  | .buy name ownerDisplay currency =>
      ViewNameView.onBuy env client name ownerDisplay currency reported
  | .makeOffer name currency price =>
      ViewNameView.onMakeOffer env client name currency price reported
  | .cancelOffer name => ViewNameView.onCancelOffer env client name reported
  | .acceptOffer name offerBuyer currency =>
      ViewNameView.onAcceptOffer env client name offerBuyer currency reported

/-- The instruction of one attempt and the key that pays for it. -/
def instructionAndPayer (m : Mutation) (reported actorArchAddress : JsString) :
    Except Thrown (Sdk.BuiltInstruction × ArchAddress) := do
  let instruction ← m.build env client reported actorArchAddress
  let feePayer ← orElseError
    (.error ("Arch Wallet returned an address this app cannot read as an account key: " ++
      Sdk.display actorArchAddress))
    (canonicalArchKey env actorArchAddress)
  pure (instruction, feePayer)

end

end Manager

end ArchNameService
