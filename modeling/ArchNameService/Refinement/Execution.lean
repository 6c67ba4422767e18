import ArchNameService.Refinement.Runs

/-!
# Running the program

Executing a list of calls is a run, for any deployment. `Testnet` is a deployment
on the hashes of the names and keys of one small scenario.
-/

namespace ArchNameService
open Crypto Deployment

/-! ## Execution -/

section
variable [Deployment]

/-- Accepts every call in turn, the first one first. -/
def Ledger.execute (L : Ledger) : List Call → ProgramResult Ledger
  | [] => pure L
  | c :: calls => do
      let L ← processInstruction L c.accounts c.data
      L.execute calls

/-- The call works with the sites, and none of them signs it. -/
def Call.stays (sites : List Site) (c : Call) : Bool :=
  (c.action?.all fun a => a.sites.all fun s => decide (s ∈ sites)) &&
    c.accounts.all fun info => !info.isSigner || !(sites.map Site.address).contains info.key

variable {S : Scope} {L L₀ : Ledger} {history : List Event} {sites : List Site}

def Scope.ofList (sites : List Site) (hdistinct : (sites.map Site.address).Nodup)
    (hapart : createWithSeed Idl.baseAddress Idl.seed programId ∉ sites.map (some ·.address)) :
    Scope :=
  { sites := {s | s ∈ sites}
    distinct := fun _ hs _ ht h => List.inj_on_of_nodup_map hdistinct hs ht h
    apart := fun s hs h => hapart (List.mem_map.mpr ⟨s, hs, h.symm⟩) }

@[simp] theorem Scope.mem_ofList {hdistinct : (sites.map Site.address).Nodup} {hapart : _}
    {s : Site} : s ∈ Scope.ofList sites hdistinct hapart ↔ s ∈ sites := Iff.rfl

theorem accepted_of_stays {c : Call} {L' : Ledger}
    (hcall : processInstruction L c.accounts c.data = .ok L') (hsites : ∀ s ∈ sites, s ∈ S)
    (hstays : c.stays sites = true) : Ledger.Step S L (.accepted c) L' := by
  refine .accepted hcall fun a ha => List.forall_iff_forall_mem.mpr fun s hs => hsites s ?_
  obtain ⟨hin, -⟩ := Bool.and_eq_true_iff.mp hstays
  rw [ha, Option.all_some] at hin
  exact of_decide_eq_true (List.all_eq_true.mp hin s hs)

/-- Executed calls extend a run. -/
theorem run_of_execute {calls : List Call} {L' : Ledger}
    (run : Run (Ledger.Step S) L₀ history L) (hexecute : L.execute calls = .ok L')
    (hsites : ∀ s ∈ sites, s ∈ S) (hstays : ∀ c ∈ calls, c.stays sites = true) :
    Run (Ledger.Step S) L₀ (calls.reverse.map .accepted ++ history) L' := by
  induction calls generalizing L history with
  | nil =>
      cases Outcome.pure_ok.mp hexecute
      exact run
  | cons c calls ih =>
      obtain ⟨L₁, hcall, hrest⟩ := Outcome.bind_ok.mp hexecute
      obtain ⟨hc, hcalls⟩ := List.forall_mem_cons.mp hstays
      rw [List.reverse_cons, List.map_append, List.append_assoc]
      exact ih (run.step (accepted_of_stays hcall hsites hc)) hrest hcalls

/-- No site signs an executed call. -/
theorem signedOutside_of_stays {calls : List Call} (hsites : ∀ s ∈ S, s ∈ sites)
    (hstays : ∀ c ∈ calls, c.stays sites = true) :
    ∀ e ∈ calls.reverse.map Event.accepted, e.SignedOutside S := by
  intro e he
  obtain ⟨c, hc, rfl⟩ := List.mem_map.mp he
  rintro info hinfo hsigner ⟨s, hs, hkey⟩
  obtain ⟨-, hout⟩ := Bool.and_eq_true_iff.mp (hstays c (List.mem_reverse.mp hc))
  have hnone : ∀ t ∈ sites, t.address ≠ info.key := by
    simpa [hsigner] using List.all_eq_true.mp hout info hinfo
  exact hnone s (hsites s hs) hkey

end

/-! ## A testnet deployment

The hashes are those of `.arch`, `alice.arch` and the text key `url`, and of the
seeds of their accounts and of three owners; a derived address is the hash of its
seeds, the bump 255 and the program. -/

namespace Testnet

/-- The 32 bytes of a number, most significant first. -/
def word (x : Nat) : Bytes 32 := ⟨(leBytes 32 x).reverse, by simp⟩

def program : ArchAddress := Bytes.fill 32 7
def ann : ArchAddress := Bytes.fill 32 9
def ben : ArchAddress := Bytes.fill 32 5
/-- A key that ends in zero bytes. -/
def eve : ArchAddress := ⟨List.replicate 29 3 ++ [0, 0, 0], rfl⟩

def arch : Bytes 32 := word 0x29fd17fe647c5fb408fe4dd83572e62833ceda61a2d15bf937b9fc9fbe9f129b
def alice : Bytes 32 := word 0xada83b19ef938a93fd6362586bbb6d0750f9886b64479cb92acb2a33cc342890
def url : Bytes 32 := word 0xf6226f88f2d52a17e1f0eb06a5ee95c0be68482e05b79d7492336300c06bbac4
def base : Bytes 32 := word 0x1f3b3b8a8b16124aa40cf6796ecec72b866ac87c739d694aa815311ccfd31f7e

/-- What is hashed to derive an address. -/
def derived (seeds : List (List UInt8)) : List UInt8 := seeds.flatten ++ 255 :: program.toList

def hashes : List (List UInt8 × Bytes 32) :=
  [ (namespaceDomain ++ testnetNamespace.bytes, arch),
    (nameHashDomain ++ ascii "alice.arch", alice),
    (recordKeyDomain ++ ascii "url", url),
    (derived [configSeed, leBytes 4 2, arch.toList],
      word 0x17d3c7c8a3ba27750cd0b1eff801329f7cd29526310a0ea5f0d3ac6c34f4f92b),
    (derived [nameSeed, arch.toList, alice.toList],
      word 0x451397c6fc873666f0c9f57eba1e6c3d2f9451321e4343f3f741941714add429),
    (derived [recordSeed, arch.toList, alice.toList, [3], url.toList],
      word 0x3e6771100390189f936601331d9df674e54a726d8de5b37e3083cfc489d4fd8b),
    (derived [reverseSeed, arch.toList, ann.toList],
      word 0xc2a3c606c035f3307dd98ed4313e44ab712e58e289bb99596b6a80a98019ee6f),
    (derived [reverseSeed, arch.toList, ben.toList],
      word 0x96a915e4c7cb24182ca337237ae5edc3108931e97f16f60c06dd9c4c669e6634),
    (derived [listingSeed, arch.toList, alice.toList],
      word 0x4181604e24b5ed5ff1f76573ba5774dae58b751a369aa590067eeb0435697e93),
    (derived [offerSeed, arch.toList, alice.toList, ben.toList],
      word 0x080d24502c4e1a9107356e58b87b60b118c90d6d5efe3d8962b8279691dc5e37),
    (derived [], base),
    (base.toList ++ Idl.seed ++ program.toList,
      word 0x54da9cbd576cd42f928e600aa9e1b0208b77c4eb8ebba0996a697ee2f307e2cd),
    (derived [reverseSeed, arch.toList, eve.toList],
      word 0x877af159369d4407faf543e6bd2a633406b7ca7ca45f4e6b39e3204e5c3f1294) ]

def sha256 (bytes : List UInt8) : Bytes 32 := (hashes.lookup bytes).getD (Bytes.fill 32 0)

scoped instance deployment : Deployment where
  sha256 := sha256
  findProgramAddress seeds _ := (sha256 (derived seeds), 255)
  createWithSeed base seed owner := some (sha256 (base.toList ++ seed ++ owner.toList))
  taprootAddress _ _ := none
  programId := program
  systemProgram := word 1
  programId_ne_systemProgram := by decide
  minimumRent n := UInt64.ofNat (6960 * (128 + n))
  maxPermittedDataIncrease := 10240
  createAccountAccepts _ accounts payer _ _ _ :=
    accounts.any fun info => info.key = payer && info.isSigner

/-- Everything about `alice.arch` and its two owners. -/
def sites : List Site :=
  [.config, .name alice, .record alice (.text (ascii "url")), .reverse ann, .reverse ben,
    .listing alice, .offer alice ben]

def scope : Scope := Scope.ofList sites (by decide +kernel) (by decide +kernel)

/-- The token accounts of the two owners: all hold aBTC. -/
def annPurse : ArchAddress := Bytes.fill 32 0xA1
def benPurse : ArchAddress := Bytes.fill 32 0xB1
def benSavings : ArchAddress := Bytes.fill 32 0xB2

def blank : Ledger :=
  { accounts := fun _ => { lamports := 0, owner := word 1, data := [], executable := false }
    tokens := fun k =>
      if k = annPurse then some { mint := testnetAbtcMint, owner := ann, amount := 0 }
      else if k = benPurse then some { mint := testnetAbtcMint, owner := ben, amount := 1000 }
      else if k = benSavings then some { mint := testnetAbtcMint, owner := ben, amount := 0 }
      else none }

def start : Ledger := (blank.setLamports ann 1000000000).setLamports ben 1000000000

theorem start_owner (k : ArchAddress) : start.owner k = systemProgram := by
  rw [start, Ledger.owner_setLamports, Ledger.owner_setLamports]
  rfl

theorem start_genesis : Genesis start := fun k h =>
  programId_ne_systemProgram ((start_owner k).symm.trans h).symm

theorem start_untouched : Untouched scope start := fun s _ =>
  ⟨start_owner s.address, by rw [start, Ledger.data_setLamports, Ledger.data_setLamports]; rfl⟩

theorem start_total : start.total < 2 ^ 64 := by
  have hblank : blank.total = 0 := Balance.sum_eq_zero fun _ => rfl
  have hann := Ledger.total_setLamports (L := blank) ann 1000000000
  have hben := Ledger.total_setLamports (L := blank.setLamports ann 1000000000) ben 1000000000
  have hfunds : (1000000000 : UInt64).toNat = 1000000000 := by decide
  rw [start]
  omega

/-- Executed calls, as a run. -/
theorem continued {L : Ledger} (calls : List Call) {p : Ledger → Bool}
    (hexecute : (L.execute calls).toOption.any p = true)
    (hstays : calls.all (Call.stays sites) = true) :
    ∃ L', Run (Ledger.Step scope) L (calls.reverse.map .accepted) L' ∧ p L' = true := by
  obtain ⟨L', hL', hp⟩ := (Option.any_eq_true ..).mp hexecute
  have run : Run (Ledger.Step scope) L _ L' := run_of_execute .refl
    (Outcome.toOption_eq_some.mp hL') (fun _ hs => hs) (List.all_eq_true.mp hstays)
  exact ⟨L', by rwa [List.append_nil] at run, hp⟩

/-- Executed calls from the start: no derived account signs, and no lamports appear. -/
theorem reached (calls : List Call) (p : Ledger → Bool)
    (hexecute : (start.execute calls).toOption.any p = true)
    (hstays : calls.all (Call.stays sites) = true) :
    ∃ L, Run (Ledger.Step scope) start (calls.reverse.map .accepted) L ∧ L.total < 2 ^ 64 ∧
      (∀ e ∈ calls.reverse.map Event.accepted, e.SignedOutside scope) ∧ p L = true := by
  obtain ⟨L, run, hp⟩ := continued calls hexecute hstays
  obtain ⟨R, -, corresponds⟩ := start_genesis.reached run
  refine ⟨L, run, ?_, signedOutside_of_stays (fun _ hs => hs) (List.all_eq_true.mp hstays), hp⟩
  rw [corresponds.total fun e he => by obtain ⟨c, -, rfl⟩ := List.mem_map.mp he; trivial]
  exact start_total

/-- One more call after a scenario. -/
theorem stepped {L : Ledger} (c : Call) {p : Ledger → Bool}
    (hcall : (processInstruction L c.accounts c.data).toOption.any p = true)
    (hstays : c.stays sites = true) :
    ∃ L', Ledger.Step scope L (.accepted c) L' ∧ p L' = true := by
  obtain ⟨L', hL', hp⟩ := (Option.any_eq_true ..).mp hcall
  exact ⟨L', accepted_of_stays (Outcome.toOption_eq_some.mp hL') (fun _ hs => hs) hstays, hp⟩

/-- What led to an observation, what ran in between, and one more call. -/
theorem interleaved (before between : List Call) (c : Call) (p q : Ledger → Bool)
    (r : Ledger → Ledger → Bool)
    (hexecute : (start.execute before).toOption.any (fun L =>
      p L && (L.execute between).toOption.any fun L₁ =>
        q L₁ && (processInstruction L₁ c.accounts c.data).toOption.any (r L₁)) = true)
    (hstays : (before ++ between ++ [c]).all (Call.stays sites) = true) :
    ∃ L L₁ L₂, Run (Ledger.Step scope) start (before.reverse.map .accepted) L ∧
      Run (Ledger.Step scope) L (between.reverse.map .accepted) L₁ ∧
      Ledger.Step scope L₁ (.accepted c) L₂ ∧ p L = true ∧ q L₁ = true ∧ r L₁ L₂ = true := by
  simp only [List.all_append, Bool.and_eq_true, List.all_cons, List.all_nil, and_true] at hstays
  obtain ⟨⟨hbefore, hbetween⟩, hc⟩ := hstays
  obtain ⟨L, run, -, -, hL⟩ := reached before _ hexecute hbefore
  obtain ⟨hp, hrest⟩ := Bool.and_eq_true_iff.mp hL
  obtain ⟨L₁, rest, hL₁⟩ := continued between hrest hbetween
  obtain ⟨hq, hcall⟩ := Bool.and_eq_true_iff.mp hL₁
  obtain ⟨L₂, step, hr⟩ := stepped c hcall hc
  exact ⟨L, L₁, L₂, run, rest, step, hp, hq, hr⟩

/-! Calls with the first account signing. -/

def call (signer : ArchAddress) (others : List ArchAddress) (instruction : NameInstruction) : Call :=
  { accounts := ⟨signer, true, true⟩ :: others.map fun k => ⟨k, false, true⟩
    data := Borsh.serialize instruction }

theorem call_action (signer : ArchAddress) (others : List ArchAddress)
    (instruction : NameInstruction) :
    (call signer others instruction).action? = some ⟨signer, instruction⟩ := by
  simp only [Call.action?, call, Idl.payload?_serialize, NameInstruction.deserialize_serialize]
  rfl

def configKey : ArchAddress := Site.config.address
def nameKey : ArchAddress := (Site.name alice).address
def recordKey : ArchAddress := (Site.record alice (.text (ascii "url"))).address
def listingKey : ArchAddress := (Site.listing alice).address
def offerKey : ArchAddress := (Site.offer alice ben).address

def aliceLabel : Borsh.Str := ⟨ascii "alice", by decide, by decide⟩

/-- The registry is opened and Ann registers `alice`. -/
def opening : List Call :=
  [ call ann [configKey] (.initializeRegistry testnetNetworkId ann),
    call ann [configKey, nameKey] (.register aliceLabel 0) ]

def listing (currency : QuoteCurrency) (price : UInt64) : Call :=
  call ann [configKey, nameKey, listingKey] (.listName alice currency price)

def purchase (trailing : List ArchAddress) : Call :=
  call ben ([ann, configKey, nameKey, listingKey] ++ trailing) (.buyName alice)

def urlSlot : RecordSlot := .text (ascii "url")

def urlKey : Borsh.Str := ⟨ascii "url", by decide, by decide⟩
def oldUrl : RecordValue := .text urlKey ⟨ascii "a", by decide, by decide⟩
def newUrl : RecordValue := .text urlKey ⟨ascii "b", by decide, by decide⟩

def publication (value : RecordValue) (expected : UInt64) : Call :=
  call ann [configKey, nameKey, recordKey] (.setRecord alice .text value expected)

def deletion (expected : UInt64) : Call :=
  call ann [configKey, nameKey, recordKey] (.deleteRecord alice .text urlKey expected)

def binding : Call :=
  call ann [configKey, nameKey, (Site.reverse ann).address] (.setPrimary alice)

def unlisting : Call :=
  call ann [configKey, nameKey, listingKey] (.cancelListing alice)

def offering (price : UInt64) : Call :=
  call ben [configKey, nameKey, offerKey] (.makeOffer alice .arch price)

def withdrawal : Call :=
  call ben [configKey, offerKey] (.cancelOffer alice)

def acceptance : Call :=
  call ann [ben, configKey, nameKey, offerKey, listingKey] (.acceptOffer alice ben)

end Testnet

end ArchNameService
