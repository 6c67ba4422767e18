import ArchNameService.Guarantees.Concurrency
import ArchNameService.Guarantees.Reads
import ArchNameService.Guarantees.Signers
import ArchNameService.Refinement.Frame

/-!
# Saving an edited record

The page shows a record as it was loaded. When the user saves a row, the record is read
again, and the write expects the revision of that second reading: what another session
wrote between the two is replaced unseen.
-/

namespace ArchNameService
open Deployment History
open JsString (ofUtf8)
open Borsh (serialize)

/-! ## What the page has loaded -/

/-- A key that was asked for reads back as its record. -/
theorem Sdk.Dictionary.get_build_join {α : Type} {f : JsString → Option α} {keys : List JsString}
    {key : JsString} (hkey : key ∈ keys) : ((build f keys).get key).join = f key := by
  cases hf : f key with
  | some a =>
      have hget := (get_build f hkey).mpr fun h => by
        obtain ⟨rfl, hnone, -⟩ := h
        cases hf.symm.trans hnone
      rw [hget, hf]
      rfl
  | none =>
      refine Option.eq_none_iff_forall_ne_some.mpr fun a ha => ?_
      obtain ⟨-, hsome⟩ := get_build_some ha
      cases hf.symm.trans hsome

section
variable [Deployment] [Sdk.Platform] {S : Scope} {L : Ledger} {R : Registry}
  {client : Sdk.AnsClient} {snapshot : Sdk.Snapshot} {h : Bytes 32} {name : JsString}
  {place : Sdk.ProfileRecord} {textKeys : List JsString} {primaryOwner : Option ArchAddress}
  {profile : Sdk.NameProfile}

theorem profile_record (deployed : client.Deployed) (hserves : client.transport.Serves snapshot)
    (hhash : Sdk.nameHash name = .ok h)
    (hprofile : client.fetchNameProfile name textKeys primaryOwner = .ok profile)
    (hasked : ∀ key, place = .text key → key ∈ textKeys) :
    profile.record place =
      Sdk.AnsClient.decodeRecord (snapshot.account (Site.record h place.slot).address) := by
  obtain ⟨canonical, hcanonical, hsame⟩ := Sdk.canonical_of_hash hhash
  obtain ⟨-, harchOwner, htaproot, htext, -⟩ := (Sdk.AnsClient.fetchNameProfile_served hserves
    hcanonical hsame (Sdk.AnsClient.textKeys_of_fetched hprofile)).mp hprofile
  rw [deployed.programId, deployed.namespace] at harchOwner htaproot htext
  cases place with
  | archOwner =>
      rw [Sdk.deriveRecordAddress_eq] at harchOwner
      exact harchOwner
  | taproot =>
      rw [Sdk.deriveRecordAddress_eq] at htaproot
      exact htaproot
  | text key =>
      change (profile.textByKey.get key).join = _
      rw [htext, Sdk.Dictionary.get_build_join (hasked key rfl), deriveTextRecordAddress_site]
      rfl

omit [Sdk.Platform] in
theorem decodeRecord_served {slot : RecordSlot} (agrees : Agrees S L R.content) (clean : Clean S L)
    (hs : .record h slot ∈ S) (hof : snapshot.Of L)
    (hvalues : ∀ p, R.record (h, slot) = some p → p.value.Unmarked) :
    Sdk.AnsClient.decodeRecord (snapshot.account (Site.record h slot).address) =
      (L.storedRecord h slot).map RecordAccount.toSdk := by
  have hshown := clean.shown hs hof (agrees _ hs) encode_record_ne
  rw [agrees.storedRecord hs]
  generalize hx : (R.record (h, slot)).map (·.account h) = x at hshown ⊢
  cases hshown with
  | missing hnone =>
      rw [hnone]
      rfl
  | blank hsome hdata =>
      rw [hsome]
      exact if_pos hdata
  | present hsome hdata =>
      obtain ⟨p, hp, rfl⟩ := Option.map_eq_some_iff.mp hx
      rw [hsome]
      simp only [Sdk.AnsClient.decodeRecord, if_neg hdata, recordOf_publication h (hvalues p hp)]
      rfl

end

/-! ## What a row saves -/

/-- A value that is written in the place of a record. -/
inductive Sdk.ProfileRecord.Takes : Sdk.ProfileRecord → Sdk.RecordValue → Prop
  | archOwner (owner : ArchAddress) : Takes .archOwner (.archOwner owner)
  | taproot (witnessProgram : Bytes 32) : Takes .taproot (.bitcoinTaproot witnessProgram)
  | text (key draft : JsString) : Takes (.text key) (.text key draft)

/-- The encoder writes a value of the program, for the slot of the place. -/
theorem Sdk.ProfileRecord.Takes.wire {place : Sdk.ProfileRecord} {value : Sdk.RecordValue}
    (takes : place.Takes value) (hfits : (Sdk.encodeRecordValue value).length < 2 ^ 32) :
    ∃ w : ArchNameService.RecordValue, Sdk.encodeRecordValue value = serialize w ∧
      Action.slotOfValue place.recordType w = place.slot := by
  cases takes with
  | archOwner owner => exact ⟨.archOwner owner, rfl, rfl⟩
  | taproot witnessProgram => exact ⟨.bitcoinTaproot witnessProgram, rfl, rfl⟩
  | text key draft =>
      have hlength : (Sdk.encodeRecordValue (.text key draft)).length =
          1 + (4 + key.encode.length) + (4 + draft.encode.length) := by
        simp only [Sdk.encodeRecordValue, Sdk.BorshWriter.string, Sdk.BorshWriter.u8,
          Sdk.BorshWriter.u32, List.length_append, List.length_cons, List.length_nil]
      have hkey : key.encode.length < 2 ^ 32 := by omega
      have hdraft : draft.encode.length < 2 ^ 32 := by omega
      refine ⟨.text ⟨_, JsString.encode_valid key, hkey⟩ ⟨_, JsString.encode_valid draft, hdraft⟩,
        ?_, rfl⟩
      change Sdk.BorshWriter.u8 3 ++ Sdk.BorshWriter.string key ++ Sdk.BorshWriter.string draft = _
      rw [Sdk.BorshWriter.string_encode hkey, Sdk.BorshWriter.string_encode hdraft, List.append_assoc]
      rfl

/-- The payload of a saved row is the record write that the program reads. -/
theorem Sdk.ProfileRecord.Takes.payload {place : Sdk.ProfileRecord} {value : Sdk.RecordValue}
    (takes : place.Takes value) (h : Bytes 32) (expected : UInt64)
    (hfits : (Sdk.encodeInstruction
      (.setRecord h place.recordType value expected)).length < 2 ^ 32) :
    ∃ w : ArchNameService.RecordValue, Action.slotOfValue place.recordType w = place.slot ∧
      Sdk.encodeInstruction (.setRecord h place.recordType value expected) =
        serialize (ArchNameService.NameInstruction.setRecord h place.recordType w expected) := by
  simp only [Sdk.encodeInstruction, List.length_append] at hfits
  obtain ⟨w, hvalue, hslot⟩ := takes.wire (by omega)
  refine ⟨w, hslot, ?_⟩
  simp only [Sdk.encodeInstruction, hvalue, Sdk.encodeRecordType_eq, Sdk.BorshWriter.pubkey_eq,
    Sdk.BorshWriter.u64_eq, List.append_assoc]
  rfl

namespace Manager
open ManageView (revisionOf)

/-- What `saveRow` submits. -/
def Mutation.save (name draft : JsString) : Sdk.ProfileRecord → Mutation
  | .archOwner => .setArchOwner name
  | .taproot => .setTaproot name draft
  | .text key => .setText name key draft

section
variable {env : Environment} [Crypto] [Sdk.Bech32m] {saver : Sdk.AnsClient} {name draft : JsString}
  {place : Sdk.ProfileRecord} {reported actor : JsString} {instruction : Sdk.BuiltInstruction}
  {existing : Option Sdk.RecordAccount} {h : Bytes 32}

omit [Sdk.Bech32m] in
theorem buildSetRecord_data [Sdk.Platform] {owner : List UInt8} {recordType : RecordType}
    {value : Sdk.RecordValue} {expected : UInt64} (hhash : Sdk.nameHash name = .ok h)
    (hbuilt : saver.buildSetRecord owner name recordType value expected = .ok instruction) :
    instruction.data = Sdk.encodeInstruction (.setRecord h recordType value expected) := by
  simp only [Sdk.AnsClient.buildSetRecord, Sdk.buildSetRecordInstruction, hhash, Outcome.ok_bind,
    Outcome.bind_ok, Outcome.pure_ok] at hbuilt
  obtain ⟨_, -, rfl⟩ := hbuilt
  rfl

/-- The write of a row expects the revision that the save has read. -/
theorem Mutation.save_data (hhash : Sdk.nameHash name = .ok h)
    (hread : saver.fetchRecord name place.recordType place.textKey = .ok existing)
    (hsaved : (Mutation.save name draft place).build env saver reported actor = .ok instruction) :
    ∃ value, place.Takes value ∧ instruction.data =
      Sdk.encodeInstruction (.setRecord h place.recordType value (revisionOf existing)) := by
  cases place with
  | archOwner =>
      change ManageView.saveArchOwner env saver name actor = _ at hsaved
      change saver.fetchRecord name .archOwner none = _ at hread
      simp only [ManageView.saveArchOwner, Outcome.bind_ok, hread] at hsaved
      obtain ⟨owner, -, _, hsame, value, -, hbuilt⟩ := hsaved
      cases hsame
      exact ⟨_, .archOwner value, buildSetRecord_data hhash hbuilt⟩
  | taproot =>
      change ManageView.saveTaproot env saver name draft actor = _ at hsaved
      change saver.fetchRecord name .bitcoinTaproot none = _ at hread
      simp only [ManageView.saveTaproot, Outcome.bind_ok, hread] at hsaved
      obtain ⟨value, hparse, _, hsame, owner, -, hbuilt⟩ := hsaved
      cases hsame
      obtain ⟨witnessProgram, rfl⟩ := Sdk.parseTaprootAddress_kind hparse
      exact ⟨_, .taproot witnessProgram, buildSetRecord_data hhash hbuilt⟩
  | text key =>
      change ManageView.saveText env saver name key draft actor = _ at hsaved
      change saver.fetchRecord name .text (some key) = _ at hread
      simp only [ManageView.saveText, Outcome.bind_ok, hread] at hsaved
      obtain ⟨_, hsame, owner, -, hbuilt⟩ := hsaved
      cases hsame
      exact ⟨_, .text key draft, buildSetRecord_data hhash hbuilt⟩

end

end Manager

/-! ## From the page to the chain -/

/-- A write that the revision does not tell: a deletion starts it anew, and at its largest value
it stops. -/
def Action.untold (h : Bytes 32) (slot : RecordSlot) (revision : UInt64) (a : Action) : Bool :=
  a.deletesRecord h slot || (a.writesRecord h slot && revision.toNat = 2 ^ 64 - 1)

section
variable [Deployment] {S : Scope} {L L' : Ledger} {c : Call}

/-- An accepted payload of the registry is its action, signed by the first account. -/
theorem Ledger.Step.action_of_payload (step : Ledger.Step S L (.accepted c) L')
    {instruction : NameInstruction} (hdata : c.data = serialize instruction) :
    ∃ signer, c.action? = some ⟨signer, instruction⟩ := by
  cases step with
  | accepted h hsites =>
      rw [hdata, processInstruction_serialize] at h
      obtain ⟨signer, hsigner, -⟩ := dispatch_traces h
      refine ⟨signer, ?_⟩
      simp only [Call.action?, hdata, Idl.payload?_serialize,
        NameInstruction.deserialize_serialize, hsigner, Option.bind_some, Option.map_some]

/-- Nothing was written where the revision tells every write and is the same. -/
theorem Registry.unwritten_iff {decoys : Prop} {R R₁ : Registry} {later : List Action}
    {h : Bytes 32} {slot : RecordSlot} (run : Run (Step decoys) R later R₁) :
    (∀ a ∈ later, a.writesRecord h slot = false) ↔
      R₁.revision h slot = R.revision h slot ∧
        ∀ a ∈ later, a.untold h slot (R.revision h slot) = false := by
  simp only [Action.untold, Bool.or_eq_false_iff]
  constructor
  · intro hunwritten
    refine ⟨by simp only [revision, Run.record_kept run hunwritten], fun a ha => ?_⟩
    rw [hunwritten a ha]
    exact ⟨Action.deletesRecord_eq_false (hunwritten a ha), rfl⟩
  · rintro ⟨hrevision, htold⟩
    by_cases hlargest : (R.revision h slot).toNat = 2 ^ 64 - 1
    · intro a ha
      have hwrites := (htold a ha).2
      rwa [decide_eq_true hlargest, Bool.and_true] at hwrites
    · refine unwritten_of_revision run ?_ (fun a ha => (htold a ha).1) hrevision
      have hlt := (R.revision h slot).toNat_lt
      exact UInt64.lt_iff_toNat_lt.mpr (by change _ < 2 ^ 64 - 1; omega)

end

/-- What the page has loaded of the record is what the save replaces: it is there when the save
is executed, and nobody wrote it in between. -/
structure Sdk.NameProfile.Stands [Deployment] (profile : Sdk.NameProfile)
    (place : Sdk.ProfileRecord) (h : Bytes 32) (later : List Event) (L : Ledger) : Prop where
  stored : (L.storedRecord h place.slot).map RecordAccount.toSdk = profile.record place
  unwritten : ∀ a ∈ actions later, a.writesRecord h place.slot = false

section
open Manager (Environment Mutation)
open Manager.ManageView (revisionOf)
variable [Deployment] [Sdk.Bech32m] {S : Scope} {L L₀ L₁ L₂ M : Ledger}
  {history before after later : List Event} {c : Call} {h : Bytes 32} {R R₁ : Registry}
  {client saver : Sdk.AnsClient} {snapshot reading : Sdk.Snapshot} {name : JsString}
  {place : Sdk.ProfileRecord} {textKeys : List JsString} {primaryOwner : Option ArchAddress}
  {profile : Sdk.NameProfile} {env : Environment} {draft reported actor : JsString}
  {existing : Option Sdk.RecordAccount} {instruction : Sdk.BuiltInstruction}

omit [Sdk.Bech32m] in
theorem Agrees.revisionOf_stored (agrees : Agrees S L R.content) (hsite : .record h place.slot ∈ S) :
    revisionOf ((L.storedRecord h place.slot).map RecordAccount.toSdk) =
      R.revision h place.slot := by
  rw [agrees.storedRecord hsite, Registry.revision]
  cases R.record (h, place.slot) <;> rfl

/-- A save that is executed finds the revision that it has read. -/
theorem Agrees.saved_revision (agrees : Agrees S L₁ R₁.content)
    (step : Ledger.Step S L₁ (.accepted c) L₂) (hhash : Sdk.nameHash name = .ok h)
    (hread : saver.fetchRecord name place.recordType place.textKey = .ok existing)
    (hsaved : (Mutation.save name draft place).build env saver reported actor = .ok instruction)
    (hdata : c.data = instruction.data) (hfits : c.data.length < 2 ^ 32) :
    R₁.revision h place.slot = revisionOf existing := by
  obtain ⟨value, takes, hpayload⟩ := Manager.Mutation.save_data hhash hread hsaved
  rw [hdata, hpayload] at hfits
  obtain ⟨w, hslot, hwire⟩ := takes.payload h (revisionOf existing) hfits
  obtain ⟨signer, haction⟩ := step.action_of_payload (hdata.trans (hpayload.trans hwire))
  obtain ⟨R₂, hstep, -⟩ := agrees.step_of_accepted step haction
  exact hstep.expected_revision (if_pos ⟨rfl, hslot⟩)

omit [Sdk.Bech32m] in
theorem stands_iff (agrees : Agrees S L R.content) (agrees₁ : Agrees S L₁ R₁.content)
    (rest : Run (Registry.Step True) R (actions later) R₁) (hsite : .record h place.slot ∈ S)
    (hshown : profile.record place = (L.storedRecord h place.slot).map RecordAccount.toSdk) :
    profile.Stands place h later L₁ ↔ R₁.revision h place.slot = R.revision h place.slot ∧
      ∀ a ∈ actions later, a.untold h place.slot (R.revision h place.slot) = false := by
  rw [← Registry.unwritten_iff rest]
  refine ⟨fun stands => stands.unwritten, fun hunwritten => ⟨?_, hunwritten⟩⟩
  rw [hshown, agrees.storedRecord hsite, agrees₁.storedRecord hsite,
    Registry.Run.record_kept rest hunwritten]

/-- A save that is executed replaces what the page has loaded exactly when it has read the record
at the revision that the page loaded, and the revision tells every write in between. Where the
save has read a ledger in between, this is where nobody wrote the record before that reading, and
the revision tells every write after it. -/
theorem save_unseen_iff (genesis : Genesis L₀) (untouched : Untouched S L₀)
    (run : Run (Ledger.Step S) L₀ history L) (first : Run (Ledger.Step S) L before M)
    (second : Run (Ledger.Step S) M after L₁) (step : Ledger.Step S L₁ (.accepted c) L₂)
    (hsite : .record h place.slot ∈ S) (hhash : Sdk.nameHash name = .ok h)
    (deployed : client.Deployed) (hserves : client.transport.Serves snapshot)
    (hof : snapshot.Of L)
    (hloaded : client.fetchNameProfile name textKeys primaryOwner = .ok profile)
    (hasked : ∀ key, place = .text key → key ∈ textKeys)
    (hread : saver.fetchRecord name place.recordType place.textKey = .ok existing)
    (hsaved : (Mutation.save name draft place).build env saver reported actor = .ok instruction)
    (hdata : c.data = instruction.data) (hfits : c.data.length < 2 ^ 32) :
    (profile.Stands place h (after ++ before) L₁ ↔
        revisionOf existing = revisionOf (profile.record place) ∧
          ∀ a ∈ actions (after ++ before),
            a.untold h place.slot (revisionOf (profile.record place)) = false) ∧
      (saver.Deployed → saver.transport.Serves reading → reading.Of M →
        (profile.Stands place h (after ++ before) L₁ ↔
          (∀ a ∈ actions before, a.writesRecord h place.slot = false) ∧
            ∀ a ∈ actions after,
              a.untold h place.slot (revisionOf (profile.record place)) = false)) := by
  obtain ⟨R, hreached, corresponds⟩ := genesis.reached run
  obtain ⟨Q, hfirst, correspondsM⟩ := corresponds.agrees.run first
  obtain ⟨R₁, hsecond, corresponds₁⟩ := correspondsM.agrees.run second
  have clean := corresponds.clean untouched.clean
  have hshown : profile.record place = (L.storedRecord h place.slot).map RecordAccount.toSdk := by
    rw [profile_record deployed hserves hhash hloaded hasked]
    exact decodeRecord_served corresponds.agrees clean hsite hof
      (Registry.unmarked_of_reached hreached)
  have hrevision : revisionOf (profile.record place) = R.revision h place.slot := by
    rw [hshown, corresponds.agrees.revisionOf_stored hsite]
  have hcurrent := corresponds₁.agrees.saved_revision step hhash hread hsaved hdata hfits
  have hactions : actions (after ++ before) = actions after ++ actions before :=
    List.filterMap_append
  have hrest : Run (Registry.Step True) R (actions (after ++ before)) R₁ :=
    hactions ▸ hfirst.append hsecond
  have hstands := stands_iff corresponds.agrees corresponds₁.agrees hrest hsite hshown
  rw [hcurrent, ← hrevision] at hstands
  refine ⟨hstands, fun deployedM hservesM hofM => ?_⟩
  -- what the save reads is the revision of the ledger in between
  have hkey : ∀ key, place = .text key → key ≠ [] := fun key hplace =>
    Sdk.AnsClient.textKeys_of_fetched hloaded key (hasked key hplace)
  have hfetched := fetchRecord_served correspondsM.agrees (correspondsM.clean clean) deployedM
    hservesM hofM (Registry.unmarked_of_reached (hreached.append hfirst)) hsite hhash hkey
  have hbetween : revisionOf existing = Q.revision h place.slot := by
    rw [← correspondsM.agrees.revisionOf_stored hsite, Except.ok.inj (hread.symm.trans hfetched)]
  constructor
  · intro stands
    have hunwritten := stands.unwritten
    rw [hactions, List.forall_mem_append] at hunwritten
    have huntold := (hstands.mp stands).2
    rw [hactions, List.forall_mem_append] at huntold
    exact ⟨hunwritten.2, huntold.1⟩
  · rintro ⟨hunwritten, huntold⟩
    obtain ⟨hsame, htold⟩ := (Registry.unwritten_iff hfirst).mp hunwritten
    rw [← hrevision] at hsame htold
    refine hstands.mpr ⟨hbetween.trans hsame, ?_⟩
    rw [hactions, List.forall_mem_append]
    exact ⟨huntold, htold⟩

end

/-! Ann edits the text of `alice.arch` on the page. -/

namespace SavedRow
open Testnet

/-- No Taproot address is parsed. -/
scoped instance bech32m : Sdk.Bech32m where
  toPlatform := platform
  decode _ := none
  fromWords _ := .error "Excess padding"

def draft : JsString := Sdk.text "c"

def edited : RecordValue := .text urlKey ⟨ascii "c", by decide, by decide⟩

/-- The instruction of the save, which reads the record on this ledger. -/
def saved (L : Ledger) : Except Sdk.Thrown Sdk.BuiltInstruction :=
  (Manager.Mutation.save requested draft urlPlace).build Manager.HexWallet.env (site L)
    Manager.HexWallet.ann Manager.HexWallet.ann

/-- The call that writes the draft, with this revision expected. -/
def write (expected : UInt64) : Call := publication edited expected

/-- What the page has loaded, at its revision. -/
def loaded (L : Ledger) : Option (UInt64 × JsString) := Manager.textFromRecord (shownUrl L)

def saves (L : Ledger) (expected : UInt64) : Bool :=
  decide ((saved L).toOption.map (·.data) = some (write expected).data)

end SavedRow

open Testnet SavedRow in
/-- Between the load and the save another session of Ann writes the record. The save is executed,
and replaces what the page has never shown. -/
theorem concurrent_write_lost :
    ∃ (history later : List Event) (L L₁ L₂ : Ledger) (c : Call) (shown : Sdk.NameProfile)
      (record : Sdk.RecordAccount) (instruction : Sdk.BuiltInstruction) (current : RecordAccount),
      Run (Ledger.Step scope) start history L ∧ Run (Ledger.Step scope) L later L₁ ∧
        Ledger.Step scope L₁ (.accepted c) L₂ ∧
        (site L).fetchNameProfile requested [Sdk.text "url"] none = .ok shown ∧
        shown.record urlPlace = some record ∧
        Manager.textFromRecord (some record) = some (1, Sdk.text "a") ∧
        (Manager.Mutation.save requested draft urlPlace).build Manager.HexWallet.env (site L₁)
          Manager.HexWallet.ann Manager.HexWallet.ann = .ok instruction ∧
        c.data = instruction.data ∧ L₁.storedRecord alice urlPlace.slot = some current ∧
        current.revision = 2 ∧ current.value = newUrl := by
  obtain ⟨L, L₁, L₂, run, rest, step, hp, hq, -⟩ := interleaved (opening ++ [publication oldUrl 0])
    [publication newUrl 1] (write 2) (fun L => decide (loaded L = some (1, Sdk.text "a")))
    (fun L => saves L 2 && decide ((L.storedRecord alice urlPlace.slot).map
      (fun r => (r.revision, r.value)) = some (2, newUrl)))
    (fun _ _ => true) (by decide +kernel) (by decide +kernel)
  have hloaded : loaded L = some (1, Sdk.text "a") := of_decide_eq_true hp
  obtain ⟨hsaves, hstored⟩ := Bool.and_eq_true_iff.mp hq
  obtain ⟨instruction, hbuilt, hdata⟩ := Option.map_eq_some_iff.mp (of_decide_eq_true hsaves)
  obtain ⟨current, hcurrent, hvalues⟩ := Option.map_eq_some_iff.mp (of_decide_eq_true hstored)
  obtain ⟨hrevision, hvalue⟩ := Prod.mk.inj hvalues
  cases hrecord : shownUrl L with
  | none =>
      rw [loaded, hrecord] at hloaded
      cases hloaded
  | some record =>
      obtain ⟨shown, hprofile, hplace⟩ := shownUrl_some hrecord
      rw [loaded, hrecord] at hloaded
      exact ⟨_, _, L, L₁, L₂, _, shown, record, instruction, current, run, rest, step, hprofile,
        hplace, hloaded, Outcome.toOption_eq_some.mp hbuilt, hdata.symm, hcurrent, hrevision, hvalue⟩

open Testnet SavedRow in
/-- Nobody else writes while Ann edits: her save replaces what the page has shown. -/
theorem edited_record_replaced : ∃ (L L₁ L₂ : Ledger) (c : Call) (shown : Sdk.NameProfile)
    (record : Sdk.RecordAccount), Ledger.Step scope L₁ (.accepted c) L₂ ∧
      (site L).fetchNameProfile requested [Sdk.text "url"] none = .ok shown ∧
      shown.record urlPlace = some record ∧
      (L₁.storedRecord alice urlPlace.slot).map RecordAccount.toSdk = some record := by
  obtain ⟨L, L₁, L₂, run, rest, step, hp, hq, -⟩ := interleaved (opening ++ [publication oldUrl 0])
    [listing .arch 500] (write 1) (fun L => (shownUrl L).isSome)
    (fun L => saves L 1 && ((site L).fetchRecord requested .text
      (some (Sdk.text "url"))).toOption.isSome)
    (fun _ _ => true) (by decide +kernel) (by decide +kernel)
  obtain ⟨record, hrecord⟩ := Option.isSome_iff_exists.mp hp
  obtain ⟨shown, hprofile, hplace⟩ := shownUrl_some hrecord
  obtain ⟨hsaves, hreads⟩ := Bool.and_eq_true_iff.mp hq
  obtain ⟨instruction, hbuilt, hdata⟩ := Option.map_eq_some_iff.mp (of_decide_eq_true hsaves)
  obtain ⟨existing, hread⟩ := Option.isSome_iff_exists.mp hreads
  have hhash : Sdk.nameHash requested = .ok alice :=
    Outcome.toOption_eq_some.mp (by decide +kernel)
  have hsite : Site.record alice urlPlace.slot ∈ sites := by decide +kernel
  obtain ⟨-, hfound⟩ := save_unseen_iff start_genesis start_untouched run rest .refl step hsite hhash
    (site_deployed L) (Sdk.Snapshot.serves _) (served_of L) hprofile
    (by rintro _ ⟨⟩; exact List.mem_cons_self) (Outcome.toOption_eq_some.mp hread)
    (Outcome.toOption_eq_some.mp hbuilt) hdata.symm (by decide +kernel)
  have hstands := (hfound (site_deployed L₁) (Sdk.Snapshot.serves _) (served_of L₁)).mpr
    ⟨by decide +kernel, nofun⟩
  exact ⟨L, L₁, L₂, _, shown, record, step, hprofile, hplace, hstands.stored.trans hplace⟩

end ArchNameService
