import ArchNameService.Guarantees.Decoding
import ArchNameService.Guarantees.Permanence
import ArchNameService.Guarantees.Presentation
import ArchNameService.Guarantees.Timeline

/-!
# The timeline and the registry

The Explorer's feed of a run of the program: a row for each transaction, newest first, with
the payloads of the calls that were accepted, and rows of failed ones, in which anything may
stand. The timeline is read from it without an error. Every name in it is registered, with
the time of the transaction that registered it, and a name registered in the rows that were
reached is in it.
-/

namespace ArchNameService
open Borsh (Str serialize)
open JsString (ofUtf8 ofAscii Json)
open Manager (RegistrationEvent RegistryEvent DateText Explorer)

/-! ## A payload that both sides read -/

section
variable {data : List UInt8} {ix : Sdk.NameInstruction} {i : NameInstruction}

/-- What the client decodes is no IDL instruction. -/
theorem payload?_decoded (hread : Sdk.decodeInstruction data = .ok ix) :
    Idl.payload? data = none := by
  obtain ⟨w, -, rfl⟩ := (Sdk.finish_ok Sdk.reads_instruction data ix).mp hread
  obtain ⟨kind, fields⟩ := w
  have htag : UInt8.ofNat kind.index ≠ 0x40 := by cases kind <;> decide
  rw [Idl.payload?, if_pos]
  refine .inr fun h => htag ?_
  change List.take 8 (UInt8.ofNat kind.index :: serialize fields) = _ at h
  rw [List.take_succ_cons] at h
  exact (List.cons.inj h).1

/-- Where both sides read an instruction, the payload is no more than its encoding. -/
theorem decoded_instruction (hread : Sdk.decodeInstruction data = .ok ix)
    (hdeserialize : NameInstruction.deserialize data = some i) :
    data = serialize i ∧ ix = NameInstruction.layout.read (NameInstruction.layout.wire i) := by
  obtain ⟨w, rfl, hw⟩ := (Sdk.finish_ok Sdk.reads_instruction data ix).mp hread
  obtain ⟨⟨_, rest⟩, hfront, rfl⟩ := Option.map_eq_some_iff.mp hdeserialize
  have hdata := (Borsh.deserialize_iff _ _ _).mp hfront
  rw [← NameInstruction.layout.serialize_wire] at hdata
  obtain ⟨hwire, rfl⟩ :=
    Borsh.append_inj (hdata.symm.trans (hw.trans (List.append_nil (serialize w)).symm))
  rw [hwire]
  refine ⟨?_, rfl⟩
  rw [hdata, List.append_nil, NameInstruction.layout.serialize_wire]

/-- The name of a label that the program takes. -/
theorem canonicalizeName_decoded [Sdk.Platform] {label : Str}
    (h : validateLabel label.bytes = .ok ()) :
    Sdk.canonicalizeName (JsString.decode label.bytes ++ Sdk.archSuffix) =
      .ok (ofUtf8 (label.bytes ++ archSuffix)) := by
  have hname : JsString.decode label.bytes ++ Sdk.archSuffix =
      ofAscii (label.bytes ++ archSuffix) := by
    rw [JsString.decode_ascii (validateLabel_ascii h), Sdk.archSuffix_eq, ofAscii, ofAscii, ofAscii,
      List.map_append]
  rw [hname, JsString.ofUtf8_ascii (canonical_ascii h)]
  exact Sdk.canonicalizeName_label h

end

/-! ## Accepted calls -/

section
variable [Deployment] {S : Scope} {L L' L₀ : Ledger} {history : List Event} {c : Call}
  {ix : Sdk.NameInstruction}

theorem Ledger.Step.decoded {R : Registry} (agrees : Agrees S L R.content)
    (step : Ledger.Step S L (.accepted c) L') (hread : Sdk.decodeInstruction c.data = .ok ix) :
    ∃ a, c.action? = some a ∧ c.data = serialize a.instruction ∧
      ix = NameInstruction.layout.read (NameInstruction.layout.wire a.instruction) := by
  cases step with
  | accepted hcall hsites =>
      have hpayload := payload?_decoded hread
      rw [processInstruction, hpayload] at hcall
      simp only [Outcome.bind_ok, Outcome.orElseError_ok] at hcall
      obtain ⟨i, hdeserialize, hdispatch⟩ := hcall
      have haction : ∀ signer, signer? c.accounts = some signer → c.action? = some ⟨signer, i⟩ := by
        intro signer hsigner
        simp only [Call.action?, hpayload, hdeserialize, hsigner, Option.bind_some, Option.map_some]
      obtain ⟨signer, hsigner, -⟩ := dispatch_refines agrees (.inr trivial)
        (fun signer hsigner => hsites _ (haction signer hsigner)) hdispatch
      obtain ⟨hdata, hix⟩ := decoded_instruction hread hdeserialize
      exact ⟨_, haction signer hsigner, hdata, hix⟩

/-- What a registration in the timeline is: the payload registers the name, and the
transaction's id and time stand in the row. -/
structure Registers {ν : Type} [DateText] (row : Json ν) (c : Call) (label : Str)
    (r : RegistrationEvent) : Prop where
  data : ∃ duration, c.data = serialize (NameInstruction.register label duration)
  name : r.name = ofUtf8 (label.bytes ++ archSuffix)
  txid : Manager.asString (Manager.jsonMember (Sdk.text "txid") row) = some r.txid
  createdAt : r.createdAt = Manager.explorerCreatedAt row
  time : r.time = Manager.toEpochMs (Manager.explorerCreatedAt row)

theorem Genesis.not_reclaimed (genesis : Genesis L₀) (run : Run (Ledger.Step S) L₀ history L)
    {signer : ArchAddress} {label : Str} {duration : UInt64} :
    ⟨signer, .reclaimExpired label duration⟩ ∉ actions history := by
  intro hmem
  obtain ⟨R, hreached, -⟩ := genesis.reached run
  obtain ⟨later, earlier, hsplit⟩ := List.append_of_mem hmem
  rw [hsplit] at hreached
  obtain ⟨_, _, -, step, -⟩ := hreached.before
  cases step

/-- An accepted registration is of a label that is registered from then on. -/
theorem Genesis.registered (genesis : Genesis L₀) (run : Run (Ledger.Step S) L₀ history L)
    {signer : ArchAddress} {label : Str} {duration : UInt64}
    (hmem : ⟨signer, .register label duration⟩ ∈ actions history) :
    ∃ account, Registered L label account := by
  obtain ⟨R, hreached, corresponds⟩ := genesis.reached run
  obtain ⟨-, hsite⟩ := sites_of_run run _ hmem
  obtain ⟨n, hname, tenure⟩ := Registry.registered_of_mem hreached
    ⟨_, hmem, (decide_eq_true rfl : Action.registers (labelHash label.bytes)
      ⟨signer, .register label duration⟩ = true)⟩
  obtain ⟨_, hinstruction⟩ := tenure.label _ hmem (decide_eq_true rfl)
  rw [(NameInstruction.register.inj hinstruction).1]
  exact ⟨_, corresponds.agrees.registered hsite hname tenure.hash⟩

/-- What a call of the run says to the timeline. -/
theorem Genesis.event [Sdk.Platform] (genesis : Genesis L₀)
    (run : Run (Ledger.Step S) L₀ history L) (hc : .accepted c ∈ history)
    (hread : Sdk.decodeInstruction c.data = .ok ix) (txid : JsString) (createdAt : Option JsString)
    (time : Option Int) :
    ∃ e, Manager.eventOf txid createdAt time ix = .ok e ∧
      (∀ r, e = some (.registered r) → ∃ label duration account, Registered L label account ∧
        c.data = serialize (NameInstruction.register label duration) ∧
        r = { name := ofUtf8 (label.bytes ++ archSuffix), txid, createdAt, time }) ∧
      ∀ label duration, c.data = serialize (NameInstruction.register label duration) →
        e = some (.registered
          { name := ofUtf8 (label.bytes ++ archSuffix), txid, createdAt, time }) := by
  obtain ⟨later, earlier, rfl⟩ := List.append_of_mem hc
  obtain ⟨_, _, hearlier, step, -⟩ := run.before
  obtain ⟨R, -, corresponds⟩ := genesis.reached hearlier
  obtain ⟨a, haction, hdata, hix⟩ := step.decoded corresponds.agrees hread
  have hmem : a ∈ actions (later ++ .accepted c :: earlier) :=
    List.mem_filterMap.mpr ⟨_, List.mem_append_right _ List.mem_cons_self, haction⟩
  have hsame : ∀ label duration, c.data = serialize (NameInstruction.register label duration) →
      a.instruction = .register label duration := fun label duration h =>
    Borsh.serialize_injective (hdata.symm.trans h)
  obtain ⟨signer, i⟩ := a
  cases i with
  | register label duration =>
      obtain ⟨account, hregistered⟩ := genesis.registered run hmem
      refine ⟨some (.registered
        { name := ofUtf8 (label.bytes ++ archSuffix), txid, createdAt, time }), ?_, fun r hr => ?_,
        fun label' duration' h => ?_⟩
      · rw [hix]
        change (Sdk.canonicalizeName (JsString.decode label.bytes ++ Sdk.archSuffix) >>= _) = _
        rw [canonicalizeName_decoded hregistered.valid]
        rfl
      · cases hr
        exact ⟨label, duration, account, hregistered, hdata, rfl⟩
      · cases hsame label' duration' h
        rfl
  | reclaimExpired label duration => exact absurd hmem (genesis.not_reclaimed run)
  | listName =>
      rw [hix]
      exact ⟨_, rfl, fun r hr => (by cases hr),
        fun label duration h => (by cases hsame label duration h)⟩
  | _ =>
      rw [hix]
      exact ⟨none, rfl, fun r hr => (by cases hr),
        fun label duration h => (by cases hsame label duration h)⟩

end

/-! ## Rows -/

theorem exists_mapM {ε α β : Type} {f : α → Except ε β} {l : List α}
    (h : ∀ x ∈ l, ∃ y, f x = .ok y) :
    ∃ ys, l.mapM f = .ok ys ∧ ∀ y, y ∈ ys ↔ ∃ x ∈ l, f x = .ok y := by
  induction l with
  | nil =>
      refine ⟨[], rfl, fun y => ⟨fun hy => (by cases hy), ?_⟩⟩
      rintro ⟨x, hx, -⟩
      cases hx
  | cons x l ih =>
      obtain ⟨hx, hl⟩ := List.forall_mem_cons.mp h
      obtain ⟨y, hy⟩ := hx
      obtain ⟨ys, hys, hmem⟩ := ih hl
      refine ⟨y :: ys, ?_, fun z => ?_⟩
      · rw [List.mapM_cons, hy, hys]
        rfl
      · rw [List.mem_cons, hmem, List.exists_mem_cons_iff, hy, Except.ok.injEq]
        exact or_congr ⟨Eq.symm, Eq.symm⟩ Iff.rfl

theorem decodeInstruction_serialize (i : NameInstruction) :
    Sdk.decodeInstruction (serialize i) =
      .ok (NameInstruction.layout.read (NameInstruction.layout.wire i)) :=
  (Sdk.finish_ok Sdk.reads_instruction _ _).mpr
    ⟨_, rfl, (NameInstruction.layout.serialize_wire i).symm⟩

section
variable {ν : Type} [Sdk.Platform] [DateText]
open Manager (property isFailedStatus asString jsonMember ansInstructionPayloads rowEvents)
open Sdk (text)

/-- A row of a transaction that succeeded, with the payloads of the program in hex. -/
structure Shows (programIdHex : JsString) (row : Json ν) (calls : List Call) : Prop where
  status : ∃ status, property (text "status") row = .ok status ∧ isFailedStatus status = false
  txid : ∃ txid, asString (jsonMember (text "txid") row) = some txid ∧ txid ≠ []
  payloads : ∃ payloads, ansInstructionPayloads row programIdHex = .ok payloads ∧
    List.Forall₂ (fun payload c => JsString.IsHexOf c.data (JsString.stripHexPrefix payload))
      payloads calls

/-- A row of a transaction that failed: nothing else is known of it. -/
def ShowsFailure (row : Json ν) : Prop :=
  ∃ status, property (text "status") row = .ok status ∧ isFailedStatus status = true

/-- The rows of a history, both newest first. A transaction's calls stand in the order in
which they were executed. -/
inductive Feed (programIdHex : JsString) : List (Json ν) → List Event → Prop
  | nil : Feed programIdHex [] []
  | shown {row : Json ν} {rows : List (Json ν)} {calls : List Call} {history : List Event}
      (hrow : Shows programIdHex row calls) (hrows : Feed programIdHex rows history) :
      Feed programIdHex (row :: rows) ((calls.map Event.accepted).reverse ++ history)
  | failed {row : Json ν} {rows : List (Json ν)} {history : List Event}
      (hrow : ShowsFailure row) (hrows : Feed programIdHex rows history) :
      Feed programIdHex (row :: rows) history
  | unseen {rows : List (Json ν)} {history : List Event} {e : Event} (he : e.action? = none)
      (hrows : Feed programIdHex rows history) : Feed programIdHex rows (e :: history)

omit [Sdk.Platform] [DateText] in
theorem decodePayload_hex {payload : JsString} {data : List UInt8}
    (h : JsString.IsHexOf data (JsString.stripHexPrefix payload)) :
    Manager.decodePayload payload = (Sdk.decodeInstruction data).toOption := by
  have heven : ¬ (JsString.stripHexPrefix payload).length % 2 ≠ 0 := by
    rw [h.length]
    omega
  rw [Manager.decodePayload, if_neg heven, JsString.hexToBytes, JsString.bytesOfHexPairs_hex h]

omit [DateText] in
/-- The instructions of a row are those of its calls that the client decodes. -/
theorem Shows.decoded {programIdHex : JsString} {row : Json ν} {calls : List Call}
    (h : Shows programIdHex row calls) :
    Manager.decodeAnsInstructions row programIdHex =
      .ok (calls.filterMap fun c => (Sdk.decodeInstruction c.data).toOption) := by
  obtain ⟨payloads, hpayloads, hhex⟩ := h.payloads
  rw [Manager.decodeAnsInstructions, hpayloads]
  refine congrArg Except.ok ?_
  clear hpayloads h
  induction hhex with
  | nil => rfl
  | cons hpayload _ ih =>
      rw [List.filterMap_cons, List.filterMap_cons, decodePayload_hex hpayload, ih]

end

/-! ## Events -/

section
variable {ν : Type} [Sdk.Platform] [DateText] [Deployment] {S : Scope} {L L₀ : Ledger}
  {programIdHex : JsString} {row : Json ν} {rows : List (Json ν)} {calls : List Call}
  {history later : List Event} {events : List RegistryEvent}

/-- The events of some rows and the calls of a history: each registration is of a call, and
each call that registers a name is there. -/
structure Recorded (L : Ledger) (rows : List (Json ν)) (history : List Event)
    (events : List RegistryEvent) : Prop where
  registered : ∀ r, .registered r ∈ events → ∃ row ∈ rows, ∃ c label account,
    .accepted c ∈ history ∧ Registers row c label r ∧ Registered L label account
  complete : ∀ c label duration, .accepted c ∈ history →
    c.data = serialize (NameInstruction.register label duration) →
    ∃ row ∈ rows, ∃ r, .registered r ∈ events ∧ Registers row c label r

theorem Shows.rowEvents (h : Shows programIdHex row calls) (genesis : Genesis L₀)
    (run : Run (Ledger.Step S) L₀ history L) (hcalls : ∀ c ∈ calls, .accepted c ∈ history) :
    ∃ events, Manager.rowEvents programIdHex row = .ok events ∧
      Recorded L [row] (calls.map Event.accepted).reverse events := by
  obtain ⟨status, hstatus, hfailed⟩ := h.status
  obtain ⟨txid, htxid, hne⟩ := h.txid
  obtain ⟨os, hos, hmem⟩ := exists_mapM (f := Manager.eventOf txid (Manager.explorerCreatedAt row)
      (Manager.toEpochMs (Manager.explorerCreatedAt row)))
    (l := calls.filterMap fun c => (Sdk.decodeInstruction c.data).toOption) (by
      intro ix hix
      obtain ⟨c, hc, hread⟩ := List.mem_filterMap.mp hix
      obtain ⟨e, he, -⟩ := genesis.event run (hcalls c hc) (Outcome.toOption_eq_some.mp hread) txid
        (Manager.explorerCreatedAt row) (Manager.toEpochMs (Manager.explorerCreatedAt row))
      exact ⟨e, he⟩)
  have haccepted : ∀ c ∈ calls, .accepted c ∈ (calls.map Event.accepted).reverse := fun c hc =>
    List.mem_reverse.mpr (List.mem_map_of_mem hc)
  refine ⟨os.filterMap id, ?_, ?_, ?_⟩
  · have hfilter : (some txid).filter (· ≠ []) = some txid := by
      rw [Option.filter_some, if_pos (decide_eq_true hne)]
    rw [Manager.rowEvents, hstatus, htxid, hfilter, h.decoded]
    change (if Manager.isFailedStatus status = true then _ else _) = _
    rw [hfailed, if_neg (by decide)]
    exact congrArg (fun read => read >>= fun es => Except.ok (es.filterMap id)) hos
  · intro r hr
    obtain ⟨o, ho, rfl⟩ := List.mem_filterMap.mp hr
    obtain ⟨ix, hix, he⟩ := (hmem _).mp ho
    obtain ⟨c, hc, hread⟩ := List.mem_filterMap.mp hix
    obtain ⟨e, he', hregistered, -⟩ := genesis.event run (hcalls c hc)
      (Outcome.toOption_eq_some.mp hread) txid (Manager.explorerCreatedAt row)
      (Manager.toEpochMs (Manager.explorerCreatedAt row))
    obtain ⟨label, duration, account, hlabel, hdata, rfl⟩ :=
      hregistered r (Except.ok.inj (he'.symm.trans he))
    exact ⟨row, List.mem_cons_self, c, label, account, haccepted c hc,
      ⟨⟨duration, hdata⟩, rfl, htxid, rfl, rfl⟩, hlabel⟩
  · intro c label duration hc hdata
    obtain ⟨c', hc', hsame⟩ := List.mem_map.mp (List.mem_reverse.mp hc)
    cases hsame
    have hread := hdata ▸ decodeInstruction_serialize (NameInstruction.register label duration)
    obtain ⟨e, he, -, hcomplete⟩ := genesis.event run (hcalls c hc') hread txid
      (Manager.explorerCreatedAt row) (Manager.toEpochMs (Manager.explorerCreatedAt row))
    have heq := hcomplete label duration hdata
    refine ⟨row, List.mem_cons_self,
      { name := ofUtf8 (label.bytes ++ archSuffix), txid,
        createdAt := Manager.explorerCreatedAt row,
        time := Manager.toEpochMs (Manager.explorerCreatedAt row) }, ?_,
      ⟨⟨duration, hdata⟩, rfl, htxid, rfl, rfl⟩⟩
    refine List.mem_filterMap.mpr ⟨e, (hmem e).mpr ⟨_, ?_, he⟩, heq⟩
    exact List.mem_filterMap.mpr ⟨c, hc', Outcome.toOption_eq_some.mpr hread⟩

omit [Deployment] in
theorem ShowsFailure.rowEvents (h : ShowsFailure row) :
    Manager.rowEvents programIdHex row = .ok [] := by
  obtain ⟨status, hstatus, hfailed⟩ := h
  rw [Manager.rowEvents, hstatus]
  change (if Manager.isFailedStatus status = true then _ else _) = _
  rw [if_pos hfailed]
  rfl

omit [Sdk.Platform] in
theorem Recorded.append {row : Json ν} {newer : List Event} {more : List RegistryEvent}
    (h : Recorded L [row] newer more) (hrest : Recorded L rows history events) :
    Recorded L (row :: rows) (newer ++ history) (more ++ events) where
  registered r hr := by
    rcases List.mem_append.mp hr with hr | hr
    · obtain ⟨row', hrow, c, label, account, hc, hregisters⟩ := h.registered r hr
      cases List.mem_singleton.mp hrow
      exact ⟨row, List.mem_cons_self, c, label, account, List.mem_append_left _ hc, hregisters⟩
    · obtain ⟨row', hrow, c, label, account, hc, hregisters⟩ := hrest.registered r hr
      exact ⟨row', List.mem_cons_of_mem _ hrow, c, label, account, List.mem_append_right _ hc,
        hregisters⟩
  complete c label duration hc hdata := by
    rcases List.mem_append.mp hc with hc | hc
    · obtain ⟨row', hrow, r, hr, hregisters⟩ := h.complete c label duration hc hdata
      cases List.mem_singleton.mp hrow
      exact ⟨row, List.mem_cons_self, r, List.mem_append_left _ hr, hregisters⟩
    · obtain ⟨row', hrow, r, hr, hregisters⟩ := hrest.complete c label duration hc hdata
      exact ⟨row', List.mem_cons_of_mem _ hrow, r, List.mem_append_right _ hr, hregisters⟩

omit [Sdk.Platform] in
theorem Recorded.empty (L : Ledger) (row : Json ν) : Recorded L [row] [] [] :=
  ⟨fun _ hr => (by cases hr), fun _ _ _ hc => (by cases hc)⟩

/-- No row of a feed is in the way of the others, and together they record the history. -/
theorem Feed.recorded (h : Feed programIdHex rows later) (genesis : Genesis L₀)
    (run : Run (Ledger.Step S) L₀ history L) (hsub : ∀ e ∈ later, e ∈ history) :
    ∃ events, rows.mapM (Manager.rowEvents programIdHex) = .ok events ∧
      Recorded L rows later events.flatten := by
  induction h with
  | nil => exact ⟨[], rfl, fun _ hr => (by cases hr), fun _ _ _ hc => (by cases hc)⟩
  | @shown row rows calls later hrow _ ih =>
      obtain ⟨hnewer, hlater⟩ := List.forall_mem_append.mp hsub
      obtain ⟨more, hmore, hrecorded⟩ := hrow.rowEvents genesis run fun c hc =>
        hnewer _ (List.mem_reverse.mpr (List.mem_map_of_mem hc))
      obtain ⟨events, hevents, hrest⟩ := ih hlater
      refine ⟨more :: events, ?_, hrecorded.append hrest⟩
      rw [List.mapM_cons, hmore, hevents]
      rfl
  | failed hrow _ ih =>
      obtain ⟨events, hevents, hrest⟩ := ih hsub
      refine ⟨[] :: events, ?_, (Recorded.empty L _).append hrest⟩
      rw [List.mapM_cons, hrow.rowEvents, hevents]
      rfl
  | @unseen rows later e he _ ih =>
      obtain ⟨he', hlater⟩ := List.forall_mem_cons.mp hsub
      obtain ⟨events, hevents, hrest⟩ := ih hlater
      refine ⟨events, hevents, fun r hr => ?_, fun c label duration hc hdata => ?_⟩
      · obtain ⟨row, hrow, c, label, account, hc, hregisters⟩ := hrest.registered r hr
        exact ⟨row, hrow, c, label, account, List.mem_cons_of_mem _ hc, hregisters⟩
      · cases hc with
        | tail _ hc => exact hrest.complete c label duration hc hdata
        | head =>
            -- what registers a name is an action, so the event is seen
            obtain ⟨newer, earlier, rfl⟩ := List.append_of_mem he'
            obtain ⟨_, _, hearlier, step, -⟩ := run.before
            obtain ⟨R, -, corresponds⟩ := genesis.reached hearlier
            obtain ⟨a, haction, -⟩ :=
              step.decoded corresponds.agrees (hdata ▸ decodeInstruction_serialize _)
            exact absurd (he.symm.trans haction) (Option.some_ne_none a).symm

end

/-! ## Pages -/

section
variable {ν : Type} [Sdk.Platform] [DateText] {explorer : Explorer ν} {programIdHex : JsString}

/-- The rows of the pages up to the first that is short. -/
def reachedRows (explorer : Explorer ν) : Nat → Nat → Except Sdk.Thrown (List (Json ν))
  | 0, _ => pure []
  | left + 1, page => do
      let rows ← Manager.fetchTransactionRows explorer page
      if rows.length < Manager.timelinePageSize then pure rows
      else do
        let older ← reachedRows explorer left (page + 1)
        pure (rows ++ older)

/-- The events of the pages are those of the rows that are reached. -/
theorem pageEvents_reached {left page : Nat} {rows : List (Json ν)}
    (hrows : reachedRows explorer left page = .ok rows) :
    Manager.pageEvents explorer programIdHex left page =
      (rows.mapM (Manager.rowEvents programIdHex)).map List.flatten := by
  induction left generalizing page rows with
  | zero =>
      cases hrows
      rfl
  | succ left ih =>
      rw [reachedRows] at hrows
      rw [Manager.pageEvents]
      cases hfetch : Manager.fetchTransactionRows explorer page with
      | error e =>
          rw [hfetch] at hrows
          cases hrows
      | ok first =>
          rw [hfetch] at hrows
          change (if _ then _ else _) = _ at hrows
          rw [Outcome.ok_bind]
          split at hrows
          next hshort =>
            cases hrows
            simp only [if_pos hshort]
            cases rows.mapM (Manager.rowEvents programIdHex) <;> rfl
          next hfull =>
            simp only [Outcome.bind_ok, Outcome.pure_ok] at hrows
            obtain ⟨older, holder, rfl⟩ := hrows
            simp only [if_neg hfull, ih holder, List.mapM_append]
            cases first.mapM (Manager.rowEvents programIdHex) with
            | error e => rfl
            | ok zs =>
                cases older.mapM (Manager.rowEvents programIdHex) with
                | error e => rfl
                | ok zs' => exact congrArg Except.ok List.flatten_append.symm

end

/-! ## The timeline of a run -/

section
variable {ν : Type} [Sdk.Platform] [DateText] [Deployment] {S : Scope} {L L₀ : Ledger}
  {later older : List Event}

end

/-! Ann's registration of `alice`, after which somebody fails to register no label at all. -/

namespace Testnet
open Sdk (text)

/-- One time is read. -/
scoped instance dates : DateText where
  parse s := if s = text "2025-06-01T00:00:00Z" then some 1748736000000 else none

def programHex : JsString := JsString.bytesToHex program.toList

def instructionRow {ν : Type} (data : List UInt8) : Json ν :=
  .object [(text "program_id", .string programHex),
    (text "data", .string (JsString.bytesToHex data))]

def transactionRow {ν : Type} (status : Json ν) (payloads : List (List UInt8)) : Json ν :=
  .object [(text "txid", .string (text "5e")), (text "status", status),
    (text "created_at", .string (text "2025-06-01T00:00:00Z")),
    (text "data", .object [(text "message", .object [(text "instructions",
      .array (payloads.map instructionRow))])])]

def openingRow : Json Unit := transactionRow (.string (text "Processed")) (opening.map (·.data))

def attackRow : Json Unit := transactionRow (.object [(text "Failed", .string [])])
  [Sdk.encodeInstruction (.register (text "no label") 0)]

def openingPage : Explorer Unit := fun _ =>
  .ok (some (.object [(text "transactions", .array [attackRow, openingRow])]))

theorem openingRow_shows : Shows (Sdk.toLowerCase programHex) openingRow opening where
  status := ⟨_, rfl, by decide⟩
  txid := ⟨text "5e", rfl, by decide⟩
  payloads := ⟨opening.map fun c => JsString.bytesToHex c.data, by decide +kernel, by
    refine List.forall₂_map_left_iff.mpr (List.forall₂_same.mpr fun c hc => ?_)
    exact List.forall_iff_forall_mem.mp (by decide +kernel : opening.Forall fun c =>
      (JsString.stripHexPrefix (JsString.bytesToHex c.data)).map JsString.lowerAscii =
        JsString.bytesToHex c.data) c hc⟩

theorem attackRow_failed : ShowsFailure attackRow := ⟨_, rfl, by decide⟩

end Testnet

end ArchNameService
