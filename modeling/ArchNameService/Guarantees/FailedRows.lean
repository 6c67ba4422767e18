import ArchNameService.Guarantees.Feed
import ArchNameService.Guarantees.Transactions
import ArchNameService.Sdk.ExplorerRest

/-!
# Failed transactions in the timeline

The timeline passes over a row by one reading of its status, the SDK has another, and a row
that is not passed over has to be readable. The timeline is that of the rows which the SDK
does not call failed exactly where nothing is unreadable and the two readings agree on the
newest row of each name.
-/

namespace ArchNameService

namespace Manager
open JsString JsValue
open Sdk (Platform Thrown text toLowerCase)

/-! ## What a row tells -/

section
variable {ν : Type}

/-- The row is passed over. -/
def isPassedOver [Platform] (row : Json ν) : Bool := isFailedStatus (jsonMember (text "status") row)

/-- The SDK calls the transaction of the row failed. -/
def isFailedTransaction [JsNumber ν] (row : Json ν) : Bool :=
  (Sdk.transactionStatus (ofJson row)).any (·.status == text "Failed")

def txidOf (row : Json ν) : Option JsString :=
  (asString (jsonMember (text "txid") row)).filter (· ≠ [])

def instructionsOf (row : Json ν) : List (Json ν) :=
  match ((jsonMember (text "data") row).bind (jsonMember (text "message"))).bind
      (jsonMember (text "instructions")) with
  | some (.array instructions) => instructions
  | _ => []

def isNull : Json ν → Bool
  | .null => true
  | _ => false

variable [Platform]

def payloadOf (wanted : JsString) (ix : Json ν) : Option JsString :=
  match asString (jsonMember (text "program_id") ix) with
  | some programId =>
      if toLowerCase programId = wanted then asString (jsonMember (text "data") ix) else none
  | none => none

def decodedOf (programIdHex : JsString) (row : Json ν) : List Sdk.NameInstruction :=
  ((instructionsOf row).filterMap (payloadOf (toLowerCase programIdHex))).filterMap decodePayload

/-- Where the instruction has a label, it is one. -/
def isNamed : Sdk.NameInstruction → Bool
  | .register label _ | .reclaimExpired label _ =>
      (Sdk.canonicalizeName (label ++ Sdk.archSuffix)).toOption.isSome
  | _ => true

/-- Nothing that is looked at of the row is `null`, and no label there is none. -/
structure Readable (programIdHex : JsString) (row : Json ν) : Prop where
  present : isNull row = false
  instructions : isPassedOver row = false → (txidOf row).isSome →
    ∀ ix ∈ instructionsOf row, isNull ix = false
  labels : isPassedOver row = false → (txidOf row).isSome →
    ∀ ix ∈ decodedOf programIdHex row, isNamed ix = true

variable [DateText]

/-- The event of an instruction, where it has one. -/
def toldBy (txid : JsString) (row : Json ν) (ix : Sdk.NameInstruction) : Option RegistryEvent :=
  (eventOf txid (explorerCreatedAt row) (toEpochMs (explorerCreatedAt row)) ix).toOption.join

/-- The events of a row with an id, whatever its status. -/
def told (programIdHex : JsString) (row : Json ν) : List RegistryEvent :=
  (txidOf row).elim [] fun txid => (decodedOf programIdHex row).filterMap (toldBy txid row)

/-- The events of the rows that are not marked as failed. -/
def eventsOf (failed : Json ν → Bool) (programIdHex : JsString) (rows : List (Json ν)) :
    List RegistryEvent :=
  (rows.filter (!failed ·)).flatMap (told programIdHex)

end

/-! ## Reading -/

/-- What is read element by element, where each can be read. -/
theorem mapM_ok_iff {ε α β : Type} {f : α → Except ε β} {P : α → Prop} {g : α → β}
    (h : ∀ x y, f x = .ok y ↔ P x ∧ y = g x) (l : List α) (ys : List β) :
    l.mapM f = .ok ys ↔ (∀ x ∈ l, P x) ∧ ys = l.map g := by
  induction l generalizing ys with
  | nil =>
      refine ⟨fun hys => ⟨List.forall_mem_nil _, ?_⟩, fun hys => ?_⟩
      · cases hys
        rfl
      · rw [hys.2]
        rfl
  | cons x l ih =>
      rw [List.mapM_cons, List.forall_mem_cons, List.map_cons]
      simp only [Outcome.bind_ok, Outcome.pure_ok, h, ih]
      constructor
      · rintro ⟨_, ⟨hx, rfl⟩, _, ⟨hl, rfl⟩, rfl⟩
        exact ⟨⟨hx, hl⟩, rfl⟩
      · rintro ⟨⟨hx, hl⟩, rfl⟩
        exact ⟨_, ⟨hx, rfl⟩, _, ⟨hl, rfl⟩, rfl⟩

theorem ok_iff_of {ε α : Type} {x : Except ε α} {P : Prop} {a : α} (hok : P → x = .ok a)
    (herror : ¬ P → ∃ e, x = .error e) (b : α) : x = .ok b ↔ P ∧ b = a := by
  constructor
  · intro hb
    by_cases hP : P
    · exact ⟨hP, Except.ok.inj (hb.symm.trans (hok hP))⟩
    · obtain ⟨e, he⟩ := herror hP
      cases hb.symm.trans he
  · rintro ⟨hP, rfl⟩
    exact hok hP

section
variable {ν : Type} {value : Json ν}

theorem isNull_iff : ¬ isNull value = false ↔ value = .null := by
  cases value <;> simp [isNull]

theorem property_eq (key : JsString) (h : isNull value = false) :
    property key value = .ok (jsonMember key value) := by
  cases value with
  | null => cases h
  | _ => rfl

variable [Platform] {programIdHex : JsString} {row : Json ν}

theorem instructionPayload_ok (wanted : JsString) (ix : Json ν) (payload : Option JsString) :
    instructionPayload wanted ix = .ok payload ↔
      isNull ix = false ∧ payload = payloadOf wanted ix := by
  refine ok_iff_of (fun hnull => ?_) (fun hnull => ?_) payload
  · rw [instructionPayload, property_eq _ hnull, Outcome.ok_bind, payloadOf]
    cases asString (jsonMember (text "program_id") ix) with
    | none => rfl
    | some programId => exact (apply_ite Except.ok (toLowerCase programId = wanted) _ _).symm
  · rw [isNull_iff.mp hnull]
    exact ⟨_, rfl⟩

theorem ansInstructionPayloads_ok (payloads : List JsString) :
    ansInstructionPayloads row programIdHex = .ok payloads ↔
      (∀ ix ∈ instructionsOf row, isNull ix = false) ∧
        payloads = (instructionsOf row).filterMap (payloadOf (toLowerCase programIdHex)) := by
  have hnone : (pure [] : Except Thrown (List JsString)) = .ok payloads ↔
      (∀ ix ∈ ([] : List (Json ν)), isNull ix = false) ∧ payloads = [] := by
    rw [Outcome.pure_ok]
    exact ⟨fun h => ⟨List.forall_mem_nil _, h.symm⟩, fun h => h.2.symm⟩
  unfold ansInstructionPayloads instructionsOf
  generalize ((jsonMember (text "data") row).bind (jsonMember (text "message"))).bind
    (jsonMember (text "instructions")) = raw
  cases raw with
  | none => exact hnone
  | some raw =>
      cases raw with
      | array instructions =>
          simp only [Outcome.bind_ok, Outcome.pure_ok,
            mapM_ok_iff (instructionPayload_ok (toLowerCase programIdHex))]
          constructor
          · rintro ⟨_, ⟨hnull, rfl⟩, rfl⟩
            exact ⟨hnull, List.filterMap_map⟩
          · rintro ⟨hnull, rfl⟩
            exact ⟨_, ⟨hnull, rfl⟩, List.filterMap_map⟩
      | _ => exact hnone

theorem decodeAnsInstructions_ok (instructions : List Sdk.NameInstruction) :
    decodeAnsInstructions row programIdHex = .ok instructions ↔
      (∀ ix ∈ instructionsOf row, isNull ix = false) ∧
        instructions = decodedOf programIdHex row := by
  rw [decodeAnsInstructions, decodedOf]
  simp only [Outcome.bind_ok, Outcome.pure_ok, ansInstructionPayloads_ok]
  constructor
  · rintro ⟨_, ⟨hnull, rfl⟩, rfl⟩
    exact ⟨hnull, rfl⟩
  · rintro ⟨hnull, rfl⟩
    exact ⟨_, ⟨hnull, rfl⟩, rfl⟩

theorem eventOf_ok (txid : JsString) (createdAt : Option JsString) (time : Option Int)
    (ix : Sdk.NameInstruction) (e : Option RegistryEvent) :
    eventOf txid createdAt time ix = .ok e ↔
      isNamed ix = true ∧ e = (eventOf txid createdAt time ix).toOption.join := by
  have hlabel : ∀ label duration,
      (∃ e', eventOf txid createdAt time (.register label duration) = .ok e') ↔
        isNamed (.register label duration) = true := by
    intro label duration
    rw [eventOf, isNamed]
    cases Sdk.canonicalizeName (label ++ Sdk.archSuffix) with
    | error thrown =>
        constructor
        · rintro ⟨_, h⟩
          cases h
        · intro h
          cases h
    | ok name => exact ⟨fun _ => rfl, fun _ => ⟨_, rfl⟩⟩
  have hread : (∃ e', eventOf txid createdAt time ix = .ok e') ↔ isNamed ix = true := by
    cases ix with
    | register label duration => exact hlabel label duration
    | reclaimExpired label duration => exact hlabel label duration
    | _ => exact ⟨fun _ => rfl, fun _ => ⟨_, rfl⟩⟩
  refine ok_iff_of (fun hnamed => ?_) (fun hnamed => ?_) e
  · obtain ⟨e', he'⟩ := hread.mpr hnamed
    rw [he']
    rfl
  · cases he : eventOf txid createdAt time ix with
    | error thrown => exact ⟨thrown, rfl⟩
    | ok e' => exact absurd (hread.mp ⟨e', he⟩) hnamed

variable [DateText]

/-- A row is read where it is readable, and then it tells what it tells or is passed over. -/
theorem rowEvents_ok (programIdHex : JsString) (row : Json ν) (events : List RegistryEvent) :
    rowEvents programIdHex row = .ok events ↔ Readable programIdHex row ∧
      events = if isPassedOver row then [] else told programIdHex row := by
  cases hnull : isNull row with
  | true =>
      have hrow : row = .null := isNull_iff.mp (by rw [hnull]; decide)
      subst hrow
      exact ⟨fun h => (nomatch h), fun h => (nomatch h.1.present)⟩
  | false =>
      rw [rowEvents, property_eq _ hnull, Outcome.ok_bind]
      cases hpassed : isPassedOver row with
      | true =>
          have hfailed : isFailedStatus (jsonMember (text "status") row) = true := hpassed
          rw [if_pos hfailed, if_pos rfl, Outcome.pure_ok]
          refine ⟨fun h => ⟨⟨hnull, fun hnot => ?_, fun hnot => ?_⟩, h.symm⟩, fun h => h.2.symm⟩
          · cases hpassed.symm.trans hnot
          · cases hpassed.symm.trans hnot
      | false =>
          have hfailed : ¬ isFailedStatus (jsonMember (text "status") row) = true :=
            ne_true_of_eq_false hpassed
          rw [if_neg hfailed, if_neg Bool.false_ne_true, told]
          cases htxid : txidOf row with
          | none =>
              have hid : (asString (jsonMember (text "txid") row)).filter (· ≠ []) = none := htxid
              rw [hid, Outcome.pure_ok]
              refine ⟨fun h => ⟨⟨hnull, fun _ hsome => ?_, fun _ hsome => ?_⟩, h.symm⟩,
                fun h => h.2.symm⟩
              · cases htxid ▸ hsome
              · cases htxid ▸ hsome
          | some txid =>
              have hid : (asString (jsonMember (text "txid") row)).filter (· ≠ []) = some txid :=
                htxid
              have hsome : (txidOf row).isSome := htxid ▸ rfl
              rw [hid]
              simp only [Outcome.bind_ok, Outcome.pure_ok, decodeAnsInstructions_ok,
                mapM_ok_iff (eventOf_ok txid (explorerCreatedAt row)
                  (toEpochMs (explorerCreatedAt row)))]
              constructor
              · rintro ⟨_, ⟨hpresent, rfl⟩, _, ⟨hnamed, rfl⟩, rfl⟩
                exact ⟨⟨hnull, fun _ _ => hpresent, fun _ _ => hnamed⟩, List.filterMap_map⟩
              · rintro ⟨hreadable, rfl⟩
                exact ⟨_, ⟨hreadable.instructions hpassed hsome, rfl⟩, _,
                  ⟨hreadable.labels hpassed hsome, rfl⟩, List.filterMap_map⟩

end

/-! ## The newest rows -/

section
variable {events events' : List RegistryEvent} {t : RegistryTimeline}

/-- The newest registration of each name, and the newest dated listing of each hash, are the
same. -/
structure SameNewest (events events' : List RegistryEvent) : Prop where
  registered : ∀ name, (events.filterMap registration).find? (·.name == name) =
    (events'.filterMap registration).find? (·.name == name)
  listed : ∀ key, ((events.filterMap listing).find? (·.1 == key)).map (·.2) =
    ((events'.filterMap listing).find? (·.1 == key)).map (·.2)

theorem Newest.congr (h : Newest events t) (hsame : SameNewest events events') :
    Newest events' t where
  once := h.once
  newest name := (h.newest name).trans (hsame.registered name)
  registeredAt name := (h.registeredAt name).trans (by rw [hsame.registered])
  listedAt key := (h.listedAt key).trans (hsame.listed key)

theorem Newest.same (h : Newest events t) (h' : Newest events' t) : SameNewest events events' where
  registered name := (h.newest name).symm.trans (h'.newest name)
  listed key := (h.listedAt key).symm.trans (h'.listedAt key)

theorem find?_name {l : List RegistrationEvent} (h : (l.map (·.name)).Nodup)
    {r : RegistrationEvent} (hr : r ∈ l) : l.find? (·.name == r.name) = some r := by
  induction l with
  | nil => cases hr
  | cons first l ih =>
      obtain ⟨hfirst, hl⟩ := List.nodup_cons.mp h
      rw [List.find?_cons]
      cases hr with
      | head => rw [beq_self_eq_true]
      | tail _ hr =>
          have hne : (first.name == r.name) = false := by
            apply beq_eq_false_iff_ne.mpr
            intro heq
            exact hfirst (List.mem_map.mpr ⟨r, hr, heq.symm⟩)
          rw [hne]
          exact ih hl hr

/-- What is reported was told. -/
theorem Newest.reported (h : Newest events t) :
    ∀ r ∈ t.registrations, .registered r ∈ events := by
  intro r hr
  have hfound := (h.newest r.name).symm.trans (find?_name h.once hr)
  obtain ⟨e, he, hregistration⟩ := List.mem_filterMap.mp (List.mem_of_find?_eq_some hfound)
  cases e with
  | registered r' =>
      cases hregistration
      exact he
  | listed key time => cases hregistration

theorem Newest.listed (h : Newest events t) {key : JsString} {time : Int}
    (hlookup : t.listedAtByNameHash.lookup key = some time) :
    .listed key (some time) ∈ events := by
  obtain ⟨⟨key', time'⟩, hfound, rfl⟩ :=
    Option.map_eq_some_iff.mp ((h.listedAt key).symm.trans hlookup)
  have hkey : key' = key := by
    have hmatch := List.find?_some hfound
    exact beq_iff_eq.mp hmatch
  obtain ⟨e, he, hlisting⟩ := List.mem_filterMap.mp (List.mem_of_find?_eq_some hfound)
  cases e with
  | registered r => cases hlisting
  | listed key'' time'' =>
      obtain ⟨_, htime, hpair⟩ := Option.map_eq_some_iff.mp hlisting
      cases hpair
      rw [← hkey, ← htime]
      exact he

end

section
variable {ν : Type} [JsNumber ν] [Platform] [DateText] {programIdHex : JsString}
  {rows : List (Json ν)} {t : RegistryTimeline}

/-- A timeline of the rows that the SDK does not call failed: what it reports comes from such a
row, and each name and each listing is dated by the newest. -/
structure Robust (programIdHex : JsString) (rows : List (Json ν)) (t : RegistryTimeline) :
    Prop where
  registered : ∀ r ∈ t.registrations, ∃ row ∈ rows, isFailedTransaction row = false ∧
    .registered r ∈ told programIdHex row
  listed : ∀ key time, t.listedAtByNameHash.lookup key = some time →
    ∃ row ∈ rows, isFailedTransaction row = false ∧ .listed key (some time) ∈ told programIdHex row
  newest : Newest (eventsOf isFailedTransaction programIdHex rows) t

omit [JsNumber ν] in
theorem mem_eventsOf {failed : Json ν → Bool} {e : RegistryEvent} :
    e ∈ eventsOf failed programIdHex rows ↔
      ∃ row ∈ rows, failed row = false ∧ e ∈ told programIdHex row := by
  simp only [eventsOf, List.mem_flatMap, List.mem_filter, Bool.not_eq_true', and_assoc]

theorem robust_iff : Robust programIdHex rows t ↔
    Newest (eventsOf isFailedTransaction programIdHex rows) t :=
  ⟨Robust.newest, fun h =>
    ⟨fun r hr => mem_eventsOf.mp (h.reported r hr),
      fun _ _ hlookup => mem_eventsOf.mp (h.listed hlookup), h⟩⟩

omit [JsNumber ν] in
/-- The timeline of rows that are readable is that of those that are not passed over. -/
theorem fetchRegistryTimeline_ok {explorer : Explorer ν} {pages : Option (Option ℚ)}
    (hrows : reachedRows explorer (pageCount pages) 1 = .ok rows) :
    fetchRegistryTimeline explorer programIdHex pages = .ok t ↔
      (∀ row ∈ rows, Readable (toLowerCase programIdHex) row) ∧
        t = timelineOf (eventsOf isPassedOver (toLowerCase programIdHex) rows) := by
  have hflatten : (rows.map fun row =>
      if isPassedOver row then [] else told (toLowerCase programIdHex) row).flatten =
        eventsOf isPassedOver (toLowerCase programIdHex) rows := by
    clear hrows
    induction rows with
    | nil => rfl
    | cons row rows ih =>
        rw [List.map_cons, List.flatten_cons, ih, eventsOf, eventsOf]
        cases hpassed : isPassedOver row with
        | true => rw [List.filter_cons_of_neg (by rw [hpassed]; decide)]; rfl
        | false => rw [List.filter_cons_of_pos (by rw [hpassed]; decide)]; rfl
  rw [fetchRegistryTimeline_eq, pageEvents_reached hrows, ← hflatten]
  have hread := mapM_ok_iff (rowEvents_ok (ν := ν) (toLowerCase programIdHex)) rows
  cases hevents : rows.mapM (rowEvents (toLowerCase programIdHex)) with
  | error thrown =>
      refine ⟨fun h => (nomatch h), fun h => ?_⟩
      cases hevents.symm.trans ((hread _).mpr ⟨h.1, rfl⟩)
  | ok events =>
      obtain ⟨hreadable, hmap⟩ := (hread events).mp hevents
      rw [hmap]
      exact ⟨fun h => ⟨hreadable, (Except.ok.inj h).symm⟩, fun h => congrArg Except.ok h.2.symm⟩

/-- Where the two readings of the status agree, they leave the same rows. -/
theorem SameNewest.of_agree (h : ∀ row ∈ rows, isPassedOver row = isFailedTransaction row) :
    SameNewest (eventsOf isPassedOver programIdHex rows)
      (eventsOf isFailedTransaction programIdHex rows) := by
  have hevents : eventsOf isPassedOver programIdHex rows =
      eventsOf isFailedTransaction programIdHex rows := by
    rw [eventsOf, eventsOf, List.filter_congr fun row hrow => by rw [h row hrow]]
  rw [hevents]
  exact ⟨fun _ => rfl, fun _ => rfl⟩

end

end Manager

/-! Ann's registration of `alice`, after which somebody fails to register no label at all; and
a rejected registration, in the form in which a node reports it. -/

namespace Testnet
open Sdk (text)
open Sdk.Mixed (WholeNumber)
open scoped Sdk.Mixed
open Manager (Readable Robust SameNewest isPassedOver isFailedTransaction pageCount
  fetchRegistryTimeline)
open JsString (Json)

def processedRow : Json WholeNumber :=
  transactionRow (.string (text "Processed")) (opening.map (·.data))

def failedRow : Json WholeNumber := transactionRow (.object [(text "Failed", .string [])])
  [Sdk.encodeInstruction (.register (text "no label") 0)]

def rejectedRow : Json WholeNumber :=
  transactionRow (.object [(text "type", .string (text "Failed")),
    (text "error", .string (text "instruction failed"))])
    [Sdk.encodeInstruction (.register (text "alice") 0)]

def pageOf (rows : List (Json WholeNumber)) : Manager.Explorer WholeNumber := fun _ =>
  .ok (some (.object [(text "transactions", .array rows)]))

theorem processedRow_readable : Readable (Sdk.toLowerCase programHex) processedRow where
  present := rfl
  instructions _ _ := by
    intro ix hix
    obtain ⟨data, -, rfl⟩ := List.mem_map.mp
      (show ix ∈ (opening.map (·.data)).map instructionRow from hix)
    rfl
  labels _ _ := by decide +kernel

theorem failedRow_readable : Readable (Sdk.toLowerCase programHex) failedRow where
  present := rfl
  instructions h := by
    have hpassed : isPassedOver failedRow = true := by decide +kernel
    cases hpassed.symm.trans h
  labels h := by
    have hpassed : isPassedOver failedRow = true := by decide +kernel
    cases hpassed.symm.trans h

end Testnet

end ArchNameService
