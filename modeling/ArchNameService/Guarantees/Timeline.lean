import ArchNameService.Manager.RegistryActivity
import ArchNameService.Refinement.Resolve

/-!
# The timeline is the newest of each name

The rows are read one after the other into maps that keep what was seen first. What comes
out is a function of the events in the rows that were reached, newest first: of each name
the newest registration, and of each listing the newest that has a time.
-/

namespace ArchNameService

namespace Manager
open JsString JsValue Recency Comparator
open Sdk (Platform Thrown text toLowerCase)

/-! ## Events -/

inductive RegistryEvent where
  | registered (registration : RegistrationEvent)
  | listed (key : JsString) (time : Option Int)

/-- What an instruction tells, or the error of a label that is no label. -/
def eventOf [Platform] (txid : JsString) (createdAt : Option JsString) (time : Option Int) :
    Sdk.NameInstruction → Except Thrown (Option RegistryEvent)
  | .register label _ | .reclaimExpired label _ => do
      let name ← Sdk.canonicalizeName (label ++ Sdk.archSuffix)
      pure (some (.registered { name, txid, createdAt, time }))
  | .listName nameHash _ _ => pure (some (.listed (bytesToHex nameHash.toList) time))
  | _ => pure none

section
variable {ν : Type} [Platform] [DateText]

/-- The events of a row, in order. -/
def rowEvents (programIdHex : JsString) (row : Json ν) : Except Thrown (List RegistryEvent) := do
  let status ← property (text "status") row
  if isFailedStatus status then pure []
  else
    match (asString (jsonMember (text "txid") row)).filter (· ≠ []) with
    | none => pure []
    | some txid => do
        let instructions ← decodeAnsInstructions row programIdHex
        let events ← instructions.mapM
          (eventOf txid (explorerCreatedAt row) (toEpochMs (explorerCreatedAt row)))
        pure (events.filterMap id)

/-- The events of the pages up to the first that is short. -/
def pageEvents (explorer : Explorer ν) (programIdHex : JsString) :
    Nat → Nat → Except Thrown (List RegistryEvent)
  | 0, _ => pure []
  | left + 1, page => do
      let rows ← fetchTransactionRows explorer page
      let events ← rows.mapM (rowEvents programIdHex)
      if rows.length < timelinePageSize then pure events.flatten
      else do
        let older ← pageEvents explorer programIdHex left (page + 1)
        pure (events.flatten ++ older)

end

/-! ## The timeline of events -/

def registration : RegistryEvent → Option RegistrationEvent
  | .registered r => some r
  | .listed _ _ => none

/-- A listing without a time does not count. -/
def listing : RegistryEvent → Option (JsString × Int)
  | .registered _ => none
  | .listed key time => time.map (key, ·)

def RegistrationEvent.dated (r : RegistrationEvent) : Option (JsString × Int) :=
  r.time.map (r.name, ·)

def sameName (a b : RegistrationEvent) : Bool := a.name == b.name

def sameKey (a b : JsString × Int) : Bool := a.1 == b.1

def timelineOf (events : List RegistryEvent) : RegistryTimeline where
  registrations := firsts sameName (events.filterMap registration)
  registeredAtByName :=
    (firsts sameName (events.filterMap registration)).filterMap RegistrationEvent.dated
  listedAtByNameHash := firsts sameKey (events.filterMap listing)

theorem sameName_equivalence : Equivalence fun a b => sameName a b = true where
  refl a := beq_self_eq_true a.name
  symm h := beq_iff_eq.mpr (beq_iff_eq.mp h).symm
  trans h h' := beq_iff_eq.mpr ((beq_iff_eq.mp h).trans (beq_iff_eq.mp h'))

theorem sameKey_equivalence : Equivalence fun a b => sameKey a b = true where
  refl a := beq_self_eq_true a.1
  symm h := beq_iff_eq.mpr (beq_iff_eq.mp h).symm
  trans h h' := beq_iff_eq.mpr ((beq_iff_eq.mp h).trans (beq_iff_eq.mp h'))

/-! ## One event -/

/-- What is left of `sightInstruction` once the name is known. -/
def sight (t : TimelineState) : RegistryEvent → TimelineState
  | .registered r =>
      if t.seenNames.contains r.name then t
      else
        { seenNames := r.name :: t.seenNames
          registrations := t.registrations ++ [r]
          registeredAtByName := setAt t.registeredAtByName r.name r.time
          listedAtByNameHash := t.listedAtByNameHash }
  | .listed key time =>
      if (t.listedAtByNameHash.map Prod.fst).contains key then t
      else { t with listedAtByNameHash := setAt t.listedAtByNameHash key time }

/-- The maps after some events, with the names that were seen. -/
structure Sighted (events : List RegistryEvent) (t : TimelineState) : Prop where
  timeline : t.toRegistryTimeline = timelineOf events
  seen : ∀ name, name ∈ t.seenNames ↔ name ∈ t.registrations.map (·.name)

theorem fresh_name {l : List RegistrationEvent} {r : RegistrationEvent} :
    fresh sameName l r = true ↔ r.name ∉ l.map (·.name) := by
  simp only [fresh, sameName, Bool.not_eq_true', List.any_eq_false, beq_iff_eq, List.mem_map,
    not_exists, not_and]

theorem fresh_key {l : List (JsString × Int)} {m : JsString × Int} :
    fresh sameKey l m = true ↔ m.1 ∉ l.map Prod.fst := by
  simp only [fresh, sameKey, Bool.not_eq_true', List.any_eq_false, beq_iff_eq, List.mem_map,
    not_exists, not_and]

theorem dated_keys {l : List RegistrationEvent} {name : JsString}
    (h : name ∈ (l.filterMap RegistrationEvent.dated).map Prod.fst) : name ∈ l.map (·.name) := by
  obtain ⟨m, hm, rfl⟩ := List.mem_map.mp h
  obtain ⟨r, hr, hdated⟩ := List.mem_filterMap.mp hm
  obtain ⟨time, -, rfl⟩ := Option.map_eq_some_iff.mp hdated
  exact List.mem_map_of_mem hr

theorem setAt_new {map : List (JsString × Int)} {key : JsString} {time : Option Int}
    (h : key ∉ map.map Prod.fst) : setAt map key time = map ++ (time.map (key, ·)).toList := by
  cases time with
  | none => exact (List.append_nil map).symm
  | some time => exact setMember_new h

/-- An event is put behind those before it. -/
theorem timelineOf_snoc (events : List RegistryEvent) (e : RegistryEvent) :
    timelineOf (events ++ [e]) =
      { registrations := firsts sameName (events.filterMap registration ++ (registration e).toList)
        registeredAtByName := (firsts sameName (events.filterMap registration ++
          (registration e).toList)).filterMap RegistrationEvent.dated
        listedAtByNameHash := firsts sameKey (events.filterMap listing ++ (listing e).toList) } := by
  have hr : [e].filterMap registration = (registration e).toList := by cases e <;> rfl
  have hl : [e].filterMap listing = (listing e).toList := by
    rw [List.filterMap_cons]
    cases listing e <;> rfl
  rw [timelineOf, List.filterMap_append, List.filterMap_append, hr, hl]

section
variable {events : List RegistryEvent} {t : TimelineState}

theorem Sighted.registered (h : Sighted events t) (r : RegistrationEvent) :
    Sighted (events ++ [.registered r]) (sight t (.registered r)) := by
  have hregistrations : t.registrations = firsts sameName (events.filterMap registration) :=
    congrArg RegistryTimeline.registrations h.timeline
  have hsnoc := firsts_snoc sameName_equivalence (events.filterMap registration) r
  have hlistings : events.filterMap listing ++ (listing (.registered r)).toList =
      events.filterMap listing := List.append_nil _
  rw [sight]
  split
  next hseen =>
    have hfresh : ¬ fresh sameName (firsts sameName (events.filterMap registration)) r = true := by
      rw [fresh_name, not_not, ← hregistrations, ← h.seen]
      exact List.contains_iff_mem.mp hseen
    rw [if_neg hfresh] at hsnoc
    refine ⟨?_, h.seen⟩
    rw [timelineOf_snoc, hlistings]
    change _ = RegistryTimeline.mk (firsts sameName (events.filterMap registration ++ [r]))
      ((firsts sameName (events.filterMap registration ++ [r])).filterMap _) _
    rw [hsnoc]
    exact h.timeline
  next hseen =>
    have hnew : r.name ∉ t.registrations.map (·.name) := fun hmem =>
      hseen (List.contains_iff_mem.mpr ((h.seen _).mpr hmem))
    have hfresh : fresh sameName (firsts sameName (events.filterMap registration)) r = true := by
      rw [fresh_name, ← hregistrations]
      exact hnew
    rw [if_pos hfresh, ← hregistrations] at hsnoc
    refine ⟨?_, fun name => ?_⟩
    · rw [timelineOf_snoc, hlistings]
      change _ = RegistryTimeline.mk (firsts sameName (events.filterMap registration ++ [r]))
        ((firsts sameName (events.filterMap registration ++ [r])).filterMap _) _
      have hdated : t.registeredAtByName = t.registrations.filterMap RegistrationEvent.dated := by
        rw [hregistrations]
        exact congrArg RegistryTimeline.registeredAtByName h.timeline
      have hlisted : t.listedAtByNameHash = firsts sameKey (events.filterMap listing) :=
        congrArg RegistryTimeline.listedAtByNameHash h.timeline
      have hkey : r.name ∉ t.registeredAtByName.map Prod.fst := fun hmem =>
        hnew (dated_keys (hdated ▸ hmem))
      rw [hsnoc, List.filterMap_append, ← hdated, ← hlisted, setAt_new hkey]
      refine congrArg (RegistryTimeline.mk _ · _) (congrArg (t.registeredAtByName ++ ·) ?_)
      rw [List.filterMap_cons, RegistrationEvent.dated]
      cases r.time <;> rfl
    · simp only [List.mem_cons, List.map_append, List.mem_append, List.map_cons, List.map_nil,
        List.not_mem_nil, or_false, h.seen]
      exact Or.comm

theorem Sighted.listed (h : Sighted events t) (key : JsString) (time : Option Int) :
    Sighted (events ++ [.listed key time]) (sight t (.listed key time)) := by
  have hlisted : t.listedAtByNameHash = firsts sameKey (events.filterMap listing) :=
    congrArg RegistryTimeline.listedAtByNameHash h.timeline
  have hregistrations : events.filterMap registration ++ (registration (.listed key time)).toList =
      events.filterMap registration := List.append_nil _
  have hold : RegistryTimeline.mk t.registrations t.registeredAtByName
      (firsts sameKey (events.filterMap listing)) = timelineOf events :=
    hlisted ▸ h.timeline
  have hlistedAt : (sight t (.listed key time)).listedAtByNameHash =
      firsts sameKey (events.filterMap listing ++ (listing (.listed key time)).toList) := by
    rw [sight]
    cases time with
    | none =>
        have hnone : (listing (.listed key none)).toList = [] := rfl
        rw [hnone, List.append_nil, ← hlisted]
        split <;> rfl
    | some time =>
        have hsnoc := firsts_snoc sameKey_equivalence (events.filterMap listing) (key, time)
        have hsome : (listing (.listed key (some time))).toList = [(key, time)] := rfl
        rw [hsome, hsnoc, ← hlisted]
        cases hfresh : fresh sameKey t.listedAtByNameHash (key, time) with
        | true =>
            have hkey := fresh_key.mp hfresh
            rw [if_neg (fun hmem => hkey (List.contains_iff_mem.mp hmem)), if_pos rfl]
            exact setMember_new hkey
        | false =>
            have hkey : key ∈ t.listedAtByNameHash.map Prod.fst := by
              by_contra hkey
              exact absurd (fresh_key.mpr hkey) (by rw [hfresh]; decide)
            rw [if_pos (List.contains_iff_mem.mpr hkey), if_neg (by decide)]
  have hsame : (sight t (.listed key time)).registrations = t.registrations ∧
      (sight t (.listed key time)).registeredAtByName = t.registeredAtByName ∧
      (sight t (.listed key time)).seenNames = t.seenNames := by
    rw [sight]
    split <;> exact ⟨rfl, rfl, rfl⟩
  obtain ⟨hregs, hdates, hnames⟩ := hsame
  refine ⟨?_, fun name => by rw [hregs, hnames]; exact h.seen name⟩
  rw [timelineOf_snoc, hregistrations, ← hlistedAt]
  have hregs' := hregs.trans (congrArg RegistryTimeline.registrations h.timeline)
  have hdates' := hdates.trans (congrArg RegistryTimeline.registeredAtByName h.timeline)
  exact congr (congrArg₂ RegistryTimeline.mk hregs' hdates') rfl

theorem Sighted.sight (h : Sighted events t) (e : RegistryEvent) :
    Sighted (events ++ [e]) (sight t e) := by
  cases e with
  | registered r => exact h.registered r
  | listed key time => exact h.listed key time

theorem Sighted.foldl (h : Sighted events t) (later : List RegistryEvent) :
    Sighted (events ++ later) (later.foldl Manager.sight t) := by
  induction later generalizing events t with
  | nil => exact (List.append_nil events).symm ▸ h
  | cons e later ih =>
      have hnext := ih (h.sight e)
      rwa [List.append_assoc] at hnext

end

/-! ## Reading and folding -/

/-- What is read and then folded, element by element, is read whole and then folded. -/
theorem foldlM_read {ε α β σ : Type} {step : σ → α → Except ε σ} {read : α → Except ε (List β)}
    {fold : σ → β → σ} (hstep : ∀ s x, step s x = (read x).map (·.foldl fold s)) (l : List α)
    (s : σ) : l.foldlM step s = (l.mapM read).map (·.flatten.foldl fold s) := by
  induction l generalizing s with
  | nil => rfl
  | cons x l ih =>
      rw [List.foldlM_cons, List.mapM_cons, hstep]
      cases read x with
      | error e => rfl
      | ok ys =>
          change l.foldlM step (ys.foldl fold s) = Except.map _ (l.mapM read >>= _)
          rw [ih]
          cases l.mapM read with
          | error e => rfl
          | ok rest =>
              change Except.ok _ = Except.ok ((ys :: rest).flatten.foldl fold s)
              rw [List.flatten_cons, List.foldl_append]

/-- Dropping what says nothing does not change the fold. -/
theorem flatten_toList {α : Type} (l : List (Option α)) :
    (l.map Option.toList).flatten = l.filterMap id := by
  induction l with
  | nil => rfl
  | cons o l ih =>
      cases o with
      | none => exact ih
      | some x => exact congrArg (x :: ·) ih

theorem mapM_toList {α β ε : Type} (f : α → Except ε (Option β)) (l : List α) :
    (l.mapM fun x => (f x).map Option.toList) = (l.mapM f).map (·.map Option.toList) := by
  induction l with
  | nil => rfl
  | cons x l ih =>
      rw [List.mapM_cons, List.mapM_cons, ih]
      cases f x with
      | error e => rfl
      | ok o => cases l.mapM f <;> rfl

section
variable {ν : Type} [Platform] [DateText] {programIdHex : JsString}

omit [DateText] in
theorem sightInstruction_eq (txid : JsString) (createdAt : Option JsString) (time : Option Int)
    (t : TimelineState) (ix : Sdk.NameInstruction) :
    sightInstruction txid createdAt time t ix =
      ((eventOf txid createdAt time ix).map Option.toList).map (·.foldl sight t) := by
  cases ix with
  | register label duration =>
      rw [sightInstruction, eventOf]
      cases Sdk.canonicalizeName (label ++ Sdk.archSuffix) with
      | error e => rfl
      | ok name => exact (apply_ite Except.ok _ _ _).symm
  | reclaimExpired label duration =>
      rw [sightInstruction, eventOf]
      cases Sdk.canonicalizeName (label ++ Sdk.archSuffix) with
      | error e => rfl
      | ok name => exact (apply_ite Except.ok _ _ _).symm
  | listName nameHash currency price => exact (apply_ite Except.ok _ _ _).symm
  | _ => rfl

theorem sightRow_eq (t : TimelineState) (row : Json ν) :
    sightRow programIdHex t row = (rowEvents programIdHex row).map (·.foldl sight t) := by
  rw [sightRow, rowEvents]
  cases property (text "status") row with
  | error e => rfl
  | ok status =>
      change (if _ then _ else _) = Except.map _ (if _ then _ else _)
      split
      · rfl
      · cases (asString (jsonMember (text "txid") row)).filter (· ≠ []) with
        | none => rfl
        | some txid =>
            change (decodeAnsInstructions row programIdHex >>= _) =
              Except.map _ (decodeAnsInstructions row programIdHex >>= _)
            cases decodeAnsInstructions row programIdHex with
            | error e => rfl
            | ok instructions =>
                refine (foldlM_read (sightInstruction_eq txid _ _) instructions t).trans ?_
                rw [mapM_toList]
                change _ = Except.map _ (instructions.mapM (eventOf txid _ _) >>= _)
                cases instructions.mapM (eventOf txid _ _) with
                | error e => rfl
                | ok events =>
                    exact congrArg (fun es => Except.ok (es.foldl sight t)) (flatten_toList events)

theorem sightPages_eq (explorer : Explorer ν) (left page : Nat) (t : TimelineState) :
    sightPages explorer programIdHex left page t =
      (pageEvents explorer programIdHex left page).map (·.foldl sight t) := by
  induction left generalizing page t with
  | zero => rfl
  | succ left ih =>
      rw [sightPages, pageEvents]
      cases fetchTransactionRows explorer page with
      | error e => rfl
      | ok rows =>
          change (rows.foldlM (sightRow programIdHex) t >>= _) =
            Except.map _ (rows.mapM (rowEvents programIdHex) >>= _)
          rw [foldlM_read sightRow_eq]
          cases rows.mapM (rowEvents programIdHex) with
          | error e => rfl
          | ok events =>
              change (if _ then _ else _) = Except.map _ (if _ then _ else _)
              split
              · rfl
              · rw [ih]
                cases pageEvents explorer programIdHex left (page + 1) with
                | error e => rfl
                | ok older =>
                    change Except.ok _ = Except.ok ((events.flatten ++ older).foldl sight t)
                    rw [List.foldl_append]

end

/-! ## What the timeline tells -/

/-- The newest of each name, with its time where it has one. -/
structure Newest (events : List RegistryEvent) (t : RegistryTimeline) : Prop where
  once : (t.registrations.map (·.name)).Nodup
  newest : ∀ name, t.registrations.find? (·.name == name) =
    (events.filterMap registration).find? (·.name == name)
  registeredAt : ∀ name, t.registeredAtByName.lookup name =
    ((events.filterMap registration).find? (·.name == name)).bind (·.time)
  listedAt : ∀ key, t.listedAtByNameHash.lookup key =
    ((events.filterMap listing).find? (·.1 == key)).map (·.2)

theorem lookup_eq_find? (l : List (JsString × Int)) (key : JsString) :
    l.lookup key = (l.find? (·.1 == key)).map (·.2) := by
  induction l with
  | nil => rfl
  | cons m l ih =>
      obtain ⟨k, time⟩ := m
      rw [List.lookup_cons, List.find?_cons, BEq.comm (a := key)]
      cases k == key with
      | true => rfl
      | false => exact ih

/-- Where no name is there twice, the times are looked up as the registrations are. -/
theorem lookup_dated {l : List RegistrationEvent} (h : (l.map (·.name)).Nodup) (name : JsString) :
    (l.filterMap RegistrationEvent.dated).lookup name =
      (l.find? (·.name == name)).bind (·.time) := by
  induction l with
  | nil => rfl
  | cons r l ih =>
      obtain ⟨hr, hl⟩ := List.nodup_cons.mp h
      rw [List.filterMap_cons, List.find?_cons, RegistrationEvent.dated]
      cases hname : r.name == name with
      | false =>
          rw [← ih hl]
          cases r.time with
          | none => rfl
          | some time =>
              change List.lookup name ((r.name, time) :: _) = _
              rw [List.lookup_cons, BEq.comm, hname]
      | true =>
          have heq := beq_iff_eq.mp hname
          subst heq
          cases htime : r.time with
          | none =>
              refine (Eq.trans ?_ (show none = (some r).bind (·.time) from htime.symm))
              refine List.lookup_eq_none_iff.mpr fun m hm => bne_iff_ne.mpr fun heq => hr ?_
              have hmem : m.1 ∈ (l.filterMap RegistrationEvent.dated).map Prod.fst :=
                List.mem_map_of_mem hm
              have hname := dated_keys hmem
              rwa [← heq] at hname
          | some time =>
              change List.lookup r.name ((r.name, time) :: _) = _
              rw [List.lookup_cons, hname]
              exact htime.symm

theorem newest_timelineOf (events : List RegistryEvent) : Newest events (timelineOf events) := by
  have honce : ((timelineOf events).registrations.map (·.name)).Nodup := by
    refine List.pairwise_map.mpr ((firsts_pairwise _).imp fun {a b} h => ?_)
    exact bne_iff_ne.mp (by rw [bne, ← show sameName a b = (a.name == b.name) from rfl, h]; rfl)
  have hnewest : ∀ name, (timelineOf events).registrations.find? (·.name == name) =
      (events.filterMap registration).find? (·.name == name) := fun name =>
    find?_firsts (fun a b hab => by rw [beq_iff_eq.mp hab]) _
  exact
    { once := honce
      newest := hnewest
      registeredAt := fun name => (lookup_dated honce name).trans (by rw [hnewest])
      listedAt := fun key => by
        rw [lookup_eq_find?]
        refine congrArg (Option.map _) ?_
        exact find?_firsts (fun a b hab => by rw [beq_iff_eq.mp hab]) _ }

theorem fetchRegistryTimeline_eq {ν : Type} [Platform] [DateText] (explorer : Explorer ν)
    (programIdHex : JsString) (pages : Option (Option ℚ)) :
    fetchRegistryTimeline explorer programIdHex pages =
      (pageEvents explorer (toLowerCase programIdHex) (pageCount pages) 1).map timelineOf := by
  rw [fetchRegistryTimeline, sightPages_eq]
  cases pageEvents explorer (toLowerCase programIdHex) (pageCount pages) 1 with
  | error e => rfl
  | ok events =>
      have hstart : Sighted [] { seenNames := [], registrations := [], registeredAtByName := [],
                                 listedAtByNameHash := [] } := ⟨rfl, fun _ => Iff.rfl⟩
      exact congrArg Except.ok (hstart.foldl events).timeline

/-- The timeline is that of the events, or the first error in reading them. -/
theorem timeline_exact {ν : Type} [Platform] [DateText] (explorer : Explorer ν)
    (programIdHex : JsString) (pages : Option (Option ℚ)) :
    fetchRegistryTimeline explorer programIdHex pages =
      (pageEvents explorer (toLowerCase programIdHex) (pageCount pages) 1).map timelineOf ∧
    ∀ events, Newest events (timelineOf events) :=
  ⟨fetchRegistryTimeline_eq explorer programIdHex pages, newest_timelineOf⟩

/-! ## Names in the order of their registration -/

theorem units_consistent : (byOrder : Comparator JsString).Consistent :=
  byOrder_consistent fun _ _ _ hxy hyz =>
    List.not_lt.mpr (List.le_trans (List.not_lt.mp hxy) (List.not_lt.mp hyz))

section
variable [Locale] {registeredAt : JsString → Option Int}

/-- The comparator made of others: the dates come first, and then, in either kind, the names. -/
theorem compareRegistration_eq (registeredAt : JsString → Option Int) :
    compareRegistration registeredAt =
      (numbers.reversed.missingLast.onKey registeredAt).thenBy
        ((Locale.localeCompare.onKey fun name =>
            if (registeredAt name).isSome then name else []).thenBy
          (byOrder.reversed.onKey fun name => if (registeredAt name).isSome then [] else name)) := by
  funext a b
  rw [compareRegistration]
  cases ha : registeredAt a with
  | none =>
      cases hb : registeredAt b with
      | none =>
          have hdates : numbers.reversed.missingLast.onKey registeredAt a b = 0 := by
            rw [onKey, ha, hb]
            rfl
          have hlocale : Locale.localeCompare.onKey
              (fun name => if (registeredAt name).isSome then name else []) a b = 0 := by
            simp only [onKey, ha, hb, Option.isSome_none, Bool.false_eq_true, if_false]
            exact Locale.consistent.self []
          rw [thenBy_of_zero hdates, thenBy_of_zero hlocale]
          simp only [onKey, reversed, byOrder, ha, hb, Option.isSome_none, Bool.false_eq_true,
            if_false]
          by_cases hlt : b < a
          · have hasymm : ¬ a < b := List.lt_asymm hlt
            rw [if_pos hlt, if_neg hasymm, if_pos hlt]
          · rw [if_neg hlt, if_neg hlt]
            split <;> rfl
      | some bAt =>
          have hdates : numbers.reversed.missingLast.onKey registeredAt a b = 1 := by
            rw [onKey, ha, hb]
            rfl
          rw [thenBy_of_ne (by rw [hdates]; decide), hdates]
  | some aAt =>
      cases hb : registeredAt b with
      | none =>
          have hdates : numbers.reversed.missingLast.onKey registeredAt a b = -1 := by
            rw [onKey, ha, hb]
            rfl
          rw [thenBy_of_ne (by rw [hdates]; decide), hdates]
      | some bAt =>
          have hdates : numbers.reversed.missingLast.onKey registeredAt a b = bAt - aAt := by
            rw [onKey, ha, hb]
            exact Int.neg_sub aAt bAt
          change (if bAt ≠ aAt then _ else _) = _
          split
          next hne => rw [thenBy_of_ne (by rw [hdates]; omega), hdates]
          next heq =>
            have hunits : byOrder.reversed.onKey
                (fun name => if (registeredAt name).isSome then [] else name) a b = 0 := by
              simp only [onKey, ha, hb, Option.isSome_some, if_true]
              rfl
            rw [thenBy_of_zero (by rw [hdates]; omega), thenBy, hunits, onKey, ha, hb]
            simp only [Option.isSome_some, if_true]
            split
            · rfl
            · omega

theorem compareRegistration_consistent (registeredAt : JsString → Option Int) :
    (compareRegistration registeredAt).Consistent := by
  rw [compareRegistration_eq]
  exact (numbers_consistent.reversed.missingLast.onKey _).thenBy
    ((Locale.consistent.onKey _).thenBy (units_consistent.reversed.onKey _))

/-- Names with a date come first, the newest of them first; the others come last, in reverse
order. -/
def Precedes (registeredAt : JsString → Option Int) (a b : JsString) : Prop :=
  (registeredAt a = none → registeredAt b = none ∧ ¬ a < b) ∧
    ∀ aAt bAt, registeredAt a = some aAt → registeredAt b = some bAt →
      bAt ≤ aAt ∧ (aAt = bAt → Locale.localeCompare a b ≤ 0)

theorem precedes_iff_compare {a b : JsString} :
    Precedes registeredAt a b ↔ compareRegistration registeredAt a b ≤ 0 := by
  rw [Precedes, compareRegistration]
  cases registeredAt a with
  | none =>
      cases registeredAt b with
      | some bAt => simp
      | none =>
          simp only [reduceCtorEq, true_and, false_implies, implies_true, and_true, forall_const]
          by_cases hlt : b < a
          · have hasymm : ¬ a < b := List.lt_asymm hlt
            simp [hlt, hasymm]
          · by_cases hgt : a < b <;> simp [hlt, hgt]
  | some aAt =>
      cases registeredAt b with
      | none => simp
      | some bAt =>
          simp only [reduceCtorEq, false_implies, true_and, Option.some.injEq]
          constructor
          · intro h
            obtain ⟨hle, hlocale⟩ := h aAt bAt rfl rfl
            split
            · omega
            · exact hlocale (by omega)
          · rintro h _ _ rfl rfl
            split at h
            · exact ⟨by omega, fun heq => by omega⟩
            · exact ⟨by omega, fun _ => h⟩

/-- There is one list of all the names in that order, in which names that stood in it before
still do; for every limit what is shown are its first names. -/
theorem registrations_ordered {α : Type} (name : α → JsString) (onChain : List α)
    (registeredAtByName : List (JsString × Int)) :
    ∃ sorted : List α, sorted.Perm onChain ∧
      sorted.Pairwise (fun x y =>
        Precedes (fun key => registeredAtByName.lookup key) (name x) (name y)) ∧
      (∀ kept : List α, kept.Sublist onChain →
        kept.Pairwise (fun x y =>
          Precedes (fun key => registeredAtByName.lookup key) (name x) (name y)) →
        kept.Sublist sorted) ∧
      (∀ limit : ℚ, orderNamesByRegistration name onChain registeredAtByName (some limit) =
        sorted.take (max 0 ⌊limit⌋).toNat) ∧
      orderNamesByRegistration name onChain registeredAtByName none = [] := by
  have hconsistent :=
    (compareRegistration_consistent fun key => registeredAtByName.lookup key).onKey name
  refine ⟨_, sort_perm _ onChain, ?_, fun kept hkept hpair => ?_, fun limit => rfl, rfl⟩
  · exact (sort_pairwise hconsistent onChain).imp fun h => precedes_iff_compare.mpr h
  · exact sort_stable hconsistent hkept (hpair.imp fun h => precedes_iff_compare.mp h)

end

end Manager
end ArchNameService
