import ArchNameService.Guarantees.Identities
import ArchNameService.Manager.SignerRegistry

/-!
# What a browser remembers of signers

The list of accounts is kept as JSON text and cut off at eight. After any calls, with
whatever writes the browser refuses, it is the latest spelling of the last eight accounts
that were stored, and the observation is the last one that was stored.
-/

namespace ArchNameService

namespace Manager
open JsString Recency
open Sdk (text)

section
variable {ν : Type} [JsNumber ν] (env : Environment)

/-! ## What the calls are about -/

/-- The address that a call puts in front of the list. -/
def RegistryCall.stored : RegistryCall ν → Option JsString
  | .seen address taken => if taken then address.filter (isKnownAccount env) else none
  | .observed _ signer _ takenSeen _ =>
      if takenSeen then (some signer).filter (isKnownAccount env) else none
  | .forgotten _ => none

/-- The addresses that were stored, newest first. -/
def remembered (calls : List (RegistryCall ν)) : List JsString :=
  calls.filterMap (RegistryCall.stored env)

/-- The time of a call as it is read back. -/
def timeRead (now : ν) : ν :=
  if JsonNumber.isFinite now then JsonNumber.ofText (JsonNumber.toText now) else JsNumber.ofNat 0

/-- The observation that was stored last and not forgotten. -/
def lastObservation : List (RegistryCall ν) → Option (StoredObservation ν)
  | [] => none
  | .seen _ _ :: earlier => lastObservation earlier
  | .observed reportedArchAddress signerArchAddress now _ taken :: earlier =>
      if taken then some { reportedArchAddress, signerArchAddress, observedAt := timeRead now }
      else lastObservation earlier
  | .forgotten taken :: earlier => if taken then none else lastObservation earlier

/-! ## Storage -/

variable {storage : Storage} {key value : JsString}

theorem writeStorage_other {taken : Bool} {k : JsString} (h : k ≠ key) :
    writeStorage taken key value storage k = storage k := by
  unfold writeStorage
  split
  · exact if_neg h
  · rfl

theorem clearStorage_other {taken : Bool} {k : JsString} (h : k ≠ key) :
    clearStorage taken key storage k = storage k := by
  unfold clearStorage
  split
  · exact if_neg h
  · rfl

theorem writeStorage_same : writeStorage true key value storage key = some value := by
  rw [writeStorage, if_pos rfl, if_pos rfl]

theorem seenKey_ne : seenKey ≠ observationKey := by decide +kernel

theorem seenAccounts_congr {storage' : Storage} (h : storage seenKey = storage' seenKey) :
    seenAccounts ν storage = seenAccounts ν storage' := by
  rw [seenAccounts, seenAccounts, h]

theorem signerObservation_congr {storage' : Storage}
    (h : storage observationKey = storage' observationKey) :
    (signerObservation storage : Option (StoredObservation ν)) = signerObservation storage' := by
  rw [signerObservation, signerObservation, h]

/-! ## The list of accounts -/

theorem rereadItems_strings (l : List JsString) :
    Json.rereadItems (l.map (Json.string (ν := ν))) = l.map Json.string := by
  induction l with
  | nil => rfl
  | cons s l ih => exact congrArg _ ih

omit [JsNumber ν] in
theorem filterMap_strings {l : List JsString} (h : ∀ s ∈ l, s ≠ []) :
    (l.map (Json.string (ν := ν))).filterMap nonEmptyString = l := by
  induction l with
  | nil => rfl
  | cons s l ih =>
      obtain ⟨hs, hl⟩ := List.forall_mem_cons.mp h
      rw [List.map_cons, List.filterMap_cons, nonEmptyString, if_neg hs, ih hl]

/-- A list of accounts is read as it was written. -/
theorem seenAccounts_written {l : List JsString} (h : ∀ s ∈ l, s ≠ []) :
    seenAccounts ν (writeStorage true seenKey (Json.write (.array (l.map (Json.string (ν := ν)))))
      storage) = l := by
  have hraw : Json.write (.array (l.map (Json.string (ν := ν)))) ≠ [] := by
    cases l <;> exact List.cons_ne_nil _ _
  have hread : writeStorage true seenKey (Json.write (.array (l.map (Json.string (ν := ν)))))
      storage seenKey = some (Json.write (.array (l.map (Json.string (ν := ν))))) :=
    writeStorage_same
  rw [seenAccounts, hread]
  simp only [if_neg hraw, Json.parse_write, Json.reread, rereadItems_strings, filterMap_strings h]

theorem seenAccounts_ne_nil : ∀ s ∈ seenAccounts ν storage, s ≠ [] := by
  intro s hs
  unfold seenAccounts at hs
  split at hs
  · cases hs
  · split at hs
    · cases hs
    · split at hs
      · obtain ⟨item, -, hitem⟩ := List.mem_filterMap.mp hs
        cases item with
        | string t =>
            rw [nonEmptyString] at hitem
            split at hitem
            · cases hitem
            · cases hitem
              assumption
        | _ => cases hitem
      · cases hs

/-- What a call does to the list, given the address that it stores. -/
def listAfter (stored : Option JsString) (seen : List JsString) : List JsString :=
  stored.elim seen fun a => touch (archIdentitiesEqual env) maxSeen a seen

theorem seenAccounts_remember (taken : Bool) (address : Option JsString) :
    seenAccounts ν (rememberSeenAccount ν env taken address storage) =
      listAfter env (if taken then address.filter (isKnownAccount env) else none)
        (seenAccounts ν storage) := by
  cases address with
  | none => cases taken <;> rfl
  | some a =>
      rw [rememberSeenAccount]
      cases hknown : isKnownAccount env a with
      | false =>
          rw [Option.filter_some, hknown]
          cases taken <;> rfl
      | true =>
          cases taken with
          | false => rfl
          | true =>
              have hfilter : (some a).filter (isKnownAccount env) = some a := by
                rw [Option.filter_some, if_pos hknown]
              rw [if_pos rfl, if_pos rfl, hfilter]
              apply seenAccounts_written
              intro s hs
              rcases List.mem_cons.mp (List.mem_of_mem_take hs) with rfl | hs
              · exact bne_iff_ne.mp (Bool.and_eq_true_iff.mp hknown).1
              · exact seenAccounts_ne_nil s (List.mem_filter.mp hs).1

theorem RegistryCall.seenAccounts_run (call : RegistryCall ν) :
    seenAccounts ν (call.run env storage) =
      listAfter env (call.stored env) (seenAccounts ν storage) := by
  cases call with
  | seen address taken => exact seenAccounts_remember env taken address
  | observed reported signer now takenSeen taken =>
      refine (seenAccounts_congr ?_).trans (seenAccounts_remember env takenSeen (some signer))
      exact writeStorage_other seenKey_ne
  | forgotten taken => exact seenAccounts_congr (clearStorage_other seenKey_ne)

theorem seenAccounts_after (calls : List (RegistryCall ν)) :
    seenAccounts ν (storageAfter env calls) =
      (firsts (archIdentitiesEqual env) (remembered env calls)).take maxSeen := by
  induction calls with
  | nil => rfl
  | cons call earlier ih =>
      rw [storageAfter, call.seenAccounts_run, ih]
      unfold remembered
      rw [List.filterMap_cons]
      cases call.stored env with
      | none => rfl
      | some a => exact touch_firsts archIdentitiesEqual_equivalence maxSeen a _

/-! ## The observation -/

theorem signerObservation_written {reported signer : JsString} {now : ν} :
    signerObservation (writeStorage true observationKey (Json.write
      (.object [(text "reportedArchAddress", .string reported),
        (text "signerArchAddress", .string signer), (text "at", .number now)])) storage) =
      some { reportedArchAddress := reported, signerArchAddress := signer,
             observedAt := timeRead now } := by
  have hsignerAt : (text "signerArchAddress" == text "at") = false := by decide +kernel
  have hreportedAt : (text "reportedArchAddress" == text "at") = false := by decide +kernel
  have hreportedSigner : (text "reportedArchAddress" == text "signerArchAddress") = false := by
    decide +kernel
  have hmembers : ∀ at' : Json ν, jsonMember (text "reportedArchAddress")
      (.object [(text "reportedArchAddress", .string reported),
        (text "signerArchAddress", .string signer), (text "at", at')]) = some (.string reported) ∧
      jsonMember (text "signerArchAddress")
        (.object [(text "reportedArchAddress", .string reported),
          (text "signerArchAddress", .string signer), (text "at", at')]) = some (.string signer) ∧
      jsonMember (text "at")
        (.object [(text "reportedArchAddress", .string reported),
          (text "signerArchAddress", .string signer), (text "at", at')]) = some at' := by
    intro at'
    simp only [jsonMember, List.reverse_cons, List.reverse_nil, List.nil_append, List.cons_append,
      List.lookup_cons, hsignerAt, hreportedAt, hreportedSigner, beq_self_eq_true]
    exact ⟨trivial, trivial, trivial⟩
  have hraw : ∀ members : List (JsString × Json ν), Json.write (.object members) ≠ [] := by
    intro members
    cases members <;> exact List.cons_ne_nil _ _
  rw [signerObservation, writeStorage_same]
  simp only [if_neg (hraw _), Json.parse_write, Json.reread, Json.rereadMembers,
    Option.bind_eq_bind, Option.bind_some, (hmembers _).1, (hmembers _).2.1, (hmembers _).2.2]
  unfold timeRead
  cases JsonNumber.isFinite now <;> rfl

theorem RegistryCall.signerObservation_run (call : RegistryCall ν) (earlier : List (RegistryCall ν))
    (h : signerObservation storage = lastObservation earlier) :
    signerObservation (call.run env storage) = lastObservation (call :: earlier) := by
  have hseen : ∀ taken address, signerObservation (rememberSeenAccount ν env taken address storage) =
      lastObservation earlier := by
    intro taken address
    refine (signerObservation_congr ?_).trans h
    unfold rememberSeenAccount
    split
    · rfl
    · split
      · exact writeStorage_other seenKey_ne.symm
      · rfl
  cases call with
  | seen address taken => exact hseen taken address
  | observed reported signer now takenSeen taken =>
      cases taken with
      | false => exact hseen takenSeen (some signer)
      | true => exact signerObservation_written
  | forgotten taken =>
      cases taken with
      | false => exact h
      | true => rfl

theorem signerObservation_after (calls : List (RegistryCall ν)) :
    signerObservation (storageAfter env calls) = lastObservation calls := by
  induction calls with
  | nil => rfl
  | cons call earlier ih => exact call.signerObservation_run env earlier ih

omit [JsNumber ν] in
theorem remembered_known (calls : List (RegistryCall ν)) :
    ∀ a ∈ remembered env calls, isKnownAccount env a = true := by
  intro a ha
  obtain ⟨call, -, hstored⟩ := List.mem_filterMap.mp ha
  have hfilter : ∀ {o : Option JsString} {taken : Bool},
      (if taken then o.filter (isKnownAccount env) else none) = some a →
      isKnownAccount env a = true := by
    intro o taken h
    split at h
    · exact (Option.filter_eq_some_iff.mp h).2
    · cases h
  cases call with
  | seen address taken => exact hfilter hstored
  | observed reported signer now takenSeen taken => exact hfilter hstored
  | forgotten taken => cases hstored

/-- The last eight accounts that were remembered. -/
def lastRemembered (calls : List (RegistryCall ν)) : List JsString :=
  (firsts (archIdentitiesEqual env) (remembered env calls)).take maxSeen

omit [JsNumber ν] in
theorem lastRemembered_pairwise (calls : List (RegistryCall ν)) :
    (lastRemembered env calls).Pairwise fun a b => archIdentitiesEqual env a b = false :=
  (firsts_pairwise _).sublist (List.take_sublist ..)

omit [JsNumber ν] in
theorem lastRemembered_known (calls : List (RegistryCall ν)) :
    ∀ a ∈ lastRemembered env calls, isKnownAccount env a = true := by
  intro a ha
  exact remembered_known env calls a ((firsts_sublist _).subset (List.mem_of_mem_take ha))

/-- After any calls, whatever writes the browser refused: the list holds the latest spelling
of the last eight accounts that were stored, no account twice, and the observation is the last
one that was stored. -/
theorem registry_remembers (calls : List (RegistryCall ν)) :
    seenAccounts ν (storageAfter env calls) =
        (firsts (archIdentitiesEqual env) (remembered env calls)).take maxSeen ∧
      ((seenAccounts ν (storageAfter env calls)).Pairwise fun a b =>
        archIdentitiesEqual env a b = false) ∧
      (∀ a ∈ seenAccounts ν (storageAfter env calls), isKnownAccount env a = true) ∧
      signerObservation (storageAfter env calls) = lastObservation calls := by
  rw [seenAccounts_after]
  exact ⟨rfl, lastRemembered_pairwise env calls, lastRemembered_known env calls,
    signerObservation_after env calls⟩

/-! ## The candidates -/

/-- What is tried, in the order in which it is tried. -/
def orderedCandidates (storage : Storage) (extra : List (Option JsString)) : List JsString :=
  extra.filterMap id ++
    ((signerObservation (ν := ν) storage).map (·.signerArchAddress)).toList ++ seenAccounts ν storage

def isWanted (exclude candidate : JsString) : Bool :=
  isKnownAccount env candidate && !archIdentitiesEqual env candidate exclude

omit [JsNumber ν] in
theorem foldl_option {α β : Type} {g : β → Option α → β} {f : β → α → β} (hnone : ∀ b, g b none = b)
    (hsome : ∀ b a, g b (some a) = f b a) (l : List (Option α)) (b : β) :
    l.foldl g b = (l.filterMap id).foldl f b := by
  induction l generalizing b with
  | nil => rfl
  | cons a l ih =>
      rw [List.foldl_cons, ih]
      cases a with
      | none => rw [hnone]; rfl
      | some a => rw [hsome]; rfl

theorem storedCandidates_eq (exclude : JsString) (extra : List (Option JsString)) :
    storedCandidates (ν := ν) env storage exclude extra =
      firsts (archIdentitiesEqual env)
        ((orderedCandidates (ν := ν) storage extra).filter (isWanted env exclude)) := by
  have hordered : (extra ++ ((signerObservation (ν := ν) storage).map (·.signerArchAddress)) ::
      (seenAccounts ν storage).map some).filterMap id = orderedCandidates (ν := ν) storage extra := by
    rw [orderedCandidates, List.filterMap_append, List.filterMap_cons, List.append_assoc]
    have hseen : ((seenAccounts ν storage).map some).filterMap id = seenAccounts ν storage := by
      rw [List.filterMap_map]
      exact List.filterMap_some
    rw [hseen]
    cases (signerObservation (ν := ν) storage).map (·.signerArchAddress) <;> rfl
  rw [← collect_eq archIdentitiesEqual_equivalence, ← hordered]
  exact foldl_option (fun _ => rfl) (fun _ _ => rfl) _ _

theorem storedCandidates_pairwise (storage : Storage) (exclude : JsString)
    (extra : List (Option JsString)) :
    (storedCandidates (ν := ν) env storage exclude extra).Pairwise fun a b =>
      archIdentitiesEqual env a b = false := by
  rw [storedCandidates_eq]
  exact firsts_pairwise _

theorem mem_orderedCandidates (storage : Storage) (exclude : JsString)
    (extra : List (Option JsString)) :
    ∀ a ∈ storedCandidates (ν := ν) env storage exclude extra,
      a ∈ orderedCandidates (ν := ν) storage extra ∧ isWanted env exclude a = true := by
  intro a ha
  rw [storedCandidates_eq] at ha
  exact List.mem_filter.mp ((firsts_sublist _).subset ha)

theorem exists_storedCandidates (storage : Storage) (exclude : JsString)
    (extra : List (Option JsString)) :
    ∀ a ∈ orderedCandidates (ν := ν) storage extra, isWanted env exclude a = true →
      ∃ b ∈ storedCandidates (ν := ν) env storage exclude extra,
        archIdentitiesEqual env b a = true := by
  intro a ha hwanted
  rw [storedCandidates_eq]
  exact exists_firsts archIdentitiesEqual_equivalence (List.mem_filter.mpr ⟨ha, hwanted⟩)

/-- The candidates are the first spellings, in order, of the accounts that are tried: those of
the caller, the observed signer, the accounts that were seen. Each known account that is not the
excluded one is there once, and nothing else is. -/
theorem candidates_exact (storage : Storage) (exclude : JsString)
    (extra : List (Option JsString)) :
    storedCandidates (ν := ν) env storage exclude extra =
        firsts (archIdentitiesEqual env)
          ((orderedCandidates (ν := ν) storage extra).filter (isWanted env exclude)) ∧
      ((storedCandidates (ν := ν) env storage exclude extra).Pairwise fun a b =>
        archIdentitiesEqual env a b = false) ∧
      (∀ a ∈ storedCandidates (ν := ν) env storage exclude extra,
        a ∈ orderedCandidates (ν := ν) storage extra ∧ isWanted env exclude a = true) ∧
      (∀ a ∈ orderedCandidates (ν := ν) storage extra, isWanted env exclude a = true →
        ∃ b ∈ storedCandidates (ν := ν) env storage exclude extra,
          archIdentitiesEqual env b a = true) ∧
      storedCandidates (ν := ν) env storage exclude extra =
        signerCandidates env ((signerObservation (ν := ν) storage).map (·.toSignerObservation))
          (seenAccounts ν storage) exclude (extra.filterMap id) := by
  refine ⟨storedCandidates_eq env exclude extra, storedCandidates_pairwise env storage exclude extra,
    mem_orderedCandidates env storage exclude extra,
    exists_storedCandidates env storage exclude extra, ?_⟩
  rw [storedCandidates_eq, ← collect_eq archIdentitiesEqual_equivalence, signerCandidates,
    orderedCandidates, Option.map_map]
  rfl

/-! ## From the calls to the candidates -/

/-- What is tried after these calls. -/
def triedAfter (calls : List (RegistryCall ν)) (extra : List (Option JsString)) : List JsString :=
  extra.filterMap id ++ ((lastObservation calls).map (·.signerArchAddress)).toList ++
    lastRemembered env calls

theorem orderedCandidates_after (calls : List (RegistryCall ν)) (extra : List (Option JsString)) :
    orderedCandidates (ν := ν) (storageAfter env calls) extra = triedAfter env calls extra := by
  rw [orderedCandidates, signerObservation_after, seenAccounts_after, triedAfter, lastRemembered]

/-- From empty storage, whatever is called: the accounts that were seen are the latest spellings
of the last eight that were remembered, and the candidates, in order, are the known accounts
among what the caller adds, the observed signer and these, without the excluded one, each
once. -/
theorem remembered_tried (calls : List (RegistryCall ν)) :
    seenAccounts ν (storageAfter env calls) = lastRemembered env calls ∧
      ((lastRemembered env calls).Pairwise fun a b => archIdentitiesEqual env a b = false) ∧
      (∀ a ∈ lastRemembered env calls, isKnownAccount env a = true) ∧
      ∀ (exclude : JsString) (extra : List (Option JsString)),
        let candidates := storedCandidates (ν := ν) env (storageAfter env calls) exclude extra
        candidates = firsts (archIdentitiesEqual env)
            ((triedAfter env calls extra).filter (isWanted env exclude)) ∧
          (candidates.Pairwise fun a b => archIdentitiesEqual env a b = false) ∧
          (∀ a ∈ candidates, a ∈ triedAfter env calls extra ∧ isWanted env exclude a = true) ∧
          ∀ a ∈ triedAfter env calls extra, isWanted env exclude a = true →
            ∃ b ∈ candidates, archIdentitiesEqual env b a = true := by
  refine ⟨seenAccounts_after env calls, lastRemembered_pairwise env calls,
    lastRemembered_known env calls, fun exclude extra => ?_⟩
  rw [← orderedCandidates_after]
  exact ⟨storedCandidates_eq env exclude extra, storedCandidates_pairwise env _ exclude extra,
    mem_orderedCandidates env _ exclude extra, exists_storedCandidates env _ exclude extra⟩

end

end Manager

end ArchNameService
