import ArchNameService.Guarantees.Transactions
import ArchNameService.Infra.IndexerProxy

/-!
# Where the key of the Explorer goes

Whatever reaches the proxy, the key is sent to the Explorer's host only, with a single call
of an allowed method, or with a `GET` or `HEAD` of a path. The check of a path is on its
text. It holds of the path that is asked for where no segment goes up, which two percent
codes do, and where the text does not begin with one more slash.
-/

namespace ArchNameService

namespace Infra
open JsString JsValue
open Sdk (text Thrown)

/-! ## Code points of ASCII text -/

theorem codePoints_cons {u : UInt16} (h : u < 0x80) (s : JsString) :
    codePoints (u :: s) = u.toNat :: codePoints s := by
  have hnat : u.toNat < 128 := UInt16.lt_iff_toNat_lt.mp h
  have hhigh : isHighSurrogate u = false := by
    simp only [isHighSurrogate, Bool.and_eq_false_iff, decide_eq_false_iff_not,
      UInt16.le_iff_toNat_le]
    exact .inl fun hle => absurd (Nat.lt_of_le_of_lt hle hnat) (by decide)
  have hlow : isLowSurrogate u = false := by
    simp only [isLowSurrogate, Bool.and_eq_false_iff, decide_eq_false_iff_not,
      UInt16.le_iff_toNat_le]
    exact .inl fun hle => absurd (Nat.lt_of_le_of_lt hle hnat) (by decide)
  cases s with
  | nil => simp [codePoints, hhigh, hlow]
  | cons v s =>
      rw [codePoints, hhigh, hlow]
      rfl

theorem codePoints_append {front : JsString} (h : ∀ u ∈ front, u < 0x80) (s : JsString) :
    codePoints (front ++ s) = front.map UInt16.toNat ++ codePoints s := by
  induction front with
  | nil => rfl
  | cons u front ih =>
      obtain ⟨hu, hfront⟩ := List.forall_mem_cons.mp h
      rw [List.cons_append, codePoints_cons hu, ih hfront]
      rfl

theorem ascii_of_all {s : JsString} (h : s.all (· < 0x80) = true) : ∀ u ∈ s, u < 0x80 :=
  fun u hu => of_decide_eq_true (List.all_eq_true.mp h u hu)

/-! ## Paths -/

def host : List Nat := (text "explorer.arch.network").map UInt16.toNat

/-- `/api/v1/testnet` -/
def basePath : List (List Nat) :=
  [text "api", text "v1", text "testnet"].map (·.map UInt16.toNat)

def pathnameOf (path : List (List Nat)) : List Nat := path.flatMap (0x2F :: ·)

/-- The path is `/api/v1/testnet/` and what is equal to a prefix without its slash, or begins
with a prefix. -/
def InAllowlist (a : Url.Address) : Prop :=
  ∃ rest, a.pathname = pathnameOf basePath ++ 0x2F :: rest ∧
    ∃ front ∈ allowedRestPrefixes,
      rest = (withoutSlash front).map UInt16.toNat ∨ front.map UInt16.toNat <+: rest

/-- The query of a forwarded request, with its mark. -/
def queryText (event : Event) : JsString :=
  if safeQuery (event.queryStringParameters.getD []) = [] then []
  else 0x3F :: safeQuery (event.queryStringParameters.getD [])

/-- The segments of the path as the request is read. -/
def askedSegments (event : Event) (relative : JsString) : List (List Nat) :=
  Url.segments (Url.pathOf (codePoints (relative ++ queryText event)))

/-- No segment is two dots, plain or in percent codes. -/
def NeverClimbs (segments : List (List Nat)) : Prop :=
  ∀ segment ∈ segments, Url.isDoubleDot segment = false

instance (segments : List (List Nat)) : Decidable (NeverClimbs segments) :=
  inferInstanceAs (Decidable (∀ segment ∈ segments, Url.isDoubleDot segment = false))

def isLetter (c : Nat) : Bool := 0x61 ≤ c && c ≤ 0x7A

section
variable {name : List Nat}

theorem letters_plain (h : name.all isLetter = true) :
    name.all Url.isPlain = true ∧ (∀ c ∈ name, Url.isSlash c = false) ∧
      ∀ c ∈ name, Url.inPathSet c = false := by
  have hletter : ∀ c ∈ name, 0x61 ≤ c ∧ c ≤ 0x7A := fun c hc => by
    have hc := List.all_eq_true.mp h c hc
    simpa only [isLetter, Bool.and_eq_true, decide_eq_true_eq] using hc
  refine ⟨List.all_eq_true.mpr fun c hc => ?_, fun c hc => ?_, fun c hc => ?_⟩
  all_goals have hc := hletter c hc
  · simp only [Url.isPlain, Url.isBlank, Url.endsPath, Bool.and_eq_true, Bool.not_eq_true',
      decide_eq_false_iff_not, Bool.or_eq_false_iff, beq_eq_false_iff_ne]
    omega
  · simp only [Url.isSlash, Bool.or_eq_false_iff, beq_eq_false_iff_ne]
    omega
  · simp only [Url.inPathSet, Bool.or_eq_false_iff, decide_eq_false_iff_not,
      List.contains_eq_mem, List.mem_cons, List.not_mem_nil, or_false]
    omega

theorem not_dot (h : name.all isLetter = true) (hne : name ≠ []) (rest : List Nat) :
    Url.isSingleDot (name ++ rest) = false := by
  obtain ⟨c, name, rfl⟩ := List.exists_cons_of_ne_nil hne
  have hc := (Bool.and_eq_true_iff.mp h).1
  simp only [isLetter, Bool.and_eq_true, decide_eq_true_eq] at hc
  have hlower : Url.lower c = c := if_neg (by
    simp only [Bool.and_eq_true, decide_eq_true_eq]
    omega)
  simp only [Url.isSingleDot, List.cons_append, List.map_cons, hlower, List.contains_eq_mem,
    List.mem_cons, List.cons.injEq, List.not_mem_nil, or_false, decide_eq_false_iff_not]
  omega

/-- The path of what is asked for: the segments are resolved against the ones of the base. -/
theorem parse_rest (t : JsString) :
    ∃ a, Url.parse (codePoints (indexerRestBase ++ 0x2F :: t)) = some a ∧ a.host = host ∧
      a.path = Url.resolve basePath (Url.segments (Url.pathOf (codePoints t))) := by
  have hascii : ∀ u ∈ indexerRestBase ++ [0x2F], u < 0x80 := ascii_of_all rfl
  have hbase : (indexerRestBase ++ [0x2F]).map UInt16.toNat =
      Url.scheme ++ [0x2F, 0x2F] ++ host ++ 0x2F :: (text "api/v1/testnet/").map UInt16.toNat := by
    decide +kernel
  have hpoints : (codePoints (indexerRestBase ++ 0x2F :: t)) =
      Url.scheme ++ [0x2F, 0x2F] ++ host ++
        0x2F :: ((text "api/v1/testnet/").map UInt16.toNat ++ (codePoints t)) := by
    have happend := codePoints_append hascii t
    rw [hbase, List.append_assoc] at happend
    exact happend.trans (by rw [List.append_assoc]; rfl)
  rw [hpoints, Url.parse_https (by decide) (by decide)]
  refine ⟨_, rfl, rfl, ?_⟩
  have hpath : Url.pathOf ((text "api/v1/testnet/").map UInt16.toNat ++ (codePoints t)) =
      (text "api").map UInt16.toNat ++ 0x2F :: ((text "v1").map UInt16.toNat ++ 0x2F ::
        ((text "testnet").map UInt16.toNat ++ 0x2F :: Url.pathOf (codePoints t))) :=
    Url.pathOf_append (by decide)
  rw [hpath, Url.segments_slash (by decide) (by decide) rfl,
    Url.segments_slash (by decide) (by decide) rfl, Url.segments_slash (by decide) (by decide) rfl]
  obtain ⟨segment, segments, hsegments⟩ := List.exists_cons_of_ne_nil
    (Url.segments_ne_nil (Url.pathOf (codePoints t)))
  rw [hsegments]
  rfl

end

/-! ## The check -/

/-- A prefix is a name of letters, with a slash or without. -/
theorem prefix_cases : ∀ front ∈ allowedRestPrefixes,
    ((withoutSlash front).map UInt16.toNat).all isLetter = true ∧ withoutSlash front ≠ [] ∧
      (front = withoutSlash front ∨ front = withoutSlash front ++ [0x2F]) := by
  decide +kernel

theorem units_of_letters {name : JsString} (h : (name.map UInt16.toNat).all isLetter = true) :
    ∀ u ∈ name, u < 0x80 := fun u hu => by
  have hletter := List.all_eq_true.mp h _ (List.mem_map_of_mem hu)
  simp only [isLetter, Bool.and_eq_true, decide_eq_true_eq] at hletter
  exact UInt16.lt_iff_toNat_lt.mpr (Nat.lt_of_le_of_lt hletter.2 (by decide))

theorem pathOf_queryText (event : Event) : Url.pathOf (codePoints (queryText event)) = [] := by
  unfold queryText
  split
  · rfl
  · rw [codePoints_cons (by decide)]
    exact Url.pathOf_mark _

/-- Of a text that the check lets through, without one more slash in front, the first
segments begin with an allowed prefix. -/
theorem allowed_of_check {event : Event} {relative : JsString} {front : JsString}
    (hfront : front ∈ allowedRestPrefixes)
    (h : relative = withoutSlash front ∨ front <+: relative) :
    ∃ rest, pathnameOf (Url.tidy (askedSegments event relative)) = 0x2F :: rest ∧
      (rest = (withoutSlash front).map UInt16.toNat ∨ front.map UInt16.toNat <+: rest) := by
  obtain ⟨hletters, hne, hcases⟩ := prefix_cases front hfront
  obtain ⟨hplain, hslash, hset⟩ := letters_plain hletters
  have hunits := units_of_letters hletters
  have hname : (withoutSlash front).map UInt16.toNat ≠ [] := fun hnil =>
    hne (List.map_eq_nil_iff.mp hnil)
  rcases h with rfl | ⟨more, rfl⟩
  · refine ⟨(withoutSlash front).map UInt16.toNat, ?_, .inl rfl⟩
    rw [askedSegments, codePoints_append hunits, Url.pathOf_append hplain, pathOf_queryText]
    have hdot := not_dot hletters hname []
    rw [List.append_nil] at hdot
    rw [List.append_nil, Url.segments_single hslash hset, Url.tidy,
      if_neg (by rw [hdot]; decide)]
    exact List.append_nil _
  · rcases hcases with hsame | hslashed
    · rw [← hsame] at hletters hne hplain hslash hset hunits hname
      obtain ⟨segment, rest', -, hsegments⟩ := Url.segments_front hslash hset
        (Url.pathOf (codePoints (more ++ queryText event)))
      refine ⟨_, ?_, .inr (List.prefix_append (front.map UInt16.toNat)
        (segment ++ pathnameOf (Url.tidy rest')))⟩
      rw [askedSegments, List.append_assoc, codePoints_append hunits, Url.pathOf_append hplain,
        hsegments, Url.tidy, if_neg (by rw [not_dot hletters hname _]; decide), pathnameOf,
        List.flatMap_append, ← List.append_assoc]
      exact congrArg (· ++ _) (List.append_nil _)
    · have hmap : front.map UInt16.toNat = (withoutSlash front).map UInt16.toNat ++ [0x2F] := by
        rw [congrArg (List.map UInt16.toNat) hslashed, List.map_append]
        rfl
      have hunits' : ∀ u ∈ front, u < 0x80 := by
        rw [hslashed]
        exact List.forall_mem_append.mpr ⟨hunits, ascii_of_all rfl⟩
      have hplain' : (front.map UInt16.toNat).all Url.isPlain = true := by
        rw [hmap, List.all_append, hplain]
        rfl
      obtain ⟨next, segments, htidy⟩ := List.exists_cons_of_ne_nil (Url.tidy_ne_nil
        (Url.segments_ne_nil (Url.pathOf (codePoints (more ++ queryText event)))))
      have hdot := not_dot hletters hname []
      rw [List.append_nil] at hdot
      refine ⟨_, ?_, .inr (List.prefix_append (front.map UInt16.toNat)
        (next ++ pathnameOf segments))⟩
      rw [askedSegments, List.append_assoc, codePoints_append hunits',
        Url.pathOf_append hplain', hmap, List.append_assoc, List.singleton_append,
        Url.segments_slash hslash hset rfl, Url.tidy, if_neg (by rw [hdot]; decide), htidy,
        pathnameOf, List.singleton_append, List.flatMap_cons, List.flatMap_cons, List.append_assoc]
      rfl

/-- One more slash in front is an empty segment, with which no prefix begins. -/
theorem not_allowed_of_slash {event : Event} {more : JsString} {rest : List Nat}
    (h : pathnameOf (Url.tidy (askedSegments event (0x2F :: more))) = 0x2F :: rest)
    {front : JsString} (hfront : front ∈ allowedRestPrefixes) :
    ¬ (rest = (withoutSlash front).map UInt16.toNat ∨ front.map UInt16.toNat <+: rest) := by
  have hascii : ∀ u ∈ [(0x2F : UInt16)], u < 0x80 := ascii_of_all rfl
  have hpoints : codePoints (0x2F :: more ++ queryText event) =
      [0x2F] ++ codePoints (more ++ queryText event) :=
    codePoints_append hascii (more ++ queryText event)
  obtain ⟨next, segments, htidy⟩ := List.exists_cons_of_ne_nil (Url.tidy_ne_nil
    (Url.segments_ne_nil (Url.pathOf (codePoints (more ++ queryText event)))))
  have hsegments : Url.segments (0x2F :: Url.pathOf (codePoints (more ++ queryText event))) =
      [] :: Url.segments (Url.pathOf (codePoints (more ++ queryText event))) :=
    Url.segments_slash (List.forall_mem_nil _) (List.forall_mem_nil _) rfl
  rw [askedSegments, hpoints, Url.pathOf_append (by decide), List.singleton_append, hsegments,
    Url.tidy, if_neg (by decide), htidy] at h
  have hrest : rest = 0x2F :: (next ++ pathnameOf segments) := (List.cons.inj h).2.symm
  obtain ⟨hletters, hne, hcases⟩ := prefix_cases front hfront
  obtain ⟨u, name, hname⟩ := List.exists_cons_of_ne_nil hne
  have hu : u.toNat ≠ 0x2F := by
    rw [hname] at hletters
    have hletter := (Bool.and_eq_true_iff.mp hletters).1
    simp only [isLetter, Bool.and_eq_true, decide_eq_true_eq] at hletter
    omega
  have hhead : ∃ tail, front = u :: tail := by
    rcases hcases with hsame | hslashed
    · exact ⟨name, hsame.trans hname⟩
    · exact ⟨name ++ [0x2F], hslashed.trans (by rw [hname]; rfl)⟩
  rw [hrest, not_or]
  refine ⟨fun heq => hu ?_, fun hpre => hu ?_⟩
  · rw [hname] at heq
    exact (List.cons.inj heq).1.symm
  · obtain ⟨tail, htail⟩ := hhead
    rw [htail] at hpre
    exact (List.cons_prefix_cons.mp hpre).1

theorem check_cases {relative : JsString} (h : isAllowedRestPath relative = true)
    (hhead : relative.head? ≠ some 0x2F) :
    ∃ front ∈ allowedRestPrefixes, relative = withoutSlash front ∨ front <+: relative := by
  have hdrop : relative.dropWhile (· = 0x2F) = relative := by
    cases relative with
    | nil => rfl
    | cons u more =>
        exact List.dropWhile_cons_of_neg fun hu => hhead (congrArg some (of_decide_eq_true hu))
  rw [isAllowedRestPath, hdrop] at h
  split at h
  · cases h
  · split at h
    · cases h
    · obtain ⟨front, hfront, hmatch⟩ := List.any_eq_true.mp h
      refine ⟨front, hfront, (Bool.or_eq_true_iff.mp hmatch).imp beq_iff_eq.mp fun hstarts => ?_⟩
      exact List.isPrefixOf_iff_prefix.mp hstarts

/-- Of a path that the check lets through and that does not climb. -/
theorem allowlist_iff {event : Event} {relative : JsString} {a : Url.Address}
    (hcheck : isAllowedRestPath relative = true)
    (hname : a.pathname = pathnameOf basePath ++
      pathnameOf (Url.tidy (askedSegments event relative))) :
    InAllowlist a ↔ relative.head? ≠ some 0x2F := by
  constructor
  · rintro ⟨rest, hrest, front, hfront, hallowed⟩ hhead
    obtain ⟨more, rfl⟩ : ∃ more, relative = 0x2F :: more := by
      cases relative with
      | nil => cases hhead
      | cons u more => exact ⟨more, by rw [Option.some.inj hhead]⟩
    exact not_allowed_of_slash (List.append_cancel_left (hname.symm.trans hrest)) hfront hallowed
  · intro hhead
    obtain ⟨front, hfront, hmatch⟩ := check_cases hcheck hhead
    obtain ⟨rest, hrest, hallowed⟩ := @allowed_of_check event _ _ hfront hmatch
    exact ⟨rest, hname.trans (by rw [hrest]), front, hfront, hallowed⟩

/-! ## Calls -/

/-- An object in which no key is written twice, with the version and an allowed method: any
reader sees the same call, whichever of repeated keys it takes. -/
def IsAllowedCall (ν : Type) [JsNumber ν] (body : JsString) : Prop :=
  ∃ members : List (JsString × Json ν), Json.parse body = some (.object members) ∧
    (members.map Prod.fst).Nodup ∧ members.lookup (text "jsonrpc") = some (.string (text "2.0")) ∧
    ∃ method ∈ allowedRpcMethods, members.lookup (text "method") = some (.string method)

section
variable {ν : Type} [JsNumber ν]

theorem keys_setMember {α : Type} {members : List (JsString × α)} {member : JsString × α}
    (h : (members.map Prod.fst).Nodup) : ((setMember members member).map Prod.fst).Nodup := by
  unfold setMember
  split
  · have hkeys : (members.map fun m => if m.1 = member.1 then member else m).map Prod.fst =
        members.map Prod.fst := by
      rw [List.map_map]
      refine List.map_congr_left fun m _ => ?_
      by_cases hm : m.1 = member.1
      · exact (congrArg Prod.fst (if_pos hm)).trans hm.symm
      · exact congrArg Prod.fst (if_neg hm)
    rw [hkeys]
    exact h
  next hnew =>
    rw [List.map_append]
    refine List.nodup_append.mpr ⟨h, List.nodup_singleton _, fun a ha b hb heq => hnew ?_⟩
    cases List.mem_singleton.mp hb
    exact List.contains_iff_mem.mpr (heq ▸ ha)

theorem keys_foldl_setMember {α : Type} (members front : List (JsString × α))
    (h : (front.map Prod.fst).Nodup) :
    ((members.foldl setMember front).map Prod.fst).Nodup := by
  induction members generalizing front with
  | nil => exact h
  | cons m members ih => exact ih _ (keys_setMember h)

/-- A string of an object that is written is read in its place. -/
theorem lookup_written {members : List (JsString × JsValue ν)}
    (hnodup : (members.map Prod.fst).Nodup) {key s : JsString}
    (h : members.lookup key = some (.string s)) :
    (Json.rereadMembers (inKeyOrder (toJsonMembers members))).lookup key = some (.string s) := by
  have hreread : ∀ l : List (JsString × Json ν), (Json.rereadMembers l).lookup key =
      (l.lookup key).map Json.reread := by
    intro l
    induction l with
    | nil => rfl
    | cons m l ih =>
        obtain ⟨k, v⟩ := m
        rw [Json.rereadMembers, List.lookup_cons, List.lookup_cons, ih]
        cases key == k <;> rfl
  have hkept : ((keep toJson members).map Prod.fst).Nodup :=
    (keys_keep toJson members).nodup hnodup
  rw [hreread, toJsonMembers_eq, lookup_perm hkept (inKeyOrder_perm _),
    lookup_keep toJson hnodup, h]
  rfl

theorem isAllowedCall {body body' : JsString} {request : JsValue ν} {method : JsString}
    (hparse : JsValue.parse body = some request)
    (hversion : request.get (text "jsonrpc") = .string (text "2.0"))
    (hmethod : request.get (text "method") = .string method) (hallowed : method ∈ allowedRpcMethods)
    (hbody : stringify request = some body') : IsAllowedCall ν body' := by
  obtain ⟨j, -, rfl⟩ := Option.map_eq_some_iff.mp hparse
  cases j with
  | object members =>
      rw [ofJson] at hversion hmethod hbody
      have hnodup := keys_foldl_setMember (ofJsonMembers members) [] List.nodup_nil
      have hlookup : ∀ {key s}, get key (.object ((ofJsonMembers members).foldl setMember [])) =
          .string s →
            ((ofJsonMembers members).foldl setMember []).lookup key = some (.string s) := by
        intro key s hget
        change (Option.getD _ _) = _ at hget
        cases hfound : ((ofJsonMembers members).foldl setMember []).lookup key with
        | none =>
            rw [hfound] at hget
            cases hget
        | some v =>
            rw [hfound] at hget
            exact congrArg some hget
      rw [stringify, toJson, Option.map_some, Option.some.injEq] at hbody
      subst hbody
      refine ⟨_, Json.parse_write _, ?_, lookup_written hnodup (hlookup hversion), method, hallowed,
        lookup_written hnodup (hlookup hmethod)⟩
      have hkeys : ∀ l : List (JsString × Json ν), (Json.rereadMembers l).map Prod.fst =
          l.map Prod.fst := by
        intro l
        induction l with
        | nil => rfl
        | cons m l ih => exact congrArg (m.1 :: ·) ih
      rw [hkeys, toJsonMembers_eq]
      exact ((inKeyOrder_perm _).map Prod.fst).nodup_iff.mpr
        ((keys_keep toJson _).nodup hnodup)
  | _ => cases hversion

/-! ## What is forwarded -/

/-- The text of a path is answered as a call. -/
def IsRpc (event : Event) : Prop :=
  requestPath event = text "/rpc" ∨ endsWith (text "/rpc") (requestPath event) = true

/-- The request of a call, or the one of a path that the check lets through. -/
theorem forwarded_cases {apiKey : Except Thrown JsString} {event : Event} {q : UpstreamRequest}
    (h : handler ν apiKey event = .ok (.forwarded q)) :
    (IsRpc event ∧ q.method = text "POST" ∧ q.url = indexerRpcUrl ∧
        ∃ body, q.body = some body ∧ IsAllowedCall ν body) ∨
      (¬ IsRpc event ∧ (q.method = text "GET" ∨ q.method = text "HEAD") ∧ q.body = none ∧
        ∃ relative, explorerRelative (requestPath event) = some relative ∧
          isAllowedRestPath relative = true ∧
          q.url = indexerRestBase ++ 0x2F :: (relative ++ queryText event)) := by
  unfold handler at h
  simp only at h
  split at h
  next hrpc =>
    split at h
    · cases h
    · unfold handleRpc at h
      split at h
      · cases h
      next request hparse =>
        split at h
        next version method hversion hmethod =>
          split at h
          next hcall =>
            obtain ⟨rfl, hallowed⟩ := hcall
            simp only [Outcome.bind_ok, Outcome.pure_ok, Handled.forwarded.injEq] at h
            obtain ⟨key, -, rfl⟩ := h
            refine .inl ⟨hrpc, rfl, rfl, ?_⟩
            have hwritten : ∃ body, stringify request = some body := by
              cases request with
              | object members => exact ⟨_, rfl⟩
              | _ => cases hversion
            obtain ⟨body, hbody⟩ := hwritten
            exact ⟨body, hbody, isAllowedCall hparse hversion hmethod hallowed hbody⟩
          next => cases h
        · cases h
  next hrpc =>
    split at h
    · split at h
      · cases h
      next hmethod =>
        unfold handleExplorerRest at h
        split at h
        · cases h
        next relative hrelative =>
          split at h
          next hcheck =>
            simp only [Outcome.bind_ok, Outcome.pure_ok, Handled.forwarded.injEq] at h
            obtain ⟨key, -, rfl⟩ := h
            refine .inr ⟨hrpc, ?_, rfl, relative, hrelative, hcheck, rfl⟩
            by_contra hneither
            exact hmethod (not_or.mp hneither)
          next => cases h
    · cases h

theorem parse_rpcUrl : ∃ a, Url.parse (codePoints indexerRpcUrl) = some a ∧ a.host = host := by
  have hparsed : (Url.parse (codePoints indexerRpcUrl)).any (·.host = host) = true := by
    decide +kernel
  obtain ⟨a, ha, hhost⟩ := (Option.any_eq_true ..).mp hparsed
  exact ⟨a, ha, of_decide_eq_true hhost⟩

variable (ν) in
/-- A request that the proxy makes with the key goes to the Explorer's host. It is a `POST` of
an allowed call, or a `GET` or `HEAD` of a path, which is an allowed one, where no segment
goes up, exactly when its text has no second slash in front. -/
theorem key_confined (apiKey : Except Thrown JsString) (event : Event) (q : UpstreamRequest)
    (h : handler ν apiKey event = .ok (.forwarded q)) :
    ∃ a, Url.parse (codePoints q.url) = some a ∧ a.host = host ∧
      ((q.method = text "POST" ∧ q.url = indexerRpcUrl ∧
          ∃ body, q.body = some body ∧ IsAllowedCall ν body) ∨
        ((q.method = text "GET" ∨ q.method = text "HEAD") ∧ q.body = none ∧
          ∃ relative, explorerRelative (requestPath event) = some relative ∧
            (NeverClimbs (askedSegments event relative) →
              (InAllowlist a ↔ relative.head? ≠ some 0x2F)))) := by
  rcases forwarded_cases h with ⟨-, hmethod, hurl, hbody⟩ |
    ⟨-, hmethod, hbody, relative, hrelative, hcheck, hurl⟩
  · obtain ⟨a, ha, hhost⟩ := parse_rpcUrl
    rw [hurl]
    exact ⟨a, ha, hhost, .inl ⟨hmethod, rfl, hbody⟩⟩
  · obtain ⟨a, ha, hhost, hpath⟩ := parse_rest (relative ++ queryText event)
    rw [hurl]
    refine ⟨a, ha, hhost, .inr ⟨hmethod, hbody, relative, hrelative, fun hnever => ?_⟩⟩
    have hasked : a.path = Url.resolve basePath (askedSegments event relative) := hpath
    have hname : a.pathname = pathnameOf basePath ++
        pathnameOf (Url.tidy (askedSegments event relative)) := by
      rw [Url.Address.pathname, hasked, Url.resolve_eq basePath hnever, List.flatMap_append]
      rfl
    exact allowlist_iff hcheck hname

/-! ## Which paths are allowed -/

/-- Where no two dots are left over, the segments that are left begin with an allowed path;
else they first name again the segments of the base that the two dots left over take away. -/
def StandsInAllowlist (segments : List (List Nat)) : Prop :=
  ∃ more, (Url.standing segments).2 =
      basePath.drop (basePath.length - (Url.standing segments).1) ++ more ∧
    ∃ rest, pathnameOf more = 0x2F :: rest ∧ ∃ front ∈ allowedRestPrefixes,
      rest = (withoutSlash front).map UInt16.toNat ∨ front.map UInt16.toNat <+: rest

/-- Segments without slashes are told apart in the text of a path. -/
theorem pathnameOf_prefix {front path : List (List Nat)} {rest : List Nat}
    (hfront : ∀ segment ∈ front, 0x2F ∉ segment) (hpath : ∀ segment ∈ path, 0x2F ∉ segment)
    (h : pathnameOf path = pathnameOf front ++ 0x2F :: rest) :
    ∃ more, path = front ++ more ∧ pathnameOf more = 0x2F :: rest := by
  have hcut : ∀ {segment tail : List Nat}, 0x2F ∉ segment → (tail = [] ∨ tail.head? = some 0x2F) →
      (segment ++ tail).takeWhile (· != 0x2F) = segment := by
    intro segment tail hsegment htail
    have hkeep : ∀ c ∈ segment, (c != 0x2F) = true := by
      intro c hc
      apply bne_iff_ne.mpr
      rintro rfl
      exact hsegment hc
    rw [List.takeWhile_append_of_pos hkeep]
    cases tail with
    | nil => exact List.append_nil segment
    | cons c tail =>
        cases Option.some.inj (htail.resolve_left (List.cons_ne_nil c tail))
        exact List.append_nil segment
  have hhead : ∀ path : List (List Nat), pathnameOf path = [] ∨
      (pathnameOf path).head? = some 0x2F := by
    intro path
    cases path with
    | nil => exact .inl rfl
    | cons segment path => exact .inr rfl
  induction front generalizing path with
  | nil => exact ⟨path, rfl, h⟩
  | cons segment front ih =>
      obtain ⟨hsegment, hmoreFront⟩ := List.forall_mem_cons.mp hfront
      cases path with
      | nil => cases h
      | cons first path =>
          obtain ⟨hfirst, hmorePath⟩ := List.forall_mem_cons.mp hpath
          have htails : first ++ pathnameOf path =
              segment ++ (pathnameOf front ++ 0x2F :: rest) := by
            refine (List.cons.inj h).2.trans ?_
            exact List.append_assoc ..
          have hrest : (pathnameOf front ++ 0x2F :: rest) = [] ∨
              (pathnameOf front ++ 0x2F :: rest).head? = some 0x2F := by
            cases front with
            | nil => exact .inr rfl
            | cons _ _ => exact .inr rfl
          have hsame : first = segment := by
            rw [← hcut hfirst (hhead path), htails, hcut hsegment hrest]
          subst hsame
          obtain ⟨more, hmore, hname⟩ := ih hmoreFront hmorePath (List.append_cancel_left htails)
          exact ⟨more, by rw [hmore, List.cons_append], hname⟩

theorem inAllowlist_iff_stands {segs : List (List Nat)} {a : Url.Address}
    (hslash : ∀ segment ∈ segs, 0x2F ∉ segment) (hpath : a.path = Url.resolve basePath segs) :
    InAllowlist a ↔ StandsInAllowlist segs := by
  have hbase : ∀ segment ∈ basePath, 0x2F ∉ segment := by decide
  have hstands : a.path = basePath.take (basePath.length - (Url.standing segs).1) ++
      (Url.standing segs).2 := hpath.trans (Url.resolve_standing basePath segs)
  have hleft := Url.mem_standing (P := fun segment => 0x2F ∉ segment) List.not_mem_nil hslash
  have hall : ∀ segment ∈ a.path, 0x2F ∉ segment := by
    rw [hstands]
    refine List.forall_mem_append.mpr ⟨fun segment hsegment => ?_, hleft⟩
    exact hbase segment (List.mem_of_mem_take hsegment)
  have hsplit := List.take_append_drop (basePath.length - (Url.standing segs).1) basePath
  constructor
  · rintro ⟨rest, hrest, front, hfront, hallowed⟩
    obtain ⟨more, hmore, hname⟩ := pathnameOf_prefix hbase hall hrest
    refine ⟨more, ?_, rest, hname, front, hfront, hallowed⟩
    rw [hstands] at hmore
    apply List.append_cancel_left
    rw [hmore, ← List.append_assoc, hsplit]
  · rintro ⟨more, hmore, rest, hname, front, hfront, hallowed⟩
    refine ⟨rest, ?_, front, hfront, hallowed⟩
    rw [Url.Address.pathname, hstands, hmore, ← List.append_assoc, hsplit, List.flatMap_append,
      ← hname]
    rfl

variable (ν) in
/-- The request goes to the Explorer's host, with an allowed call or to an allowed path. -/
def Confined (q : UpstreamRequest) (a : Url.Address) : Prop :=
  a.host = host ∧
    ((q.method = text "POST" ∧ ∃ body, q.body = some body ∧ IsAllowedCall ν body) ∨
      ((q.method = text "GET" ∨ q.method = text "HEAD") ∧ InAllowlist a))

end

/-! A page of an account's transactions. -/

namespace Page

def event : Event where
  rawPath := some (text "/prod/explorer/accounts/5e/transactions/v2")
  path := none
  httpPath := none
  requestMethod := some (text "GET")
  httpMethod := none
  body := none
  queryStringParameters := some [(text "limit", some (text "100")), (text "admin", some (text "1"))]

def forwarded : UpstreamRequest where
  url := indexerRestBase ++ text "/accounts/5e/transactions/v2?limit=100"
  method := text "GET"
  headers := [(text "authorization", text "Bearer key"), (text "accept", text "application/json")]
  body := none

end Page

section
open Sdk.Mixed

theorem Page.handled : handler WholeNumber (.ok (text "key")) Page.event =
    .ok (.forwarded Page.forwarded) := by decide +kernel

theorem Page.explorerRelative_eq : explorerRelative (requestPath Page.event) =
    some (text "accounts/5e/transactions/v2") := by decide +kernel

/-- The path that is asked for is allowed. -/
theorem page_allowed : ∃ a, Url.parse (codePoints Page.forwarded.url) = some a ∧ a.host = host ∧
    InAllowlist a := by
  obtain ⟨a, ha, hhost, ⟨hmethod, -⟩ | ⟨-, -, relative, hrelative, hallowed⟩⟩ :=
    key_confined WholeNumber (.ok (text "key")) Page.event Page.forwarded Page.handled
  · exact absurd hmethod (by decide +kernel)
  · cases hrelative.symm.trans Page.explorerRelative_eq
    exact ⟨a, ha, hhost, (hallowed (by decide +kernel)).mpr (by decide +kernel)⟩

namespace Admin

def event : Event :=
  { Page.event with rawPath := some (text "/prod/explorer/accounts/%2e%2e/admin"),
                    queryStringParameters := none }

def forwarded : UpstreamRequest :=
  { Page.forwarded with url := indexerRestBase ++ text "/accounts/%2e%2e/admin" }

end Admin

end

end Infra

end ArchNameService
