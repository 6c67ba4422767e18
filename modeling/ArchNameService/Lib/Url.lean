import Mathlib.Data.List.DropRight
import ArchNameService.Lib.Text

/-!
# Addresses

What is asked for when the text of an `https` address is fetched. The text is cleaned, the
path is cut at slashes of either kind, and its dot segments are resolved, whether they are
written plainly or as percent codes. A host is letters and dots; no other is read. A text is
a list of code points.
-/

namespace Url

/-! ## Cleaning -/

/-- A control or a space. -/
def isBlank (c : Nat) : Bool := c ≤ 0x20

def isBreak (c : Nat) : Bool := c == 0x09 || c == 0x0A || c == 0x0D

/-- Without blanks at the end, and without tabs and newlines. -/
def trimEnd (l : List Nat) : List Nat := (l.rdropWhile isBlank).filter (!isBreak ·)

def clean (l : List Nat) : List Nat := trimEnd (l.dropWhile isBlank)

/-! ## Percent codes -/

def hexUpper (d : Nat) : Nat := if d < 10 then 0x30 + d else 0x37 + d

def percentByte (b : UInt8) : List Nat := [0x25, hexUpper (b.toNat / 16), hexUpper (b.toNat % 16)]

def percentEncode (set : Nat → Bool) (c : Nat) : List Nat :=
  if set c then (JsString.utf8Bytes c).flatMap percentByte else [c]

def inPathSet (c : Nat) : Bool :=
  c ≤ 0x20 || 0x7E < c || [0x22, 0x23, 0x3C, 0x3E, 0x3F, 0x5E, 0x60, 0x7B, 0x7D].contains c

def inQuerySet (c : Nat) : Bool :=
  c ≤ 0x20 || 0x7E < c || [0x22, 0x23, 0x27, 0x3C, 0x3E].contains c

/-! ## The path -/

def isSlash (c : Nat) : Bool := c == 0x2F || c == 0x5C

/-- The query or the fragment begins. -/
def endsPath (c : Nat) : Bool := c == 0x3F || c == 0x23

def lower (c : Nat) : Nat := if 0x41 ≤ c && c ≤ 0x5A then c + 0x20 else c

/-- `.` or `%2e` -/
def isSingleDot (segment : List Nat) : Bool :=
  [[0x2E], [0x25, 0x32, 0x65]].contains (segment.map lower)

/-- `..`, `.%2e`, `%2e.` or `%2e%2e` -/
def isDoubleDot (segment : List Nat) : Bool :=
  [[0x2E, 0x2E], [0x2E, 0x25, 0x32, 0x65], [0x25, 0x32, 0x65, 0x2E],
    [0x25, 0x32, 0x65, 0x25, 0x32, 0x65]].contains (segment.map lower)

/-- A segment after those of the path; after a dot at the end, the last one is empty. -/
def push (path : List (List Nat)) (segment : List Nat) (last : Bool) : List (List Nat) :=
  if isDoubleDot segment then path.dropLast ++ (if last then [[]] else [])
  else if isSingleDot segment then path ++ (if last then [[]] else [])
  else path ++ [segment]

def resolve : List (List Nat) → List (List Nat) → List (List Nat)
  | path, [] => path
  | path, segment :: rest => resolve (push path segment rest.isEmpty) rest

def encodeSegment (segment : List Nat) : List Nat := segment.flatMap (percentEncode inPathSet)

/-- The segments as they are written, each in percent codes. -/
def segments (l : List Nat) : List (List Nat) := (l.splitOnP isSlash).map encodeSegment

/-! ## Addresses -/

structure Address where
  host : List Nat
  path : List (List Nat)
  query : Option (List Nat)
  deriving DecidableEq

def Address.pathname (a : Address) : List Nat := a.path.flatMap (0x2F :: ·)

/-- `https:` -/
def scheme : List Nat := [0x68, 0x74, 0x74, 0x70, 0x73, 0x3A]

def isHostLetter (c : Nat) : Bool := (0x61 ≤ c && c ≤ 0x7A) || c == 0x2E

def endsHost (c : Nat) : Bool := isSlash c || endsPath c

def readQuery : List Nat → Option (List Nat)
  | 0x3F :: rest => some ((rest.takeWhile (· != 0x23)).flatMap (percentEncode inQuerySet))
  | _ => none

/-- What follows the host. -/
def readPath (host after : List Nat) : Address where
  host := host
  path := resolve [] (segments ((after.takeWhile (!endsPath ·)).drop 1))
  query := readQuery (after.dropWhile (!endsPath ·))

def parse (l : List Nat) : Option Address :=
  if scheme <+: clean l then
    let rest := ((clean l).drop scheme.length).dropWhile isSlash
    let host := rest.takeWhile (!endsHost ·)
    if host ≠ [] ∧ host.all isHostLetter then some (readPath host (rest.dropWhile (!endsHost ·)))
    else none
  else none

/-! ## Text that stays as it is -/

variable {front rest host : List Nat} {path segs : List (List Nat)}

/-- Neither a blank nor the end of a path. -/
def isPlain (c : Nat) : Bool := !isBlank c && !endsPath c

theorem isBlank_of_isBreak {c : Nat} (h : isBreak c = true) : isBlank c = true := by
  simp only [isBreak, Bool.or_eq_true, beq_iff_eq] at h
  exact decide_eq_true (by omega)

theorem trimEnd_append (hplain : ∀ c ∈ front, isBlank c = false) :
    trimEnd (front ++ rest) = front ++ trimEnd rest := by
  have hkeep : front.filter (!isBreak ·) = front := List.filter_eq_self.mpr fun c hc => by
    cases hbreak : isBreak c with
    | false => rfl
    | true => exact absurd (isBlank_of_isBreak hbreak) (by rw [hplain c hc]; decide)
  have hdrop : (front ++ rest).rdropWhile isBlank = front ++ rest.rdropWhile isBlank := by
    induction rest using List.reverseRecOn with
    | nil =>
        rw [List.append_nil, List.rdropWhile_nil, List.append_nil, List.rdropWhile_eq_self_iff]
        intro hne
        rw [hplain _ (List.getLast_mem hne)]
        decide
    | append_singleton rest c ih =>
        rw [← List.append_assoc]
        by_cases hc : isBlank c = true
        · rw [List.rdropWhile_concat_pos _ _ _ hc, List.rdropWhile_concat_pos _ _ _ hc, ih]
        · rw [List.rdropWhile_concat_neg _ _ _ hc, List.rdropWhile_concat_neg _ _ _ hc,
            List.append_assoc]
  rw [trimEnd, hdrop, List.filter_append, hkeep]
  rfl

/-- The path of what is written after the host and a slash. -/
def pathOf (rest : List Nat) : List Nat := (trimEnd rest).takeWhile (!endsPath ·)

/-- A path is read up to a question mark. -/
theorem pathOf_mark (l : List Nat) : pathOf (0x3F :: l) = [] := by
  have htrim : trimEnd ([0x3F] ++ l) = [0x3F] ++ trimEnd l := trimEnd_append (by decide)
  rw [pathOf, show 0x3F :: l = [0x3F] ++ l from rfl, htrim]
  rfl

theorem isBlank_of_plain (h : front.all isPlain = true) : ∀ c ∈ front, isBlank c = false :=
  fun c hc =>
    (Bool.not_eq_true' _).mp (Bool.and_eq_true_iff.mp (List.all_eq_true.mp h c hc)).1

theorem pathOf_append (h : front.all isPlain = true) :
    pathOf (front ++ rest) = front ++ pathOf rest := by
  rw [pathOf, trimEnd_append (isBlank_of_plain h)]
  refine List.takeWhile_append_of_pos fun c hc => ?_
  exact (Bool.and_eq_true_iff.mp (List.all_eq_true.mp h c hc)).2

/-- An address that is written in full, with a host and a slash after it. -/
theorem parse_https (hne : host ≠ []) (hhost : host.all isHostLetter = true) (rest : List Nat) :
    parse (scheme ++ [0x2F, 0x2F] ++ host ++ 0x2F :: rest) =
      some { host, path := resolve [] (segments (pathOf rest)),
             query := readQuery ((trimEnd rest).dropWhile (!endsPath ·)) } := by
  have hletter : ∀ c ∈ host, (c = 0x2E ∨ 0x61 ≤ c ∧ c ≤ 0x7A) := fun c hc => by
    have hc := List.all_eq_true.mp hhost c hc
    simp only [isHostLetter, Bool.or_eq_true, Bool.and_eq_true, decide_eq_true_eq, beq_iff_eq] at hc
    exact hc.symm
  have hhostPlain : host.all isPlain = true := List.all_eq_true.mpr fun c hc => by
    simp only [isPlain, isBlank, endsPath, Bool.and_eq_true, Bool.not_eq_true',
      decide_eq_false_iff_not, Bool.or_eq_false_iff, beq_eq_false_iff_ne]
    have hc := hletter c hc
    omega
  have hplain : (scheme ++ [0x2F, 0x2F] ++ host ++ [0x2F]).all isPlain = true := by
    rw [List.all_append, List.all_append, hhostPlain]
    decide
  have hclean : clean (scheme ++ [0x2F, 0x2F] ++ host ++ 0x2F :: rest) =
      scheme ++ ([0x2F, 0x2F] ++ (host ++ 0x2F :: trimEnd rest)) := by
    have htrim : trimEnd (scheme ++ [0x2F, 0x2F] ++ host ++ [0x2F] ++ rest) =
        scheme ++ [0x2F, 0x2F] ++ host ++ [0x2F] ++ trimEnd rest :=
      trimEnd_append (isBlank_of_plain hplain)
    simp only [List.append_assoc, List.cons_append, List.nil_append] at htrim ⊢
    exact htrim
  have hends : ∀ c ∈ host, (!endsHost c) = true := fun c hc => by
    simp only [endsHost, isSlash, endsPath, Bool.not_eq_true', Bool.or_eq_false_iff,
      beq_eq_false_iff_ne]
    have hc := hletter c hc
    omega
  obtain ⟨c, host', rfl⟩ := List.exists_cons_of_ne_nil hne
  have hslash : isSlash c = false := by
    simp only [isSlash, Bool.or_eq_false_iff, beq_eq_false_iff_ne]
    have hc := hletter c List.mem_cons_self
    omega
  have hdrop : ([0x2F, 0x2F] ++ (c :: host' ++ 0x2F :: trimEnd rest)).dropWhile isSlash =
      c :: host' ++ 0x2F :: trimEnd rest := by
    change List.dropWhile isSlash (c :: (host' ++ _)) = _
    rw [List.dropWhile_cons_of_neg (by rw [hslash]; decide)]
    rfl
  have htake : (c :: host' ++ 0x2F :: trimEnd rest).takeWhile (!endsHost ·) = c :: host' :=
    (List.takeWhile_append_of_pos hends).trans (List.append_nil _)
  have hafter : (c :: host' ++ 0x2F :: trimEnd rest).dropWhile (!endsHost ·) =
      0x2F :: trimEnd rest :=
    List.dropWhile_append_of_pos hends
  rw [parse, hclean, if_pos (List.prefix_append ..), List.drop_left, hdrop]
  simp only [htake, hafter]
  rw [if_pos ⟨hne, hhost⟩]
  rfl

/-! ## Segments -/

theorem segments_ne_nil (l : List Nat) : segments l ≠ [] := fun h =>
  List.splitOnP_ne_nil isSlash l (List.map_eq_nil_iff.mp h)

theorem encodeSegment_append (segment rest : List Nat) :
    encodeSegment (segment ++ rest) = encodeSegment segment ++ encodeSegment rest :=
  List.flatMap_append

theorem encodeSegment_plain (h : ∀ c ∈ front, inPathSet c = false) :
    encodeSegment front = front := by
  induction front with
  | nil => rfl
  | cons c front ih =>
      obtain ⟨hc, hfront⟩ := List.forall_mem_cons.mp h
      rw [encodeSegment, List.flatMap_cons, percentEncode, if_neg (by rw [hc]; decide)]
      exact congrArg (c :: ·) (ih hfront)

theorem segments_single (hslash : ∀ c ∈ front, isSlash c = false)
    (hset : ∀ c ∈ front, inPathSet c = false) : segments front = [front] := by
  rw [segments, List.splitOnP_eq_singleton hslash, List.map_singleton, encodeSegment_plain hset]

theorem segments_slash (hslash : ∀ c ∈ front, isSlash c = false)
    (hset : ∀ c ∈ front, inPathSet c = false) {c : Nat} (hc : isSlash c = true) :
    segments (front ++ c :: rest) = front :: segments rest := by
  rw [segments, List.splitOnP_append_cons_of_forall_mem hslash c hc, List.map_cons,
    encodeSegment_plain hset]
  rfl

/-- What has no slash is put in front of the first segment. -/
theorem segments_front (hslash : ∀ c ∈ front, isSlash c = false)
    (hset : ∀ c ∈ front, inPathSet c = false) (rest : List Nat) :
    ∃ segment rest', segments rest = segment :: rest' ∧
      segments (front ++ rest) = (front ++ segment) :: rest' := by
  obtain ⟨raw, raws, hraw⟩ := List.exists_cons_of_ne_nil (List.splitOnP_ne_nil isSlash rest)
  have hsplit : (front ++ rest).splitOnP isSlash = (front ++ raw) :: raws := by
    induction front with
    | nil => exact hraw
    | cons c front ih =>
        obtain ⟨hc, hfront⟩ := List.forall_mem_cons.mp hslash
        rw [List.cons_append, List.splitOnP_cons_eq_if_modifyHead, if_neg (by rw [hc]; decide),
          ih hfront fun d hd => hset d (List.mem_cons_of_mem c hd)]
        rfl
  refine ⟨encodeSegment raw, raws.map encodeSegment, by rw [segments, hraw]; rfl, ?_⟩
  rw [segments, hsplit, List.map_cons, encodeSegment_append, encodeSegment_plain hset]

theorem forall_mem_splitOnP {p : Nat → Bool} {l : List Nat} :
    ∀ part ∈ l.splitOnP p, ∀ c ∈ part, p c = false := by
  induction l with
  | nil =>
      intro part hpart
      cases List.mem_singleton.mp hpart
      exact List.forall_mem_nil _
  | cons c l ih =>
      rw [List.splitOnP_cons_eq_if_modifyHead]
      cases hc : p c with
      | true =>
          rw [if_pos rfl]
          exact List.forall_mem_cons.mpr ⟨List.forall_mem_nil _, ih⟩
      | false =>
          rw [if_neg Bool.false_ne_true]
          obtain ⟨part, parts, hparts⟩ := List.exists_cons_of_ne_nil (List.splitOnP_ne_nil p l)
          rw [hparts] at ih ⊢
          obtain ⟨hpart, hrest⟩ := List.forall_mem_cons.mp ih
          exact List.forall_mem_cons.mpr ⟨List.forall_mem_cons.mpr ⟨hc, hpart⟩, hrest⟩

theorem hexUpper_ne_slash (d : Nat) : hexUpper d ≠ 0x2F := by
  unfold hexUpper
  split <;> omega

/-- A segment has no slash, nor do its percent codes. -/
theorem slash_not_mem_segments (l : List Nat) : ∀ segment ∈ segments l, 0x2F ∉ segment := by
  intro segment hsegment hslash
  obtain ⟨raw, hraw, rfl⟩ := List.mem_map.mp hsegment
  obtain ⟨c, hc, hencoded⟩ := List.mem_flatMap.mp hslash
  unfold percentEncode at hencoded
  split at hencoded
  · obtain ⟨b, -, hb⟩ := List.mem_flatMap.mp hencoded
    simp only [percentByte, List.mem_cons, List.not_mem_nil, or_false] at hb
    rcases hb with hb | hb | hb
    · cases hb
    · exact hexUpper_ne_slash _ hb.symm
    · exact hexUpper_ne_slash _ hb.symm
  · cases List.mem_singleton.mp hencoded
    cases forall_mem_splitOnP raw hraw 0x2F hc

/-! ## Paths that climb -/

/-- The number of double dots that find no segment before them, and the segments that no double
dot takes away. -/
def standing : List (List Nat) → Nat × List (List Nat)
  | [] => (0, [])
  | segment :: rest =>
      if isDoubleDot segment then
        ((standing rest).1 + 1, (if rest.isEmpty then [[]] else []) ++ (standing rest).2)
      else if isSingleDot segment then
        ((standing rest).1, (if rest.isEmpty then [[]] else []) ++ (standing rest).2)
      else
        match (standing rest).1 with
        | 0 => (0, segment :: (standing rest).2)
        | climbs + 1 => (climbs, (standing rest).2)

/-- The double dots that are left over take away the end of the path before. -/
theorem resolve_standing (path segs : List (List Nat)) :
    resolve path segs = path.take (path.length - (standing segs).1) ++ (standing segs).2 := by
  induction segs generalizing path with
  | nil => rw [resolve, standing, Nat.sub_zero, List.take_length, List.append_nil]
  | cons segment rest ih =>
      have hend : ∀ front : List (List Nat),
          resolve (front ++ if rest.isEmpty then [[]] else []) rest =
            front.take (front.length - (standing rest).1) ++
              ((if rest.isEmpty then [[]] else []) ++ (standing rest).2) := by
        intro front
        cases rest with
        | nil => rw [resolve, standing, Nat.sub_zero, List.take_length, List.append_nil]
        | cons next rest => exact (congrArg (resolve · _) (List.append_nil front)).trans (ih front)
      rw [resolve, push, standing]
      split
      · rw [hend, List.dropLast_eq_take, List.take_take, List.length_take]
        congr 2
        omega
      · split
        · exact hend path
        · rw [ih]
          cases hclimbs : (standing rest).1 with
          | zero =>
              rw [Nat.sub_zero, List.take_length, Nat.sub_zero, List.take_length, List.append_assoc]
              rfl
          | succ climbs =>
              rw [List.length_append, List.length_singleton, Nat.add_sub_add_right,
                List.take_append_of_le_length (Nat.sub_le ..)]

/-- What is left is among the segments, or empty. -/
theorem mem_standing {P : List Nat → Prop} (hnil : P []) (h : ∀ segment ∈ segs, P segment) :
    ∀ segment ∈ (standing segs).2, P segment := by
  induction segs with
  | nil => exact List.forall_mem_nil _
  | cons segment rest ih =>
      obtain ⟨hsegment, hrest⟩ := List.forall_mem_cons.mp h
      have hlast : ∀ s ∈ (if rest.isEmpty then [[]] else []) ++ (standing rest).2, P s := by
        refine List.forall_mem_append.mpr ⟨?_, ih hrest⟩
        split
        · exact List.forall_mem_singleton.mpr hnil
        · exact List.forall_mem_nil _
      rw [standing]
      split
      · exact hlast
      · split
        · exact hlast
        · split
          · exact List.forall_mem_cons.mpr ⟨hsegment, ih hrest⟩
          · exact ih hrest

/-! ## Paths that do not climb -/

/-- The segments that are left where no segment goes up. -/
def tidy : List (List Nat) → List (List Nat)
  | [] => []
  | segment :: rest =>
      (if isSingleDot segment then (if rest.isEmpty then [[]] else []) else [segment]) ++ tidy rest

theorem resolve_eq (path : List (List Nat)) (h : ∀ segment ∈ segs, isDoubleDot segment = false) :
    resolve path segs = path ++ tidy segs := by
  induction segs generalizing path with
  | nil => exact (List.append_nil path).symm
  | cons segment rest ih =>
      obtain ⟨hsegment, hrest⟩ := List.forall_mem_cons.mp h
      rw [resolve, ih _ hrest, push, if_neg (by rw [hsegment]; decide), tidy]
      split <;> rw [List.append_assoc]

theorem tidy_ne_nil (h : segs ≠ []) : tidy segs ≠ [] := by
  induction segs with
  | nil => exact absurd rfl h
  | cons segment rest ih =>
      rw [tidy]
      cases rest with
      | nil =>
          rw [List.isEmpty_nil]
          split <;> exact List.cons_ne_nil _ _
      | cons next rest =>
          exact fun hnil => ih (List.cons_ne_nil _ _) (List.append_eq_nil_iff.mp hnil).2

end Url
