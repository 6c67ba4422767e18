import ArchNameService.Lib.Comparator
import ArchNameService.Lib.Json

/-!
# Values of a program

What JSON carries, and two kinds of values that it does not: `undefined`, and the arrays
of bytes, which are written as the objects of their indices. The numbers are a parameter
with the laws of the safe integers. The members of an object are in the order in which
they were made.
-/

open JsString

/-- Numbers of the language; the laws are about the integers that are safe. -/
class JsNumber (ν : Type) extends JsonNumber ν where
  ofNat : Nat → ν
  nan : ν
  /-- Zero, of either sign, or no number. -/
  falsy : ν → Bool
  /-- The sign of the difference, and zero where there is none. -/
  difference : Comparator ν
  falsy_ofNat : ∀ n < 2 ^ 53, (falsy (ofNat n) = true ↔ n = 0)
  difference_ofNat : ∀ m < 2 ^ 53, ∀ n < 2 ^ 53, (difference (ofNat m) (ofNat n) ≤ 0 ↔ m ≤ n)
  ofText_decimal : ∀ n < 2 ^ 53, ofText (decimal n) = ofNat n
  toText_ofNat : ∀ n < 2 ^ 53, toText (ofNat n) = decimal n
  isFinite_ofNat : ∀ n < 2 ^ 53, isFinite (ofNat n) = true

inductive JsValue (ν : Type) where
  | undefined
  | null
  | bool (b : Bool)
  | number (n : ν)
  | string (s : JsString)
  | uint8Array (bytes : List UInt8)
  | array (items : List (JsValue ν))
  | object (members : List (JsString × JsValue ν))

namespace JsValue

/-! ## Members -/

section Members
variable {α β : Type}

/-- `object[key] = value`: a key that is there keeps its place. -/
def setMember (members : List (JsString × α)) (member : JsString × α) : List (JsString × α) :=
  if (members.map Prod.fst).contains member.1 then
    members.map fun m => if m.1 = member.1 then member else m
  else members ++ [member]

/-- The canonical text of a number below `2 ^ 32 - 1`. -/
def isIndex (key : JsString) : Bool :=
  key == decimal (bigInt key) && bigInt key < 2 ^ 32 - 1

/-- The order of `Object.keys`: the indices come first. -/
def inKeyOrder (members : List (JsString × α)) : List (JsString × α) :=
  (Comparator.onKey (fun m => (bigInt m.1 : Int)) Comparator.numbers).sort
      (members.filter fun m => isIndex m.1) ++
    members.filter fun m => !isIndex m.1

theorem inKeyOrder_perm (members : List (JsString × α)) : (inKeyOrder members).Perm members :=
  ((Comparator.sort_perm ..).append_right _).trans (List.filter_append_perm ..)

theorem setMember_new {members : List (JsString × α)} {member : JsString × α}
    (h : member.1 ∉ members.map Prod.fst) : setMember members member = members ++ [member] :=
  if_neg fun hmem => h (List.contains_iff_mem.mp hmem)

/-- Where no key is written twice, the members are as they are written. -/
theorem foldl_setMember {front members : List (JsString × α)}
    (h : ((front ++ members).map Prod.fst).Nodup) :
    members.foldl setMember front = front ++ members := by
  induction members generalizing front with
  | nil => exact (List.append_nil front).symm
  | cons m members ih =>
      have hnew : m.1 ∉ front.map Prod.fst := by
        rw [List.map_append, List.nodup_append] at h
        exact fun hmem => h.2.2 m.1 hmem m.1 List.mem_cons_self rfl
      rw [List.foldl_cons, setMember_new hnew, ih] <;> rw [List.append_assoc]
      · rfl
      · exact h

theorem lookup_eq_some {members : List (JsString × α)} (h : (members.map Prod.fst).Nodup)
    {key : JsString} {v : α} : members.lookup key = some v ↔ (key, v) ∈ members := by
  induction members with
  | nil => simp
  | cons m members ih =>
      obtain ⟨k, w⟩ := m
      rw [List.map_cons, List.nodup_cons] at h
      rw [List.lookup_cons]
      by_cases hk : key = k
      · subst hk
        have hnot : (key, v) ∉ members := fun hmem =>
          h.1 (List.mem_map.mpr ⟨(key, v), hmem, rfl⟩)
        simp [hnot, eq_comm]
      · rw [beq_false_of_ne hk, ih h.2]
        simp [hk]

theorem lookup_perm {members members' : List (JsString × α)} (h : (members.map Prod.fst).Nodup)
    (hperm : members'.Perm members) (key : JsString) :
    members'.lookup key = members.lookup key := by
  have h' : (members'.map Prod.fst).Nodup := (hperm.map Prod.fst).nodup_iff.mpr h
  apply Option.ext
  intro v
  rw [lookup_eq_some h, lookup_eq_some h', hperm.mem_iff]

/-- The members whose values `f` keeps. -/
def keep (f : α → Option β) (members : List (JsString × α)) : List (JsString × β) :=
  members.filterMap fun m => (f m.2).map fun v => (m.1, v)

theorem keys_keep (f : α → Option β) (members : List (JsString × α)) :
    ((keep f members).map Prod.fst).Sublist (members.map Prod.fst) := by
  induction members with
  | nil => exact List.Sublist.slnil
  | cons m members ih =>
      rw [keep, List.filterMap_cons]
      cases f m.2 with
      | none => exact ih.cons _
      | some w => exact ih.cons_cons _

theorem lookup_keep (f : α → Option β) {members : List (JsString × α)}
    (h : (members.map Prod.fst).Nodup) (key : JsString) :
    (keep f members).lookup key = (members.lookup key).bind f := by
  apply Option.ext
  intro w
  rw [lookup_eq_some ((keys_keep f members).nodup h), keep, List.mem_filterMap]
  constructor
  · rintro ⟨⟨k, v⟩, hmem, hw⟩
    obtain ⟨w', hf, hpair⟩ := Option.map_eq_some_iff.mp hw
    cases hpair
    rw [(lookup_eq_some h).mpr hmem]
    exact hf
  · intro hw
    obtain ⟨v, hv, hf⟩ := Option.bind_eq_some_iff.mp hw
    exact ⟨(key, v), (lookup_eq_some h).mp hv, by rw [hf]; rfl⟩

end Members

section
variable {ν : Type} [JsNumber ν]

/-- `value[key]`, of a key that only objects have. -/
def get (key : JsString) : JsValue ν → JsValue ν
  | .object members => (members.lookup key).getD .undefined
  | _ => .undefined

def ofByte (b : UInt8) : ν := JsNumber.ofNat b.toNat

/-! ## JSON -/

/-- The members that stand for an array of bytes. -/
def indexMembers {α : Type} (number : ν → α) (bytes : List UInt8) : List (JsString × α) :=
  bytes.mapIdx fun i b => (decimal i, number (ofByte b))

mutual

/-- What `JSON.stringify` writes; there is nothing to be written for `undefined`. -/
def toJson : JsValue ν → Option (Json ν)
  | .undefined => none
  | .null => some .null
  | .bool b => some (.bool b)
  | .number n => some (.number n)
  | .string s => some (.string s)
  | .uint8Array bytes => some (.object (indexMembers .number bytes))
  | .array items => some (.array (toJsonItems items))
  | .object members => some (.object (inKeyOrder (toJsonMembers members)))

def toJsonItems : List (JsValue ν) → List (Json ν)
  | [] => []
  | v :: items => (toJson v).getD .null :: toJsonItems items

def toJsonMembers : List (JsString × JsValue ν) → List (JsString × Json ν)
  | [] => []
  | (key, v) :: members =>
      match toJson v with
      | none => toJsonMembers members
      | some j => (key, j) :: toJsonMembers members

end

mutual

/-- What `JSON.parse` makes of its text. -/
def ofJson : Json ν → JsValue ν
  | .null => .null
  | .bool b => .bool b
  | .number n => .number n
  | .string s => .string s
  | .array items => .array (ofJsonItems items)
  | .object members => .object ((ofJsonMembers members).foldl setMember [])

def ofJsonItems : List (Json ν) → List (JsValue ν)
  | [] => []
  | v :: items => ofJson v :: ofJsonItems items

def ofJsonMembers : List (JsString × Json ν) → List (JsString × JsValue ν)
  | [] => []
  | (key, v) :: members => (key, ofJson v) :: ofJsonMembers members

end

def stringify (v : JsValue ν) : Option JsString := (toJson v).map Json.write

def parse (text : JsString) : Option (JsValue ν) := (Json.parse text).map ofJson

/-! ## Through JSON and back -/

/-- The value that is read where this one is written. -/
def throughJson (v : JsValue ν) : Option (JsValue ν) :=
  (toJson v).map fun j => ofJson (Json.reread j)

theorem parse_stringify (v : JsValue ν) : (stringify v).bind parse = throughJson v := by
  unfold stringify throughJson parse
  cases toJson v with
  | none => rfl
  | some j =>
      rw [Option.map_some, Option.bind_some, Json.parse_write]
      rfl

theorem throughJson_number {n : Nat} (h : n < 2 ^ 53) :
    throughJson (.number (JsNumber.ofNat n : ν)) = some (.number (JsNumber.ofNat n)) := by
  rw [throughJson, toJson, Option.map_some, Json.reread, if_pos (JsNumber.isFinite_ofNat n h),
    JsNumber.toText_ofNat n h, JsNumber.ofText_decimal n h]
  rfl

theorem throughJson_array (items : List (JsValue ν)) :
    throughJson (.array items) = some (.array (items.map fun v => (throughJson v).getD .null)) := by
  have hitems : ofJsonItems (Json.rereadItems (toJsonItems items)) =
      items.map fun v => (throughJson v).getD .null := by
    induction items with
    | nil => rfl
    | cons v items ih =>
        rw [toJsonItems, Json.rereadItems, ofJsonItems, ih, List.map_cons, throughJson]
        cases toJson v <;> rfl
  rw [throughJson, toJson, Option.map_some, Json.reread, ofJson, hitems]

theorem ofJson_rereadMembers (members : List (JsString × Json ν)) :
    ofJsonMembers (Json.rereadMembers members) =
      members.map fun m => (m.1, ofJson (Json.reread m.2)) := by
  induction members with
  | nil => rfl
  | cons m members ih => exact congrArg _ ih

/-- Where no key is written twice, the object that is read has the members of the text. -/
theorem ofJson_object {members : List (JsString × Json ν)} (h : (members.map Prod.fst).Nodup) :
    ofJson (Json.reread (.object members)) =
      .object (members.map fun m => (m.1, ofJson (Json.reread m.2))) := by
  rw [Json.reread, ofJson, ofJson_rereadMembers, foldl_setMember, List.nil_append]
  rw [List.nil_append, List.map_map]
  exact h

theorem toJsonMembers_eq (members : List (JsString × JsValue ν)) :
    toJsonMembers members = keep toJson members := by
  induction members with
  | nil => rfl
  | cons m members ih =>
      obtain ⟨key, v⟩ := m
      rw [toJsonMembers, keep, List.filterMap_cons, ih]
      cases toJson v <;> rfl

/-- The object that is read has the members that were written, in the order of the keys. -/
theorem throughJson_object {members : List (JsString × JsValue ν)}
    (h : (members.map Prod.fst).Nodup) : ∃ members',
      throughJson (.object members) = some (.object members') ∧
        members'.Perm (keep throughJson members) := by
  have hperm : (inKeyOrder (toJsonMembers members)).Perm (keep toJson members) := by
    rw [← toJsonMembers_eq]
    exact inKeyOrder_perm _
  have hnodup : ((inKeyOrder (toJsonMembers members)).map Prod.fst).Nodup :=
    (hperm.map Prod.fst).nodup_iff.mpr ((keys_keep toJson members).nodup h)
  refine ⟨(inKeyOrder (toJsonMembers members)).map fun m => (m.1, ofJson (Json.reread m.2)), ?_, ?_⟩
  · rw [throughJson, toJson, Option.map_some, ofJson_object hnodup]
  · refine (hperm.map _).trans (.of_eq ?_)
    rw [keep, keep, List.map_filterMap]
    apply List.filterMap_congr
    intro m hm
    rw [throughJson]
    cases toJson m.2 <;> rfl

theorem keys_indexMembers {α : Type} (number : ν → α) (bytes : List UInt8) :
    (indexMembers number bytes).map Prod.fst = (List.range bytes.length).map decimal := by
  apply List.ext_getElem
  · rw [List.length_map, List.length_map, List.length_range, indexMembers, List.length_mapIdx]
  · intro i hi hi'
    simp [indexMembers]

theorem nodup_indexMembers {α : Type} (number : ν → α) (bytes : List UInt8) :
    ((indexMembers number bytes).map Prod.fst).Nodup := by
  rw [keys_indexMembers]
  exact List.nodup_range.map (Function.LeftInverse.injective bigInt_decimal)

theorem throughJson_ofByte (b : UInt8) :
    throughJson (.number (ofByte b : ν)) = some (.number (ofByte b)) :=
  throughJson_number (Nat.lt_trans b.toNat_lt (by decide))

/-- An array of bytes is read as the object of its indices. -/
theorem throughJson_uint8Array (bytes : List UInt8) :
    throughJson (.uint8Array bytes : JsValue ν) = some (.object (indexMembers .number bytes)) := by
  have hbyte : ∀ b : UInt8, ofJson (Json.reread (.number (ofByte b : ν))) = .number (ofByte b) := by
    intro b
    have hb := throughJson_ofByte (ν := ν) b
    rwa [throughJson, toJson, Option.map_some, Option.some.injEq] at hb
  have hmembers : ((indexMembers .number bytes).map fun m : JsString × Json ν =>
      (m.1, ofJson (Json.reread m.2))) = indexMembers .number bytes := by
    apply List.ext_getElem
    · simp only [indexMembers, List.length_map, List.length_mapIdx]
    · intro i hi hi'
      simp only [indexMembers, List.getElem_map, List.getElem_mapIdx, hbyte]
  rw [throughJson, toJson, Option.map_some, ofJson_object (nodup_indexMembers ..), hmembers]

end

end JsValue
