import ArchNameService.Lib.Bytes
import Mathlib.Logic.Equiv.Defs

/-!
# The Borsh format

A decoder consumes a prefix of the input. A `Borsh` type is one whose decoder
accepts exactly its encodings, so that decoding is strict and encodings are
unique. Products, tagged unions, strings and vectors inherit the law, and a
record receives it from the tuple of its fields.
-/

/-- A reader that consumes a prefix of the bytes, or fails. -/
abbrev Decoder (α : Type) := StateT (List UInt8) Option α

namespace Decoder

theorem bind_eq_some {α β : Type} {p : Decoder α} {f : α → Decoder β} {bs rest : List UInt8}
    {b : β} :
    (p >>= f) bs = some (b, rest) ↔ ∃ a mid, p bs = some (a, mid) ∧ f a mid = some (b, rest) := by
  change (p bs).bind (fun x => f x.1 x.2) = some (b, rest) ↔ _
  simp only [Option.bind_eq_some_iff, Prod.exists]

theorem pure_eq_some {α : Type} {a b : α} {bs rest : List UInt8} :
    (pure a : Decoder α) bs = some (b, rest) ↔ a = b ∧ bs = rest := by
  change some (a, bs) = some (b, rest) ↔ _
  simp only [Option.some.injEq, Prod.mk.injEq]

/-- The first `n` bytes. -/
def take (n : Nat) : Decoder (List UInt8) := fun bs =>
  if n ≤ bs.length then some (bs.take n, bs.drop n) else none

theorem take_eq_some {n : Nat} {bs front rest : List UInt8} :
    take n bs = some (front, rest) ↔ front.length = n ∧ bs = front ++ rest := by
  unfold take
  split
  · rename_i h
    simp only [Option.some.injEq, Prod.mk.injEq]
    constructor
    · rintro ⟨rfl, rfl⟩
      exact ⟨List.length_take_of_le h, (List.take_append_drop n bs).symm⟩
    · rintro ⟨rfl, rfl⟩
      exact ⟨List.take_left, List.drop_left⟩
  · rename_i h
    refine ⟨fun e => (nomatch e), ?_⟩
    rintro ⟨rfl, rfl⟩
    exact absurd (by simp only [List.length_append, Nat.le_add_right]) h

/-- Reads through `f` and fails where `f` refuses. -/
def filterMap {α β : Type} (p : Decoder α) (f : α → Option β) : Decoder β := fun bs =>
  (p bs).bind fun x => (f x.1).map fun b => (b, x.2)

theorem filterMap_eq_some {α β : Type} {p : Decoder α} {f : α → Option β}
    {bs rest : List UInt8} {b : β} :
    filterMap p f bs = some (b, rest) ↔ ∃ a, p bs = some (a, rest) ∧ f a = some b := by
  simp only [filterMap, Option.bind_eq_some_iff, Option.map_eq_some_iff, Prod.mk.injEq,
    Prod.exists]
  constructor
  · rintro ⟨a, mid, hp, b', hf, rfl, rfl⟩
    exact ⟨a, hp, hf⟩
  · rintro ⟨a, hp, hf⟩
    exact ⟨a, rest, hp, b, hf, rfl, rfl⟩

/-- Exactly `n` values in a row. -/
def replicate {α : Type} (p : Decoder α) : Nat → Decoder (List α)
  | 0 => pure []
  | n+1 => do
      let a ← p
      let as ← replicate p n
      pure (a :: as)

end Decoder

/-- A type with a Borsh encoding that its decoder inverts exactly. -/
class Borsh (α : Type) where
  serialize : α → List UInt8
  deserialize : Decoder α
  deserialize_iff : ∀ bs a rest, deserialize bs = some (a, rest) ↔ bs = serialize a ++ rest

namespace Borsh

variable {α β : Type} [Borsh α] [Borsh β]

@[simp] theorem deserialize_append (a : α) (rest : List UInt8) :
    deserialize (serialize a ++ rest) = some (a, rest) :=
  (deserialize_iff _ a rest).mpr rfl

/-- The whole input as one value: `from_slice` refuses what is left over. -/
def fromSlice (bs : List UInt8) : Option α :=
  match deserialize (α := α) bs with
  | some (a, []) => some a
  | _ => none

theorem fromSlice_eq_some {bs : List UInt8} {a : α} : fromSlice bs = some a ↔ bs = serialize a := by
  have hiff := deserialize_iff bs a []
  rw [List.append_nil] at hiff
  rw [← hiff]
  unfold fromSlice
  split
  · rename_i a' h
    simp only [h, Option.some.injEq, Prod.mk.injEq, and_true]
  · rename_i h
    exact ⟨fun e => (nomatch e), fun e => absurd e (h a)⟩

@[simp] theorem fromSlice_serialize (a : α) : fromSlice (serialize a) = some a :=
  fromSlice_eq_some.mpr rfl

theorem serialize_injective : Function.Injective (serialize (α := α)) := by
  intro a b h
  have ha := fromSlice_serialize a
  rw [h, fromSlice_serialize] at ha
  exact (Option.some.inj ha).symm

/-- No encoding is the front of another one. -/
theorem append_inj {a b : α} {rest rest' : List UInt8}
    (h : serialize a ++ rest = serialize b ++ rest') : a = b ∧ rest = rest' := by
  have hread := deserialize_append a rest
  rw [h, deserialize_append] at hread
  cases hread
  exact ⟨rfl, rfl⟩

/-! ## Scalars -/

/-- A word of `w` bytes given by its number. -/
@[reducible] def word (w : Nat) (toNat : α → Nat) (ofNat : Nat → α)
    (hlt : ∀ a, toNat a < 256 ^ w) (hof : ∀ a, ofNat (toNat a) = a)
    (hto : ∀ x, x < 256 ^ w → toNat (ofNat x) = x) : Borsh α where
  serialize a := leBytes w (toNat a)
  deserialize := (Decoder.take w).filterMap fun bs => some (ofNat (leNat bs))
  deserialize_iff := by
    intro bs a rest
    simp only [Decoder.filterMap_eq_some, Decoder.take_eq_some, Option.some.injEq]
    constructor
    · rintro ⟨front, ⟨hlen, rfl⟩, rfl⟩
      have hbound := leNat_lt front
      rw [hlen] at hbound
      have hfront := leBytes_leNat front
      rw [hlen] at hfront
      rw [hto _ hbound, hfront]
    · rintro rfl
      refine ⟨_, ⟨length_leBytes w _, rfl⟩, ?_⟩
      rw [leNat_leBytes_of_lt (hlt a), hof]

instance : Borsh UInt8 :=
  word 1 UInt8.toNat UInt8.ofNat (fun a => a.toNat_lt) (fun _ => UInt8.ofNat_toNat)
    fun _ h => UInt8.toNat_ofNat_of_lt' h

instance : Borsh UInt16 :=
  word 2 UInt16.toNat UInt16.ofNat (fun a => a.toNat_lt) (fun _ => UInt16.ofNat_toNat)
    fun _ h => UInt16.toNat_ofNat_of_lt' h

instance : Borsh UInt32 :=
  word 4 UInt32.toNat UInt32.ofNat (fun a => a.toNat_lt) (fun _ => UInt32.ofNat_toNat)
    fun _ h => UInt32.toNat_ofNat_of_lt' h

instance : Borsh UInt64 :=
  word 8 UInt64.toNat UInt64.ofNat (fun a => a.toNat_lt) (fun _ => UInt64.ofNat_toNat)
    fun _ h => UInt64.toNat_ofNat_of_lt' h

@[simp] theorem length_u8 (x : UInt8) : (serialize x).length = 1 := length_leBytes 1 _
@[simp] theorem length_u16 (x : UInt16) : (serialize x).length = 2 := length_leBytes 2 _
@[simp] theorem length_u32 (x : UInt32) : (serialize x).length = 4 := length_leBytes 4 _
@[simp] theorem length_u64 (x : UInt64) : (serialize x).length = 8 := length_leBytes 8 _

instance bytes (n : Nat) : Borsh (Bytes n) where
  serialize v := v.toList
  deserialize := (Decoder.take n).filterMap (Bytes.ofList? n)
  deserialize_iff := by
    intro bs v rest
    simp only [Decoder.filterMap_eq_some, Decoder.take_eq_some, Bytes.ofList?_eq_some]
    constructor
    · rintro ⟨front, ⟨-, rfl⟩, rfl⟩
      rfl
    · rintro rfl
      exact ⟨v.toList, ⟨v.toList_length, rfl⟩, rfl⟩

@[simp] theorem length_bytes {n : Nat} (v : Bytes n) : (serialize v).length = n := v.toList_length

/-! ## Products and records -/

instance prod : Borsh (α × β) where
  serialize x := serialize x.1 ++ serialize x.2
  deserialize := do
    let a ← deserialize
    let b ← deserialize
    pure (a, b)
  deserialize_iff := by
    rintro bs ⟨a, b⟩ rest
    simp only [Decoder.bind_eq_some, Decoder.pure_eq_some, deserialize_iff, Prod.mk.injEq]
    constructor
    · rintro ⟨a, mid, rfl, b, rest, rfl, ⟨rfl, rfl⟩, rfl⟩
      exact (List.append_assoc _ _ _).symm
    · rintro rfl
      exact ⟨a, _, List.append_assoc _ _ _, b, rest, rfl, ⟨rfl, rfl⟩, rfl⟩

@[simp] theorem length_prod (x : α × β) :
    (serialize x).length = (serialize x.1).length + (serialize x.2).length :=
  List.length_append

/-- A layout of `n` bytes that every `n` bytes follow. -/
def Total (α : Type) [Borsh α] (n : Nat) : Prop :=
  ∀ bs : List UInt8, bs.length = n → ∃ a : α, serialize a = bs

theorem Total.bytes (n : Nat) : Total (Bytes n) n := fun bs h => ⟨⟨bs, h⟩, rfl⟩

theorem Total.u16 : Total UInt16 2 := by
  intro bs h
  have hlt := leNat_lt bs
  have hinverse := leBytes_leNat bs
  rw [h] at hlt hinverse
  refine ⟨UInt16.ofNat (leNat bs), ?_⟩
  change leBytes 2 (UInt16.ofNat (leNat bs)).toNat = bs
  rw [UInt16.toNat_ofNat_of_lt' hlt, hinverse]

theorem Total.u64 : Total UInt64 8 := by
  intro bs h
  have hlt := leNat_lt bs
  have hinverse := leBytes_leNat bs
  rw [h] at hlt hinverse
  refine ⟨UInt64.ofNat (leNat bs), ?_⟩
  change leBytes 8 (UInt64.ofNat (leNat bs)).toNat = bs
  rw [UInt64.toNat_ofNat_of_lt' hlt, hinverse]

theorem Total.prod {m n : Nat} (ha : Total α m) (hb : Total β n) : Total (α × β) (m + n) := by
  intro bs h
  obtain ⟨a, hfront⟩ := ha (bs.take m) (List.length_take_of_le (by omega))
  obtain ⟨b, hback⟩ := hb (bs.drop m) (by rw [List.length_drop]; omega)
  refine ⟨(a, b), ?_⟩
  change serialize a ++ serialize b = bs
  rw [hfront, hback, List.take_append_drop]

/-- A record is encoded as the tuple of its fields. -/
@[reducible] def ofEquiv {γ : Type} (e : γ ≃ α) : Borsh γ where
  serialize c := serialize (e c)
  deserialize := (deserialize (α := α)).filterMap fun a => some (e.symm a)
  deserialize_iff := by
    intro bs c rest
    simp only [Decoder.filterMap_eq_some, deserialize_iff, Option.some.injEq]
    constructor
    · rintro ⟨a, rfl, rfl⟩
      rw [Equiv.apply_symm_apply]
    · rintro rfl
      exact ⟨e c, rfl, e.symm_apply_apply c⟩

/-! ## Tagged unions -/

/-- One of `n` variants, by its index. -/
@[reducible] def tag (n : Nat) (hn : n ≤ 256) : Borsh (Fin n) where
  serialize i := [UInt8.ofNat i.val]
  deserialize := (Decoder.take 1).filterMap fun bs =>
    if h : leNat bs < n then some ⟨leNat bs, h⟩ else none
  deserialize_iff := by
    intro bs i rest
    simp only [Decoder.filterMap_eq_some, Decoder.take_eq_some, Option.dite_none_right_eq_some,
      Option.some.injEq]
    constructor
    · rintro ⟨front, ⟨hlen, rfl⟩, _, rfl⟩
      have hfront := leBytes_leNat front
      rw [hlen] at hfront
      exact congrArg (· ++ rest) hfront.symm
    · rintro rfl
      have hi : leNat [UInt8.ofNat i.val] = i.val := by
        have hlt : i.val < 256 := Nat.lt_of_lt_of_le i.isLt hn
        simp only [leNat, UInt8.toNat_ofNat_of_lt' hlt, Nat.mul_zero, Nat.add_zero]
      exact ⟨_, ⟨rfl, rfl⟩, by rw [hi]; exact i.isLt, Fin.ext hi⟩

instance : Borsh Bool :=
  letI := tag 2 (by decide)
  ofEquiv (α := Fin 2)
    { toFun := fun b => if b then 1 else 0
      invFun := fun i => decide (i = 1)
      left_inv := by intro b; cases b <;> rfl
      right_inv := by intro i; revert i; decide }

@[simp] theorem length_bool (b : Bool) : (serialize b).length = 1 := by cases b <;> rfl

/-- A tag followed by the payload that belongs to it. -/
instance sigma {τ : Type} [Borsh τ] {payload : τ → Type} [∀ t, Borsh (payload t)] :
    Borsh (Σ t, payload t) where
  serialize x := serialize x.1 ++ serialize x.2
  deserialize := do
    let t ← deserialize
    let p ← deserialize (α := payload t)
    pure ⟨t, p⟩
  deserialize_iff := by
    rintro bs ⟨t, p⟩ rest
    simp only [Decoder.bind_eq_some, Decoder.pure_eq_some, deserialize_iff]
    constructor
    · rintro ⟨t, mid, rfl, p, rest, rfl, h, rfl⟩
      cases h
      exact (List.append_assoc _ _ _).symm
    · rintro rfl
      exact ⟨t, _, List.append_assoc _ _ _, p, rest, rfl, rfl, rfl⟩

instance : Borsh Unit where
  serialize _ := []
  deserialize := pure ()
  deserialize_iff := by
    intro bs _ rest
    simp only [Decoder.pure_eq_some, true_and, List.nil_append]

/-- What follows the presence byte of an option. -/
def OptionPayload (α : Type) : Bool → Type
  | false => Unit
  | true => α

instance {α : Type} [Borsh α] : ∀ present, Borsh (OptionPayload α present)
  | false => inferInstanceAs (Borsh Unit)
  | true => inferInstanceAs (Borsh α)

instance {α : Type} [Borsh α] : Borsh (Option α) :=
  ofEquiv (α := Σ present, OptionPayload α present)
    { toFun := fun | none => ⟨false, ()⟩ | some a => ⟨true, a⟩
      invFun := fun | ⟨false, _⟩ => none | ⟨true, a⟩ => some a
      left_inv := by intro o; cases o <;> rfl
      right_inv := by rintro ⟨present, p⟩; cases present <;> rfl }

/-! ## Strings and vectors -/

/-- A string as the wire carries it: UTF-8, of a length that its `u32` prefix can hold. -/
structure Str where
  bytes : List UInt8
  utf8 : validUtf8 bytes = true
  fits : bytes.length < 2 ^ 32
  deriving DecidableEq

@[ext] theorem Str.ext {s t : Str} (h : s.bytes = t.bytes) : s = t := by
  cases s
  cases t
  cases h
  rfl

def Str.ofBytes? (bs : List UInt8) : Option Str :=
  if h : validUtf8 bs = true ∧ bs.length < 2 ^ 32 then some ⟨bs, h.1, h.2⟩ else none

theorem Str.ofBytes?_eq_some {bs : List UInt8} {s : Str} : ofBytes? bs = some s ↔ bs = s.bytes := by
  unfold ofBytes?
  split
  · rename_i h
    constructor
    · intro e
      cases e
      rfl
    · intro e
      exact congrArg some (Str.ext e)
  · rename_i h
    refine ⟨fun e => (nomatch e), fun e => absurd ⟨?_, ?_⟩ h⟩
    · rw [e, s.utf8]
    · rw [e]; exact s.fits

theorem u32_toNat_ofNat {n : Nat} (h : n < 2 ^ 32) : (UInt32.ofNat n).toNat = n :=
  UInt32.toNat_ofNat_of_lt' h

instance : Borsh Str where
  serialize s := serialize (UInt32.ofNat s.bytes.length) ++ s.bytes
  deserialize := do
    let len : UInt32 ← deserialize
    (Decoder.take len.toNat).filterMap Str.ofBytes?
  deserialize_iff := by
    intro bs s rest
    simp only [Decoder.bind_eq_some, Decoder.filterMap_eq_some, Decoder.take_eq_some,
      deserialize_iff, Str.ofBytes?_eq_some]
    constructor
    · rintro ⟨len, mid, rfl, front, ⟨hlen, rfl⟩, rfl⟩
      have hlen' : UInt32.ofNat s.bytes.length = len := by rw [hlen, UInt32.ofNat_toNat]
      rw [hlen', List.append_assoc]
    · rintro rfl
      exact ⟨_, _, List.append_assoc _ _ _, s.bytes, ⟨(u32_toNat_ofNat s.fits).symm, rfl⟩, rfl⟩

@[simp] theorem length_str (s : Str) : (serialize s).length = 4 + s.bytes.length := by
  change (serialize (UInt32.ofNat s.bytes.length) ++ s.bytes).length = _
  rw [List.length_append, length_u32]

/-- A vector as the wire carries it: of a length that its `u32` prefix can hold. -/
structure Vec (α : Type) where
  items : List α
  fits : items.length < 2 ^ 32
  deriving DecidableEq

def Vec.empty : Vec α := ⟨[], Nat.two_pow_pos 32⟩

/-- The concatenated encodings of the items. -/
def serializeAll : List α → List UInt8
  | [] => []
  | a :: as => serialize a ++ serializeAll as

theorem serialize_u8 (b : UInt8) : serialize b = [b] :=
  congrArg (fun x => [x]) UInt8.ofNat_toNat

theorem serializeAll_u8 (bytes : List UInt8) : serializeAll bytes = bytes := by
  induction bytes with
  | nil => rfl
  | cons b bytes ih => rw [serializeAll, serialize_u8, ih, List.singleton_append]

theorem replicate_iff {n : Nat} {bs rest : List UInt8} {as : List α} :
    Decoder.replicate deserialize n bs = some (as, rest) ↔
      as.length = n ∧ bs = serializeAll as ++ rest := by
  induction n generalizing bs as rest with
  | zero =>
      simp only [Decoder.replicate, Decoder.pure_eq_some, List.length_eq_zero_iff]
      constructor
      · rintro ⟨rfl, rfl⟩
        exact ⟨rfl, rfl⟩
      · rintro ⟨rfl, rfl⟩
        exact ⟨rfl, rfl⟩
  | succ n ih =>
      simp only [Decoder.replicate, Decoder.bind_eq_some, Decoder.pure_eq_some, deserialize_iff, ih]
      constructor
      · rintro ⟨a, mid, rfl, as, mid', ⟨rfl, rfl⟩, rfl, rfl⟩
        exact ⟨rfl, (List.append_assoc _ _ _).symm⟩
      · rintro ⟨hlen, rfl⟩
        cases as with
        | nil => exact nomatch hlen
        | cons a as =>
            exact ⟨a, _, List.append_assoc _ _ _, as, rest,
              ⟨Nat.succ.inj hlen, rfl⟩, rfl, rfl⟩

instance : Borsh (Vec α) where
  serialize v := serialize (UInt32.ofNat v.items.length) ++ serializeAll v.items
  deserialize := do
    let len : UInt32 ← deserialize
    (Decoder.replicate deserialize len.toNat).filterMap fun as =>
      if h : as.length < 2 ^ 32 then some ⟨as, h⟩ else none
  deserialize_iff := by
    intro bs v rest
    simp only [Decoder.bind_eq_some, Decoder.filterMap_eq_some, replicate_iff, deserialize_iff,
      Option.dite_none_right_eq_some, Option.some.injEq]
    constructor
    · rintro ⟨len, mid, rfl, as, ⟨hlen, rfl⟩, _, rfl⟩
      have hlen' : UInt32.ofNat as.length = len := by rw [hlen, UInt32.ofNat_toNat]
      rw [hlen', List.append_assoc]
    · rintro rfl
      exact ⟨_, _, List.append_assoc _ _ _, v.items, ⟨(u32_toNat_ofNat v.fits).symm, rfl⟩,
        v.fits, rfl⟩

@[simp] theorem length_vec_empty : (serialize (Vec.empty : Vec α)).length = 4 := rfl

end Borsh
