import Mathlib.Data.Vector.Basic

/-! Byte arrays of a fixed length, little-endian words, and UTF-8 validity. -/

/-- A byte array whose length is part of its type, as `[u8; n]`. -/
abbrev Bytes (n : Nat) := List.Vector UInt8 n

namespace Bytes

/-- The array of `n` equal bytes. -/
def fill (n : Nat) (b : UInt8) : Bytes n := ⟨List.replicate n b, List.length_replicate⟩

def ofList? (n : Nat) (bs : List UInt8) : Option (Bytes n) :=
  if h : bs.length = n then some ⟨bs, h⟩ else none

theorem ofList?_eq_some {n : Nat} {bs : List UInt8} {v : Bytes n} :
    ofList? n bs = some v ↔ bs = v.toList := by
  unfold ofList?
  split
  · rename_i h
    constructor
    · intro e
      cases e
      rfl
    · intro e
      exact congrArg some (Subtype.ext e)
  · rename_i h
    refine ⟨fun e => (nomatch e), fun e => absurd ?_ h⟩
    rw [e, List.Vector.toList_length]

theorem toList_injective {n : Nat} : Function.Injective (List.Vector.toList (α := UInt8) (n := n)) :=
  fun _ _ h => Subtype.ext h

/-- A field of a known length is told from what follows it. -/
theorem append_inj {n : Nat} {a b : Bytes n} {rest rest' : List UInt8}
    (h : a.toList ++ rest = b.toList ++ rest') : a = b ∧ rest = rest' := by
  obtain ⟨hfield, hrest⟩ := List.append_inj h (by rw [a.toList_length, b.toList_length])
  exact ⟨toList_injective hfield, hrest⟩

end Bytes

/-! ## Little-endian words -/

/-- The low `w` bytes of a number, least significant first. -/
def leBytes : Nat → Nat → List UInt8
  | 0, _ => []
  | w+1, x => UInt8.ofNat x :: leBytes w (x / 256)

/-- The number a little-endian byte string stands for. -/
def leNat : List UInt8 → Nat
  | [] => 0
  | b :: bs => b.toNat + 256 * leNat bs

@[simp] theorem length_leBytes (w x : Nat) : (leBytes w x).length = w := by
  induction w generalizing x with
  | zero => rfl
  | succ w ih => exact congrArg Nat.succ (ih (x / 256))

theorem leNat_lt (bs : List UInt8) : leNat bs < 256 ^ bs.length := by
  induction bs with
  | nil => exact Nat.one_pos
  | cons b bs ih =>
      have hb : b.toNat < 256 := b.toNat_lt
      simp only [leNat, List.length_cons, pow_succ]
      omega

theorem leBytes_leNat (bs : List UInt8) : leBytes bs.length (leNat bs) = bs := by
  induction bs with
  | nil => rfl
  | cons b bs ih =>
      have hb : b.toNat < 256 := b.toNat_lt
      have hhead : UInt8.ofNat (b.toNat + 256 * leNat bs) = b := by
        apply UInt8.toNat_inj.mp
        simp only [UInt8.toNat_ofNat']
        omega
      have htail : (b.toNat + 256 * leNat bs) / 256 = leNat bs := by omega
      simp only [List.length_cons, leBytes, leNat, hhead, htail, ih]

theorem leNat_leBytes (w x : Nat) : leNat (leBytes w x) = x % 256 ^ w := by
  induction w generalizing x with
  | zero => simp only [leBytes, leNat, pow_zero, Nat.mod_one]
  | succ w ih =>
      have hsplit : x % 256 ^ (w + 1) = x % 256 + 256 * (x / 256 % 256 ^ w) := by
        rw [pow_succ, Nat.mul_comm, Nat.mod_mul]
      simp only [leBytes, leNat, ih, UInt8.toNat_ofNat', hsplit]

theorem leNat_leBytes_of_lt {w x : Nat} (h : x < 256 ^ w) : leNat (leBytes w x) = x := by
  rw [leNat_leBytes, Nat.mod_eq_of_lt h]

/-! ## UTF-8 -/

/-- Where a UTF-8 reader stands: between scalar values, or inside one with
`needed + 1` bytes to come, the next of which lies in `[lower, upper]`. -/
inductive Utf8State where
  | start
  | inside (needed : Nat) (lower upper : UInt8)
  deriving DecidableEq

/-- One byte of the Unicode table of well-formed UTF-8 byte sequences. -/
def utf8Step : Utf8State → UInt8 → Option Utf8State
  | .start, b =>
      if b < 0x80 then some .start
      else if 0xC2 ≤ b ∧ b ≤ 0xDF then some (.inside 0 0x80 0xBF)
      else if b = 0xE0 then some (.inside 1 0xA0 0xBF)
      else if b = 0xED then some (.inside 1 0x80 0x9F)
      else if 0xE1 ≤ b ∧ b ≤ 0xEF then some (.inside 1 0x80 0xBF)
      else if b = 0xF0 then some (.inside 2 0x90 0xBF)
      else if b = 0xF4 then some (.inside 2 0x80 0x8F)
      else if 0xF1 ≤ b ∧ b ≤ 0xF3 then some (.inside 2 0x80 0xBF)
      else none
  | .inside needed lower upper, b =>
      if lower ≤ b ∧ b ≤ upper then
        match needed with
        | 0 => some .start
        | n+1 => some (.inside n 0x80 0xBF)
      else none

def utf8Run : Utf8State → List UInt8 → Option Utf8State
  | s, [] => some s
  | s, b :: bs => match utf8Step s b with
      | some s' => utf8Run s' bs
      | none => none

def validUtf8 (bs : List UInt8) : Bool := decide (utf8Run .start bs = some .start)

/-- A string of ASCII bytes is well formed. -/
theorem validUtf8_of_ascii {bs : List UInt8} (h : ∀ b ∈ bs, b < 0x80) : validUtf8 bs = true := by
  suffices hrun : utf8Run .start bs = some .start by simpa only [validUtf8, decide_eq_true_eq] using hrun
  induction bs with
  | nil => rfl
  | cons b bs ih =>
      have hb : utf8Step .start b = some .start := if_pos (h b List.mem_cons_self)
      simp only [utf8Run, hb]
      exact ih (fun c hc => h c (List.mem_cons_of_mem b hc))
