import Mathlib.Data.List.Induction
import Mathlib.Data.Nat.Bitwise

/-!
# Bech32 and Bech32m

The text form of words of five bits under a prefix, with its checksum, and the
regrouping of bytes into words. The checksum is linear in exclusive or: what the
encoder appends is what brings the remainder to the constant of the variant.
-/

namespace Bech32

/-! ## The checksum -/

def tap (c i g : Nat) : Nat := if c.testBit i then g else 0

/-- One step of the remainder modulo the generator. -/
def step (c : Nat) : Nat :=
  ((c &&& (2 ^ 25 - 1)) <<< 5) ^^^ tap c 25 0x3b6a57b2 ^^^ tap c 26 0x26508e6d ^^^
    tap c 27 0x1ea119fa ^^^ tap c 28 0x3d4233dd ^^^ tap c 29 0x2a1462b3

def polymod (c : Nat) (words : List Nat) : Nat := words.foldl (fun c w => step c ^^^ w) c

/-- The words of the prefix that enter the checksum. -/
def expand (hrp : List UInt8) : List Nat :=
  hrp.map (fun b => b.toNat / 32) ++ [0] ++ hrp.map fun b => b.toNat % 32

/-- Six words, the highest first. -/
def wordsOf (m : Nat) : List Nat :=
  [m >>> 25 % 32, m >>> 20 % 32, m >>> 15 % 32, m >>> 10 % 32, m >>> 5 % 32, m % 32]

def checksum (const : Nat) (hrp : List UInt8) (words : List Nat) : List Nat :=
  wordsOf (polymod 1 (expand hrp ++ words ++ [0, 0, 0, 0, 0, 0]) ^^^ const)

theorem tap_xor (a b i g : Nat) : tap (a ^^^ b) i g = tap a i g ^^^ tap b i g := by
  unfold tap
  rw [Nat.testBit_xor]
  cases a.testBit i <;> cases b.testBit i <;> simp

theorem step_xor (a b : Nat) : step (a ^^^ b) = step a ^^^ step b := by
  simp only [step, tap_xor, Nat.and_xor_distrib_right, Nat.shiftLeft_xor_distrib]
  ac_rfl

/-- The remainder of a sum is the sum of the remainders. -/
theorem polymod_xor (a b : Nat) (vs ws : List Nat) (h : vs.length = ws.length) :
    polymod (a ^^^ b) (List.zipWith (· ^^^ ·) vs ws) = polymod a vs ^^^ polymod b ws := by
  induction vs generalizing a b ws with
  | nil =>
      rw [List.length_nil] at h
      rw [List.length_eq_zero_iff.mp h.symm]
      rfl
  | cons v vs ih =>
      cases ws with
      | nil => exact nomatch h
      | cons w ws =>
          simp only [polymod, List.zipWith_cons_cons, List.foldl_cons]
          have hstep : step (a ^^^ b) ^^^ (v ^^^ w) = (step a ^^^ v) ^^^ (step b ^^^ w) := by
            rw [step_xor]
            ac_rfl
          rw [hstep]
          exact ih _ _ _ (Nat.succ.inj h)

/-- The bits of a word lie below those that are shifted up. -/
theorem shift_xor {c w : Nat} (hw : w < 32) : c <<< 5 ^^^ w = c * 32 + w := by
  have hdisjoint : c <<< 5 ^^^ w = c <<< 5 ||| w := by
    apply Nat.eq_of_testBit_eq
    intro i
    rw [Nat.testBit_xor, Nat.testBit_or, Nat.testBit_shiftLeft]
    by_cases hi : 5 ≤ i
    · have hzero : w.testBit i = false :=
        Nat.testBit_lt_two_pow (Nat.lt_of_lt_of_le hw (Nat.pow_le_pow_right (n := 2) (by decide) hi))
      rw [hzero, Bool.xor_false, Bool.or_false]
    · rw [decide_eq_false hi, Bool.false_and, Bool.false_xor, Bool.false_or]
  rw [hdisjoint, ← Nat.shiftLeft_add_eq_or_of_lt hw, Nat.shiftLeft_eq]

/-- A word is shifted in below a small remainder. -/
theorem step_small {c w : Nat} (hc : c < 2 ^ 25) (hw : w < 32) : step c ^^^ w = c * 32 + w := by
  have htap : ∀ i g, 25 ≤ i → tap c i g = 0 := by
    intro i g hi
    unfold tap
    rw [Nat.testBit_lt_two_pow (Nat.lt_of_lt_of_le hc (Nat.pow_le_pow_right (by decide) hi))]
    rfl
  rw [step, htap 25 _ (by decide), htap 26 _ (by decide), htap 27 _ (by decide),
    htap 28 _ (by decide), htap 29 _ (by decide), Nat.and_two_pow_sub_one_of_lt_two_pow hc]
  simp only [Nat.xor_zero]
  exact shift_xor hw

theorem tap_lt (c i : Nat) {g : Nat} (hg : g < 2 ^ 30) : tap c i g < 2 ^ 30 := by
  unfold tap
  split
  · exact hg
  · decide

theorem step_lt (c : Nat) : step c < 2 ^ 30 := by
  have hlow : (c &&& (2 ^ 25 - 1)) <<< 5 < 2 ^ 30 := by
    have hand : c &&& (2 ^ 25 - 1) < 2 ^ 25 := Nat.and_lt_two_pow c (by decide)
    rw [Nat.shiftLeft_eq]
    omega
  unfold step
  refine Nat.xor_lt_two_pow (Nat.xor_lt_two_pow (Nat.xor_lt_two_pow (Nat.xor_lt_two_pow
    (Nat.xor_lt_two_pow hlow ?_) ?_) ?_) ?_) ?_
  · exact tap_lt c 25 (by decide)
  · exact tap_lt c 26 (by decide)
  · exact tap_lt c 27 (by decide)
  · exact tap_lt c 28 (by decide)
  · exact tap_lt c 29 (by decide)

/-- Six words leave the number that they are written for. -/
theorem polymod_wordsOf {m : Nat} (hm : m < 2 ^ 30) : polymod 0 (wordsOf m) = m := by
  have hword : ∀ k, m >>> k % 32 < 32 := fun k => Nat.mod_lt _ (by decide)
  have hshift : ∀ c k w, c < 2 ^ 25 → w < 32 → c * 32 + w = m >>> k → step c ^^^ w = m >>> k := by
    intro c k w hc hw h
    rw [step_small hc hw, h]
  have hnext : ∀ k, m >>> (k + 5) * 32 + m >>> k % 32 = m >>> k := by
    intro k
    rw [Nat.shiftRight_add, Nat.shiftRight_eq_div_pow _ 5]
    omega
  have hsmall : ∀ k, 5 ≤ k → m >>> k < 2 ^ 25 := by
    intro k hk
    rw [Nat.shiftRight_eq_div_pow, Nat.div_lt_iff_lt_mul (Nat.two_pow_pos k), ← Nat.pow_add]
    exact Nat.lt_of_lt_of_le hm (Nat.pow_le_pow_right (by decide) (by omega))
  have htop : m >>> 25 % 32 = m >>> 25 := by
    rw [Nat.shiftRight_eq_div_pow]
    omega
  simp only [polymod, wordsOf, List.foldl_cons, List.foldl_nil]
  rw [hshift 0 25 _ (by decide) (hword 25) (by rw [Nat.zero_mul, Nat.zero_add, htop]),
    hshift _ 20 _ (hsmall 25 (by decide)) (hword 20) (hnext 20),
    hshift _ 15 _ (hsmall 20 (by decide)) (hword 15) (hnext 15),
    hshift _ 10 _ (hsmall 15 (by decide)) (hword 10) (hnext 10),
    hshift _ 5 _ (hsmall 10 (by decide)) (hword 5) (hnext 5)]
  exact hshift _ 0 _ (hsmall 5 (by decide)) (hword 0) (hnext 0)

theorem polymod_append (c : Nat) (vs ws : List Nat) :
    polymod c (vs ++ ws) = polymod (polymod c vs) ws := List.foldl_append

/-- The checksum brings the remainder to the constant. -/
theorem polymod_checksum {const : Nat} (hconst : const < 2 ^ 30) (hrp : List UInt8)
    (words : List Nat) :
    polymod 1 (expand hrp ++ words ++ checksum const hrp words) = const := by
  rw [checksum, polymod_append 1 (expand hrp ++ words) (wordsOf _),
    polymod_append 1 (expand hrp ++ words) [0, 0, 0, 0, 0, 0]]
  generalize polymod 1 (expand hrp ++ words) = c
  have hlt : polymod c [0, 0, 0, 0, 0, 0] < 2 ^ 30 := by
    simp only [polymod, List.foldl_cons, List.foldl_nil, Nat.xor_zero]
    exact step_lt _
  have hm := polymod_wordsOf (Nat.xor_lt_two_pow hlt hconst)
  -- the remainder after zeros, plus what the six words add
  have hsum := polymod_xor c 0 [0, 0, 0, 0, 0, 0]
    (wordsOf (polymod c [0, 0, 0, 0, 0, 0] ^^^ const)) rfl
  rw [hm, Nat.xor_zero, ← Nat.xor_assoc, Nat.xor_self, Nat.zero_xor] at hsum
  simp only [wordsOf, List.zipWith_cons_cons, List.zipWith_nil_left, Nat.zero_xor] at hsum
  exact hsum

/-! ## Characters -/

def charset : List UInt8 := "qpzry9x8gf2tvdw0s3jn54khce6mua7l".toUTF8.data.toList

def charOf (w : Nat) : UInt8 := charset.getD w 0

def wordOf (c : UInt8) : Option Nat := charset.idxOf? c

def separator : UInt8 := 49

def isLower (c : UInt8) : Bool := 97 ≤ c && c ≤ 122
def isUpper (c : UInt8) : Bool := 65 ≤ c && c ≤ 90
def lower (c : UInt8) : UInt8 := if isUpper c then c + 32 else c

/-- What may stand in the prefix of a string in lower case. -/
def isPrefixChar (c : UInt8) : Bool := 33 ≤ c && c ≤ 126 && !isUpper c

theorem wordOf_charOf {w : Nat} (hw : w < 32) : wordOf (charOf w) = some w := by
  have hall : ∀ w : Fin 32, wordOf (charOf w) = some w.val := by decide +kernel
  exact hall ⟨w, hw⟩

theorem charOf_lower {w : Nat} (hw : w < 32) :
    isUpper (charOf w) = false ∧ charOf w ≠ separator := by
  have hall : ∀ w : Fin 32, isUpper (charOf w) = false ∧ charOf w ≠ separator := by decide +kernel
  exact hall ⟨w, hw⟩

theorem lower_of_not_isUpper {c : UInt8} (hc : isUpper c = false) : lower c = c := by
  rw [lower, hc]
  rfl

/-! ## Strings -/

/-- The longest string that is written or read. -/
def limit : Nat := 90

/-- The constant of the later variant. -/
def bech32m : Nat := 0x2bc830a3

def encode (const : Nat) (hrp : List UInt8) (words : List Nat) : Option (List UInt8) :=
  if hrp ≠ [] ∧ hrp.all isPrefixChar ∧ words.all (· < 32) ∧ hrp.length + 7 + words.length ≤ limit
  then some (hrp ++ separator :: (words ++ checksum const hrp words).map charOf)
  else none

/-- What comes before the last separator, and after it. -/
def split (s : List UInt8) : Option (List UInt8 × List UInt8) :=
  match s.reverse.dropWhile (· != separator) with
  | [] => none
  | _ :: hrp => some (hrp.reverse, (s.reverse.takeWhile (· != separator)).reverse)

def decode (const : Nat) (s : List UInt8) : Option (List UInt8 × List Nat) := do
  guard (8 ≤ s.length ∧ s.length ≤ limit)
  guard ¬ (s.any isLower ∧ s.any isUpper)
  let (hrp, data) ← split (s.map lower)
  guard (hrp ≠ [] ∧ hrp.all isPrefixChar ∧ 6 ≤ data.length)
  let words ← data.mapM wordOf
  guard (polymod 1 (expand hrp ++ words) = const)
  pure (hrp, words.take (words.length - 6))

theorem split_append {hrp data : List UInt8} (hdata : ∀ c ∈ data, c ≠ separator) :
    split (hrp ++ separator :: data) = some (hrp, data) := by
  have hall : ∀ c ∈ data.reverse, (c != separator) = true := by
    intro c hc
    exact bne_iff_ne.mpr (hdata c (List.mem_reverse.mp hc))
  have hreverse : (hrp ++ separator :: data).reverse = data.reverse ++ separator :: hrp.reverse := by
    simp only [List.reverse_append, List.reverse_cons, List.append_assoc, List.singleton_append]
  have hdrop : (hrp ++ separator :: data).reverse.dropWhile (· != separator) =
      separator :: hrp.reverse := by
    rw [hreverse, List.dropWhile_append_of_pos hall]
    rfl
  have htake : (hrp ++ separator :: data).reverse.takeWhile (· != separator) = data.reverse := by
    rw [hreverse, List.takeWhile_append_of_pos hall]
    exact List.append_nil _
  rw [split, hdrop, htake]
  simp only [List.reverse_reverse]

theorem mapM_wordOf {words : List Nat} (h : ∀ w ∈ words, w < 32) :
    (words.map charOf).mapM wordOf = some words := by
  induction words with
  | nil => rfl
  | cons w words ih =>
      rw [List.map_cons, List.mapM_cons, wordOf_charOf (h w List.mem_cons_self),
        ih fun v hv => h v (List.mem_cons_of_mem _ hv)]
      rfl

theorem checksum_lt (const : Nat) (hrp : List UInt8) (words : List Nat) :
    ∀ w ∈ checksum const hrp words, w < 32 := by
  intro w hw
  simp only [checksum, wordsOf, List.mem_cons, List.not_mem_nil, or_false] at hw
  rcases hw with rfl | rfl | rfl | rfl | rfl | rfl <;> exact Nat.mod_lt _ (by decide)

/-- What is written is read back. -/
theorem decode_encode {const : Nat} (hconst : const < 2 ^ 30) {hrp : List UInt8} {words : List Nat}
    {s : List UInt8} (h : encode const hrp words = some s) :
    decode const s = some (hrp, words) := by
  unfold encode at h
  split at h
  · rename_i hvalid
    obtain ⟨hne, hhrp, hwords, hlimit⟩ := hvalid
    cases h
    have hall : ∀ w ∈ words ++ checksum const hrp words, w < 32 := by
      intro w hw
      rcases List.mem_append.mp hw with hw | hw
      · exact of_decide_eq_true (List.all_eq_true.mp hwords w hw)
      · exact checksum_lt const hrp words w hw
    have hlength : (words ++ checksum const hrp words).length = words.length + 6 :=
      List.length_append
    have hchars : ∀ c ∈ (words ++ checksum const hrp words).map charOf,
        isUpper c = false ∧ c ≠ separator := by
      intro c hc
      obtain ⟨w, hw, rfl⟩ := List.mem_map.mp hc
      exact charOf_lower (hall w hw)
    have hlower : ∀ c ∈ hrp ++ separator :: (words ++ checksum const hrp words).map charOf,
        isUpper c = false := by
      intro c hc
      rcases List.mem_append.mp hc with hc | hc
      · have hfront := List.all_eq_true.mp hhrp c hc
        simp only [isPrefixChar, Bool.and_eq_true, Bool.not_eq_true'] at hfront
        exact hfront.2
      · rcases List.mem_cons.mp hc with rfl | hc
        · rfl
        · exact (hchars c hc).1
    have hmap : (hrp ++ separator :: (words ++ checksum const hrp words).map charOf).map lower =
        hrp ++ separator :: (words ++ checksum const hrp words).map charOf := by
      conv_rhs => rw [← List.map_id (hrp ++ _)]
      exact List.map_congr_left fun c hc => lower_of_not_isUpper (hlower c hc)
    have hupper : (hrp ++ separator :: (words ++ checksum const hrp words).map charOf).any isUpper =
        false := List.any_eq_false.mpr fun c hc => by rw [hlower c hc]; exact Bool.false_ne_true
    have hlength' : (hrp ++ separator :: (words ++ checksum const hrp words).map charOf).length =
        hrp.length + 7 + words.length := by
      rw [List.length_append, List.length_cons, List.length_map, hlength]
      omega
    have hpos : 0 < hrp.length := List.length_pos_iff.mpr hne
    have hsum := polymod_checksum hconst hrp words
    rw [List.append_assoc] at hsum
    have hguard : ∀ {p : Prop} [Decidable p], p → (guard p : Option Unit) = some () :=
      fun hp => if_pos hp
    have hcase : ¬ ((hrp ++ separator :: (words ++ checksum const hrp words).map charOf).any isLower =
        true ∧ false = true) := fun h => Bool.false_ne_true h.2
    unfold decode
    rw [hlength', hupper, hmap, split_append fun c hc => (hchars c hc).2,
      hguard ⟨by omega, hlimit⟩, hguard hcase]
    simp only [Option.bind_eq_bind, Option.bind_some]
    rw [hguard ⟨hne, hhrp, by rw [List.length_map, hlength]; omega⟩, Option.bind_some,
      mapM_wordOf hall, Option.bind_some, hguard hsum, Option.bind_some, hlength,
      Nat.add_sub_cancel, List.take_left]
    rfl
  · exact nomatch h

/-! ## Regrouping bits -/

/-- The bits of a number, the highest first. -/
def bits (k n : Nat) : List Bool := (List.range k).map fun i => n.testBit (k - 1 - i)

def ofBits (bs : List Bool) : Nat := bs.foldl (fun n b => 2 * n + b.toNat) 0

/-- The first `n` groups of `k` bits. -/
def groups (k : Nat) : Nat → List Bool → List Nat
  | 0, _ => []
  | n + 1, bs => ofBits (bs.take k) :: groups k n (bs.drop k)

/-- Bytes as words, filled up with zeros. -/
def toWords (bytes : List UInt8) : List Nat :=
  groups 5 ((8 * bytes.length + 4) / 5)
    (bytes.flatMap (fun b => bits 8 b.toNat) ++ [false, false, false, false])

/-- Words as bytes: what is left over is less than a word, and zero. -/
def fromWords (words : List Nat) : Except String (List UInt8) :=
  let bs := words.flatMap (bits 5)
  let rest := bs.drop (8 * (bs.length / 8))
  if 5 ≤ rest.length then .error "Excess padding"
  else if rest.any id then .error "Non-zero padding"
  else .ok ((groups 8 (bs.length / 8) bs).map UInt8.ofNat)

theorem length_bits (k n : Nat) : (bits k n).length = k := by
  rw [bits, List.length_map, List.length_range]

theorem bits_succ (k n : Nat) : bits (k + 1) n = bits k (n / 2) ++ [n.testBit 0] := by
  unfold bits
  rw [List.range_succ, List.map_append, List.map_singleton]
  congr 1
  · apply List.map_congr_left
    intro i hi
    have hi : i < k := List.mem_range.mp hi
    rw [Nat.testBit_div_two]
    congr 1
    omega
  · simp

theorem ofBits_append (bs : List Bool) (b : Bool) : ofBits (bs ++ [b]) = 2 * ofBits bs + b.toNat := by
  rw [ofBits, List.foldl_append]
  rfl

theorem ofBits_bits {k n : Nat} (hn : n < 2 ^ k) : ofBits (bits k n) = n := by
  induction k generalizing n with
  | zero =>
      rw [Nat.pow_zero] at hn
      rw [Nat.lt_one_iff.mp hn]
      rfl
  | succ k ih =>
      have hhalf : n / 2 < 2 ^ k := by
        rw [Nat.pow_succ] at hn
        omega
      rw [bits_succ, ofBits_append, ih hhalf, Nat.testBit_zero]
      rcases Nat.mod_two_eq_zero_or_one n with h | h <;> simp [h] <;> omega

theorem bits_ofBits (bs : List Bool) : bits bs.length (ofBits bs) = bs := by
  induction bs using List.reverseRecOn with
  | nil => rfl
  | append_singleton bs b ih =>
      have hhalf : (2 * ofBits bs + b.toNat) / 2 = ofBits bs := by
        have hb := b.toNat_le
        omega
      rw [List.length_append, List.length_singleton, bits_succ, ofBits_append, hhalf, ih,
        Nat.testBit_zero]
      cases b <;> simp

theorem length_groups (k n : Nat) (bs : List Bool) : (groups k n bs).length = n := by
  induction n generalizing bs with
  | zero => rfl
  | succ n ih => rw [groups, List.length_cons, ih]

theorem ofBits_lt (bs : List Bool) : ofBits bs < 2 ^ bs.length := by
  induction bs using List.reverseRecOn with
  | nil => decide
  | append_singleton bs b ih =>
      have hb := b.toNat_le
      rw [ofBits_append, List.length_append, List.length_singleton, Nat.pow_succ]
      omega

theorem groups_lt {k n : Nat} {bs : List Bool} : ∀ w ∈ groups k n bs, w < 2 ^ k := by
  induction n generalizing bs with
  | zero => nofun
  | succ n ih =>
      intro w hw
      rcases List.mem_cons.mp hw with rfl | hw
      · have hlength : (bs.take k).length ≤ k := by
          rw [List.length_take]
          exact Nat.min_le_left ..
        exact Nat.lt_of_lt_of_le (ofBits_lt _) (Nat.pow_le_pow_right (by decide) hlength)
      · exact ih w hw

/-- Groups are the bits that they are made of. -/
theorem flatMap_groups {k : Nat} (n : Nat) {bs : List Bool} (h : k * n ≤ bs.length) :
    (groups k n bs).flatMap (bits k) = bs.take (k * n) := by
  induction n generalizing bs with
  | zero => rw [Nat.mul_zero, List.take_zero]; rfl
  | succ n ih =>
      have hk : k ≤ bs.length := Nat.le_trans (Nat.le_mul_of_pos_right k n.succ_pos) h
      have htake : (bs.take k).length = k := by rw [List.length_take, Nat.min_eq_left hk]
      have hrest : k * n ≤ (bs.drop k).length := by
        rw [List.length_drop]
        rw [Nat.mul_succ] at h
        omega
      have hgroup : bits k (ofBits (bs.take k)) = bs.take k := by
        have hbits := bits_ofBits (bs.take k)
        rwa [htake] at hbits
      rw [groups, List.flatMap_cons, ih hrest, hgroup, Nat.mul_succ, Nat.add_comm (k * n),
        List.take_add]

theorem groups_bytes (bytes : List UInt8) (rest : List Bool) :
    groups 8 bytes.length (bytes.flatMap (fun b => bits 8 b.toNat) ++ rest) =
      bytes.map UInt8.toNat := by
  induction bytes with
  | nil => rfl
  | cons b bytes ih =>
      rw [List.length_cons, groups, List.flatMap_cons, List.append_assoc,
        List.take_left' (length_bits 8 _), List.drop_left' (length_bits 8 _),
        ofBits_bits b.toNat_lt, ih, List.map_cons]

/-- Bytes are regrouped into words and back. -/
theorem fromWords_toWords (bytes : List UInt8) : fromWords (toWords bytes) = .ok bytes := by
  have hlength : (bytes.flatMap fun b => bits 8 b.toNat).length = 8 * bytes.length := by
    induction bytes with
    | nil => rfl
    | cons b bytes ih =>
        rw [List.flatMap_cons, List.length_append, ih, length_bits, List.length_cons]
        omega
  have hbits : (toWords bytes).flatMap (bits 5) =
      (bytes.flatMap fun b => bits 8 b.toNat) ++
        List.replicate (5 * ((8 * bytes.length + 4) / 5) - 8 * bytes.length) false := by
    rw [toWords, flatMap_groups]
    · rw [List.take_append, hlength, List.take_of_length_le (by rw [hlength]; omega)]
      congr 1
      have hzeros : [false, false, false, false] = List.replicate 4 false := rfl
      rw [hzeros, List.take_replicate, Nat.min_eq_left (by omega)]
    · rw [List.length_append, hlength]
      simp only [List.length_cons, List.length_nil]
      omega
  have htotal : ((toWords bytes).flatMap (bits 5)).length = 5 * ((8 * bytes.length + 4) / 5) := by
    rw [hbits, List.length_append, hlength, List.length_replicate]
    omega
  have hcount : 5 * ((8 * bytes.length + 4) / 5) / 8 = bytes.length := by omega
  unfold fromWords
  simp only [htotal, hcount]
  rw [hbits, ← hlength, List.drop_left, List.length_replicate, groups_bytes, if_neg (by omega),
    if_neg (by simp), List.map_map]
  congr 1
  conv_rhs => rw [← List.map_id bytes]
  exact List.map_congr_left fun b _ => UInt8.ofNat_toNat

end Bech32
