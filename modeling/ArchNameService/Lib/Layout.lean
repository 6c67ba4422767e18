import ArchNameService.Lib.Borsh

/-!
# Looser readings of a Borsh layout

A reader that is less strict than the decoder of a Borsh type accepts the
encodings of a wider type: its wire values, in which a flag is any byte and a
string is any bytes. A layout relates the two. Both sides agree on an input
exactly when the wire values it encodes are those of the Borsh type, and nothing
is lost in reading them.
-/

/-- A reader of the front of the bytes, which may throw. -/
abbrev Reader (ε α : Type) := StateT (List UInt8) (Except ε) α

open Borsh (serialize deserialize fromSlice Vec Str)

/-- A Borsh type `α` beside what a looser reader takes from the same bytes. -/
structure Layout (α σ : Type) [Borsh α] where
  Wire : Type
  borsh : Borsh Wire
  wire : α → Wire
  read : Wire → σ
  view : α → σ
  /-- The wire values of the Borsh type. -/
  Strict : Wire → Prop
  /-- The wire values of which the reader loses nothing. -/
  Plain : Wire → Prop
  serialize_wire : ∀ a, serialize (wire a) = serialize a
  strict_iff : ∀ w, Strict w ↔ ∃ a, wire a = w
  plain_iff : ∀ a, read (wire a) = view a ↔ Plain (wire a)

namespace Layout

attribute [instance] Layout.borsh

section Combinators
variable {α β σ τ : Type} [Borsh α] [Borsh β]

/-- Both sides read the same type. -/
def same (α : Type) [Borsh α] : Layout α α where
  Wire := α
  borsh := inferInstance
  wire := id
  read := id
  view := id
  Strict _ := True
  Plain _ := True
  serialize_wire _ := rfl
  strict_iff w := ⟨fun _ => ⟨w, rfl⟩, fun _ => trivial⟩
  plain_iff _ := ⟨fun _ => trivial, fun _ => rfl⟩

/-- A flag is any byte, and every byte but zero is set. -/
def flag : Layout Bool Bool where
  Wire := UInt8
  borsh := inferInstance
  wire b := if b then 1 else 0
  read w := w != 0
  view := id
  Strict w := w = 0 ∨ w = 1
  Plain _ := True
  serialize_wire b := by cases b <;> rfl
  strict_iff w := by
    constructor
    · rintro (rfl | rfl)
      · exact ⟨false, rfl⟩
      · exact ⟨true, rfl⟩
    · rintro ⟨b, rfl⟩
      cases b
      · exact .inl rfl
      · exact .inr rfl
  plain_iff b := by cases b <;> decide

def prod (l : Layout α σ) (m : Layout β τ) : Layout (α × β) (σ × τ) where
  Wire := l.Wire × m.Wire
  borsh := inferInstance
  wire x := (l.wire x.1, m.wire x.2)
  read w := (l.read w.1, m.read w.2)
  view x := (l.view x.1, m.view x.2)
  Strict w := l.Strict w.1 ∧ m.Strict w.2
  Plain w := l.Plain w.1 ∧ m.Plain w.2
  serialize_wire x := congrArg₂ (· ++ ·) (l.serialize_wire x.1) (m.serialize_wire x.2)
  strict_iff w := by
    rw [l.strict_iff, m.strict_iff]
    constructor
    · rintro ⟨⟨a, ha⟩, b, hb⟩
      exact ⟨(a, b), Prod.ext ha hb⟩
    · rintro ⟨x, rfl⟩
      exact ⟨⟨x.1, rfl⟩, x.2, rfl⟩
  plain_iff x := by rw [Prod.mk.injEq, l.plain_iff, m.plain_iff]

/-- A record with the layout of its fields. -/
def ofFields {γ υ : Type} [Borsh γ] (l : Layout α σ) (fields : γ ≃ α) (fields' : υ ≃ σ)
    (view : γ → υ) (hserialize : ∀ c, serialize c = serialize (fields c))
    (hview : ∀ c, fields' (view c) = l.view (fields c)) : Layout γ υ where
  Wire := l.Wire
  borsh := l.borsh
  wire c := l.wire (fields c)
  read w := fields'.symm (l.read w)
  view := view
  Strict := l.Strict
  Plain := l.Plain
  serialize_wire c := (l.serialize_wire (fields c)).trans (hserialize c).symm
  strict_iff w := by
    rw [l.strict_iff]
    constructor
    · rintro ⟨a, rfl⟩
      exact ⟨fields.symm a, congrArg l.wire (fields.apply_symm_apply a)⟩
    · rintro ⟨c, rfl⟩
      exact ⟨fields c, rfl⟩
  plain_iff c := by rw [← l.plain_iff, Equiv.symm_apply_eq, hview]

/-- A tag that both sides read alike, followed by what belongs to it. -/
def sigma {κ : Type} [Borsh κ] {P S : κ → Type} [∀ t, Borsh (P t)] (l : ∀ t, Layout (P t) (S t)) :
    Layout (Σ t, P t) (Σ t, S t) where
  Wire := Σ t, (l t).Wire
  borsh := inferInstance
  wire x := ⟨x.1, (l x.1).wire x.2⟩
  read w := ⟨w.1, (l w.1).read w.2⟩
  view x := ⟨x.1, (l x.1).view x.2⟩
  Strict w := (l w.1).Strict w.2
  Plain w := (l w.1).Plain w.2
  serialize_wire x := congrArg (serialize x.1 ++ ·) ((l x.1).serialize_wire x.2)
  strict_iff w := by
    obtain ⟨t, w⟩ := w
    rw [(l t).strict_iff]
    constructor
    · rintro ⟨p, rfl⟩
      exact ⟨⟨t, p⟩, rfl⟩
    · rintro ⟨⟨t', p⟩, h⟩
      cases h
      exact ⟨p, rfl⟩
  plain_iff x := by
    obtain ⟨t, p⟩ := x
    rw [← (l t).plain_iff]
    constructor
    · intro h
      exact eq_of_heq (Sigma.mk.inj h).2
    · intro h
      exact congrArg (Sigma.mk t) h

/-- A vector whose items both sides read alike, taken as a list. -/
def list (α : Type) [Borsh α] : Layout (Vec α) (List α) where
  Wire := Vec α
  borsh := inferInstance
  wire := id
  read := Vec.items
  view := Vec.items
  Strict _ := True
  Plain _ := True
  serialize_wire _ := rfl
  strict_iff w := ⟨fun _ => ⟨w, rfl⟩, fun _ => trivial⟩
  plain_iff _ := ⟨fun _ => trivial, fun _ => rfl⟩

/-- A string is any bytes, of which the reader makes what it makes. -/
def text (read view : List UInt8 → σ) (Plain : List UInt8 → Prop)
    (hread : ∀ bytes, read bytes = view bytes ↔ Plain bytes) : Layout Str σ where
  Wire := Vec UInt8
  borsh := inferInstance
  wire s := ⟨s.bytes, s.fits⟩
  read w := read w.items
  view s := view s.bytes
  Strict w := validUtf8 w.items = true
  Plain w := Plain w.items
  serialize_wire s := congrArg (serialize (UInt32.ofNat s.bytes.length) ++ ·)
    (Borsh.serializeAll_u8 s.bytes)
  strict_iff w := by
    constructor
    · intro h
      exact ⟨⟨w.items, h, w.fits⟩, rfl⟩
    · rintro ⟨s, rfl⟩
      exact s.utf8
  plain_iff s := hread s.bytes

end Combinators

end Layout

/-! ## Readers of a layout -/

/-- The reader consumes the encoding of a wire value, and gives what it reads of it. -/
def Reads {ε σ W : Type} [Borsh W] (p : Reader ε σ) (read : W → σ) : Prop :=
  ∀ bs s rest, p bs = .ok (s, rest) ↔ ∃ w, read w = s ∧ bs = serialize w ++ rest

namespace Reads
variable {ε σ τ V W : Type} [Borsh V] [Borsh W]

theorem bind_ok {p : Reader ε σ} {q : σ → Reader ε τ} {bs rest : List UInt8} {t : τ} :
    (p >>= q) bs = .ok (t, rest) ↔ ∃ s mid, p bs = .ok (s, mid) ∧ q s mid = .ok (t, rest) := by
  change (p bs >>= fun x => q x.1 x.2) = .ok (t, rest) ↔ _
  cases p bs with
  | error e => exact ⟨fun h => (nomatch h), fun ⟨_, _, h, _⟩ => (nomatch h)⟩
  | ok x =>
      constructor
      · intro h
        exact ⟨x.1, x.2, rfl, h⟩
      · rintro ⟨s, mid, h, hq⟩
        cases h
        exact hq

theorem pure (s : σ) : Reads (pure s : Reader ε σ) (fun _ : Unit => s) := by
  intro bs t rest
  constructor
  · intro h
    cases h
    exact ⟨(), rfl, rfl⟩
  · rintro ⟨_, rfl, rfl⟩
    rfl

theorem bind {p : Reader ε σ} {q : σ → Reader ε τ} {read : W → σ} {next : σ → V → τ}
    (hp : Reads p read) (hq : ∀ s, Reads (q s) (next s)) :
    Reads (p >>= q) (fun w : W × V => next (read w.1) w.2) := by
  intro bs t rest
  rw [bind_ok]
  constructor
  · rintro ⟨s, mid, hs, ht⟩
    obtain ⟨w, rfl, rfl⟩ := (hp _ _ _).mp hs
    obtain ⟨v, rfl, rfl⟩ := (hq _ _ _ _).mp ht
    exact ⟨(w, v), rfl, (List.append_assoc _ _ _).symm⟩
  · rintro ⟨⟨w, v⟩, rfl, rfl⟩
    refine ⟨read w, serialize v ++ rest, ?_, ?_⟩
    · exact (hp _ _ _).mpr ⟨w, rfl, List.append_assoc _ _ _⟩
    · exact (hq _ _ _ _).mpr ⟨v, rfl, rfl⟩

/-- The last field of a record. -/
theorem last {p : Reader ε σ} {f : σ → τ} {read : W → σ} (hp : Reads p read) :
    Reads (p >>= fun s => Pure.pure (f s)) (fun w => f (read w)) := by
  intro bs t rest
  rw [bind_ok]
  constructor
  · rintro ⟨s, mid, hs, ht⟩
    obtain ⟨w, rfl, rfl⟩ := (hp _ _ _).mp hs
    cases ht
    exact ⟨w, rfl, rfl⟩
  · rintro ⟨w, rfl, rfl⟩
    exact ⟨read w, rest, (hp _ _ _).mpr ⟨w, rfl, rfl⟩, rfl⟩

/-- A byte that selects how the rest is read. -/
theorem select {κ : Type} [Borsh κ] {P : κ → Type} [∀ t, Borsh (P t)] (read : ∀ t, P t → τ)
    {p : Reader ε UInt8} {q : UInt8 → Reader ε τ} {index : κ → UInt8}
    (hp : Reads p (id : UInt8 → UInt8)) (hindex : ∀ t, serialize t = [index t])
    (hq : ∀ t, Reads (q (index t)) (read t))
    (hbad : ∀ b, (∀ t, index t ≠ b) → ∀ bs x, q b bs ≠ .ok x) :
    Reads (p >>= q) (fun w : Σ t, P t => read w.1 w.2) := by
  intro bs t rest
  rw [bind_ok]
  constructor
  · rintro ⟨b, mid, hb, ht⟩
    obtain ⟨b, rfl, rfl⟩ := (hp _ _ _).mp hb
    by_cases hexists : ∃ k, index k = b
    · obtain ⟨k, rfl⟩ := hexists
      obtain ⟨w, rfl, rfl⟩ := (hq _ _ _ _).mp ht
      refine ⟨⟨k, w⟩, rfl, ?_⟩
      change _ = (serialize k ++ serialize w) ++ rest
      rw [hindex, Borsh.serialize_u8, List.append_assoc]
    · exact absurd ht (hbad b (fun k hk => hexists ⟨k, hk⟩) _ _)
  · rintro ⟨⟨k, w⟩, rfl, rfl⟩
    refine ⟨index k, serialize w ++ rest, ?_, ?_⟩
    · refine (hp _ _ _).mpr ⟨index k, rfl, ?_⟩
      change (serialize k ++ serialize w) ++ rest = _
      rw [hindex, Borsh.serialize_u8, List.append_assoc]
    · exact (hq _ _ _ _).mpr ⟨w, rfl, rfl⟩

end Reads

/-! ## Where the two sides agree -/

section Agreement
variable {ε α σ : Type} [Borsh α]

/-- Both sides accept the bytes or neither does, and then they take the same value and
give the bytes back. -/
structure Parity (view : α → σ) (decode : List UInt8 → Except ε σ) (encode : σ → List UInt8)
    (bytes : List UInt8) : Prop where
  accepts : (∃ s, decode bytes = .ok s) ↔ ∃ a : α, fromSlice bytes = some a
  agrees : ∀ s (a : α), decode bytes = .ok s → fromSlice bytes = some a →
    s = view a ∧ encode s = bytes ∧ serialize a = bytes

namespace Layout
variable (l : Layout α σ) {decode : List UInt8 → Except ε σ} {encode : σ → List UInt8}

/-- Every wire value in the bytes is one of the Borsh type, and is read without a loss. -/
def Faithful (bytes : List UInt8) : Prop := ∀ w, bytes = serialize w → l.Strict w ∧ l.Plain w

theorem serialize_iff {bytes : List UInt8} {a : α} :
    bytes = serialize a ↔ ∃ w, l.wire a = w ∧ bytes = serialize w := by
  rw [← l.serialize_wire a]
  exact ⟨fun h => ⟨_, rfl, h⟩, fun ⟨_, hw, h⟩ => hw ▸ h⟩

/-- The two decoders agree on exactly the bytes with faithful wire values. -/
theorem parity_iff (hdecode : ∀ bytes s, decode bytes = .ok s ↔ ∃ w, l.read w = s ∧ bytes = serialize w)
    (hencode : ∀ a, encode (l.view a) = serialize a) (bytes : List UInt8) :
    Parity l.view decode encode bytes ↔ l.Faithful bytes := by
  constructor
  · intro parity w hw
    have hread : decode bytes = .ok (l.read w) := (hdecode _ _).mpr ⟨w, rfl, hw⟩
    obtain ⟨a, ha⟩ := parity.accepts.mp ⟨_, hread⟩
    have hbytes := Borsh.fromSlice_eq_some.mp ha
    have hwire : l.wire a = w := by
      apply Borsh.serialize_injective
      rw [l.serialize_wire, ← hbytes, hw]
    subst hwire
    exact ⟨(l.strict_iff _).mpr ⟨a, rfl⟩, (l.plain_iff a).mp (parity.agrees _ a hread ha).1⟩
  · intro hfaithful
    constructor
    · constructor
      · rintro ⟨s, hs⟩
        obtain ⟨w, rfl, hw⟩ := (hdecode _ _).mp hs
        obtain ⟨a, rfl⟩ := (l.strict_iff w).mp (hfaithful w hw).1
        exact ⟨a, Borsh.fromSlice_eq_some.mpr (l.serialize_iff.mpr ⟨_, rfl, hw⟩)⟩
      · rintro ⟨a, ha⟩
        obtain ⟨w, -, hw⟩ := l.serialize_iff.mp (Borsh.fromSlice_eq_some.mp ha)
        exact ⟨_, (hdecode _ _).mpr ⟨w, rfl, hw⟩⟩
    · intro s a hs ha
      have hbytes := Borsh.fromSlice_eq_some.mp ha
      obtain ⟨w, rfl, hw⟩ := (hdecode _ _).mp hs
      have hwire : l.wire a = w := by
        apply Borsh.serialize_injective
        rw [l.serialize_wire, ← hbytes, hw]
      subst hwire
      have hview := (l.plain_iff a).mpr (hfaithful _ hw).2
      exact ⟨hview, by rw [hview, hencode, ← hbytes], hbytes.symm⟩

/-- A value comes back from its encoding exactly when nothing of it is lost in reading. -/
theorem round_trip_iff
    (hdecode : ∀ bytes s, decode bytes = .ok s ↔ ∃ w, l.read w = s ∧ bytes = serialize w)
    (hencode : ∀ a, encode (l.view a) = serialize a) (a : α) :
    decode (encode (l.view a)) = .ok (l.view a) ↔ l.Plain (l.wire a) := by
  rw [hencode, hdecode, ← l.plain_iff]
  constructor
  · rintro ⟨w, hread, hw⟩
    have hwire : l.wire a = w := by
      apply Borsh.serialize_injective
      rw [l.serialize_wire, hw]
    rw [hwire, hread]
  · intro h
    exact ⟨_, h, (l.serialize_wire a).symm⟩

/-- A decoder of the front of the bytes beside one of the whole bytes: they agree when
bytes are left over exactly where the first one refuses. -/
theorem front_iff
    (hdecode : ∀ bytes s, decode bytes = .ok s ↔ ∃ w, l.read w = s ∧ bytes = serialize w)
    (bytes : List UInt8) :
    (∀ s, decode bytes = .ok s ↔ ∃ a : α, (deserialize bytes).map Prod.fst = some a ∧ l.view a = s) ↔
      ∀ w rest, bytes = serialize w ++ rest →
        (rest = [] ∧ l.Strict w ∧ l.Plain w) ∨ (rest ≠ [] ∧ ¬ l.Strict w) := by
  have hfront : ∀ a : α, (deserialize bytes).map Prod.fst = some a ↔
      ∃ rest, bytes = serialize (l.wire a) ++ rest := by
    intro a
    rw [Option.map_eq_some_iff, l.serialize_wire]
    constructor
    · rintro ⟨⟨a, rest⟩, h, rfl⟩
      exact ⟨rest, (Borsh.deserialize_iff _ _ _).mp h⟩
    · rintro ⟨rest, h⟩
      exact ⟨(a, rest), (Borsh.deserialize_iff _ _ _).mpr h, rfl⟩
  simp only [hfront, hdecode]
  constructor
  · rintro h w rest rfl
    by_cases hrest : rest = []
    · subst hrest
      obtain ⟨a, ⟨rest, hw⟩, hview⟩ := (h _).mp ⟨w, rfl, List.append_nil _⟩
      obtain ⟨rfl, -⟩ := Borsh.append_inj hw
      exact .inl ⟨rfl, (l.strict_iff _).mpr ⟨a, rfl⟩, (l.plain_iff a).mp hview.symm⟩
    · refine .inr ⟨hrest, fun hstrict => ?_⟩
      obtain ⟨a, rfl⟩ := (l.strict_iff w).mp hstrict
      obtain ⟨w, -, hw⟩ := (h _).mpr ⟨a, ⟨rest, rfl⟩, rfl⟩
      exact hrest (Borsh.append_inj (hw.trans (List.append_nil _).symm)).2
  · intro h s
    constructor
    · rintro ⟨w, rfl, hw⟩
      rcases h w [] (hw.trans (List.append_nil _).symm) with ⟨-, hstrict, hplain⟩ | ⟨hrest, -⟩
      · obtain ⟨a, rfl⟩ := (l.strict_iff w).mp hstrict
        exact ⟨a, ⟨[], hw.trans (List.append_nil _).symm⟩, ((l.plain_iff a).mpr hplain).symm⟩
      · exact absurd rfl hrest
    · rintro ⟨a, ⟨rest, hbytes⟩, rfl⟩
      rcases h _ rest hbytes with ⟨rfl, -, hplain⟩ | ⟨-, hstrict⟩
      · exact ⟨l.wire a, (l.plain_iff a).mpr hplain, hbytes.trans (List.append_nil _)⟩
      · exact absurd ((l.strict_iff _).mpr ⟨a, rfl⟩) hstrict

end Layout

end Agreement
