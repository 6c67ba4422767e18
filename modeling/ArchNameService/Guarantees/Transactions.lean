import ArchNameService.Sdk.Confirm
import ArchNameService.Sdk.RpcParams

/-!
# Transactions, from the builder to the node

A transaction is normalised when it is built and again when it is sent. The bytes of a
buffer may be given as an array of bytes, as an array of numbers or as what JSON makes of
the former; none of this shows in the result, and neither does a passage through JSON.
-/

namespace ArchNameService

namespace Sdk
open JsString JsValue

/-! ## What a transaction holds -/

abbrev SafeInteger := { n : Nat // n < 2 ^ 53 }

/-- The length of an array is a safe integer. -/
abbrev Buffer := { bytes : List UInt8 // bytes.length < 2 ^ 53 }

structure InstructionBytes where
  programIdIndex : SafeInteger
  accounts : List SafeInteger
  data : Buffer

structure MessageBytes where
  numRequiredSignatures : SafeInteger
  numReadonlySignedAccounts : SafeInteger
  numReadonlyUnsignedAccounts : SafeInteger
  accountKeys : List Buffer
  recentBlockhash : Buffer
  instructions : List InstructionBytes

structure TransactionBytes where
  version : SafeInteger
  signatures : List Buffer
  message : MessageBytes

section
variable {ν : Type} [JsNumber ν]

/-! ## How it may be given -/

def IsNumber (n : SafeInteger) (v : JsValue ν) : Prop := v = .number (JsNumber.ofNat n)

inductive IsBuffer (buffer : Buffer) : JsValue ν → Prop where
  | uint8Array : IsBuffer buffer (.uint8Array buffer)
  | numbers : IsBuffer buffer (.array (buffer.1.map fun b => .number (ofByte b)))
  | indexed {members} (h : members.Perm (indexMembers .number buffer)) :
      IsBuffer buffer (.object members)

def IsArrayOf {α : Type} (R : α → JsValue ν → Prop) (xs : List α) (v : JsValue ν) : Prop :=
  ∃ items, v = .array items ∧ List.Forall₂ R xs items

/-- An object that has these members, and maybe others. -/
def HasMembers (fields : List (JsString × (JsValue ν → Prop))) (v : JsValue ν) : Prop :=
  ∃ members, v = .object members ∧ (members.map Prod.fst).Nodup ∧
    ∀ field ∈ fields, ∃ w, members.lookup field.1 = some w ∧ field.2 w

def IsInstruction (ix : InstructionBytes) : JsValue ν → Prop :=
  HasMembers [(text "program_id_index", IsNumber ix.programIdIndex),
    (text "accounts", IsArrayOf IsNumber ix.accounts), (text "data", IsBuffer ix.data)]

def IsHeader (message : MessageBytes) : JsValue ν → Prop :=
  HasMembers [(text "num_required_signatures", IsNumber message.numRequiredSignatures),
    (text "num_readonly_signed_accounts", IsNumber message.numReadonlySignedAccounts),
    (text "num_readonly_unsigned_accounts", IsNumber message.numReadonlyUnsignedAccounts)]

def IsMessage (message : MessageBytes) : JsValue ν → Prop :=
  HasMembers [(text "header", IsHeader message),
    (text "account_keys", IsArrayOf IsBuffer message.accountKeys),
    (text "recent_blockhash", IsBuffer message.recentBlockhash),
    (text "instructions", IsArrayOf IsInstruction message.instructions)]

def IsTransaction (transaction : TransactionBytes) : JsValue ν → Prop :=
  HasMembers [(text "version", IsNumber transaction.version),
    (text "signatures", IsArrayOf IsBuffer transaction.signatures),
    (text "message", IsMessage transaction.message)]

/-! ## What is made of it -/

def Buffer.numbers (buffer : Buffer) : List ν := buffer.1.map ofByte

def InstructionBytes.normalized (ix : InstructionBytes) : MessageInstruction ν :=
  { programIdIndex := JsNumber.ofNat ix.programIdIndex
    accounts := ix.accounts.map fun n => JsNumber.ofNat n.1
    data := Buffer.numbers ix.data }

def MessageBytes.normalized (message : MessageBytes) : Message ν :=
  { header :=
      { numRequiredSignatures := JsNumber.ofNat message.numRequiredSignatures
        numReadonlySignedAccounts := JsNumber.ofNat message.numReadonlySignedAccounts
        numReadonlyUnsignedAccounts := JsNumber.ofNat message.numReadonlyUnsignedAccounts }
    accountKeys := message.accountKeys.map Buffer.numbers
    recentBlockhash := Buffer.numbers message.recentBlockhash
    instructions := message.instructions.map InstructionBytes.normalized }

def TransactionBytes.normalized (transaction : TransactionBytes) : Transaction ν :=
  { version := JsNumber.ofNat transaction.version
    signatures := transaction.signatures.map Buffer.numbers
    message := transaction.message.normalized }

/-! ## Numbers -/

theorem orZero_ofNat {n : Nat} (h : n < 2 ^ 53) :
    orZero (JsNumber.ofNat n : ν) = JsNumber.ofNat n := by
  unfold orZero
  split
  · rename_i hfalsy
    rw [(JsNumber.falsy_ofNat n h).mp hfalsy]
  · rfl

theorem orZero_ofByte (b : UInt8) : orZero (ofByte b : ν) = ofByte b :=
  orZero_ofNat (Nat.lt_trans b.toNat_lt (by decide))

theorem orZero_orZero (n : ν) : orZero (orZero n) = orZero n := by
  by_cases h : JsNumber.falsy n = true
  · have hzero : orZero n = JsNumber.ofNat 0 := if_pos h
    rw [hzero, orZero_ofNat (by decide)]
  · have hself : orZero n = n := if_neg h
    rw [hself, hself]

theorem numberOrZero_number (n : ν) : numberOrZero (.number n) = some (orZero n) := rfl

theorem IsNumber.orZero {n : SafeInteger} {v : JsValue ν} (h : IsNumber n v) :
    numberOrZero v = some (JsNumber.ofNat n) := by
  rw [h, numberOrZero_number, orZero_ofNat n.2]

/-! ## Lists -/

theorem mapM_some {α β : Type} {f : α → Option β} {l : List α} {g : α → β}
    (h : ∀ a ∈ l, f a = some (g a)) : l.mapM f = some (l.map g) := by
  induction l with
  | nil => rfl
  | cons a l ih =>
      obtain ⟨ha, hl⟩ := List.forall_mem_cons.mp h
      rw [List.mapM_cons, ha, ih hl]
      rfl

theorem mapM_forall₂ {α β γ : Type} {f : β → Option γ} {g : α → γ} {R : α → β → Prop}
    (hf : ∀ x v, R x v → f v = some (g x)) {xs : List α} {items : List β}
    (h : List.Forall₂ R xs items) : items.mapM f = some (xs.map g) := by
  induction h with
  | nil => rfl
  | cons hx hxs ih =>
      rw [List.mapM_cons, hf _ _ hx, ih]
      rfl

omit [JsNumber ν] in
theorem IsArrayOf.mapArray {α β : Type} {f : JsValue ν → Option β} {g : α → β}
    {R : α → JsValue ν → Prop} {xs : List α} {v : JsValue ν} (h : IsArrayOf R xs v)
    (hf : ∀ x v, R x v → f v = some (g x)) : Sdk.mapArray f v = some (xs.map g) := by
  obtain ⟨items, rfl, hitems⟩ := h
  exact mapM_forall₂ hf hitems

/-! ## Buffers -/

/-- The indices are sorted as numbers, whatever the order of the members. -/
theorem digitKeys_indexed {buffer : Buffer} {members : List (JsString × JsValue ν)}
    (h : members.Perm (indexMembers .number buffer)) :
    digitKeys members = (List.range buffer.1.length).map decimal := by
  have hkeys : ((inKeyOrder members).map Prod.fst).Perm
      ((List.range buffer.1.length).map decimal) := by
    rw [← keys_indexMembers (ν := ν) JsValue.number]
    exact ((inKeyOrder_perm members).trans h).map _
  have hdigits : ((inKeyOrder members).map Prod.fst).filter isDigits =
      (inKeyOrder members).map Prod.fst := by
    rw [List.filter_eq_self]
    intro key hkey
    obtain ⟨n, -, rfl⟩ := List.mem_map.mp (hkeys.mem_iff.mp hkey)
    refine Bool.and_eq_true_iff.mpr ⟨?_, List.all_eq_true.mpr (decimal_isDigit n)⟩
    rw [List.isEmpty_eq_false_iff.mpr (decimal_ne_nil n)]
    rfl
  have hnumbers : (((inKeyOrder members).map Prod.fst).map bigInt).Perm
      (List.range buffer.1.length) := by
    have hmap := hkeys.map bigInt
    rwa [List.map_map, List.map_map, show bigInt ∘ decimal = id from funext bigInt_decimal,
      List.map_id, ← List.map_map] at hmap
  have hback : (inKeyOrder members).map Prod.fst =
      (((inKeyOrder members).map Prod.fst).map bigInt).map decimal := by
    rw [List.map_map]
    refine ((List.map_congr_left fun key hkey => ?_).trans (List.map_id _)).symm
    obtain ⟨n, -, rfl⟩ := List.mem_map.mp (hkeys.mem_iff.mp hkey)
    exact congrArg decimal (bigInt_decimal n)
  unfold digitKeys
  rw [hdigits, hback]
  generalize ((inKeyOrder members).map Prod.fst).map bigInt = l at hnumbers
  have hbound : ∀ n ∈ l, n < 2 ^ 53 := fun n hn =>
    Nat.lt_trans (List.mem_range.mp (hnumbers.mem_iff.mp hn)) buffer.2
  rw [Comparator.sort_map (d := Comparator.onKey (fun n : Nat => (n : Int)) Comparator.numbers)]
  · rw [Comparator.sort_eq_of_perm (Comparator.numbers_consistent.onKey _) hnumbers]
    refine List.pairwise_lt_range.imp fun hlt => ?_
    simp only [Comparator.onKey, Comparator.numbers]
    omega
  · intro m hm n hn
    simp only [Comparator.onKey, Comparator.numbers, JsNumber.ofText_decimal m (hbound m hm),
      JsNumber.ofText_decimal n (hbound n hn),
      JsNumber.difference_ofNat m (hbound m hm) n (hbound n hn)]
    omega

theorem toNumberArray_indexed {buffer : Buffer} {members : List (JsString × JsValue ν)}
    (h : members.Perm (indexMembers .number buffer)) :
    toNumberArray (.object members) = some (Buffer.numbers buffer) := by
  let entry (i : Nat) : ν := (Buffer.numbers buffer)[i]?.getD JsNumber.nan
  have hlength : (Buffer.numbers buffer : List ν).length = buffer.1.length := List.length_map _
  have hget : ∀ i < buffer.1.length,
      numberOrZero (JsValue.get (decimal i) (.object members)) = some (entry i) := by
    intro i hi
    have hnodup := nodup_indexMembers (ν := ν) JsValue.number buffer
    have hlookup : members.lookup (decimal i) = some (.number (ofByte buffer.1[i])) := by
      rw [lookup_perm hnodup h, lookup_eq_some hnodup, indexMembers, List.mem_mapIdx]
      exact ⟨i, hi, rfl⟩
    have hentry : entry i = ofByte buffer.1[i] := by
      simp only [entry, Buffer.numbers, List.getElem?_map, List.getElem?_eq_getElem hi,
        Option.map_some, Option.getD_some]
    rw [JsValue.get, hlookup, hentry, Option.getD_some, numberOrZero_number, orZero_ofByte]
  have hrange : (List.range buffer.1.length).map entry = Buffer.numbers buffer := by
    apply List.ext_getElem
    · rw [List.length_map, List.length_range, hlength]
    · intro i hi hi'
      simp only [List.getElem_map, List.getElem_range, entry, List.getElem?_eq_getElem hi',
        Option.getD_some]
  have hentries :
      ((digitKeys members).mapM fun key => numberOrZero (JsValue.get key (.object members))) =
        some (Buffer.numbers buffer) := by
    rw [digitKeys_indexed h, List.mapM_map, ← hrange]
    exact mapM_some fun i hi => hget i (List.mem_range.mp hi)
  simp only [toNumberArray, hentries, Option.bind_eq_bind, Option.bind_some]
  cases (Buffer.numbers buffer : List ν) <;> rfl

theorem IsBuffer.numberArray {buffer : Buffer} {v : JsValue ν} (h : IsBuffer buffer v) :
    toNumberArray v = some (Buffer.numbers buffer) := by
  cases h with
  | uint8Array => rfl
  | numbers =>
      have hitems : ((buffer.1.map fun b => .number (ofByte b)) : List (JsValue ν)).mapM
          numberOrZero = some (Buffer.numbers buffer) := by
        rw [List.mapM_map]
        apply mapM_some
        intro b hb
        exact congrArg some (orZero_ofByte b)
      exact hitems
  | indexed h => exact toNumberArray_indexed h

/-! ## The transaction -/

omit [JsNumber ν] in
theorem HasMembers.get {fields : List (JsString × (JsValue ν → Prop))} {v : JsValue ν}
    (h : HasMembers fields v) : ∀ field ∈ fields, field.2 (JsValue.get field.1 v) := by
  obtain ⟨members, rfl, -, hmembers⟩ := h
  intro field hfield
  obtain ⟨w, hlookup, hw⟩ := hmembers field hfield
  rw [JsValue.get, hlookup]
  exact hw

theorem IsInstruction.normalize {ix : InstructionBytes} {v : JsValue ν} (h : IsInstruction ix v) :
    normalizeInstruction v = some ix.normalized := by
  have hfields := HasMembers.get h
  simp only [List.forall_mem_cons] at hfields
  obtain ⟨hindex, haccounts, hdata, -⟩ := hfields
  obtain ⟨members, rfl, -⟩ := h
  simp only [normalizeInstruction, hindex.orZero, haccounts.mapArray fun _ _ h => h.orZero,
    hdata.numberArray]
  rfl

theorem IsHeader.normalize {message : MessageBytes} {v : JsValue ν} (h : IsHeader message v) :
    normalizeHeader v = some message.normalized.header := by
  have hfields := HasMembers.get h
  simp only [List.forall_mem_cons] at hfields
  obtain ⟨hsignatures, hsigned, hunsigned, -⟩ := hfields
  simp only [normalizeHeader, hsignatures.orZero, hsigned.orZero, hunsigned.orZero]
  rfl

theorem IsMessage.normalize {message : MessageBytes} {v : JsValue ν} (h : IsMessage message v) :
    normalizeMessage v = some message.normalized := by
  have hfields := HasMembers.get h
  simp only [List.forall_mem_cons] at hfields
  obtain ⟨hheader, hkeys, hblockhash, hinstructions, -⟩ := hfields
  simp only [normalizeMessage, hheader.normalize, hblockhash.numberArray,
    hkeys.mapArray fun _ _ h => h.numberArray,
    hinstructions.mapArray fun _ _ h => h.normalize]
  rfl

theorem IsTransaction.normalize {transaction : TransactionBytes} {v : JsValue ν}
    (h : IsTransaction transaction v) :
    normalizeRuntimeTransaction v = some transaction.normalized := by
  have hfields := HasMembers.get h
  simp only [List.forall_mem_cons] at hfields
  obtain ⟨hversion, hsignatures, hmessage, -⟩ := hfields
  have hversion' : JsValue.get (text "version") v = .number (JsNumber.ofNat transaction.version) :=
    hversion
  simp only [normalizeRuntimeTransaction, hversion', hmessage.normalize,
    hsignatures.mapArray fun _ _ h => h.numberArray]
  rfl

/-! ## Through JSON -/

/-- What is so before JSON is so after it. -/
def Survives (P : JsValue ν → Prop) : Prop := ∀ v, P v → ∃ w, throughJson v = some w ∧ P w

theorem survives_number (n : SafeInteger) : Survives (IsNumber n : JsValue ν → Prop) := by
  rintro v rfl
  exact ⟨_, throughJson_number n.2, rfl⟩

theorem keep_indexMembers (bytes : List UInt8) :
    keep throughJson (indexMembers .number bytes : List (JsString × JsValue ν)) =
      indexMembers .number bytes := by
  refine (List.filterMap_congr fun m hm => ?_).trans List.filterMap_some
  obtain ⟨i, hi, rfl⟩ := List.mem_mapIdx.mp hm
  rw [throughJson_ofByte]
  rfl

theorem survives_buffer (buffer : Buffer) : Survives (IsBuffer buffer : JsValue ν → Prop) := by
  intro v h
  cases h with
  | uint8Array => exact ⟨_, throughJson_uint8Array _, .indexed (List.Perm.refl _)⟩
  | numbers =>
      refine ⟨_, throughJson_array _, ?_⟩
      have hitems : (buffer.1.map fun b => .number (ofByte b) : List (JsValue ν)).map
          (fun v => (throughJson v).getD .null) = buffer.1.map fun b => .number (ofByte b) := by
        rw [List.map_map]
        refine List.map_congr_left fun b hb => ?_
        rw [Function.comp_apply, throughJson_ofByte]
        rfl
      rw [hitems]
      exact .numbers
  | @indexed members h =>
      have hnodup := ((h.map Prod.fst).nodup_iff).mpr (nodup_indexMembers ..)
      obtain ⟨members', hjson, hperm⟩ := throughJson_object hnodup
      refine ⟨_, hjson, .indexed (hperm.trans ?_)⟩
      exact (h.filterMap _).trans (.of_eq (keep_indexMembers _))

theorem survives_array {α : Type} {R : α → JsValue ν → Prop} (h : ∀ x, Survives (R x))
    (xs : List α) : Survives (IsArrayOf R xs) := by
  rintro v ⟨items, rfl, hitems⟩
  refine ⟨_, throughJson_array items, _, rfl, ?_⟩
  induction hitems with
  | nil => exact .nil
  | cons hx hxs ih =>
      obtain ⟨w, hjson, hw⟩ := h _ _ hx
      rw [List.map_cons, hjson]
      exact .cons hw ih

theorem survives_members {fields : List (JsString × (JsValue ν → Prop))}
    (h : ∀ field ∈ fields, Survives field.2) : Survives (HasMembers fields) := by
  rintro v ⟨members, rfl, hnodup, hmembers⟩
  obtain ⟨members', hjson, hperm⟩ := throughJson_object hnodup
  have hkept : ((keep throughJson members).map Prod.fst).Nodup :=
    (keys_keep throughJson members).nodup hnodup
  refine ⟨_, hjson, members', rfl, ((hperm.map Prod.fst).nodup_iff).mpr hkept, ?_⟩
  intro field hfield
  obtain ⟨w, hlookup, hw⟩ := hmembers field hfield
  obtain ⟨w', hjson', hw'⟩ := h field hfield w hw
  refine ⟨w', ?_, hw'⟩
  rw [lookup_perm hkept hperm, lookup_keep _ hnodup, hlookup]
  exact hjson'

theorem survives_instruction (ix : InstructionBytes) :
    Survives (IsInstruction ix : JsValue ν → Prop) := by
  apply survives_members
  simp only [List.forall_mem_cons]
  exact ⟨survives_number _, survives_array survives_number _, survives_buffer _,
    List.forall_mem_nil _⟩

theorem survives_message (message : MessageBytes) :
    Survives (IsMessage message : JsValue ν → Prop) := by
  have hheader : Survives (IsHeader message : JsValue ν → Prop) := by
    apply survives_members
    simp only [List.forall_mem_cons]
    exact ⟨survives_number _, survives_number _, survives_number _, List.forall_mem_nil _⟩
  apply survives_members
  simp only [List.forall_mem_cons]
  exact ⟨hheader, survives_array survives_buffer _, survives_buffer _,
    survives_array survives_instruction _, List.forall_mem_nil _⟩

theorem survives_transaction (transaction : TransactionBytes) :
    Survives (IsTransaction transaction : JsValue ν → Prop) := by
  apply survives_members
  simp only [List.forall_mem_cons]
  exact ⟨survives_number _, survives_array survives_buffer _, survives_message _,
    List.forall_mem_nil _⟩

/-! ## Once more -/

theorem mem_of_mapM {α β : Type} {f : α → Option β} {l : List α} {r : List β}
    (h : l.mapM f = some r) : ∀ b ∈ r, ∃ a, f a = some b := by
  induction l generalizing r with
  | nil =>
      cases h
      exact List.forall_mem_nil _
  | cons a l ih =>
      rw [List.mapM_cons] at h
      obtain ⟨b, hb, h⟩ := Option.bind_eq_some_iff.mp h
      obtain ⟨bs, hbs, h⟩ := Option.bind_eq_some_iff.mp h
      cases h
      exact List.forall_mem_cons.mpr ⟨⟨a, hb⟩, ih hbs⟩

omit [JsNumber ν] in
theorem mem_of_mapArray {α : Type} {f : JsValue ν → Option α} {v : JsValue ν} {xs : List α}
    (h : mapArray f v = some xs) : ∀ x ∈ xs, ∃ item, f item = some x := by
  unfold mapArray at h
  split at h
  · exact mem_of_mapM h
  · cases h
    exact List.forall_mem_nil _

theorem numberOrZero_fixed {v : JsValue ν} {n : ν} (h : numberOrZero v = some n) :
    orZero n = n := by
  obtain ⟨m, -, rfl⟩ := Option.map_eq_some_iff.mp h
  exact orZero_orZero m

theorem toNumberArray_fixed {v : JsValue ν} {ns : List ν} (h : toNumberArray v = some ns) :
    ∀ n ∈ ns, orZero n = n := by
  have hentries : ∀ {l : List ν}, (∀ n ∈ l, ∃ v : JsValue ν, numberOrZero v = some n) →
      ∀ n ∈ l, orZero n = n := by
    intro l hl n hn
    obtain ⟨v, hv⟩ := hl n hn
    exact numberOrZero_fixed hv
  cases v with
  | uint8Array bytes =>
      cases h
      intro n hn
      obtain ⟨b, -, rfl⟩ := List.mem_map.mp hn
      exact orZero_ofByte b
  | array items => exact hentries (mem_of_mapM h)
  | object members =>
      obtain ⟨entries, hkeys, h⟩ := Option.bind_eq_some_iff.mp h
      cases h
      intro n hn
      split at hn
      · obtain ⟨key, hkey⟩ := mem_of_mapM hkeys n hn
        exact numberOrZero_fixed hkey
      · cases hn
  | _ =>
      cases h
      exact List.forall_mem_nil _

omit [JsNumber ν] in
theorem mapM_again {α : Type} {f : JsValue ν → Option α} {g : α → JsValue ν} {xs : List α}
    (h : ∀ x ∈ xs, f (g x) = some x) : (xs.map g).mapM f = some xs := by
  have hid : (xs.mapM fun x => f (g x)) = some (xs.map id) := mapM_some h
  rw [List.mapM_map]
  exact hid.trans (congrArg some (List.map_id xs))

theorem mapM_numbers {ns : List ν} (h : ∀ n ∈ ns, orZero n = n) :
    (ns.map JsValue.number).mapM numberOrZero = some ns :=
  mapM_again fun n hn => congrArg some (h n hn)

theorem toNumberArray_again {v : JsValue ν} {ns : List ν} (h : toNumberArray v = some ns) :
    toNumberArray (numbersValue ns) = some ns := mapM_numbers (toNumberArray_fixed h)

theorem normalizeInstruction_again {v : JsValue ν} {ix : MessageInstruction ν}
    (h : normalizeInstruction v = some ix) : normalizeInstruction ix.value = some ix := by
  have hread : ∃ index accounts data, numberOrZero index = some ix.programIdIndex ∧
      mapArray numberOrZero accounts = some ix.accounts ∧ toNumberArray data = some ix.data := by
    unfold normalizeInstruction at h
    split at h
    · cases h
    · cases h
    · obtain ⟨index, hindex, h⟩ := Option.bind_eq_some_iff.mp h
      obtain ⟨accounts, haccounts, h⟩ := Option.bind_eq_some_iff.mp h
      obtain ⟨data, hdata, h⟩ := Option.bind_eq_some_iff.mp h
      cases h
      exact ⟨_, _, _, hindex, haccounts, hdata⟩
  obtain ⟨_, _, _, hindex, haccounts, hdata⟩ := hread
  have hindex' : numberOrZero (JsValue.get (text "program_id_index") ix.value) =
      some ix.programIdIndex := congrArg some (numberOrZero_fixed hindex)
  have haccounts' : mapArray numberOrZero (JsValue.get (text "accounts") ix.value) =
      some ix.accounts := by
    refine mapM_numbers fun n hn => ?_
    obtain ⟨_, hn⟩ := mem_of_mapArray haccounts n hn
    exact numberOrZero_fixed hn
  have hdata' : toNumberArray (JsValue.get (text "data") ix.value) = some ix.data :=
    toNumberArray_again hdata
  have hvalue : normalizeInstruction ix.value = (do
      let programIdIndex ← numberOrZero (JsValue.get (text "program_id_index") ix.value)
      let accounts ← mapArray numberOrZero (JsValue.get (text "accounts") ix.value)
      let data ← toNumberArray (JsValue.get (text "data") ix.value)
      pure { programIdIndex, accounts, data }) := rfl
  rw [hvalue, hindex', haccounts', hdata']
  rfl

theorem normalizeHeader_again {v : JsValue ν} {header : MessageHeader ν}
    (h : normalizeHeader v = some header) : normalizeHeader header.value = some header := by
  obtain ⟨signatures, hsignatures, h⟩ := Option.bind_eq_some_iff.mp h
  obtain ⟨signed, hsigned, h⟩ := Option.bind_eq_some_iff.mp h
  obtain ⟨unsigned, hunsigned, h⟩ := Option.bind_eq_some_iff.mp h
  cases h
  have hvalue : normalizeHeader (MessageHeader.value ⟨signatures, signed, unsigned⟩) =
      some ⟨orZero signatures, orZero signed, orZero unsigned⟩ := rfl
  rw [hvalue, numberOrZero_fixed hsignatures, numberOrZero_fixed hsigned,
    numberOrZero_fixed hunsigned]

theorem normalizeMessage_again {v : JsValue ν} {message : Message ν}
    (h : normalizeMessage v = some message) : normalizeMessage message.value = some message := by
  obtain ⟨header, hheader, h⟩ := Option.bind_eq_some_iff.mp h
  obtain ⟨accountKeys, hkeys, h⟩ := Option.bind_eq_some_iff.mp h
  obtain ⟨recentBlockhash, hblockhash, h⟩ := Option.bind_eq_some_iff.mp h
  obtain ⟨instructions, hinstructions, h⟩ := Option.bind_eq_some_iff.mp h
  cases h
  have hkeys' : (accountKeys.map numbersValue).mapM toNumberArray = some accountKeys := by
    refine mapM_again fun ns hns => ?_
    obtain ⟨_, hns⟩ := mem_of_mapArray hkeys ns hns
    exact toNumberArray_again hns
  have hinstructions' : (instructions.map MessageInstruction.value).mapM normalizeInstruction =
      some instructions := by
    refine mapM_again fun ix hix => ?_
    obtain ⟨_, hix⟩ := mem_of_mapArray hinstructions ix hix
    exact normalizeInstruction_again hix
  have hvalue : normalizeMessage
      (Message.value ⟨header, accountKeys, recentBlockhash, instructions⟩) = (do
        let header ← normalizeHeader header.value
        let accountKeys ← (accountKeys.map numbersValue).mapM toNumberArray
        let recentBlockhash ← toNumberArray (numbersValue recentBlockhash)
        let instructions ← (instructions.map MessageInstruction.value).mapM normalizeInstruction
        pure { header, accountKeys, recentBlockhash, instructions }) := rfl
  rw [hvalue, normalizeHeader_again hheader, hkeys', toNumberArray_again hblockhash, hinstructions']
  rfl

theorem normalizeRuntimeTransaction_again {v : JsValue ν} {transaction : Transaction ν}
    (h : normalizeRuntimeTransaction v = some transaction) :
    normalizeRuntimeTransaction transaction.value = some transaction := by
  obtain ⟨signatures, hsignatures, h⟩ := Option.bind_eq_some_iff.mp h
  obtain ⟨message, hmessage, h⟩ := Option.bind_eq_some_iff.mp h
  cases h
  have hsignatures' : (signatures.map numbersValue).mapM toNumberArray = some signatures := by
    refine mapM_again fun ns hns => ?_
    obtain ⟨_, hns⟩ := mem_of_mapArray hsignatures ns hns
    exact toNumberArray_again hns
  have hvalue : ∀ version : ν,
      normalizeRuntimeTransaction (Transaction.value ⟨version, signatures, message⟩) = (do
        let signatures ← (signatures.map numbersValue).mapM toNumberArray
        let message ← normalizeMessage message.value
        pure { version, signatures, message }) := fun _ => rfl
  rw [hvalue, hsignatures', normalizeMessage_again hmessage]
  rfl

/-! ## The result is a transaction -/

omit [JsNumber ν] in
theorem forall₂_value {α : Type} {R : α → JsValue ν → Prop} {f : α → JsValue ν}
    (h : ∀ x, R x (f x)) (xs : List α) : List.Forall₂ R xs (xs.map f) := by
  rw [List.forall₂_map_right_iff, List.forall₂_same]
  exact fun x _ => h x

theorem isBuffer_value (buffer : Buffer) :
    IsBuffer buffer (numbersValue (Buffer.numbers buffer) : JsValue ν) := by
  have hnumbers : (numbersValue (Buffer.numbers buffer) : JsValue ν) =
      .array (buffer.1.map fun b => .number (ofByte b)) := congrArg JsValue.array List.map_map
  rw [hnumbers]
  exact .numbers

theorem isBuffers_value (buffers : List Buffer) : IsArrayOf IsBuffer buffers
    (.array ((buffers.map Buffer.numbers).map numbersValue) : JsValue ν) := by
  refine ⟨_, rfl, ?_⟩
  rw [List.map_map]
  exact forall₂_value isBuffer_value buffers

omit [JsNumber ν] in
/-- An object literal with distinct keys has each of its members. -/
theorem hasMembers_literal {members : List (JsString × JsValue ν)}
    (hnodup : (members.map Prod.fst).Nodup) {fields : List (JsString × (JsValue ν → Prop))}
    (h : List.Forall₂ (fun field member => field.1 = member.1 ∧ field.2 member.2) fields members) :
    HasMembers fields (.object members) := by
  refine ⟨members, rfl, hnodup, fun field hfield => ?_⟩
  have hmember : ∃ member ∈ members, field.1 = member.1 ∧ field.2 member.2 := by
    clear hnodup
    induction h with
    | nil => cases hfield
    | cons hx hxs ih =>
        cases hfield with
        | head => exact ⟨_, List.mem_cons_self, hx⟩
        | tail _ hfield =>
            obtain ⟨member, hmem, hmember⟩ := ih hfield
            exact ⟨member, List.mem_cons_of_mem _ hmem, hmember⟩
  obtain ⟨⟨key, w⟩, hmem, hkey, hw⟩ := hmember
  rw [hkey]
  exact ⟨w, (lookup_eq_some hnodup).mpr hmem, hw⟩

theorem isInstruction_value (ix : InstructionBytes) :
    IsInstruction ix (ix.normalized.value : JsValue ν) := by
  have hkeys : [text "program_id_index", text "accounts", text "data"].Nodup := by decide +kernel
  have haccounts : IsArrayOf IsNumber ix.accounts
      (numbersValue (ix.accounts.map fun n => JsNumber.ofNat n.1) : JsValue ν) := by
    refine ⟨_, rfl, ?_⟩
    rw [List.map_map]
    exact forall₂_value (R := IsNumber) (f := fun n => .number (JsNumber.ofNat n.1 : ν))
      (fun _ => rfl) ix.accounts
  refine hasMembers_literal ?_ ?_
  · exact hkeys
  · exact .cons ⟨rfl, rfl⟩ (.cons ⟨rfl, haccounts⟩ (.cons ⟨rfl, isBuffer_value _⟩ .nil))

theorem isMessage_value (message : MessageBytes) :
    IsMessage message (message.normalized.value : JsValue ν) := by
  have hheaderKeys : [text "num_required_signatures", text "num_readonly_signed_accounts",
      text "num_readonly_unsigned_accounts"].Nodup := by decide +kernel
  have hkeys : [text "header", text "account_keys", text "recent_blockhash",
      text "instructions"].Nodup := by decide +kernel
  have hheader : IsHeader message (message.normalized.header.value : JsValue ν) := by
    refine hasMembers_literal ?_ ?_
    · exact hheaderKeys
    · exact .cons ⟨rfl, rfl⟩ (.cons ⟨rfl, rfl⟩ (.cons ⟨rfl, rfl⟩ .nil))
  have hinstructions : IsArrayOf IsInstruction message.instructions (.array
      ((message.instructions.map InstructionBytes.normalized).map MessageInstruction.value) :
        JsValue ν) := by
    refine ⟨_, rfl, ?_⟩
    rw [List.map_map]
    exact forall₂_value isInstruction_value message.instructions
  refine hasMembers_literal ?_ ?_
  · exact hkeys
  · exact .cons ⟨rfl, hheader⟩ (.cons ⟨rfl, isBuffers_value _⟩ (.cons ⟨rfl, isBuffer_value _⟩
      (.cons ⟨rfl, hinstructions⟩ .nil)))

theorem isTransaction_value (transaction : TransactionBytes) :
    IsTransaction transaction (transaction.normalized.value : JsValue ν) := by
  have hkeys : [text "version", text "signatures", text "message"].Nodup := by decide +kernel
  refine hasMembers_literal ?_ ?_
  · exact hkeys
  · exact .cons ⟨rfl, rfl⟩ (.cons ⟨rfl, isBuffers_value _⟩ (.cons ⟨rfl, isMessage_value _⟩ .nil))

/-! ## From the builder to the node -/

theorem IsTransaction.normalize_parsed {transaction : TransactionBytes} {v : JsValue ν}
    (h : IsTransaction transaction v) : ∃ (json : JsString) (w : JsValue ν),
      stringify v = some json ∧ JsValue.parse json = some w ∧
        normalizeRuntimeTransaction w = some transaction.normalized := by
  obtain ⟨w, hthrough, hw⟩ := survives_transaction transaction v h
  rw [← parse_stringify] at hthrough
  obtain ⟨json, hjson, hparse⟩ := Option.bind_eq_some_iff.mp hthrough
  exact ⟨json, w, hjson, hparse, hw.normalize⟩

/-- The three ways of giving a buffer, and a passage through JSON, make no difference, and a
second normalisation none either. -/
theorem transaction_normalized :
    (∀ (transaction : TransactionBytes) (v : JsValue ν), IsTransaction transaction v →
      normalizeRuntimeTransaction v = some transaction.normalized ∧
        ∃ (json : JsString) (w : JsValue ν), stringify v = some json ∧ JsValue.parse json = some w ∧
          normalizeRuntimeTransaction w = some transaction.normalized) ∧
      ∀ (v : JsValue ν) transaction, normalizeRuntimeTransaction v = some transaction →
        normalizeRuntimeTransaction transaction.value = some transaction := by
  refine ⟨fun transaction v h => ⟨h.normalize, h.normalize_parsed⟩, fun v transaction =>
    normalizeRuntimeTransaction_again⟩

end

/-! ## The message that was signed -/

/-- The compiled messages are values, and hold what a message holds. -/
class MessageValues (ν : Type) [JsNumber ν] [ArchSdk] where
  contents : ArchSdk.SanitizedMessage → MessageBytes
  value : ArchSdk.SanitizedMessage → JsValue ν
  value_isMessage : ∀ message, IsMessage (contents message) (value message)

/-- The transaction with version 0 and one signature. -/
def signedContents (signature : Buffer) (message : MessageBytes) : TransactionBytes :=
  { version := ⟨0, by decide⟩, signatures := [signature], message }

section
variable {ν : Type} [JsNumber ν] [ArchSdk] [MessageValues ν] {ε : Type}

/-- The transaction that `buildTransaction` returns, of the message that it compiled. -/
def builtTransaction (message : ArchSdk.SanitizedMessage) : Option (Transaction ν) :=
  normalizeRuntimeTransaction (.object [(text "version", .number (JsNumber.ofNat 0)),
    (text "signatures", .array []), (text "message", MessageValues.value message)])

/-- The body that is sent of it once it is signed. -/
def sentBody (built : Transaction ν) (signature : List UInt8) : Option JsString :=
  (normalizeRuntimeTransaction { built with signatures := [signature.map ofByte] }.value).bind
    fun sent => requestBody (text "send_transaction") sent.value

/-- What the node reads, where it is asked to run a transaction. -/
def IsSubmission (transaction : TransactionBytes) : JsValue ν → Prop :=
  HasMembers [(text "jsonrpc", (· = .string (text "2.0"))), (text "id", IsNumber ⟨1, by decide⟩),
    (text "method", (· = .string (text "send_transaction"))),
    (text "params", IsTransaction transaction)]

theorem builtTransaction_eq (message : ArchSdk.SanitizedMessage) :
    builtTransaction message = some (TransactionBytes.normalized
      { version := ⟨0, by decide⟩, signatures := [],
        message := MessageValues.contents ν message } : Transaction ν) := by
  have hkeys : [text "version", text "signatures", text "message"].Nodup := by decide +kernel
  apply IsTransaction.normalize
  refine hasMembers_literal ?_ ?_
  · exact hkeys
  · exact .cons ⟨rfl, rfl⟩ (.cons ⟨rfl, _, rfl, .nil⟩
      (.cons ⟨rfl, MessageValues.value_isMessage message⟩ .nil))

omit [ArchSdk] [MessageValues ν] in
theorem requestBody_read (transaction : TransactionBytes) :
    ∃ body w, requestBody (text "send_transaction") (transaction.normalized.value : JsValue ν) =
      some body ∧ JsValue.parse body = some w ∧ IsSubmission (ν := ν) transaction w := by
  have hkeys : [text "jsonrpc", text "id", text "method", text "params"].Nodup := by decide +kernel
  have hstring : ∀ s : JsString, Survives ((· = .string s) : JsValue ν → Prop) := by
    rintro s _ rfl
    exact ⟨_, rfl, rfl⟩
  have hsurvives : Survives (IsSubmission transaction : JsValue ν → Prop) := by
    apply survives_members
    simp only [List.forall_mem_cons]
    exact ⟨hstring _, survives_number _, hstring _, survives_transaction _, List.forall_mem_nil _⟩
  obtain ⟨w, hthrough, hw⟩ := hsurvives (.object [(text "jsonrpc", .string (text "2.0")),
      (text "id", .number (JsNumber.ofNat 1)), (text "method", .string (text "send_transaction")),
      (text "params", transaction.normalized.value)]) <| by
    refine hasMembers_literal ?_ ?_
    · exact hkeys
    · exact .cons ⟨rfl, rfl⟩ (.cons ⟨rfl, rfl⟩ (.cons ⟨rfl, rfl⟩
        (.cons ⟨rfl, isTransaction_value transaction⟩ .nil)))
  rw [← parse_stringify] at hthrough
  obtain ⟨body, hbody, hparse⟩ := Option.bind_eq_some_iff.mp hthrough
  exact ⟨body, w, hbody, hparse, hw⟩

/-- The body that is sent of a built message holds that message. -/
theorem sentBody_read (message : ArchSdk.SanitizedMessage) (signature : Buffer) :
    ∃ (built : Transaction ν) (body : JsString) (w : JsValue ν),
      builtTransaction message = some built ∧ sentBody built signature = some body ∧
        JsValue.parse body = some w ∧
        IsSubmission (signedContents signature (MessageValues.contents ν message)) w := by
  have hsent := (isTransaction_value (ν := ν)
    (signedContents signature (MessageValues.contents ν message))).normalize
  obtain ⟨body, w, hbody, hparse, hw⟩ := requestBody_read (ν := ν)
    (signedContents signature (MessageValues.contents ν message))
  refine ⟨_, body, w, builtTransaction_eq message, ?_, hparse, hw⟩
  change (normalizeRuntimeTransaction (signedContents signature
    (MessageValues.contents ν message)).normalized.value).bind _ = _
  rw [hsent]
  exact hbody

omit [MessageValues ν] in
theorem submitTransaction_ok {p : SendParams ε} {txid : JsString}
    (h : submitTransaction p = .ok txid) : ∃ blockhash message signatureHex,
      p.getBestBlockHash = .ok blockhash ∧
        ArchSdk.createSanitizedMessage [p.instruction] p.feePayer blockhash = .ok message ∧
        p.signer (decode (ArchSdk.hash message)) = .ok signatureHex ∧
        p.sendTransaction { version := 0, signatures := [hexToBytes signatureHex], message } =
          .ok txid := by
  simp only [submitTransaction, buildTransaction, Outcome.bind_ok, Outcome.mapError_ok,
    Outcome.pure_ok] at h
  obtain ⟨_, ⟨blockhash, hbest, message, hcompiled, rfl⟩, signatureHex, hsign, hsend⟩ := h
  exact ⟨blockhash, message, signatureHex, hbest, hcompiled, hsign, hsend⟩

/-- Where a run of an instruction is accepted, the node reads the message that the instruction
was compiled to, whose hash was signed, with the signature of that hash. -/
theorem signed_message_sent (p : SendParams ε) (txid : JsString)
    (h : submitTransaction p = .ok txid) : ∃ blockhash message signatureHex,
      p.getBestBlockHash = .ok blockhash ∧
        ArchSdk.createSanitizedMessage [p.instruction] p.feePayer blockhash = .ok message ∧
        p.signer (decode (ArchSdk.hash message)) = .ok signatureHex ∧
        p.sendTransaction { version := 0, signatures := [hexToBytes signatureHex], message } =
          .ok txid ∧
        ∀ signature : Buffer, signature.1 = hexToBytes signatureHex →
          ∃ (built : Transaction ν) (body : JsString) (w : JsValue ν),
            builtTransaction message = some built ∧ sentBody built signature = some body ∧
              JsValue.parse body = some w ∧
              IsSubmission (signedContents signature (MessageValues.contents ν message)) w := by
  obtain ⟨blockhash, message, signatureHex, hbest, hcompiled, hsign, hsend⟩ :=
    submitTransaction_ok h
  exact ⟨blockhash, message, signatureHex, hbest, hcompiled, hsign, hsend,
    fun signature _ => sentBody_read message signature⟩

/-- However the buffers are given, the normal form holds their bytes; it is its own normal form,
and that of what was read back from JSON. So the message that reaches the node, normalised when
it was built and when it was sent, is the one whose hash the signer was given. -/
theorem normalization_keeps_message (ε : Type) :
    (∀ (transaction : TransactionBytes) (v : JsValue ν), IsTransaction transaction v →
      normalizeRuntimeTransaction v = some transaction.normalized ∧
        ∃ (json : JsString) (w : JsValue ν), stringify v = some json ∧ JsValue.parse json = some w ∧
          normalizeRuntimeTransaction w = normalizeRuntimeTransaction v) ∧
      (∀ (v : JsValue ν) transaction, normalizeRuntimeTransaction v = some transaction →
        normalizeRuntimeTransaction transaction.value = normalizeRuntimeTransaction v) ∧
      ∀ (p : SendParams ε) (txid : JsString), submitTransaction p = .ok txid →
        ∃ blockhash message signatureHex,
          ArchSdk.createSanitizedMessage [p.instruction] p.feePayer blockhash = .ok message ∧
          p.signer (decode (ArchSdk.hash message)) = .ok signatureHex ∧
          p.sendTransaction { version := 0, signatures := [hexToBytes signatureHex], message } =
            .ok txid ∧
          ∀ signature : Buffer, signature.1 = hexToBytes signatureHex →
            ∃ (built : Transaction ν) (body : JsString) (w : JsValue ν),
              builtTransaction message = some built ∧ sentBody built signature = some body ∧
                JsValue.parse body = some w ∧
                IsSubmission (signedContents signature (MessageValues.contents ν message)) w := by
  refine ⟨fun transaction v h => ?_, fun v transaction h => ?_, fun p txid h => ?_⟩
  · rw [h.normalize]
    exact ⟨rfl, h.normalize_parsed⟩
  · rw [h]
    exact normalizeRuntimeTransaction_again h
  · obtain ⟨blockhash, message, signatureHex, -, hcompiled, hsign, hsend⟩ := submitTransaction_ok h
    exact ⟨blockhash, message, signatureHex, hcompiled, hsign, hsend,
      fun signature _ => sentBody_read message signature⟩

end

/-! ## A transaction in mixed form -/

namespace Mixed

inductive WholeNumber where
  | nan
  | whole (n : Nat)

def WholeNumber.toText : WholeNumber → JsString
  | .nan => text "NaN"
  | .whole n => decimal n

def WholeNumber.order : Comparator WholeNumber
  | .whole m, .whole n => (m : Int) - n
  | _, _ => 0

/-- Arithmetic on the numbers that the transaction has. -/
scoped instance jsNumber : JsNumber WholeNumber where
  ofText s := if s.all isDigit then .whole (bigInt s) else .nan
  toText := WholeNumber.toText
  isFinite n := n matches .whole _
  toText_numeral n h := by
    cases n with
    | nan => cases h
    | whole n => exact isNumeral_decimal n
  ofNat := .whole
  nan := .nan
  falsy n := n matches .nan | .whole 0
  difference := WholeNumber.order
  falsy_ofNat n _ := by cases n <;> simp
  difference_ofNat m _ n _ := by
    simp only [WholeNumber.order]
    omega
  ofText_decimal n _ := by
    rw [if_pos (List.all_eq_true.mpr (decimal_isDigit n)), bigInt_decimal]
  toText_ofNat _ _ := rfl
  isFinite_ofNat _ _ := rfl

/-- One signature, one account and no instruction. -/
def contents : TransactionBytes :=
  { version := ⟨0, by decide⟩
    signatures := [⟨[1, 2], by decide⟩]
    message :=
      { numRequiredSignatures := ⟨1, by decide⟩
        numReadonlySignedAccounts := ⟨0, by decide⟩
        numReadonlyUnsignedAccounts := ⟨0, by decide⟩
        accountKeys := [⟨[7, 8], by decide⟩]
        recentBlockhash := ⟨[9], by decide⟩
        instructions := [] } }

/-- The signature is an array of bytes, and the account the members of one, out of order. -/
def value : JsValue WholeNumber :=
  .object [(text "version", .number (.whole 0)),
    (text "signatures", .array [.uint8Array [1, 2]]),
    (text "message", .object [
      (text "header", .object [
        (text "num_required_signatures", .number (.whole 1)),
        (text "num_readonly_signed_accounts", .number (.whole 0)),
        (text "num_readonly_unsigned_accounts", .number (.whole 0))]),
      (text "account_keys", .array [.object [(text "1", .number (.whole 8)),
        (text "0", .number (.whole 7))]]),
      (text "recent_blockhash", .array [.number (.whole 9)]),
      (text "instructions", .array [])])]

theorem value_isTransaction : IsTransaction contents value := by
  have hkeys : [text "version", text "signatures", text "message"].Nodup := by decide +kernel
  have hmessageKeys : [text "header", text "account_keys", text "recent_blockhash",
      text "instructions"].Nodup := by decide +kernel
  have hheaderKeys : [text "num_required_signatures", text "num_readonly_signed_accounts",
      text "num_readonly_unsigned_accounts"].Nodup := by decide +kernel
  have hheader : IsHeader contents.message
      (JsValue.get (text "header") (JsValue.get (text "message") value)) := by
    refine hasMembers_literal ?_ ?_
    · exact hheaderKeys
    · exact .cons ⟨rfl, rfl⟩ (.cons ⟨rfl, rfl⟩ (.cons ⟨rfl, rfl⟩ .nil))
  have haccount : IsBuffer (⟨[7, 8], by decide⟩ : Buffer) (.object [(text "1", .number (.whole 8)),
      (text "0", .number (.whole 7))] : JsValue WholeNumber) := .indexed (List.Perm.swap ..)
  have hmessage : IsMessage contents.message (JsValue.get (text "message") value) := by
    refine hasMembers_literal ?_ ?_
    · exact hmessageKeys
    · exact .cons ⟨rfl, hheader⟩ (.cons ⟨rfl, _, rfl, .cons haccount .nil⟩
        (.cons ⟨rfl, .numbers⟩ (.cons ⟨rfl, _, rfl, .nil⟩ .nil)))
  refine hasMembers_literal ?_ ?_
  · exact hkeys
  · exact .cons ⟨rfl, rfl⟩ (.cons ⟨rfl, _, rfl, .cons .uint8Array .nil⟩
      (.cons ⟨rfl, hmessage⟩ .nil))

theorem value_normalized : normalizeRuntimeTransaction value = some contents.normalized ∧
    normalizeRuntimeTransaction (contents.normalized : Transaction WholeNumber).value =
      some contents.normalized := by
  have hvalue := (transaction_normalized.1 contents value value_isTransaction).1
  exact ⟨hvalue, transaction_normalized.2 value contents.normalized hvalue⟩

/-- The payer signs one instruction. -/
def payer : ArchAddress := Bytes.fill 32 9

def instruction : BuiltInstruction :=
  { programId := Bytes.fill 32 5
    accounts := [{ pubkey := payer.toList, isSigner := true, isWritable := true }]
    data := [7] }

/-- The payer comes first, and the program last. -/
def compiled : MessageBytes :=
  { numRequiredSignatures := ⟨1, by decide⟩
    numReadonlySignedAccounts := ⟨0, by decide⟩
    numReadonlyUnsignedAccounts := ⟨1, by decide⟩
    accountKeys := [⟨List.replicate 32 9, by decide⟩, ⟨List.replicate 32 5, by decide⟩]
    recentBlockhash := ⟨List.replicate 32 3, by decide⟩
    instructions :=
      [{ programIdIndex := ⟨1, by decide⟩
         accounts := [⟨0, by decide⟩]
         data := ⟨[7], by decide⟩ }] }

/-- The hash of the compiled message, in hex. -/
def compiledHash : JsString :=
  text "032da9139ae609bf41cee6612ff94950b952f19c4ff34c9bd9b6f86b794d07ab"

scoped instance archSdk : ArchSdk where
  SanitizedMessage := MessageBytes
  createSanitizedMessage _ _ _ := .ok compiled
  hash _ := compiledHash.encode

scoped instance messageValues : MessageValues WholeNumber where
  contents message := message
  value message := message.normalized.value
  value_isMessage := isMessage_value

def signature : Buffer := ⟨List.replicate 64 0xAB, by decide⟩

/-- A run that the node accepts; only that hash is signed. -/
def params : SendParams Unit :=
  { instruction
    feePayer := payer
    getBestBlockHash := .ok (List.replicate 32 3)
    signer := fun challenge =>
      if challenge = compiledHash then .ok (bytesToHex signature.1) else .error ()
    sendTransaction := fun _ => .ok (text "ab")
    getProcessedTransaction := fun _ _ => .ok none
    confirm := some false
    confirmTimeoutMs := none
    confirmIntervalMs := none
    isComplete := none
    onSubmitted := none
    start := 0
    now := fun n => n }

theorem compiled_signed :
    params.signer (decode (ArchSdk.hash compiled)) = .ok (bytesToHex signature.1) := by
  have hhash : decode compiledHash.encode = compiledHash := by decide +kernel
  change (if decode compiledHash.encode = compiledHash then Except.ok _ else Except.error ()) = _
  rw [if_pos hhash]

theorem params_accepted : submitTransaction params = .ok (text "ab") := by
  simp only [submitTransaction, buildTransaction, Outcome.bind_ok, Outcome.mapError_ok,
    Outcome.pure_ok]
  exact ⟨_, ⟨_, rfl, compiled, rfl, rfl⟩, _, compiled_signed, rfl⟩

theorem signature_decoded : hexToBytes (bytesToHex signature.1) = signature.1 := by
  decide +kernel

theorem message_sent :
    params.signer (decode (ArchSdk.hash compiled)) = .ok (bytesToHex signature.1) ∧
    ∃ (built : Transaction WholeNumber) (body : JsString) (w : JsValue WholeNumber),
      builtTransaction (ν := WholeNumber) compiled = some built ∧
        sentBody built signature = some body ∧ JsValue.parse body = some w ∧
        IsSubmission (signedContents signature compiled) w := by
  obtain ⟨_, message, signatureHex, -, hcompiled, hsign, -, hread⟩ :=
    signed_message_sent (ν := WholeNumber) params (text "ab") params_accepted
  cases hcompiled
  rw [compiled_signed] at hsign
  cases hsign
  exact ⟨compiled_signed, hread signature signature_decoded.symm⟩

/-- The transaction in mixed form, and the run with the compiled message. -/
theorem mixed_kept :
    normalizeRuntimeTransaction value = some contents.normalized ∧
      normalizeRuntimeTransaction (contents.normalized : Transaction WholeNumber).value =
        some contents.normalized ∧
      ∃ (built : Transaction WholeNumber) (body : JsString) (w : JsValue WholeNumber),
        builtTransaction (ν := WholeNumber) compiled = some built ∧
          sentBody built signature = some body ∧ JsValue.parse body = some w ∧
          IsSubmission (signedContents signature compiled) w := by
  obtain ⟨hforms, hagain, hmessage⟩ := normalization_keeps_message (ν := WholeNumber) Unit
  have hvalue := (hforms contents value value_isTransaction).1
  obtain ⟨_, message, signatureHex, hcompiled, hsign, -, hread⟩ :=
    hmessage params (text "ab") params_accepted
  cases hcompiled
  rw [compiled_signed] at hsign
  cases hsign
  exact ⟨hvalue, (hagain value contents.normalized hvalue).trans hvalue,
    hread signature signature_decoded.symm⟩

end Mixed

end Sdk

end ArchNameService
