import ArchNameService.Deploy.Idl
import ArchNameService.Guarantees.IdlAccounts

/-!
# What publishing leaves on chain

The client keeps in step with the handlers: it grows the account by as much as
they do, and every chunk it sends is appended to the ones before.
-/

namespace ArchNameService
open Crypto Deployment

/-! ## Bytes written over others -/

/-- The bytes with a part written over them from an offset on. -/
def overwrite (bytes part : List UInt8) (lo : Nat) : List UInt8 :=
  bytes.take lo ++ part ++ bytes.drop (lo + part.length)

theorem length_overwrite {bytes part : List UInt8} {lo : Nat} (h : lo + part.length ≤ bytes.length) :
    (overwrite bytes part lo).length = bytes.length := by
  simp only [overwrite, List.length_append, List.length_take, List.length_drop]
  omega

/-- Two parts, one after the other, are written as one. -/
theorem overwrite_append {bytes first second : List UInt8} {lo : Nat}
    (h : lo + first.length ≤ bytes.length) :
    overwrite (overwrite bytes first lo) second (lo + first.length) =
      overwrite bytes (first ++ second) lo := by
  have hlength : (bytes.take lo ++ first).length = lo + first.length := by
    rw [List.length_append, List.length_take_of_le (Nat.le_trans (Nat.le_add_right _ _) h)]
  unfold overwrite
  rw [List.take_left' hlength, ← List.drop_drop, List.drop_left' hlength, List.drop_drop,
    List.length_append, List.append_assoc (bytes.take lo) first second, ← Nat.add_assoc]

theorem overwrite_nil (bytes : List UInt8) (lo : Nat) : overwrite bytes [] lo = bytes := by
  rw [overwrite, List.append_nil, List.length_nil, Nat.add_zero, List.take_append_drop]

/-- Nothing is left of bytes that are written over from end to end. -/
theorem overwrite_all {bytes part : List UInt8} (h : bytes.length = part.length) :
    overwrite bytes part 0 = part := by
  rw [overwrite, List.take_zero, List.nil_append, Nat.zero_add, ← h, List.drop_length,
    List.append_nil]

namespace Idl

/-! ## Encoded payloads -/

theorem payload?_selector (tag : UInt8) (operands : List UInt8) :
    payload? (ixTagLe ++ tag :: operands) = some (tag :: operands) := by
  have htake : (ixTagLe ++ tag :: operands).take 8 = ixTagLe := rfl
  have hlong : ¬ (ixTagLe ++ tag :: operands).length < 9 := by
    rw [List.length_append, List.length_cons, show ixTagLe.length = 8 from rfl]
    omega
  rw [payload?, if_neg (not_or.mpr ⟨hlong, not_not.mpr htake⟩)]
  rfl

theorem readU64_leBytes {n : Nat} (h : n < 2 ^ 64) : readU64 (leBytes 8 n) = .ok n := by
  have hlong : ¬ (leBytes 8 n).length < 8 := by
    rw [length_leBytes]
    omega
  have hslice : slice ([] ++ (leBytes 8 n ++ [])) 0 8 = .ok (leBytes 8 n) :=
    slice_append rfl (by rw [length_leBytes]; rfl)
  rw [List.nil_append, List.append_nil] at hslice
  simp only [readU64, reject, if_neg hlong, hslice]
  change Except.ok (leNat (leBytes 8 n)) = _
  rw [leNat_leBytes_of_lt h]

theorem readVec_append {chunk : List UInt8} (h : chunk.length < 2 ^ 32) :
    readVec (leBytes 4 chunk.length ++ chunk) = .ok chunk := by
  have hlength : (leBytes 4 chunk.length ++ chunk).length = 4 + chunk.length := by
    rw [List.length_append, length_leBytes]
  have hlong : ¬ (leBytes 4 chunk.length ++ chunk).length < 4 := by
    omega
  have hfield : slice ([] ++ (leBytes 4 chunk.length ++ chunk)) 0 4 = .ok (leBytes 4 chunk.length) :=
    slice_append rfl (by rw [length_leBytes]; rfl)
  have hchunk : slice (leBytes 4 chunk.length ++ (chunk ++ [])) 4 (4 + chunk.length) = .ok chunk :=
    slice_append (by rw [length_leBytes]) (by rw [length_leBytes])
  rw [List.nil_append] at hfield
  rw [List.append_nil] at hchunk
  simp only [readVec, Outcome.bind_ok, Outcome.reject_ok, exists_const]
  refine ⟨hlong, _, hfield, ?_, ?_⟩
  · rw [leNat_leBytes_of_lt h, hlength]
    exact Nat.lt_irrefl _
  · rw [leNat_leBytes_of_lt h]
    exact hchunk

theorem decode_create {n : Nat} (h : n < 2 ^ 64) :
    Instruction.decode (0 :: leBytes 8 n) = .ok (.create n) := by
  change (do let dataLen ← readU64 (leBytes 8 n); pure (Instruction.create dataLen)) = _
  rw [readU64_leBytes h]
  rfl

theorem decode_resize {n : Nat} (h : n < 2 ^ 64) :
    Instruction.decode (6 :: leBytes 8 n) = .ok (.resize n) := by
  change (do let dataLen ← readU64 (leBytes 8 n); pure (Instruction.resize dataLen)) = _
  rw [readU64_leBytes h]
  rfl

theorem decode_write {chunk : List UInt8} (h : chunk.length < 2 ^ 32) :
    Instruction.decode (2 :: (leBytes 4 chunk.length ++ chunk)) = .ok (.write chunk) := by
  change (do let chunk ← readVec (leBytes 4 chunk.length ++ chunk); pure (Instruction.write chunk)) = _
  rw [readVec_append h]
  rfl

end Idl

namespace Deploy

section
variable [Deployment] {L L' : Ledger} {authority idl : ArchAddress} {n : Nat} {body : List UInt8}

/-! ## Sending -/

theorem sendAll_append (L : Ledger) (first second : List Transaction) :
    sendAll L (first ++ second) = sendAll L first >>= fun L => sendAll L second :=
  List.foldlM_append

theorem sendAll_cons_ok {transaction : Transaction} {later : List Transaction} {L₁ : Ledger}
    (h : sendAndConfirmMany L transaction = .ok L₁) :
    sendAll L (transaction :: later) = sendAll L₁ later := by
  change (sendAndConfirmMany L transaction >>= fun L => sendAll L later) = _
  rw [h]
  rfl

/-- One instruction of the IDL account, sent alone. -/
theorem sent_idl {accounts : List AccountInfo} {tag : UInt8} {operands : List UInt8}
    {instruction : Idl.Instruction}
    (hdecode : Idl.Instruction.decode (tag :: operands) = .ok instruction)
    (h : instruction.run L accounts = .ok L') :
    Instruction.execute L (.invoke accounts (Idl.ixTagLe ++ tag :: operands)) = .ok L' := by
  change processInstruction L accounts (Idl.ixTagLe ++ tag :: operands) = .ok L'
  simp only [processInstruction, Idl.payload?_selector]
  exact Idl.process_ok.mpr ⟨instruction, hdecode, h⟩

theorem sent_alone {instruction : Instruction} (h : instruction.execute L = .ok L') :
    sendAndConfirmMany L [instruction] = .ok L' := by
  change (instruction.execute L >>= pure) = _
  rw [h]
  rfl

/-! ## Writing in chunks -/

/-- The account holds the bytes that the authority has written so far. -/
theorem write_sent {chunk : List UInt8} (keeps : Idl.Keeps L idl authority n body)
    (hauthority : authority ≠ Idl.erasedAuthority) (hfits : n + chunk.length ≤ body.length)
    (hsmall : n + chunk.length < 2 ^ 32) :
    sendAndConfirmMany L (writeTransaction idl authority chunk) =
      .ok (L.setData idl (Idl.image authority (n + chunk.length) (overwrite body chunk n))) := by
  apply sent_alone
  apply sent_idl (Idl.decode_write (by omega))
  refine Idl.write_ok.mpr ⟨accountMeta idl false, accountMetaReadonly authority true, [], n, body, rfl,
    ⟨rfl, hauthority, keeps⟩, hfits, ?_⟩
  rw [Nat.mod_eq_of_lt hsmall]
  rfl

omit [Deployment] in
/-- Writes of one account leave the others in place. -/
structure ChangesOnly (k : ArchAddress) (L L' : Ledger) : Prop where
  owner : ∀ j, L'.owner j = L.owner j
  data : ∀ j, j ≠ k → L'.data j = L.data j

/-- All chunks arrive, in order and without a gap. -/
theorem writeChunks_sent {bytes : List UInt8} (hauthority : authority ≠ Idl.erasedAuthority)
    (keeps : Idl.Keeps L idl authority n body) (hfits : n + bytes.length ≤ body.length)
    (hsmall : n + bytes.length < 2 ^ 32) :
    ∃ L', sendAll L (writeChunks idl authority bytes) = .ok L' ∧
      Idl.Keeps L' idl authority (n + bytes.length) (overwrite body bytes n) ∧
      ChangesOnly idl L L' := by
  unfold writeChunks
  induction bytes using chunks.induct maxWriteSize generalizing L n body with
  | case1 bytes hdone =>
      obtain rfl : bytes = [] := hdone.resolve_left (by decide)
      rw [chunks, if_pos (.inr rfl), overwrite_nil]
      exact ⟨L, rfl, keeps, fun _ => rfl, fun _ _ => rfl⟩
  | case2 bytes hmore ih =>
      have hsplit : bytes.take maxWriteSize ++ bytes.drop maxWriteSize = bytes :=
        List.take_append_drop ..
      have hlength := congrArg List.length hsplit
      rw [List.length_append] at hlength
      rw [chunks, if_neg hmore, List.map_cons]
      have hfirst : n + (bytes.take maxWriteSize).length ≤ body.length := by omega
      rw [sendAll_cons_ok (write_sent keeps hauthority hfirst (by omega))]
      have keeps₁ : Idl.Keeps (L.setData idl (Idl.image authority
          (n + (bytes.take maxWriteSize).length) (overwrite body (bytes.take maxWriteSize) n))) idl
          authority (n + (bytes.take maxWriteSize).length)
          (overwrite body (bytes.take maxWriteSize) n) :=
        { owner := by rw [Ledger.owner_setData, keeps.owner]
          data := by rw [Ledger.data_setData, if_pos rfl]
          small := by omega }
      have hrest := ih keeps₁ (by rw [length_overwrite hfirst]; omega) (by omega)
      rw [overwrite_append hfirst, hsplit, Nat.add_assoc, hlength] at hrest
      obtain ⟨L', hL', keeps', changes⟩ := hrest
      refine ⟨L', hL', keeps', ?_, ?_⟩
      · intro j
        rw [changes.owner, Ledger.owner_setData]
      · intro j hj
        rw [changes.data j hj, Ledger.data_setData, if_neg hj]

/-! ## Growing -/

/-- What the system program asks of the creation of an account. -/
structure Creatable (L : Ledger) (accounts : List AccountInfo) (payer account : ArchAddress)
    (space : Nat) : Prop where
  unused : L.owner account = systemProgram
  blank : L.data account = []
  accepted : createAccountAccepts L accounts payer account (minimumRent space) space = true
  covered : minimumRent space ≤ L.lamports payer
  fits : (L.lamports account).toNat + (minimumRent space).toNat < 2 ^ 64

theorem Creatable.created {accounts : List AccountInfo} {payer account : ArchAddress} {space : Nat}
    (creatable : Creatable L accounts payer account space) :
    systemCreateAccount L accounts payer account (minimumRent space) space programId =
      .ok (((L.move payer account (minimumRent space)).setData account
        (List.replicate space 0)).setOwner account programId) := by
  simp only [systemCreateAccount, Outcome.bind_ok, Outcome.reject_ok, Outcome.pure_ok, exists_const]
  refine ⟨not_not.mpr creatable.accepted, ?_, ?_, ?_, trivial⟩
  · exact not_or.mpr ⟨not_not.mpr creatable.unused, not_not.mpr creatable.blank⟩
  · exact UInt64.not_lt.mpr creatable.covered
  · exact Nat.not_le.mpr creatable.fits

/-- The lamports of the authority and of the account together. -/
def joint (L : Ledger) (authority idl : ArchAddress) : Nat :=
  (L.lamports authority).toNat + (L.lamports idl).toNat

omit [Deployment] in
theorem joint_move {amount : UInt64} (hapart : authority ≠ idl) (hcovered : amount ≤ L.lamports authority)
    (hsupply : joint L authority idl < 2 ^ 64) :
    joint (L.move authority idl amount) authority idl = joint L authority idl := by
  have hamount : amount.toNat ≤ (L.lamports authority).toNat := UInt64.le_iff_toNat_le.mp hcovered
  unfold joint at hsupply ⊢
  have hcredited : (L.lamports idl).toNat + amount.toNat < 2 ^ 64 := by omega
  simp only [Ledger.move, Ledger.lamports_setLamports, if_neg hapart, if_neg hapart.symm, if_true]
  rw [UInt64.toNat_sub_of_le _ _ hcovered, toNat_add_of_lt hcredited]
  omega

/-- An empty account of the authority on its way to its size, with enough lamports
for every size until then. -/
structure Growing (L : Ledger) (authority idl : ArchAddress) (size current : Nat) : Prop where
  keeps : Idl.Keeps L idl authority 0 (List.replicate (current - Idl.headerLen) 0)
  header : Idl.headerLen ≤ current
  bounded : current ≤ size
  funds : ∀ s ≤ size, (minimumRent s).toNat ≤ joint L authority idl
  supply : joint L authority idl < 2 ^ 64

variable {size current : Nat}

theorem Growing.length (growing : Growing L authority idl size current) :
    (L.data idl).length = current := by
  have hheader := growing.header
  rw [growing.keeps.data, Idl.length_image, List.length_replicate]
  omega

theorem Growing.funded (growing : Growing L authority idl size current) (hapart : authority ≠ idl)
    {space : Nat} (hspace : space ≤ size) :
    ∃ L₁, fundRentExempt L (accountMeta authority true) (accountMeta idl false) space = .ok L₁ ∧
      (∀ k, L₁.owner k = L.owner k ∧ L₁.data k = L.data k) ∧
      joint L₁ authority idl = joint L authority idl := by
  have hfunds := growing.funds space hspace
  have hsupply := growing.supply
  simp only [fundRentExempt]
  split
  · exact ⟨L, rfl, fun _ => ⟨rfl, rfl⟩, rfl⟩
  · rename_i hshort
    have hless : L.lamports idl ≤ minimumRent space := UInt64.le_of_lt (UInt64.not_le.mp hshort)
    have hneeded := UInt64.toNat_sub_of_le _ _ hless
    have hcovered : minimumRent space - L.lamports idl ≤ L.lamports authority := by
      rw [UInt64.le_iff_toNat_le, hneeded]
      unfold joint at hfunds
      omega
    refine ⟨L.move authority idl (minimumRent space - L.lamports idl), ?_, ?_, ?_⟩
    · simp only [Outcome.bind_ok, Outcome.reject_ok, Outcome.pure_ok, exists_const]
      exact ⟨hapart, UInt64.not_lt.mpr hcovered, rfl⟩
    · intro k
      exact ⟨Ledger.owner_move .., Ledger.data_move ..⟩
    · exact joint_move hapart hcovered hsupply

/-- One `Resize` grows the account by as much as the client expects. -/
theorem Growing.resized (growing : Growing L authority idl size current) (hapart : authority ≠ idl)
    (hauthority : authority ≠ Idl.erasedAuthority)
    (hstep : Idl.createMaxSpace ≤ maxPermittedDataIncrease) (hword : size < 2 ^ 64)
    (hshort : current < size) :
    ∃ L', sendAndConfirmMany L (resizeTransaction idl authority size) = .ok L' ∧
      Growing L' authority idl size (current + min (size - current) Idl.createMaxSpace) := by
  have hheader := growing.header
  have hspace : min (current + Idl.createMaxSpace) size =
      current + min (size - current) Idl.createMaxSpace := by omega
  have hcurrent : Idl.headerLen + (List.replicate (current - Idl.headerLen) (0 : UInt8)).length =
      current := by
    rw [List.length_replicate]
    omega
  obtain ⟨L₁, hfund, hsame, hjoint⟩ := growing.funded hapart
    (by omega : current + min (size - current) Idl.createMaxSpace ≤ size)
  have hlength₁ : (L₁.data idl).length = current := by
    rw [(hsame idl).2, growing.length]
  obtain ⟨L', hrealloc⟩ : ∃ L', realloc L₁ (accountMeta idl false)
      (current + min (size - current) Idl.createMaxSpace) = .ok L' := by
    unfold realloc
    split
    · exact ⟨L₁, rfl⟩
    · refine ⟨_, Outcome.bind_ok.mpr ⟨(), Outcome.reject_ok.mpr ?_, rfl⟩⟩
      change ¬ _ < _ - (L₁.data idl).length
      omega
  obtain ⟨howner, -, -, hlamports⟩ := realloc_ok hrealloc
  have hdata := realloc_data hrealloc
  refine ⟨L', ?_, ?_, by omega, by omega, fun s hs => ?_, ?_⟩
  · apply sent_alone
    apply sent_idl (Idl.decode_resize hword)
    refine Idl.resize_ok.mpr ⟨accountMeta idl false, accountMeta authority true,
      accountMetaReadonly systemProgram false, [], _, rfl, rfl, ⟨rfl, hauthority, growing.keeps⟩, ?_⟩
    rw [hcurrent, if_neg (Nat.not_le.mpr hshort), hspace]
    exact ⟨L₁, hfund, hrealloc⟩
  · refine ⟨?_, ?_, by decide⟩
    · rw [howner, (hsame idl).1, growing.keeps.owner]
    · change L'.data idl = resizeData (L₁.data idl) _ at hdata
      rw [hdata, (hsame idl).2, growing.keeps.data, Idl.resizeData_image (by omega), hcurrent,
        List.replicate_append_replicate]
      congr 2
      omega
  · have hfunds := growing.funds s hs
    simp only [joint, hlamports] at hjoint hfunds ⊢
    omega
  · have hsupply := growing.supply
    simp only [joint, hlamports] at hjoint hsupply ⊢
    omega

/-- The client stops exactly when the account has its size. -/
theorem resizeFrom_sent (hapart : authority ≠ idl) (hauthority : authority ≠ Idl.erasedAuthority)
    (hstep : Idl.createMaxSpace ≤ maxPermittedDataIncrease) (hword : size < 2 ^ 64)
    (growing : Growing L authority idl size current) :
    (∃ L', sendAll L (resizeFrom idl authority size current) = .ok L' ∧
      Growing L' authority idl size size) ∧
    ∀ k ≤ (resizeFrom idl authority size current).length, ∃ L₁,
      sendAll L ((resizeFrom idl authority size current).take k) = .ok L₁ ∧
        ((L₁.data idl).length = size ↔ k = (resizeFrom idl authority size current).length) := by
  induction current using resizeFrom.induct size generalizing L with
  | case1 current hshort ih =>
      obtain ⟨L₁, hsent, growing₁⟩ := growing.resized hapart hauthority hstep hword hshort
      obtain ⟨⟨L', hL', growing'⟩, hsteps⟩ := ih growing₁
      rw [resizeFrom, if_pos hshort]
      refine ⟨⟨L', ?_, growing'⟩, fun k hk => ?_⟩
      · rw [sendAll_cons_ok hsent, hL']
      · cases k with
        | zero =>
            refine ⟨L, rfl, ?_⟩
            rw [growing.length, List.length_cons]
            omega
        | succ k =>
            obtain ⟨L₂, hL₂, hiff⟩ := hsteps k (Nat.le_of_succ_le_succ hk)
            refine ⟨L₂, ?_, ?_⟩
            · rw [List.take_succ_cons, sendAll_cons_ok hsent, hL₂]
            · rw [hiff, List.length_cons, Nat.succ_inj]
  | case2 current hdone =>
      obtain rfl : current = size := Nat.le_antisymm growing.bounded (Nat.not_lt.mp hdone)
      rw [resizeFrom, if_neg hdone]
      refine ⟨⟨L, rfl, growing⟩, fun k hk => ⟨L, ?_, ?_⟩⟩
      · rw [Nat.le_zero.mp hk]
        rfl
      · rw [growing.length]
        exact iff_of_true rfl (Nat.le_zero.mp hk)

/-! ## Creating -/

/-- The created account has the length from which the client starts. -/
theorem create_sent {compressed : List UInt8} (hidl : deriveIdlAddress = some idl)
    (hapart : authority ≠ idl) (hexecutable : L.executable programId = true)
    (hsmall : Idl.headerLen + compressed.length < 2 ^ 32)
    (creatable : Creatable L
      [ accountMeta authority true, accountMeta idl false, accountMetaReadonly Idl.baseAddress false,
        accountMetaReadonly systemProgram false, accountMetaReadonly programId false ]
      authority idl (min (Idl.headerLen + compressed.length) Idl.createMaxSpace))
    (hfunds : ∀ s ≤ Idl.headerLen + compressed.length,
      (minimumRent s).toNat ≤ joint L authority idl)
    (hsupply : joint L authority idl < 2 ^ 64) :
    ∃ L', sendAndConfirmMany L (createTransaction authority idl compressed) = .ok L' ∧
      Growing L' authority idl (Idl.headerLen + compressed.length)
        (min (Idl.headerLen + compressed.length) Idl.createMaxSpace) := by
  have hspace : min ((Idl.headerLen + compressed.length) % 2 ^ 64) Idl.createMaxSpace =
      min (Idl.headerLen + compressed.length) Idl.createMaxSpace := by
    rw [Nat.mod_eq_of_lt (by omega)]
  have hroom : Idl.headerLen ≤ min (Idl.headerLen + compressed.length) Idl.createMaxSpace :=
    Nat.le_min.mpr ⟨Nat.le_add_right _ _, by decide⟩
  generalize hmin : min (Idl.headerLen + compressed.length) Idl.createMaxSpace = space at *
  have hcreated := creatable.created
  generalize hL₁ : ((L.move authority idl (minimumRent space)).setData idl
    (List.replicate space 0)).setOwner idl programId = L₁ at hcreated
  have howner : L₁.owner idl = programId := by
    rw [← hL₁, Ledger.owner_setOwner, if_pos rfl]
  have hdata : L₁.data idl = List.replicate space 0 := by
    rw [← hL₁, Ledger.data_setOwner, Ledger.data_setData, if_pos rfl]
  have hjoint : joint L₁ authority idl = joint L authority idl := by
    rw [← joint_move hapart creatable.covered hsupply, ← hL₁]
    simp only [joint, Ledger.lamports_setOwner, Ledger.lamports_setData]
  have hheader : Idl.writeHeader L₁ (accountMeta idl false) authority 0 =
      .ok (L₁.setData idl (Idl.image authority 0 (List.replicate (space - Idl.headerLen) 0))) := by
    refine Idl.writeHeader_ok.mpr ⟨?_, ?_⟩
    · change _ ≤ (L₁.data idl).length
      rwa [hdata, List.length_replicate]
    · change _ = L₁.setData idl (Idl.image authority 0 ((L₁.data idl).drop _))
      rw [hdata, List.drop_replicate]
  have hrun : Idl.createAccount L
      [ accountMeta authority true, accountMeta idl false, accountMetaReadonly Idl.baseAddress false,
        accountMetaReadonly systemProgram false, accountMetaReadonly programId false ]
      compressed.length =
        .ok (L₁.setData idl (Idl.image authority 0 (List.replicate (space - Idl.headerLen) 0))) := by
    refine Idl.createAccount_ok.mpr ⟨_, accountMeta idl false, _, _, _, [], L₁, rfl, rfl, rfl,
      hexecutable, rfl, rfl, hidl, ?_, hheader⟩
    rw [hspace]
    exact hcreated
  refine ⟨_, sent_alone (sent_idl (Idl.decode_create (by omega)) hrun),
    ⟨⟨?_, ?_, by decide⟩, hroom, by omega, fun s hs => ?_, ?_⟩⟩
  · rw [Ledger.owner_setData, howner]
  · rw [Ledger.data_setData, if_pos rfl]
  · have hfunds := hfunds s hs
    simp only [joint, Ledger.lamports_setData] at hjoint hfunds ⊢
    omega
  · simp only [joint, Ledger.lamports_setData] at hjoint hsupply ⊢
    omega

/-- A fresh buffer of zero bytes, with the header of the authority. -/
theorem createBuffer_sent {buffer : ArchAddress} {size : Nat}
    (hauthority : authority ≠ Idl.erasedAuthority)
    (creatable : Creatable L [accountMeta authority true, accountMeta buffer true] authority buffer
      (Idl.headerLen + size)) :
    ∃ L', sendAndConfirmMany L
        (createBufferTransaction authority buffer (Idl.headerLen + size)) = .ok L' ∧
      Idl.Keeps L' buffer authority 0 (List.replicate size 0) ∧
      ∀ k, k ≠ buffer → L'.owner k = L.owner k ∧ L'.data k = L.data k := by
  have hcreated := creatable.created
  generalize hL₁ : ((L.move authority buffer (minimumRent (Idl.headerLen + size))).setData buffer
    (List.replicate (Idl.headerLen + size) 0)).setOwner buffer programId = L₁ at hcreated
  have howner : L₁.owner buffer = programId := by
    rw [← hL₁, Ledger.owner_setOwner, if_pos rfl]
  have hdata : L₁.data buffer = List.replicate (Idl.headerLen + size) 0 := by
    rw [← hL₁, Ledger.data_setOwner, Ledger.data_setData, if_pos rfl]
  have hbuffer : Idl.createBuffer L₁
      [accountMeta buffer false, accountMetaReadonly authority true] =
        .ok (L₁.setData buffer (Idl.image authority 0 (List.replicate size 0))) := by
    refine Idl.createBuffer_ok.mpr ⟨_, _, [], rfl, rfl, hauthority, howner, ?_, ?_, ?_⟩
    · change _ ≤ (L₁.data buffer).length
      rw [hdata, List.length_replicate]
      exact Nat.le_add_right _ _
    · change (L₁.data buffer).take 8 = _
      rw [hdata, List.take_replicate, Nat.min_eq_left]
      exact Nat.le_trans (by decide) (Nat.le_add_right _ _)
    · change _ = L₁.setData buffer (Idl.image authority 0 ((L₁.data buffer).drop _))
      rw [hdata, List.drop_replicate, Nat.add_sub_cancel_left]
  have hrun : Idl.Instruction.createBuffer.run L₁
      [accountMeta buffer false, accountMetaReadonly authority true] = _ := hbuffer
  refine ⟨_, Outcome.bind_ok.mpr ⟨L₁, hcreated, sent_alone (sent_idl rfl hrun)⟩,
    ⟨?_, ?_, by decide⟩, fun k hk => ⟨?_, ?_⟩⟩
  · rw [Ledger.owner_setData, howner]
  · rw [Ledger.data_setData, if_pos rfl]
  · rw [Ledger.owner_setData, ← hL₁, Ledger.owner_setOwner, if_neg hk, Ledger.owner_setData,
      Ledger.owner_move]
  · rw [Ledger.data_setData, if_neg hk, ← hL₁, Ledger.data_setOwner, Ledger.data_setData, if_neg hk,
      Ledger.data_move]

/-! ## Publishing -/

/-- The account stores the payload, and its length. -/
def Stores (L : Ledger) (idl : ArchAddress) (compressed : List UInt8) : Prop :=
  Idl.storedLen (L.data idl) = compressed.length ∧
    ((L.data idl).drop Idl.headerLen).take compressed.length = compressed

theorem stores_of_keeps {compressed : List UInt8}
    (keeps : Idl.Keeps L idl authority compressed.length body)
    (hbody : body.take compressed.length = compressed) : Stores L idl compressed := by
  unfold Stores
  rw [keeps.data, Idl.storedLen_image keeps.small, Idl.drop_image, hbody]
  exact ⟨rfl, rfl⟩

/-- The bytes in use of a full buffer replace those of the account. -/
theorem setBuffer_sent {buffer : ArchAddress} {compressed : List UInt8}
    (hauthority : authority ≠ Idl.erasedAuthority) (hother : buffer ≠ idl)
    (filled : Idl.Keeps L buffer authority compressed.length compressed)
    (keeps : Idl.Keeps L idl authority n body) (hroom : compressed.length ≤ body.length) :
    ∃ L', sendAndConfirmMany L (setBufferTransaction buffer idl authority) = .ok L' ∧
      Idl.Keeps L' idl authority compressed.length
        (compressed ++ body.drop compressed.length) := by
  have hrun : Idl.Instruction.setBuffer.run L
      [accountMeta buffer false, accountMeta idl false, accountMetaReadonly authority true] =
        .ok (L.setData idl (Idl.image authority compressed.length
          (compressed.take compressed.length ++ body.drop compressed.length))) :=
    Idl.setBuffer_ok.mpr ⟨_, _, _, [], _, _, n, body, rfl, ⟨rfl, hauthority, filled⟩,
      ⟨rfl, hauthority, keeps⟩, hroom, hother, Nat.le_refl _, rfl⟩
  rw [List.take_length] at hrun
  refine ⟨_, sent_alone (sent_idl rfl hrun), ?_, ?_, filled.small⟩
  · rw [Ledger.owner_setData, keeps.owner]
  · rw [Ledger.data_setData, if_pos rfl]

theorem init_eq (hidl : deriveIdlAddress = some idl) (compressed : List UInt8) :
    init authority compressed = some (createTransaction authority idl compressed ::
      (resizeTo idl authority (Idl.headerLen + compressed.length) ++
        writeChunks idl authority compressed)) := by
  rw [init, hidl]
  rfl

theorem upgrade_eq (hidl : deriveIdlAddress = some idl) {compressed : List UInt8}
    (hlong : Idl.headerLen + compressed.length ≤ (L.data idl).length) (buffer : ArchAddress) :
    upgrade L authority buffer compressed =
      some (createBufferTransaction authority buffer (Idl.headerLen + compressed.length) ::
        (writeChunks buffer authority compressed ++
          [setBufferTransaction buffer idl authority])) := by
  rw [upgrade, hidl]
  change (if _ then _ else _) = _
  rw [if_neg (Nat.not_lt.mpr hlong)]
  rfl

/-- A first payload: the account is created, grown to its size and filled. -/
theorem init_sent {compressed : List UInt8} (hauthority : authority ≠ Idl.erasedAuthority)
    (hidl : deriveIdlAddress = some idl) (hsmall : Idl.headerLen + compressed.length < 2 ^ 32)
    {L₁ L₂ : Ledger}
    (hcreate : sendAndConfirmMany L (createTransaction authority idl compressed) = .ok L₁)
    (hresize : sendAll L₁ (resizeTo idl authority (Idl.headerLen + compressed.length)) = .ok L₂)
    (grown : Growing L₂ authority idl (Idl.headerLen + compressed.length)
      (Idl.headerLen + compressed.length)) :
    ∃ transactions L', init authority compressed = some transactions ∧
      sendAll L transactions = .ok L' ∧ Stores L' idl compressed := by
  have keeps := grown.keeps
  rw [Nat.add_sub_cancel_left] at keeps
  have hzeros : (List.replicate compressed.length (0 : UInt8)).length = compressed.length :=
    List.length_replicate
  obtain ⟨L', hwrite, keeps', -⟩ := writeChunks_sent hauthority keeps
    (by omega : 0 + compressed.length ≤ _) (by omega)
  rw [overwrite_all hzeros, Nat.zero_add] at keeps'
  refine ⟨_, L', init_eq hidl compressed, ?_, stores_of_keeps keeps' (List.take_length ..)⟩
  rw [sendAll_cons_ok hcreate, sendAll_append]
  exact Outcome.bind_ok.mpr ⟨L₂, hresize, hwrite⟩

/-- A later payload: a fresh buffer is filled, and replaces what was stored. -/
theorem upgrade_sent {buffer : ArchAddress} {compressed : List UInt8}
    (hauthority : authority ≠ Idl.erasedAuthority) (hidl : deriveIdlAddress = some idl)
    (keeps : Idl.Keeps L idl authority n body)
    (hlong : Idl.headerLen + compressed.length ≤ (L.data idl).length)
    (hsmall : Idl.headerLen + compressed.length < 2 ^ 32)
    (creatable : Creatable L [accountMeta authority true, accountMeta buffer true] authority buffer
      (Idl.headerLen + compressed.length)) :
    ∃ transactions L', upgrade L authority buffer compressed = some transactions ∧
      sendAll L transactions = .ok L' ∧ Stores L' idl compressed := by
  have hother : idl ≠ buffer := by
    rintro rfl
    exact programId_ne_systemProgram (keeps.owner.symm.trans creatable.unused)
  obtain ⟨L₁, hcreate, fresh, hothers⟩ := createBuffer_sent hauthority creatable
  have hzeros : (List.replicate compressed.length (0 : UInt8)).length = compressed.length :=
    List.length_replicate
  obtain ⟨L₂, hwrite, filled, changes⟩ := writeChunks_sent hauthority fresh
    (by omega : 0 + compressed.length ≤ _) (by omega)
  rw [overwrite_all hzeros, Nat.zero_add] at filled
  have hkept : Idl.Keeps L₂ idl authority n body :=
    { owner := by rw [changes.owner, (hothers idl hother).1, keeps.owner]
      data := by rw [changes.data idl hother, (hothers idl hother).2, keeps.data]
      small := keeps.small }
  have hroom : compressed.length ≤ body.length := by
    rw [keeps.data, Idl.length_image] at hlong
    omega
  obtain ⟨L', hset, keeps'⟩ := setBuffer_sent hauthority hother.symm filled hkept hroom
  refine ⟨_, L', upgrade_eq hidl hlong buffer, ?_, stores_of_keeps keeps' List.take_left⟩
  rw [sendAll_cons_ok hcreate, sendAll_append]
  refine Outcome.bind_ok.mpr ⟨L₂, hwrite, ?_⟩
  rw [sendAll_cons_ok hset]
  rfl

/-- Publishing succeeds at every step and leaves exactly the payload, in a new
account and in one that held another before. The account reaches its size with
the last `Resize` and not earlier. -/
theorem payload_published (hauthority : authority ≠ Idl.erasedAuthority)
    (hidl : deriveIdlAddress = some idl) (hstep : Idl.createMaxSpace ≤ maxPermittedDataIncrease) :
    (∀ (L : Ledger) (compressed : List UInt8), authority ≠ idl → L.executable programId = true →
      Idl.headerLen + compressed.length < 2 ^ 32 →
      Creatable L
        [ accountMeta authority true, accountMeta idl false,
          accountMetaReadonly Idl.baseAddress false, accountMetaReadonly systemProgram false,
          accountMetaReadonly programId false ]
        authority idl (min (Idl.headerLen + compressed.length) Idl.createMaxSpace) →
      (∀ s ≤ Idl.headerLen + compressed.length,
        (minimumRent s).toNat ≤ joint L authority idl) → joint L authority idl < 2 ^ 64 →
      (∃ transactions L', init authority compressed = some transactions ∧
        sendAll L transactions = .ok L' ∧ Stores L' idl compressed) ∧
      ∃ L₁, sendAndConfirmMany L (createTransaction authority idl compressed) = .ok L₁ ∧
        ∀ k ≤ (resizeTo idl authority (Idl.headerLen + compressed.length)).length, ∃ L₂,
          sendAll L₁ ((resizeTo idl authority (Idl.headerLen + compressed.length)).take k) = .ok L₂ ∧
          ((L₂.data idl).length = Idl.headerLen + compressed.length ↔
            k = (resizeTo idl authority (Idl.headerLen + compressed.length)).length)) ∧
    ∀ (L : Ledger) (compressed : List UInt8) (buffer : ArchAddress) (n : Nat) (body : List UInt8),
      Idl.Keeps L idl authority n body →
      Idl.headerLen + compressed.length ≤ (L.data idl).length →
      Idl.headerLen + compressed.length < 2 ^ 32 →
      Creatable L [accountMeta authority true, accountMeta buffer true] authority buffer
        (Idl.headerLen + compressed.length) →
      ∃ transactions L', upgrade L authority buffer compressed = some transactions ∧
        sendAll L transactions = .ok L' ∧ Stores L' idl compressed := by
  refine ⟨?_, fun L compressed buffer n body keeps hlong hsmall creatable =>
    upgrade_sent hauthority hidl keeps hlong hsmall creatable⟩
  intro L compressed hapart hexecutable hsmall creatable hfunds hsupply
  obtain ⟨L₁, hcreate, growing⟩ :=
    create_sent hidl hapart hexecutable hsmall creatable hfunds hsupply
  obtain ⟨⟨L₂, hresize, grown⟩, hsteps⟩ :=
    resizeFrom_sent hapart hauthority hstep (by omega) growing
  exact ⟨init_sent hauthority hidl hsmall hcreate hresize grown, L₁, hcreate, hsteps⟩

end

end Deploy

namespace Testnet

/-- The program is deployed. -/
def launched : Ledger :=
  { start with accounts := fun k => { start.accounts k with executable := decide (k = program) } }

def idlKey : ArchAddress :=
  word 0x54da9cbd576cd42f928e600aa9e1b0208b77c4eb8ebba0996a697ee2f307e2cd

/-- More than one `Resize` makes room for, in twenty chunks. -/
def payload : List UInt8 := List.replicate 12000 7

theorem payload_length : payload.length = 12000 := List.length_replicate

/-- The IDL account of Ann, with room for a payload, in which two bytes are stored. -/
def published : Ledger :=
  (launched.setData idlKey (Idl.image ann 2 (List.replicate 12000 1))).setOwner idlKey program

theorem published_data : published.data idlKey = Idl.image ann 2 (List.replicate 12000 1) := by
  rw [published, Ledger.data_setOwner, Ledger.data_setData, if_pos rfl]

theorem minimumRent_le {s n : Nat} (h : s ≤ n) (hn : n < 2 ^ 32) :
    (Deployment.minimumRent s).toNat ≤ 6960 * (128 + n) := by
  change (UInt64.ofNat (6960 * (128 + s))).toNat ≤ _
  rw [UInt64.toNat_ofNat_of_lt' (by change _ < 2 ^ 64; omega)]
  omega

end Testnet

open Testnet in
/-- Ann publishes a payload for which her account has to grow, and later another in its place. -/
theorem long_payload_published :
    (∃ transactions L, Deploy.init ann payload = some transactions ∧
      Deploy.sendAll launched transactions = .ok L ∧ Deploy.Stores L idlKey payload) ∧
    ∃ transactions L, Deploy.upgrade published ann buffer payload = some transactions ∧
      Deploy.sendAll published transactions = .ok L ∧ Deploy.Stores L idlKey payload := by
  have hidl : Deploy.deriveIdlAddress = some idlKey := by decide +kernel
  obtain ⟨hinit, hupgrade⟩ := Deploy.payload_published (by decide : ann ≠ Idl.erasedAuthority) hidl
    (by decide)
  have hsmall : Idl.headerLen + payload.length < 2 ^ 32 := by
    rw [payload_length]
    decide
  constructor
  · refine (hinit launched payload (by decide +kernel) (by decide +kernel) hsmall ?_ ?_ ?_).1
    · have hspace : min (Idl.headerLen + payload.length) Idl.createMaxSpace = 10000 := by
        rw [payload_length]
        rfl
      rw [hspace]
      exact ⟨by decide +kernel, by decide +kernel, by decide +kernel, by decide +kernel,
        by decide +kernel⟩
    · intro s hs
      rw [payload_length] at hs
      exact (minimumRent_le hs (by decide)).trans (by decide +kernel)
    · decide +kernel
  · refine hupgrade published payload buffer 2 (List.replicate 12000 1)
      ⟨by decide +kernel, published_data, by decide⟩ ?_ hsmall ?_
    · rw [published_data, Idl.length_image, List.length_replicate, payload_length]
    · rw [payload_length]
      exact ⟨by decide +kernel, by decide +kernel, by decide +kernel, by decide +kernel,
        by decide +kernel⟩

end ArchNameService
