import ArchNameService.Guarantees.Pointers

/-!
# IDL accounts

An IDL account holds as many bytes as its header says, so that no handler reads
or writes past its end, and only the authority in its header changes it.
-/

namespace ArchNameService
open Deployment

namespace Idl

/-- The length in the header. -/
def storedLen (bytes : List UInt8) : Nat := leNat ((bytes.drop 40).take 4)

/-- The authority in the header. -/
def storedAuthority (bytes : List UInt8) : List UInt8 := (bytes.drop 8).take 32

/-- The bytes in use are there. -/
def Fits (bytes : List UInt8) : Prop := headerLen + storedLen bytes ≤ bytes.length

section
variable {authority : ArchAddress} {n m : Nat} {body bytes : List UInt8}

theorem storedLen_image (hn : n < 2 ^ 32) : storedLen (image authority n body) = n := by
  rw [storedLen, image_assoc, List.drop_left' length_front, List.take_left' (length_leBytes ..),
    leNat_leBytes_of_lt hn]

theorem storedAuthority_image : storedAuthority (image authority n body) = authority.toList := by
  have hdrop : (image authority n body).drop 8 = authority.toList ++ (leBytes 4 n ++ body) :=
    List.drop_left' rfl
  rw [storedAuthority, hdrop, List.take_left' authority.toList_length]

theorem fits_image (hn : n < 2 ^ 32) : Fits (image authority n body) ↔ n ≤ body.length := by
  rw [Fits, storedLen_image hn, length_image, Nat.add_le_add_iff_left]

theorem disc_ne_nil : ([] : List UInt8).take 8 ≠ accountDisc := by decide

theorem disc_ne_zeros {n : Nat} : (List.replicate n 0).take 8 ≠ accountDisc := by
  rw [List.take_replicate]
  intro h
  have hmem : (24 : UInt8) ∈ List.replicate (min 8 n) 0 := h ▸ List.mem_cons_self
  exact absurd (List.eq_of_mem_replicate hmem) (by decide)

/-! ## No slice is out of bounds -/

theorem noPanic_slice {lo hi : Nat} (hlo : lo ≤ hi) (hhi : hi ≤ bytes.length) :
    Outcome.NoPanic (slice bytes lo hi) := by
  rw [slice, if_pos ⟨hlo, hhi⟩]
  exact Outcome.noPanic_ok _

theorem noPanic_copyInto {part : List UInt8} {lo : Nat} (h : lo + part.length ≤ bytes.length) :
    Outcome.NoPanic (copyInto bytes lo part) := by
  rw [copyInto, if_pos h]
  exact Outcome.noPanic_ok _

theorem noPanic_readU64 : Outcome.NoPanic (readU64 bytes) := by
  refine .bind (Outcome.noPanic_reject _ _) fun _ hlength => ?_
  have hlong := Nat.not_lt.mp (Outcome.reject_ok.mp hlength)
  exact .bind (noPanic_slice (by decide) hlong) fun _ _ => Outcome.noPanic_ok _

theorem noPanic_readPubkey : Outcome.NoPanic (readPubkey bytes) := by
  refine .bind (Outcome.noPanic_reject _ _) fun _ hlength => ?_
  have hlong := Nat.not_lt.mp (Outcome.reject_ok.mp hlength)
  refine .bind (noPanic_slice (by decide) hlong) fun field hslice => ?_
  have hfield : field.length = 32 := by
    rw [slice, if_pos ⟨by decide, hlong⟩, Except.ok.injEq, List.drop_zero] at hslice
    rw [← hslice, List.length_take_of_le hlong]
  have hbytes : Bytes.ofList? 32 field = some ⟨field, hfield⟩ := dif_pos hfield
  rw [hbytes]
  exact Outcome.noPanic_ok _

theorem noPanic_readVec : Outcome.NoPanic (readVec bytes) := by
  refine .bind (Outcome.noPanic_reject _ _) fun _ hlength => ?_
  have hlong := Nat.not_lt.mp (Outcome.reject_ok.mp hlength)
  refine .bind (noPanic_slice (by decide) hlong) fun field _ => ?_
  refine .bind (Outcome.noPanic_reject _ _) fun _ hrest => ?_
  exact noPanic_slice (Nat.le_add_right _ _) (Nat.not_lt.mp (Outcome.reject_ok.mp hrest))

/-- Reading the operands of a payload never fails but with an error. -/
theorem noPanic_decode (payload : List UInt8) : Outcome.NoPanic (Instruction.decode payload) := by
  have hread {α : Type} {x : ProgramResult α} (hx : Outcome.NoPanic x) (f : α → Instruction) :
      Outcome.NoPanic (do let a ← x; pure (f a)) :=
    .bind hx fun a _ => Outcome.noPanic_ok (f a)
  cases payload with
  | nil => exact Outcome.noPanic_throw _
  | cons tag rest =>
      simp only [Instruction.decode]
      repeat' split
      · exact hread noPanic_readU64 _
      · exact Outcome.noPanic_ok _
      · exact hread noPanic_readVec _
      · exact Outcome.noPanic_ok _
      · exact hread noPanic_readPubkey _
      · exact Outcome.noPanic_ok _
      · exact hread noPanic_readU64 _
      · exact Outcome.noPanic_throw _

end

section
variable [Deployment] {L L' : Ledger} {accounts : List AccountInfo} {account : AccountInfo}

omit [Deployment] in
theorem noPanic_nextAccountInfo : Outcome.NoPanic (nextAccountInfo accounts) := by
  cases accounts with
  | nil => exact Outcome.noPanic_throw _
  | cons a rest => exact Outcome.noPanic_ok _

theorem noPanic_realloc {n : Nat} : Outcome.NoPanic (realloc L account n) := by
  unfold realloc
  split
  · exact Outcome.noPanic_ok _
  · exact .bind (Outcome.noPanic_reject _ _) fun _ _ => Outcome.noPanic_ok _

theorem noPanic_fundRentExempt {payer : AccountInfo} {space : Nat} :
    Outcome.NoPanic (fundRentExempt L payer account space) := by
  simp only [fundRentExempt]
  split
  · exact Outcome.noPanic_ok _
  · refine .bind (Outcome.noPanic_reject _ _) fun _ _ => ?_
    exact .bind (Outcome.noPanic_reject _ _) fun _ _ => Outcome.noPanic_ok _

theorem noPanic_systemCreateAccount {payer k owner : ArchAddress} {lamports : UInt64} {space : Nat} :
    Outcome.NoPanic (systemCreateAccount L accounts payer k lamports space owner) := by
  refine .bind (Outcome.noPanic_reject _ _) fun _ _ => ?_
  refine .bind (Outcome.noPanic_reject _ _) fun _ _ => ?_
  refine .bind (Outcome.noPanic_reject _ _) fun _ _ => ?_
  exact .bind (Outcome.noPanic_reject _ _) fun _ _ => Outcome.noPanic_ok _

omit [Deployment] in
theorem noPanic_writeHeader {authority : ArchAddress} {n : Nat} :
    Outcome.NoPanic (writeHeader L account authority n) := by
  by_cases hlength : headerLen ≤ (L.data account.key).length
  · exact Outcome.noPanic_of_ok (writeHeader_ok.mpr ⟨hlength, rfl⟩)
  · rw [writeHeader, reject, if_pos (Nat.lt_of_not_le hlength)]
    exact Outcome.noPanic_throw _

theorem noPanic_requireIdlAccount : Outcome.NoPanic (requireIdlAccount L account) := by
  refine .bind (Outcome.noPanic_reject _ _) fun _ _ => ?_
  refine .bind (Outcome.noPanic_reject _ _) fun _ hlength => ?_
  have hlong := Nat.not_lt.mp (Outcome.reject_ok.mp hlength)
  refine .bind (noPanic_slice (by decide) (Nat.le_trans (by decide) hlong)) fun _ _ => ?_
  exact Outcome.noPanic_reject _ _

theorem noPanic_requireAuthority {authority : AccountInfo} {u : Unit}
    (h : requireIdlAccount L account = .ok u) :
    Outcome.NoPanic (requireAuthority L account authority) := by
  obtain ⟨stored, n, body, keeps⟩ := requireIdlAccount_ok.mp h
  unfold requireAuthority
  rw [keeps.data]
  exact .bind (Outcome.noPanic_of_ok slice_authority) fun _ _ => Outcome.noPanic_reject _ _

theorem noPanic_idlAuthorityAccounts : Outcome.NoPanic (idlAuthorityAccounts L accounts) := by
  refine .bind noPanic_nextAccountInfo fun ⟨idl, iterator⟩ _ => ?_
  refine .bind noPanic_nextAccountInfo fun ⟨authority, _⟩ _ => ?_
  refine .bind (Outcome.noPanic_reject _ _) fun _ _ => ?_
  refine .bind noPanic_requireIdlAccount fun _ hidl => ?_
  exact .bind (noPanic_requireAuthority hidl) fun _ _ => Outcome.noPanic_ok _

/-- Every IDL account holds the bytes in use. -/
def Sound (L : Ledger) : Prop := ∀ k, L.IsIdl k → Fits (L.data k)

theorem Keeps.isIdl {k authority : ArchAddress} {n : Nat} {body : List UInt8}
    (keeps : Keeps L k authority n body) : L.IsIdl k :=
  ⟨keeps.owner, by rw [keeps.data, take_image]⟩

theorem Sound.body {k authority : ArchAddress} {n : Nat} {body : List UInt8} (sound : Sound L)
    (keeps : Keeps L k authority n body) : n ≤ body.length := by
  have hfits := sound k keeps.isIdl
  rw [keeps.data] at hfits
  exact (fits_image keeps.small).mp hfits

theorem noPanic_write {chunk : List UInt8} : Outcome.NoPanic (write L accounts chunk) := by
  refine .bind noPanic_idlAuthorityAccounts fun ⟨idl, signer⟩ haccounts => ?_
  obtain ⟨rest, n, body, rfl, authorized⟩ := idlAuthorityAccounts_ok.mp haccounts
  have hread : readDataLen (L.data idl.key) = .ok n := by
    rw [authorized.keeps.data, readDataLen_image authorized.keeps.small]
  refine .bind (Outcome.noPanic_of_ok hread) fun m hm => ?_
  cases hread.symm.trans hm
  refine .bind (Outcome.noPanic_reject _ _) fun _ hfits => ?_
  replace hfits := Nat.not_lt.mp (Outcome.reject_ok.mp hfits)
  have hcopied : n + chunk.length ≤ body.length := by
    rw [authorized.keeps.data, length_image] at hfits
    omega
  refine .bind (noPanic_copyInto (by omega)) fun bytes hcopy => ?_
  rw [authorized.keeps.data] at hcopy
  obtain ⟨-, rfl⟩ := copyInto_body.mp hcopy
  exact .bind (Outcome.noPanic_of_ok (writeDataLen_image _)) fun _ _ => Outcome.noPanic_ok _

theorem noPanic_setAuthority {newAuthority : ArchAddress} :
    Outcome.NoPanic (setAuthority L accounts newAuthority) := by
  refine .bind noPanic_idlAuthorityAccounts fun ⟨idl, signer⟩ haccounts => ?_
  obtain ⟨rest, n, body, rfl, authorized⟩ := idlAuthorityAccounts_ok.mp haccounts
  dsimp only
  rw [authorized.keeps.data]
  exact .bind (Outcome.noPanic_of_ok (setAuthority_image _)) fun _ _ => Outcome.noPanic_ok _

theorem noPanic_createAccount {dataLen : Nat} :
    Outcome.NoPanic (createAccount L accounts dataLen) := by
  refine .bind noPanic_nextAccountInfo fun ⟨payer, iterator⟩ _ => ?_
  refine .bind noPanic_nextAccountInfo fun ⟨target, iterator⟩ _ => ?_
  refine .bind noPanic_nextAccountInfo fun ⟨base, iterator⟩ _ => ?_
  refine .bind noPanic_nextAccountInfo fun ⟨systemProgramInfo, iterator⟩ _ => ?_
  refine .bind noPanic_nextAccountInfo fun ⟨program, _⟩ _ => ?_
  refine .bind (Outcome.noPanic_reject _ _) fun _ _ => ?_
  refine .bind (Outcome.noPanic_reject _ _) fun _ _ => ?_
  refine .bind (Outcome.noPanic_reject _ _) fun _ _ => ?_
  refine .bind (Outcome.noPanic_reject _ _) fun _ _ => ?_
  refine .bind (Outcome.noPanic_orElseError _ _) fun _ _ => ?_
  refine .bind (Outcome.noPanic_reject _ _) fun _ _ => ?_
  exact .bind noPanic_systemCreateAccount fun _ _ => noPanic_writeHeader

theorem noPanic_createBuffer : Outcome.NoPanic (createBuffer L accounts) := by
  refine .bind noPanic_nextAccountInfo fun ⟨buffer, iterator⟩ _ => ?_
  refine .bind noPanic_nextAccountInfo fun ⟨authority, _⟩ _ => ?_
  refine .bind (Outcome.noPanic_reject _ _) fun _ _ => ?_
  refine .bind (Outcome.noPanic_reject _ _) fun _ _ => ?_
  refine .bind (Outcome.noPanic_reject _ _) fun _ _ => ?_
  refine .bind (Outcome.noPanic_reject _ _) fun _ hlength => ?_
  have hlong := Nat.not_lt.mp (Outcome.reject_ok.mp hlength)
  refine .bind (noPanic_slice (by decide) (Nat.le_trans (by decide) hlong)) fun _ _ => ?_
  exact .bind (Outcome.noPanic_reject _ _) fun _ _ => noPanic_writeHeader

theorem noPanic_close : Outcome.NoPanic (close L accounts) := by
  refine .bind noPanic_nextAccountInfo fun ⟨account, iterator⟩ _ => ?_
  refine .bind noPanic_nextAccountInfo fun ⟨authority, iterator⟩ _ => ?_
  refine .bind noPanic_nextAccountInfo fun ⟨destination, _⟩ _ => ?_
  refine .bind (Outcome.noPanic_reject _ _) fun _ _ => ?_
  refine .bind noPanic_requireIdlAccount fun _ hidl => ?_
  refine .bind (noPanic_requireAuthority hidl) fun _ _ => ?_
  refine .bind (Outcome.noPanic_reject _ _) fun _ _ => ?_
  exact .bind (Outcome.noPanic_orElseError _ _) fun _ _ => noPanic_realloc

theorem noPanic_resize {dataLen : Nat} : Outcome.NoPanic (resize L accounts dataLen) := by
  refine .bind noPanic_nextAccountInfo fun ⟨idl, iterator⟩ _ => ?_
  refine .bind noPanic_nextAccountInfo fun ⟨authority, iterator⟩ _ => ?_
  refine .bind noPanic_nextAccountInfo fun ⟨systemProgramInfo, _⟩ _ => ?_
  refine .bind (Outcome.noPanic_reject _ _) fun _ _ => ?_
  refine .bind (Outcome.noPanic_reject _ _) fun _ _ => ?_
  refine .bind noPanic_requireIdlAccount fun _ hidl => ?_
  refine .bind (noPanic_requireAuthority hidl) fun _ _ => ?_
  obtain ⟨stored, n, body, keeps⟩ := requireIdlAccount_ok.mp hidl
  have hread : readDataLen (L.data idl.key) = .ok n := by
    rw [keeps.data, readDataLen_image keeps.small]
  refine .bind (Outcome.noPanic_of_ok hread) fun _ _ => ?_
  refine .bind (Outcome.noPanic_reject _ _) fun _ _ => ?_
  dsimp only
  split
  · exact Outcome.noPanic_ok _
  · exact .bind noPanic_fundRentExempt fun _ _ => noPanic_realloc

/-- The slice of the buffer is in bounds because the buffer holds its bytes in use. -/
theorem noPanic_setBuffer (sound : Sound L) : Outcome.NoPanic (setBuffer L accounts) := by
  refine .bind noPanic_nextAccountInfo fun ⟨buffer, iterator⟩ _ => ?_
  refine .bind noPanic_nextAccountInfo fun ⟨idl, iterator⟩ _ => ?_
  refine .bind noPanic_nextAccountInfo fun ⟨authority, _⟩ _ => ?_
  refine .bind (Outcome.noPanic_reject _ _) fun _ _ => ?_
  refine .bind noPanic_requireIdlAccount fun _ hbuffer => ?_
  refine .bind noPanic_requireIdlAccount fun _ hidl => ?_
  refine .bind (noPanic_requireAuthority hbuffer) fun _ _ => ?_
  refine .bind (noPanic_requireAuthority hidl) fun _ _ => ?_
  obtain ⟨owner, n, body, source⟩ := requireIdlAccount_ok.mp hbuffer
  obtain ⟨stored, m, target, dest⟩ := requireIdlAccount_ok.mp hidl
  have hread : readDataLen (L.data buffer.key) = .ok n := by
    rw [source.data, readDataLen_image source.small]
  refine .bind (Outcome.noPanic_of_ok hread) fun len hlen => ?_
  cases hread.symm.trans hlen
  refine .bind (Outcome.noPanic_reject _ _) fun _ hfits => ?_
  replace hfits := Nat.not_lt.mp (Outcome.reject_ok.mp hfits)
  refine .bind (Outcome.noPanic_reject _ _) fun _ _ => ?_
  have hslice : slice (L.data buffer.key) headerLen (headerLen + n) = .ok (body.take n) := by
    rw [source.data]
    exact slice_body.mpr ⟨sound.body source, rfl⟩
  refine .bind (Outcome.noPanic_of_ok hslice) fun payload hpayload => ?_
  cases hslice.symm.trans hpayload
  have hlength : (body.take n).length = n := List.length_take_of_le (sound.body source)
  refine .bind (noPanic_copyInto (by rwa [hlength])) fun bytes hcopy => ?_
  rw [dest.data] at hcopy
  replace hcopy : copyInto (image stored m target) (headerLen + 0) (body.take n) = .ok bytes := hcopy
  obtain ⟨-, rfl⟩ := copyInto_body.mp hcopy
  exact .bind (Outcome.noPanic_of_ok (writeDataLen_image _)) fun _ _ => Outcome.noPanic_ok _

/-- On a sound ledger no payload makes a handler panic. -/
theorem noPanic_process (sound : Sound L) (payload : List UInt8) :
    Outcome.NoPanic (process L accounts payload) := by
  rw [process_eq]
  refine .bind (noPanic_decode payload) fun instruction _ => ?_
  cases instruction with
  | create => exact noPanic_createAccount
  | createBuffer => exact noPanic_createBuffer
  | write => exact noPanic_write
  | setBuffer => exact noPanic_setBuffer sound
  | setAuthority => exact noPanic_setAuthority
  | close => exact noPanic_close
  | resize => exact noPanic_resize

/-! ## What an instruction leaves -/

/-- One account changes at most, and is left empty or with the bytes in use. -/
def Leaves (L L' : Ledger) : Prop :=
  ∃ k, (∀ j, j ≠ k → L'.owner j = L.owner j ∧ L'.data j = L.data j) ∧
    (L'.data k = [] ∨ ∃ authority n body, n < 2 ^ 32 ∧ n ≤ body.length ∧
      L'.data k = image authority n body)

omit [Deployment] in
theorem leaves_setData {k authority : ArchAddress} {n : Nat} {body : List UInt8} (hn : n < 2 ^ 32)
    (hbody : n ≤ body.length) : Leaves L (L.setData k (image authority n body)) := by
  refine ⟨k, fun j hj => ⟨Ledger.owner_setData .., ?_⟩, .inr ⟨authority, n, body, hn, hbody, ?_⟩⟩
  · rw [Ledger.data_setData, if_neg hj]
  · rw [Ledger.data_setData, if_pos rfl]

theorem createAccount_leaves {dataLen : Nat} (h : createAccount L accounts dataLen = .ok L') :
    Leaves L L' := by
  obtain ⟨payer, target, base, system, program, rest, L₁, rfl, -, -, -, -, -, -, hcreate, hheader⟩ :=
    createAccount_ok.mp h
  have created := systemCreateAccount_ok hcreate
  obtain ⟨-, rfl⟩ := writeHeader_ok.mp hheader
  refine ⟨target.key, fun j hj => ⟨?_, ?_⟩, .inr ⟨payer.key, 0, (L₁.data target.key).drop headerLen,
    by decide, Nat.zero_le _, ?_⟩⟩
  · rw [Ledger.owner_setData, created.owner, if_neg hj]
  · rw [Ledger.data_setData, if_neg hj, created.data, if_neg hj]
  · rw [Ledger.data_setData, if_pos rfl]

theorem createBuffer_leaves (h : createBuffer L accounts = .ok L') : Leaves L L' := by
  obtain ⟨buffer, signer, rest, -, -, -, -, -, -, rfl⟩ := createBuffer_ok.mp h
  exact leaves_setData (by decide) (Nat.zero_le _)

theorem write_leaves {chunk : List UInt8} (h : write L accounts chunk = .ok L') : Leaves L L' := by
  obtain ⟨idl, signer, rest, n, body, -, -, hfits, rfl⟩ := write_ok.mp h
  apply leaves_setData (Nat.mod_lt _ (by decide))
  apply Nat.le_trans (Nat.mod_le _ _)
  simp only [List.length_append, List.length_take, List.length_drop]
  omega

theorem setBuffer_leaves (h : setBuffer L accounts = .ok L') : Leaves L L' := by
  obtain ⟨buffer, idl, signer, rest, n, body, m, target, -, source, -, hfits, -, hbody, rfl⟩ :=
    setBuffer_ok.mp h
  apply leaves_setData source.keeps.small
  rw [List.length_append, List.length_take_of_le hbody]
  exact Nat.le_add_right _ _

theorem setAuthority_leaves {newAuthority : ArchAddress} (sound : Sound L)
    (h : setAuthority L accounts newAuthority = .ok L') : Leaves L L' := by
  obtain ⟨idl, signer, rest, n, body, -, authorized, rfl⟩ := setAuthority_ok.mp h
  exact leaves_setData authorized.keeps.small (sound.body authorized.keeps)

theorem close_leaves (h : close L accounts = .ok L') : Leaves L L' := by
  obtain ⟨idl, signer, destination, rest, n, body, -, -, -, -, howner, hdata, -⟩ := close_ok h
  refine ⟨idl.key, fun j hj => ⟨howner j, ?_⟩, .inl ?_⟩
  · rw [hdata, if_neg hj]
  · rw [hdata, if_pos rfl]

omit [Deployment] in
/-- Growth adds zero bytes to the body. -/
theorem resizeData_image {authority : ArchAddress} {n m : Nat} {body : List UInt8}
    (h : headerLen + body.length ≤ m) : resizeData (image authority n body) m =
      image authority n (body ++ List.replicate (m - (headerLen + body.length)) 0) := by
  have hlength : (image authority n body).length ≤ m := by rwa [length_image]
  rw [resizeData, List.take_of_length_le hlength, length_image]
  simp only [image, List.append_assoc]

theorem resize_leaves {dataLen : Nat} (h : resize L accounts dataLen = .ok L') : Leaves L L' := by
  obtain ⟨idl, signer, system, rest, body, -, -, authorized, h⟩ := resize_ok.mp h
  split at h
  · subst h
    refine ⟨idl.key, fun _ _ => ⟨rfl, rfl⟩, .inr ⟨signer.key, 0, body, by decide, Nat.zero_le _, ?_⟩⟩
    exact authorized.keeps.data
  · rename_i hlonger
    obtain ⟨L₁, hfund, hrealloc⟩ := h
    have hsame : ∀ j, L₁.owner j = L.owner j ∧ L₁.data j = L.data j := by
      intro j
      obtain ⟨-, rfl⟩ | ⟨-, paid⟩ := fundRentExempt_ok hfund
      · exact ⟨rfl, rfl⟩
      · exact ⟨paid.owner j, paid.data j⟩
    obtain ⟨howner, hdata, -, -⟩ := realloc_ok hrealloc
    refine ⟨idl.key, fun j hj => ⟨?_, ?_⟩, .inr ?_⟩
    · rw [howner, (hsame j).1]
    · rw [hdata j hj, (hsame j).2]
    · have hgrown := realloc_data hrealloc
      rw [(hsame _).2, authorized.keeps.data, resizeData_image (by omega)] at hgrown
      exact ⟨signer.key, 0, _, by decide, Nat.zero_le _, hgrown⟩

theorem process_leaves (sound : Sound L) {payload : List UInt8}
    (h : process L accounts payload = .ok L') : Leaves L L' := by
  obtain ⟨instruction, -, h⟩ := process_ok.mp h
  cases instruction with
  | create => exact createAccount_leaves h
  | createBuffer => exact createBuffer_leaves h
  | write => exact write_leaves h
  | setBuffer => exact setBuffer_leaves h
  | setAuthority => exact setAuthority_leaves sound h
  | close => exact close_leaves h
  | resize => exact resize_leaves h

theorem Leaves.sound (leaves : Leaves L L') (sound : Sound L) : Sound L' := by
  obtain ⟨k, hothers, hleft⟩ := leaves
  intro j hidl
  by_cases hj : j = k
  · subst hj
    rcases hleft with hempty | ⟨authority, n, body, hn, hbody, hdata⟩
    · exact absurd (hempty ▸ hidl.2) disc_ne_nil
    · rw [hdata]
      exact (fits_image hn).mpr hbody
  · obtain ⟨howner, hdata⟩ := hothers j hj
    rw [hdata]
    exact sound j ⟨howner ▸ hidl.1, hdata ▸ hidl.2⟩

/-- The length of a created account has not wrapped: a wrapped one is too short
for the header. -/
theorem createAccount_size {dataLen : Nat} (hword : dataLen < 2 ^ 64)
    (h : createAccount L accounts dataLen = .ok L') :
    ∃ target, accounts[1]? = some target ∧ headerLen + dataLen < 2 ^ 64 ∧
      (L'.data target.key).length = min (headerLen + dataLen) createMaxSpace := by
  obtain ⟨payer, target, base, system, program, rest, L₁, rfl, -, -, -, -, -, -, hcreate, hheader⟩ :=
    createAccount_ok.mp h
  have created := systemCreateAccount_ok hcreate
  obtain ⟨hroom, rfl⟩ := writeHeader_ok.mp hheader
  rw [created.data, if_pos rfl, List.length_replicate] at hroom
  have hnowrap : headerLen + dataLen < 2 ^ 64 := by
    by_contra hwraps
    simp only [headerLen] at hroom hwraps
    omega
  refine ⟨target, rfl, hnowrap, ?_⟩
  rw [Nat.mod_eq_of_lt hnowrap] at hroom created
  rw [Ledger.data_setData, if_pos rfl, length_image, created.data, if_pos rfl, List.length_drop,
    List.length_replicate]
  omega

omit [Deployment] in
theorem readU64_lt {bytes : List UInt8} {n : Nat} (h : readU64 bytes = .ok n) : n < 2 ^ 64 := by
  obtain ⟨_, hlength, h⟩ := Outcome.bind_ok.mp h
  have hlong := Nat.not_lt.mp (Outcome.reject_ok.mp hlength)
  obtain ⟨field, hslice, hn⟩ := Outcome.bind_ok.mp h
  cases Outcome.pure_ok.mp hn
  rw [slice, if_pos ⟨by decide, hlong⟩, Except.ok.injEq, List.drop_zero] at hslice
  have hbound := leNat_lt (bytes.take 8)
  rw [List.length_take_of_le hlong, hslice] at hbound
  exact hbound

end

end Idl

/-! ## Runs -/

section
variable [Deployment] {S : Scope} {L₀ L L' : Ledger} {R : Registry} {history : List Event} {e : Event}

/-- Other programs leave the accounts of the program as they are while these hold
data, and hand over accounts of zero bytes only. -/
structure Elsewhere (L L' : Ledger) : Prop where
  kept : ∀ k, L.owner k = programId → L.data k ≠ [] → L'.owner k = programId ∧ L'.data k = L.data k
  blank : ∀ k, L'.owner k = programId → L.owner k ≠ programId ∨ L.data k = [] →
    ∃ n, L'.data k = List.replicate n 0

/-- A step, where other programs keep to their own accounts. -/
def ConfinedStep (S : Scope) (L : Ledger) (e : Event) (L' : Ledger) : Prop :=
  Ledger.Step S L e L' ∧ (¬ e.isCall → Elsewhere L L')

theorem Elsewhere.kept_idl (elsewhere : Elsewhere L L') {k : ArchAddress} (hidl : L.IsIdl k) :
    L'.owner k = L.owner k ∧ L'.data k = L.data k := by
  have hdata : L.data k ≠ [] := fun h => Idl.disc_ne_nil (h ▸ hidl.2)
  rw [hidl.1]
  exact elsewhere.kept k hidl.1 hdata

theorem Elsewhere.sound (elsewhere : Elsewhere L L') (sound : Idl.Sound L) : Idl.Sound L' := by
  intro k hidl
  by_cases hnew : L.owner k ≠ programId ∨ L.data k = []
  · obtain ⟨n, hzeros⟩ := elsewhere.blank k hidl.1 hnew
    exact absurd (hzeros ▸ hidl.2) Idl.disc_ne_zeros
  · obtain ⟨howned, hdata⟩ := not_or.mp hnew
    obtain ⟨-, hkept⟩ := elsewhere.kept k (not_not.mp howned) hdata
    rw [hkept]
    exact sound k ⟨not_not.mp howned, hkept ▸ hidl.2⟩

theorem Genesis.sound (genesis : Genesis L) : Idl.Sound L :=
  fun k hidl => absurd hidl.1 (genesis k)

/-- A registry instruction writes no IDL account that stays one. -/
theorem Ledger.Step.registry_sound {c : Call} {a : Action} (agrees : Agrees S L' R.content)
    (step : Ledger.Step S L (.accepted c) L') (haction : c.action? = some a) (sound : Idl.Sound L) :
    Idl.Sound L' := by
  have touches := step.touches haction
  intro k hidl
  have hkept : k ∉ a.writes c.accounts := by
    rintro (⟨s, hs, rfl⟩ | ⟨info, hinfo, rfl⟩)
    · have hsites := List.forall_iff_forall_mem.mp (step.dispatched haction).1
      exact agrees.not_isIdl (hsites s (Action.sites_of_written hs)) hidl
    · obtain ⟨signer, instruction⟩ := a
      cases instruction with
      | clearPrimary =>
          cases step with
          | accepted h =>
              obtain ⟨pointer, -, hpointer, -, -, rfl⟩ := cleared_account haction h
              have hsame : info = pointer := by
                rw [Action.cleared, List.take_one, List.head?_drop, hpointer] at hinfo
                exact List.mem_singleton.mp hinfo
              subst hsame
              have hdisc := hidl.2
              rw [Ledger.data_setData, if_pos rfl] at hdisc
              exact Idl.disc_ne_nil hdisc
      | _ => exact nomatch hinfo
  rw [touches.data k hkept]
  exact sound k ⟨touches.owner k hkept ▸ hidl.1, touches.data k hkept ▸ hidl.2⟩

/-- An IDL account changes only in an IDL instruction that its authority signs. -/
theorem Ledger.Step.idl_authority {k : ArchAddress} (step : ConfinedStep S L e L')
    (hregistry : e.action? = none) (hidl : L.IsIdl k)
    (hchanged : L'.owner k ≠ L.owner k ∨ L'.data k ≠ L.data k) :
    ∃ c payload, e = .accepted c ∧ Idl.payload? c.data = some payload ∧
      ∃ signer ∈ c.accounts, signer.isSigner = true ∧ signer.key ≠ Idl.erasedAuthority ∧
        Idl.storedAuthority (L.data k) = signer.key.toList := by
  obtain ⟨step, helsewhere⟩ := step
  have hcall : e.isCall := by
    by_contra hnot
    obtain ⟨howner, hdata⟩ := (helsewhere hnot).kept_idl hidl
    exact hchanged.elim (· howner) (· hdata)
  cases step with
  | accepted h =>
      rename_i c hsites
      obtain ⟨a, haction, -⟩ | ⟨payload, hpayload, j, target, touches⟩ := processInstruction_traces h
      · exact nomatch haction.symm.trans hregistry
      · have hj : k = j := by
          by_contra hother
          exact hchanged.elim (· (touches.owner k hother)) (· (touches.data k hother))
        subst hj
        refine ⟨c, payload, rfl, hpayload, ?_⟩
        cases target with
        | canonical _ hunused => exact absurd (hidl.1.symm.trans hunused) programId_ne_systemProgram
        | blank _ _ hzeros => exact absurd (hidl.2.symm.trans hzeros) (by decide)
        | authorized hmem authorized =>
            refine ⟨_, hmem, authorized.signs, authorized.authority, ?_⟩
            rw [authorized.keeps.data, Idl.storedAuthority_image]
  | refused => exact hchanged.elim (fun h => absurd rfl h) (fun h => absurd rfl h)
  | deposit => exact hcall.elim
  | outside => exact hcall.elim

/-- The bytes in use of an IDL account are there in every ledger reached. -/
theorem Genesis.idl_sound (genesis : Genesis L₀) (run : Run (ConfinedStep S) L₀ history L) :
    Idl.Sound L := by
  induction run with
  | refl => exact genesis.sound
  | @step history L L' e run h ih =>
      obtain ⟨step, helsewhere⟩ := h
      cases step with
      | accepted hcall hsites =>
          rename_i c
          have hrun : Run (Ledger.Step S) L₀ _ L' :=
            (run.mono fun h => h.1).step (.accepted hcall hsites)
          obtain ⟨R, -, corresponds⟩ := genesis.reached hrun
          obtain ⟨a, haction, -⟩ | ⟨payload, hpayload, -⟩ := processInstruction_traces hcall
          · exact Ledger.Step.registry_sound corresponds.agrees (.accepted hcall hsites) haction ih
          · simp only [processInstruction, hpayload] at hcall
            exact (Idl.process_leaves ih hcall).sound ih
      | refused => exact ih
      | deposit => exact (helsewhere id).sound ih
      | outside => exact (helsewhere id).sound ih

/-- In every reachable ledger: an IDL account holds the bytes in use; no payload
makes a handler panic; a created account has the length asked for, up to the limit
of one step; an IDL account changes only in an IDL instruction that its authority
signs, besides the instructions of the registry; and a refused call changes nothing. -/
theorem idl_accounts_sound (genesis : Genesis L₀) (run : Run (ConfinedStep S) L₀ history L) :
    (∀ k, L.IsIdl k → Idl.headerLen + Idl.storedLen (L.data k) ≤ (L.data k).length) ∧
    (∀ accounts payload, Idl.process L accounts payload ≠ .error .panic) ∧
    (∀ accounts operands L', Idl.process L accounts (0 :: operands) = .ok L' →
      ∃ dataLen target, Idl.readU64 operands = .ok dataLen ∧ accounts[1]? = some target ∧
        Idl.headerLen + dataLen < 2 ^ 64 ∧
        (L'.data target.key).length = min (Idl.headerLen + dataLen) Idl.createMaxSpace) ∧
    (∀ e L' k, ConfinedStep S L e L' → e.action? = none → L.IsIdl k →
      L'.owner k ≠ L.owner k ∨ L'.data k ≠ L.data k →
      ∃ c payload, e = .accepted c ∧ Idl.payload? c.data = some payload ∧
        ∃ signer ∈ c.accounts, signer.isSigner = true ∧ signer.key ≠ Idl.erasedAuthority ∧
          Idl.storedAuthority (L.data k) = signer.key.toList) ∧
    (∀ c L', ConfinedStep S L (.refused c) L' → L' = L) := by
  have sound := genesis.idl_sound run
  refine ⟨sound, fun accounts payload => Idl.noPanic_process sound payload, ?_, ?_, ?_⟩
  · intro accounts operands L' h
    obtain ⟨dataLen, hread, hcreate⟩ := Outcome.bind_ok.mp h
    obtain ⟨target, htarget, hnowrap, hsize⟩ :=
      Idl.createAccount_size (Idl.readU64_lt hread) hcreate
    exact ⟨dataLen, target, hread, htarget, hnowrap, hsize⟩
  · intro e L' k step hregistry hidl hchanged
    exact Ledger.Step.idl_authority step hregistry hidl hchanged
  · intro c L' step
    cases step.1 with
    | refused => rfl

end

namespace Testnet

/-- Eve makes the fresh account a buffer and writes three bytes. -/
def drafting : List Call :=
  [ idlCall [⟨buffer, false, true⟩, ⟨eve, true, false⟩] [1],
    idlCall [⟨buffer, false, true⟩, ⟨eve, true, false⟩] [2, 3, 0, 0, 0, 10, 20, 30] ]

theorem prepared_elsewhere : Elsewhere start prepared := by
  refine ⟨fun k howned _ => absurd howned (start_genesis k), fun k howned _ => ?_⟩
  by_cases hk : k = buffer
  · refine ⟨91, ?_⟩
    rw [prepared, Ledger.data_setOwner, Ledger.data_setData, if_pos hk]
  · rw [prepared, Ledger.owner_setOwner, if_neg hk, Ledger.owner_setData] at howned
    exact absurd howned (start_genesis k)

end Testnet

open Testnet in
/-- Eve's buffer holds the three bytes it says. -/
theorem draft_fits : ∃ (history : List Event) (L : Ledger),
    Run (ConfinedStep eveScope) start history L ∧ L.IsIdl buffer ∧
      Idl.storedLen (L.data buffer) = 3 ∧ Idl.headerLen + 3 ≤ (L.data buffer).length := by
  have hexecute : (prepared.execute drafting).toOption.any (fun L => decide (L.IsIdl buffer) &&
      decide (Idl.storedLen (L.data buffer) = 3)) = true := by decide +kernel
  obtain ⟨L, hL, hdrafted⟩ := (Option.any_eq_true ..).mp hexecute
  obtain ⟨hidl, hlen⟩ := Bool.and_eq_true_iff.mp hdrafted
  have calls : Run (Ledger.Step eveScope) prepared (drafting.reverse.map .accepted ++ []) L :=
    run_of_execute .refl (Outcome.toOption_eq_some.mp hL) (fun _ hs => hs)
      (List.all_eq_true.mp (by decide +kernel : drafting.all (Call.stays [.reverse eve]) = true))
  have hcreated : Run (ConfinedStep eveScope) start [.outside] prepared :=
    .single ⟨.outside prepared_outside, fun _ => prepared_elsewhere⟩
  rw [List.append_nil] at calls
  have hcalls : ∀ e ∈ drafting.reverse.map Event.accepted, e.isCall :=
    List.forall_mem_map.mpr fun _ _ => trivial
  have hconfined : Run (ConfinedStep eveScope) prepared _ L :=
    (calls.restrict hcalls).mono fun h => ⟨h.1, fun hnot => absurd h.2 hnot⟩
  have run := hcreated.append hconfined
  obtain ⟨hfits, -⟩ := idl_accounts_sound start_genesis run
  have hroom := hfits buffer (of_decide_eq_true hidl)
  rw [of_decide_eq_true hlen] at hroom
  exact ⟨_, L, run, of_decide_eq_true hidl, of_decide_eq_true hlen, hroom⟩

end ArchNameService
