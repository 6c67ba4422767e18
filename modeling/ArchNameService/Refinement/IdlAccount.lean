import ArchNameService.Refinement.Effects

/-!
# What the IDL handlers do to an IDL account

An IDL account keeps a discriminator, an authority, a length and a body. Each
handler has one lemma in these terms that says when it succeeds and with what.
-/

namespace ArchNameService
open Crypto Deployment

/-! ## Slices of a layout -/

theorem leBytes_mod (w x : Nat) : leBytes w (x % 256 ^ w) = leBytes w x := by
  have h := leBytes_leNat (leBytes w x)
  rwa [length_leBytes, leNat_leBytes] at h

namespace Idl

theorem slice_append {front part back : List UInt8} {lo hi : Nat} (hlo : lo = front.length)
    (hhi : hi = front.length + part.length) : slice (front ++ (part ++ back)) lo hi = .ok part := by
  subst hlo hhi
  rw [slice, if_pos]
  · rw [← List.append_assoc, List.take_left' (List.length_append ..), List.drop_left]
  · simp only [List.length_append]
    omega

theorem copyInto_append {front old new back : List UInt8} {lo : Nat} (hlo : lo = front.length)
    (hlength : new.length = old.length) :
    copyInto (front ++ (old ++ back)) lo new = .ok (front ++ (new ++ back)) := by
  subst hlo
  rw [copyInto, if_pos]
  · rw [List.take_left, ← List.append_assoc front old back,
      List.drop_left' (by rw [List.length_append, hlength]), List.append_assoc]
  · simp only [List.length_append]
    omega

theorem copyInto_ok {bytes part result : List UInt8} {lo : Nat} :
    copyInto bytes lo part = .ok result ↔
      lo + part.length ≤ bytes.length ∧
        bytes.take lo ++ part ++ bytes.drop (lo + part.length) = result := by
  unfold copyInto
  split
  · rename_i h
    simp only [Except.ok.injEq, h, true_and]
  · rename_i h
    constructor
    · intro he
      exact nomatch he
    · intro he
      exact absurd he.1 h

/-! ## The layout of an IDL account -/

/-- The bytes of an IDL account. -/
def image (authority : ArchAddress) (dataLen : Nat) (body : List UInt8) : List UInt8 :=
  accountDisc ++ (authority.toList ++ (leBytes 4 dataLen ++ body))

variable {authority : ArchAddress} {n : Nat} {body : List UInt8}

@[simp] theorem length_image : (image authority n body).length = headerLen + body.length := by
  simp only [image, List.length_append, List.Vector.toList_length, length_leBytes, headerLen]
  change 8 + _ = _
  omega

theorem take_image : (image authority n body).take 8 = accountDisc := List.take_left' rfl

theorem drop_image : (image authority n body).drop headerLen = body := by
  have hassoc : image authority n body =
      (accountDisc ++ (authority.toList ++ leBytes 4 n)) ++ body := by
    simp only [image, List.append_assoc]
  rw [hassoc]
  apply List.drop_left'
  simp only [List.length_append, List.Vector.toList_length, length_leBytes, headerLen]
  rfl

theorem slice_disc : slice (image authority n body) 0 8 = .ok accountDisc := by
  change slice ([] ++ (accountDisc ++ _)) 0 8 = _
  exact slice_append rfl rfl

theorem slice_authority : slice (image authority n body) 8 40 = .ok authority.toList :=
  slice_append rfl (by rw [List.Vector.toList_length]; rfl)

theorem image_assoc : image authority n body =
    (accountDisc ++ authority.toList) ++ (leBytes 4 n ++ body) := by
  rw [image, List.append_assoc]

theorem length_front : (accountDisc ++ authority.toList).length = 40 := by
  rw [List.length_append, List.Vector.toList_length]
  rfl

theorem readDataLen_image (hn : n < 2 ^ 32) : readDataLen (image authority n body) = .ok n := by
  have hslice : slice (image authority n body) 40 44 = .ok (leBytes 4 n) := by
    rw [image_assoc]
    exact slice_append length_front.symm (by rw [length_front, length_leBytes])
  have hlong : ¬ (image authority n body).length < headerLen := by
    rw [length_image]
    omega
  simp only [readDataLen, reject, if_neg hlong, hslice]
  change Except.ok (leNat (leBytes 4 n)) = _
  rw [leNat_leBytes_of_lt hn]

theorem writeDataLen_image (m : Nat) :
    writeDataLen (image authority n body) m = .ok (image authority (m % 2 ^ 32) body) := by
  have hlong : ¬ (image authority n body).length < headerLen := by
    rw [length_image]
    omega
  simp only [writeDataLen, reject, if_neg hlong]
  change copyInto (image authority n body) 40 (leBytes 4 m) = _
  rw [image_assoc, image_assoc, show leBytes 4 (m % 2 ^ 32) = leBytes 4 m from leBytes_mod 4 m]
  exact copyInto_append length_front.symm (by rw [length_leBytes, length_leBytes])

theorem setAuthority_image (newAuthority : ArchAddress) :
    copyInto (image authority n body) 8 newAuthority.toList = .ok (image newAuthority n body) :=
  copyInto_append rfl (by rw [List.Vector.toList_length, List.Vector.toList_length])

/-- A write into the body, where it fits. -/
theorem copyInto_body {part result : List UInt8} {lo : Nat} :
    copyInto (image authority n body) (headerLen + lo) part = .ok result ↔
      lo + part.length ≤ body.length ∧
        result = image authority n (body.take lo ++ part ++ body.drop (lo + part.length)) := by
  have hassoc : image authority n body =
      (accountDisc ++ (authority.toList ++ leBytes 4 n)) ++ body := by
    simp only [image, List.append_assoc]
  have hlength : (accountDisc ++ (authority.toList ++ leBytes 4 n)).length = headerLen := by
    simp only [List.length_append, List.Vector.toList_length, length_leBytes, headerLen]
    rfl
  rw [copyInto_ok, length_image, Nat.add_assoc, Nat.add_le_add_iff_left, eq_comm (b := result),
    hassoc, ← hlength, List.take_length_add_append, List.drop_length_add_append]
  simp only [image, List.append_assoc]

/-- The slice of the body up to its length, which panics beyond its end. -/
theorem slice_body {part : List UInt8} {m : Nat} :
    slice (image authority n body) headerLen (headerLen + m) = .ok part ↔
      m ≤ body.length ∧ part = body.take m := by
  unfold slice
  split
  · rename_i h
    rw [length_image, Nat.add_le_add_iff_left] at h
    rw [List.drop_take, drop_image, Nat.add_sub_cancel_left, Except.ok.injEq, eq_comm]
    exact (and_iff_right h.2).symm
  · rename_i h
    rw [length_image, Nat.add_le_add_iff_left] at h
    constructor
    · intro he
      exact nomatch he
    · intro he
      exact absurd ⟨Nat.le_add_right _ _, he.1⟩ h

/-- Any bytes with room for a header, in its parts. -/
theorem header_split {bytes : List UInt8} (hlength : headerLen ≤ bytes.length) :
    ∃ disc mid word, disc.length = 8 ∧ mid.length = 32 ∧ word.length = 4 ∧ bytes.take 8 = disc ∧
      bytes = disc ++ (mid ++ (word ++ bytes.drop headerLen)) := by
  simp only [headerLen] at hlength
  refine ⟨bytes.take 8, (bytes.drop 8).take 32, (bytes.drop 40).take 4, ?_, ?_, ?_, rfl, ?_⟩
  · rw [List.length_take]
    omega
  · rw [List.length_take, List.length_drop]
    omega
  · rw [List.length_take, List.length_drop]
    omega
  · have hbody : (bytes.drop 40).take 4 ++ bytes.drop headerLen = bytes.drop 40 := by
      rw [show headerLen = 40 + 4 from rfl, ← List.drop_drop, List.take_append_drop]
    have hrest : (bytes.drop 8).take 32 ++ bytes.drop 40 = bytes.drop 8 := by
      rw [show 40 = 8 + 32 from rfl, ← List.drop_drop, List.take_append_drop]
    rw [hbody, hrest, List.take_append_drop]

/-- Any bytes that carry the discriminator and have a header are an IDL account's. -/
theorem eq_image {bytes : List UInt8} (hlength : headerLen ≤ bytes.length)
    (hdisc : bytes.take 8 = accountDisc) :
    ∃ authority n body, n < 2 ^ 32 ∧ bytes = image authority n body := by
  obtain ⟨disc, mid, word, -, hmid, hword, hfront, hbytes⟩ := header_split hlength
  have hbound := leNat_lt word
  have hinverse := leBytes_leNat word
  rw [hword] at hbound hinverse
  refine ⟨⟨mid, hmid⟩, leNat word, bytes.drop headerLen, hbound, ?_⟩
  unfold image
  rw [hinverse, ← hdisc, hfront]
  exact hbytes

/-! ## The handlers -/

section
variable [Deployment] {L L' : Ledger} {accounts : List AccountInfo}

/-- An IDL account of the program, with what it keeps. -/
structure Keeps (L : Ledger) (k authority : ArchAddress) (n : Nat) (body : List UInt8) : Prop where
  owner : L.owner k = programId
  data : L.data k = image authority n body
  small : n < 2 ^ 32

theorem requireIdlAccount_ok {account : AccountInfo} {u : Unit} :
    requireIdlAccount L account = .ok u ↔ ∃ authority n body, Keeps L account.key authority n body := by
  simp only [requireIdlAccount, Outcome.bind_ok, Outcome.reject_ok, exists_const, ne_eq, not_not,
    Nat.not_lt]
  constructor
  · rintro ⟨howned, hlength, disc, hslice, rfl⟩
    have hdisc : (L.data account.key).take 8 = accountDisc := by
      unfold slice at hslice
      split at hslice
      · exact Except.ok.inj hslice
      · cases hslice
    obtain ⟨authority, n, body, hn, hdata⟩ := eq_image hlength hdisc
    exact ⟨authority, n, body, howned, hdata, hn⟩
  · rintro ⟨authority, n, body, keeps⟩
    refine ⟨keeps.owner, ?_, accountDisc, ?_, rfl⟩
    · rw [keeps.data, length_image]
      exact Nat.le_add_right _ _
    · rw [keeps.data, slice_disc]

theorem requireAuthority_ok {idl signer : AccountInfo} {u : Unit}
    (keeps : Keeps L idl.key authority n body) :
    requireAuthority L idl signer = .ok u ↔ authority = signer.key ∧ signer.key ≠ erasedAuthority := by
  simp only [requireAuthority, keeps.data, slice_authority, Outcome.bind_ok, Outcome.reject_ok,
    Except.ok.injEq, exists_eq_left', not_or, ne_eq, not_not]
  constructor
  · rintro ⟨herased, hkey⟩
    have hsame := Bytes.toList_injective hkey
    refine ⟨hsame, fun h => herased ?_⟩
    rw [hsame, h]
  · rintro ⟨rfl, herased⟩
    exact ⟨fun h => herased (Bytes.toList_injective h), rfl⟩

/-- The authority of an account signs; an erased authority is nobody. -/
structure Authorized (L : Ledger) (idl signer : AccountInfo) (n : Nat) (body : List UInt8) :
    Prop where
  signs : signer.isSigner = true
  authority : signer.key ≠ erasedAuthority
  keeps : Keeps L idl.key signer.key n body

theorem authorized_ok {idl signer : AccountInfo} :
    (signer.isSigner = true ∧ requireIdlAccount L idl = .ok () ∧
      requireAuthority L idl signer = .ok ()) ↔ ∃ n body, Authorized L idl signer n body := by
  rw [requireIdlAccount_ok]
  constructor
  · rintro ⟨hsigns, ⟨authority, n, body, keeps⟩, hrequire⟩
    obtain ⟨rfl, herased⟩ := (requireAuthority_ok keeps).mp hrequire
    exact ⟨n, body, hsigns, herased, keeps⟩
  · rintro ⟨n, body, authorized⟩
    exact ⟨authorized.signs, ⟨_, n, body, authorized.keeps⟩,
      (requireAuthority_ok authorized.keeps).mpr ⟨rfl, authorized.authority⟩⟩

theorem idlAuthorityAccounts_ok {idl signer : AccountInfo} :
    idlAuthorityAccounts L accounts = .ok (idl, signer) ↔
      ∃ rest n body, accounts = idl :: signer :: rest ∧ Authorized L idl signer n body := by
  simp only [idlAuthorityAccounts, Outcome.bind_ok, Prod.exists, nextAccountInfo_ok,
    requireSigner_ok, Outcome.pure_ok, Prod.mk.injEq, exists_const]
  constructor
  · rintro ⟨_, _, rfl, _, rest, rfl, hsigns, _, hidl, _, hrequire, rfl, rfl⟩
    obtain ⟨n, body, authorized⟩ := authorized_ok.mp ⟨hsigns, hidl, hrequire⟩
    exact ⟨rest, n, body, rfl, authorized⟩
  · rintro ⟨rest, n, body, rfl, authorized⟩
    obtain ⟨hsigns, hidl, hrequire⟩ := authorized_ok.mpr ⟨n, body, authorized⟩
    exact ⟨idl, _, rfl, signer, rest, rfl, hsigns, (), hidl, (), hrequire, rfl, rfl⟩

/-- A write appends its chunk where it fits into the account. -/
theorem write_ok {chunk : List UInt8} :
    write L accounts chunk = .ok L' ↔
      ∃ idl signer rest n body, accounts = idl :: signer :: rest ∧ Authorized L idl signer n body ∧
        n + chunk.length ≤ body.length ∧
        L' = L.setData idl.key (image signer.key ((n + chunk.length) % 2 ^ 32)
          (body.take n ++ chunk ++ body.drop (n + chunk.length))) := by
  simp only [write, Outcome.bind_ok, Prod.exists, idlAuthorityAccounts_ok, Outcome.reject_ok,
    Outcome.pure_ok, exists_const]
  constructor
  · rintro ⟨idl, signer, ⟨rest, n, body, rfl, authorized⟩, m, hread, -, bytes, hcopy, bytes', hwrite,
      rfl⟩
    rw [authorized.keeps.data, readDataLen_image authorized.keeps.small] at hread
    cases hread
    rw [authorized.keeps.data] at hcopy
    obtain ⟨hfits, rfl⟩ := copyInto_body.mp hcopy
    rw [writeDataLen_image] at hwrite
    cases hwrite
    exact ⟨idl, signer, rest, n, body, rfl, authorized, hfits, rfl⟩
  · rintro ⟨idl, signer, rest, n, body, rfl, authorized, hfits, rfl⟩
    have hread : readDataLen (L.data idl.key) = .ok n := by
      rw [authorized.keeps.data, readDataLen_image authorized.keeps.small]
    have hcopy : copyInto (L.data idl.key) (headerLen + n) chunk =
        .ok (image signer.key n (body.take n ++ chunk ++ body.drop (n + chunk.length))) := by
      rw [authorized.keeps.data]
      exact copyInto_body.mpr ⟨hfits, rfl⟩
    refine ⟨idl, signer, ⟨rest, n, body, rfl, authorized⟩, n, hread, ?_, _, hcopy, _,
      writeDataLen_image _, rfl⟩
    rw [authorized.keeps.data, length_image]
    omega

theorem setAuthority_ok {newAuthority : ArchAddress} :
    setAuthority L accounts newAuthority = .ok L' ↔
      ∃ idl signer rest n body, accounts = idl :: signer :: rest ∧ Authorized L idl signer n body ∧
        L' = L.setData idl.key (image newAuthority n body) := by
  simp only [setAuthority, Outcome.bind_ok, Prod.exists, idlAuthorityAccounts_ok, Outcome.pure_ok]
  constructor
  · rintro ⟨idl, signer, ⟨rest, n, body, rfl, authorized⟩, bytes, hcopy, rfl⟩
    rw [authorized.keeps.data, setAuthority_image] at hcopy
    cases hcopy
    exact ⟨idl, signer, rest, n, body, rfl, authorized, rfl⟩
  · rintro ⟨idl, signer, rest, n, body, rfl, authorized, rfl⟩
    refine ⟨idl, signer, ⟨rest, n, body, rfl, authorized⟩, _, ?_, rfl⟩
    rw [authorized.keeps.data, setAuthority_image]

omit [Deployment] in
/-- A fresh header, where there is room for one: the rest of the data is the body. -/
theorem writeHeader_ok {account : AccountInfo} :
    writeHeader L account authority n = .ok L' ↔
      headerLen ≤ (L.data account.key).length ∧
        L' = L.setData account.key (image authority n ((L.data account.key).drop headerLen)) := by
  have hcopies {bytes : List UInt8} (hlength : headerLen ≤ bytes.length) :
      ∃ bytes₁ bytes₂, copyInto bytes 0 accountDisc = .ok bytes₁ ∧
        copyInto bytes₁ 8 authority.toList = .ok bytes₂ ∧
        copyInto bytes₂ 40 (leBytes 4 n) = .ok (image authority n (bytes.drop headerLen)) := by
    obtain ⟨disc, mid, word, hdisc, hmid, hword, -, hbytes⟩ := header_split hlength
    refine ⟨accountDisc ++ (mid ++ (word ++ bytes.drop headerLen)),
      (accountDisc ++ authority.toList) ++ (word ++ bytes.drop headerLen), ?_, ?_, ?_⟩
    · nth_rewrite 1 [hbytes]
      change copyInto ([] ++ (disc ++ _)) 0 accountDisc = .ok ([] ++ (accountDisc ++ _))
      exact copyInto_append rfl hdisc.symm
    · rw [List.append_assoc]
      exact copyInto_append rfl (by rw [hmid, List.Vector.toList_length])
    · rw [image_assoc]
      exact copyInto_append length_front.symm (by rw [hword, length_leBytes])
  simp only [writeHeader, Outcome.bind_ok, Outcome.reject_ok, Outcome.pure_ok, exists_const,
    Nat.not_lt]
  constructor
  · rintro ⟨hlength, a, ha, b, hb, c, hc, rfl⟩
    obtain ⟨a', b', ha', hb', hc'⟩ := hcopies hlength
    cases ha.symm.trans ha'
    cases hb.symm.trans hb'
    cases hc.symm.trans hc'
    exact ⟨hlength, rfl⟩
  · rintro ⟨hlength, rfl⟩
    obtain ⟨a, b, ha, hb, hc⟩ := hcopies hlength
    exact ⟨hlength, a, ha, b, hb, _, hc, rfl⟩

theorem createBuffer_ok :
    createBuffer L accounts = .ok L' ↔
      ∃ buffer signer rest, accounts = buffer :: signer :: rest ∧ signer.isSigner = true ∧
        signer.key ≠ erasedAuthority ∧ L.owner buffer.key = programId ∧
        headerLen ≤ (L.data buffer.key).length ∧ (L.data buffer.key).take 8 = List.replicate 8 0 ∧
        L' = L.setData buffer.key (image signer.key 0 ((L.data buffer.key).drop headerLen)) := by
  simp only [createBuffer, Outcome.bind_ok, Outcome.reject_ok, Prod.exists, nextAccountInfo_ok,
    requireSigner_ok, exists_const, ne_eq, not_not, Nat.not_lt, writeHeader_ok]
  constructor
  · rintro ⟨buffer, _, rfl, signer, rest, rfl, hsigns, herased, howned, hlength, disc, hslice, rfl, -,
      rfl⟩
    refine ⟨buffer, signer, rest, rfl, hsigns, herased, howned, hlength, ?_, rfl⟩
    unfold slice at hslice
    split at hslice
    · exact Except.ok.inj hslice
    · cases hslice
  · rintro ⟨buffer, signer, rest, rfl, hsigns, herased, howned, hlength, hzeros, rfl⟩
    refine ⟨buffer, _, rfl, signer, rest, rfl, hsigns, herased, howned, hlength,
      List.replicate 8 0, ?_, rfl, hlength, rfl⟩
    rw [slice, if_pos ⟨Nat.zero_le 8, Nat.le_trans (by decide) hlength⟩, hzeros]
    rfl

/-- The bytes in use of the buffer replace as many of the target. -/
theorem setBuffer_ok :
    setBuffer L accounts = .ok L' ↔
      ∃ buffer idl signer rest n body m target, accounts = buffer :: idl :: signer :: rest ∧
        Authorized L buffer signer n body ∧ Authorized L idl signer m target ∧
        n ≤ target.length ∧ buffer.key ≠ idl.key ∧ n ≤ body.length ∧
        L' = L.setData idl.key (image signer.key n (body.take n ++ target.drop n)) := by
  simp only [setBuffer, Outcome.bind_ok, Outcome.reject_ok, Prod.exists, nextAccountInfo_ok,
    requireSigner_ok, Outcome.pure_ok, exists_const, Nat.not_lt]
  constructor
  · rintro ⟨buffer, _, rfl, idl, _, rfl, signer, rest, rfl, hsigns, _, hbuffer, _, hidl, _, hauth, _,
      hauth', len, hread, hfits, hne, payload, hslice, bytes, hcopy, bytes', hwrite, rfl⟩
    obtain ⟨n, body, source⟩ := authorized_ok.mp ⟨hsigns, hbuffer, hauth⟩
    obtain ⟨m, target, dest⟩ := authorized_ok.mp ⟨hsigns, hidl, hauth'⟩
    rw [source.keeps.data, readDataLen_image source.keeps.small, Except.ok.injEq] at hread
    subst hread
    rw [source.keeps.data] at hslice
    obtain ⟨hbody, rfl⟩ := slice_body.mp hslice
    rw [dest.keeps.data] at hcopy
    replace hcopy : copyInto (image signer.key m target) (headerLen + 0) (body.take n) = .ok bytes :=
      hcopy
    obtain ⟨htarget, rfl⟩ := copyInto_body.mp hcopy
    rw [writeDataLen_image, Nat.mod_eq_of_lt source.keeps.small, Except.ok.injEq] at hwrite
    subst hwrite
    rw [List.length_take_of_le hbody, Nat.zero_add] at *
    exact ⟨buffer, idl, signer, rest, n, body, m, target, rfl, source, dest, htarget, hne, hbody, rfl⟩
  · rintro ⟨buffer, idl, signer, rest, n, body, m, target, rfl, source, dest, hfits, hne, hbody, rfl⟩
    obtain ⟨hsigns, hbuffer, hauth⟩ := authorized_ok.mpr ⟨n, body, source⟩
    obtain ⟨-, hidl, hauth'⟩ := authorized_ok.mpr ⟨m, target, dest⟩
    have hread : readDataLen (L.data buffer.key) = .ok n := by
      rw [source.keeps.data, readDataLen_image source.keeps.small]
    have hslice : slice (L.data buffer.key) headerLen (headerLen + n) = .ok (body.take n) := by
      rw [source.keeps.data]
      exact slice_body.mpr ⟨hbody, rfl⟩
    have hcopy : copyInto (L.data idl.key) (headerLen + 0) (body.take n) =
        .ok (image signer.key m (body.take n ++ target.drop n)) := by
      rw [dest.keeps.data]
      refine copyInto_body.mpr ⟨?_, ?_⟩
      · rw [List.length_take_of_le hbody]
        omega
      · rw [List.take_zero, List.nil_append, List.length_take_of_le hbody, Nat.zero_add]
    refine ⟨buffer, _, rfl, idl, _, rfl, signer, rest, rfl, hsigns, (), hbuffer, (), hidl, (), hauth,
      (), hauth', n, hread, ?_, hne, _, hslice, _, hcopy, _, ?_, rfl⟩
    · rw [dest.keeps.data, length_image]
      omega
    · rw [writeDataLen_image, Nat.mod_eq_of_lt source.keeps.small]

/-- The canonical account is created with its header; `space` has wrapped. -/
theorem createAccount_ok {dataLen : Nat} :
    createAccount L accounts dataLen = .ok L' ↔
      ∃ payer target base system program rest L₁,
        accounts = payer :: target :: base :: system :: program :: rest ∧ payer.isSigner = true ∧
        program.key = programId ∧ L.executable program.key = true ∧ system.key = systemProgram ∧
        base.key = baseAddress ∧ createWithSeed baseAddress seed programId = some target.key ∧
        systemCreateAccount L accounts payer.key target.key
          (minimumRent (min ((headerLen + dataLen) % 2 ^ 64) createMaxSpace))
          (min ((headerLen + dataLen) % 2 ^ 64) createMaxSpace) programId = .ok L₁ ∧
        writeHeader L₁ target payer.key 0 = .ok L' := by
  simp only [createAccount, Outcome.bind_ok, Outcome.reject_ok, Outcome.orElseError_ok,
    Prod.exists, nextAccountInfo_ok, exists_const, not_not, ne_eq, not_or]
  constructor
  · rintro ⟨payer, _, rfl, target, _, rfl, base, _, rfl, system, _, rfl, program, rest, rfl, hsigns,
      ⟨hprogram, hexecutable⟩, hsystem, hbase, expected, hexpected, rfl, L₁, hcreate, hheader⟩
    exact ⟨payer, target, base, system, program, rest, L₁, rfl, hsigns, hprogram, hexecutable,
      hsystem, hbase, hexpected, hcreate, hheader⟩
  · rintro ⟨payer, target, base, system, program, rest, L₁, rfl, hsigns, hprogram, hexecutable,
      hsystem, hbase, hexpected, hcreate, hheader⟩
    exact ⟨payer, _, rfl, target, _, rfl, base, _, rfl, system, _, rfl, program, rest, rfl, hsigns,
      ⟨hprogram, hexecutable⟩, hsystem, hbase, target.key, hexpected, rfl, L₁, hcreate, hheader⟩

/-- The account is emptied, and its lamports go to the destination. -/
theorem close_ok (h : close L accounts = .ok L') :
    ∃ idl signer destination rest n body, accounts = idl :: signer :: destination :: rest ∧
      Authorized L idl signer n body ∧
      ((L.setLamports idl.key 0).lamports destination.key).toNat + (L.lamports idl.key).toNat <
        2 ^ 64 ∧
      (∀ k, L'.lamports k = ((L.setLamports idl.key 0).setLamports destination.key
        ((L.setLamports idl.key 0).lamports destination.key + L.lamports idl.key)).lamports k) ∧
      (∀ k, L'.owner k = L.owner k) ∧
      (∀ k, L'.data k = if k = idl.key then [] else L.data k) ∧ L'.tokens = L.tokens := by
  simp only [close, Outcome.bind_ok, Outcome.reject_ok, Outcome.orElseError_ok, Prod.exists,
    nextAccountInfo_ok, requireSigner_ok, checkedAdd_eq_some, exists_const] at h
  obtain ⟨idl, _, rfl, signer, _, rfl, destination, rest, rfl, hsigns, _, hidl, _, hauth, -,
    credited, ⟨hfits, rfl⟩, hrealloc⟩ := h
  obtain ⟨n, body, authorized⟩ := authorized_ok.mp ⟨hsigns, hidl, hauth⟩
  obtain ⟨howner, hdata, htokens, hlamports⟩ := realloc_ok hrealloc
  refine ⟨idl, signer, destination, rest, n, body, rfl, authorized, hfits, hlamports, ?_, ?_, htokens⟩
  · intro k
    rw [howner, Ledger.owner_setLamports, Ledger.owner_setLamports]
  · intro k
    split
    · rename_i hk
      obtain rfl | ⟨hempty, rfl⟩ := realloc_zero_ok hrealloc
      · rw [Ledger.data_setData, if_pos hk]
      · rw [hk, hempty]
    · rename_i hk
      rw [hdata k hk, Ledger.data_setLamports, Ledger.data_setLamports]

/-- An empty account grows by one step towards the length asked for. -/
theorem resize_ok {dataLen : Nat} :
    resize L accounts dataLen = .ok L' ↔
      ∃ idl signer system rest body, accounts = idl :: signer :: system :: rest ∧
        system.key = systemProgram ∧ Authorized L idl signer 0 body ∧
        if dataLen ≤ headerLen + body.length then L' = L
        else ∃ L₁, fundRentExempt L signer idl
              (min (headerLen + body.length + createMaxSpace) dataLen) = .ok L₁ ∧
            realloc L₁ idl (min (headerLen + body.length + createMaxSpace) dataLen) = .ok L' := by
  have hspace {current : Nat} (h : ¬ dataLen ≤ current) :
      min (current + min (dataLen - current) createMaxSpace) dataLen =
        min (current + createMaxSpace) dataLen := by
    omega
  simp only [resize, Outcome.bind_ok, Outcome.reject_ok, Prod.exists, nextAccountInfo_ok,
    requireSigner_ok, exists_const, ne_eq, not_not]
  constructor
  · rintro ⟨idl, _, rfl, signer, _, rfl, system, rest, rfl, hsigns, hsystem, _, hidl, _, hauth, _,
      hread, rfl, h⟩
    obtain ⟨n, body, authorized⟩ := authorized_ok.mp ⟨hsigns, hidl, hauth⟩
    rw [authorized.keeps.data, readDataLen_image authorized.keeps.small] at hread
    cases hread
    rw [authorized.keeps.data, length_image] at h
    refine ⟨idl, signer, system, rest, body, rfl, hsystem, authorized, ?_⟩
    split at h
    · rename_i hle
      rw [if_pos hle]
      exact (Outcome.pure_ok.mp h).symm
    · rename_i hle
      rw [if_neg hle]
      rw [hspace hle] at h
      exact Outcome.bind_ok.mp h
  · rintro ⟨idl, signer, system, rest, body, rfl, hsystem, authorized, h⟩
    obtain ⟨hsigns, hidl, hauth⟩ := authorized_ok.mpr ⟨0, body, authorized⟩
    refine ⟨idl, _, rfl, signer, _, rfl, system, rest, rfl, hsigns, hsystem, (), hidl, (), hauth, 0,
      ?_, rfl, ?_⟩
    · rw [authorized.keeps.data, readDataLen_image authorized.keeps.small]
    · rw [authorized.keeps.data, length_image]
      split
      · rename_i hle
        rw [if_pos hle] at h
        rw [h]
        rfl
      · rename_i hle
        rw [if_neg hle] at h
        rw [hspace hle]
        exact Outcome.bind_ok.mpr h

end

/-! ## Instructions -/

/-- What a payload asks for. -/
inductive Instruction where
  | create (dataLen : Nat)
  | createBuffer
  | write (chunk : List UInt8)
  | setBuffer
  | setAuthority (newAuthority : ArchAddress)
  | close
  | resize (dataLen : Nat)

def Instruction.decode : List UInt8 → ProgramResult Instruction
  | [] => throw (.error .invalidInstructionData)
  | tag :: rest =>
      if tag = 0 then do
        let dataLen ← readU64 rest
        pure (.create dataLen)
      else if tag = 1 then pure .createBuffer
      else if tag = 2 then do
        let chunk ← readVec rest
        pure (.write chunk)
      else if tag = 3 then pure .setBuffer
      else if tag = 4 then do
        let newAuthority ← readPubkey rest
        pure (.setAuthority newAuthority)
      else if tag = 5 then pure .close
      else if tag = 6 then do
        let dataLen ← readU64 rest
        pure (.resize dataLen)
      else throw (.error .invalidInstructionData)

section
variable [Deployment] {L L' : Ledger} {accounts : List AccountInfo}

def Instruction.run (L : Ledger) (accounts : List AccountInfo) : Instruction → ProgramResult Ledger
  | .create dataLen => createAccount L accounts dataLen
  | .createBuffer => Idl.createBuffer L accounts
  | .write chunk => Idl.write L accounts chunk
  | .setBuffer => Idl.setBuffer L accounts
  | .setAuthority newAuthority => Idl.setAuthority L accounts newAuthority
  | .close => Idl.close L accounts
  | .resize dataLen => Idl.resize L accounts dataLen

/-- The payload is read first, and the handler runs on what it says. -/
theorem process_eq (payload : List UInt8) :
    process L accounts payload = Instruction.decode payload >>= Instruction.run L accounts := by
  have hbind {α : Type} (x : ProgramResult α) (f : α → Instruction) :
      ((do let a ← x; pure (f a)) >>= Instruction.run L accounts) =
        (do let a ← x; (f a).run L accounts) := by
    cases x <;> rfl
  cases payload with
  | nil => rfl
  | cons tag rest =>
      simp only [process, Instruction.decode]
      repeat' split
      · exact (hbind (readU64 rest) .create).symm
      · rfl
      · exact (hbind (readVec rest) .write).symm
      · rfl
      · exact (hbind (readPubkey rest) .setAuthority).symm
      · rfl
      · exact (hbind (readU64 rest) .resize).symm
      · rfl

theorem process_ok {payload : List UInt8} :
    process L accounts payload = .ok L' ↔
      ∃ i, Instruction.decode payload = .ok i ∧ i.run L accounts = .ok L' := by
  rw [process_eq, Outcome.bind_ok]

end

end Idl

end ArchNameService
