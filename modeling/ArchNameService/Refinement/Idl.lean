import ArchNameService.Refinement.Market
import ArchNameService.Refinement.IdlAccount

/-!
# IDL instructions do not reach the registry

They share the program and its accounts, and tell an account of theirs by its
first eight bytes. No entry of the registry begins with these bytes.
-/

namespace ArchNameService
open Crypto Deployment

/-! ## The first bytes of an entry -/

theorem take_discriminator {d : Bytes 8} {r r' : List UInt8} :
    ((d.toList ++ r) ++ r').take 8 = d.toList := by
  rw [List.append_assoc]
  exact List.take_left' d.toList_length

theorem take_encode_config (c : RegistryConfig) :
    (encodeState c).take 8 = c.header.discriminator.toList := take_discriminator

theorem take_encode_name (n : NameAccount) :
    (encodeState n).take 8 = n.header.discriminator.toList := take_discriminator

theorem take_encode_record (r : RecordAccount) :
    (encodeState r).take 8 = r.header.discriminator.toList := take_discriminator

theorem take_encode_reverse (r : ReverseAccount) :
    (encodeState r).take 8 = r.header.discriminator.toList := take_discriminator

theorem take_encode_listing (l : ListingAccount) :
    (encodeState l).take 8 = l.header.discriminator.toList := take_discriminator

theorem take_encode_offer (o : OfferAccount) :
    (encodeState o).take 8 = o.header.discriminator.toList := take_discriminator

/-- The discriminators of the registry. -/
def discriminators : List (List UInt8) :=
  [registryConfigDiscriminator.toList, nameAccountDiscriminator.toList,
    recordAccountDiscriminator.toList, reverseAccountDiscriminator.toList,
    listingAccountDiscriminator.toList, offerAccountDiscriminator.toList]

theorem encoded_discriminator {α T : Type} [Borsh T] (o : Option α) (account : α → T)
    (h : ∀ x, (encodeState (account x)).take 8 ∈ discriminators) :
    encoded (o.map account) = [] ∨ (encoded (o.map account)).take 8 ∈ discriminators := by
  cases o with
  | none => exact .inl rfl
  | some x => exact .inr (h x)

theorem Registry.content_discriminator (R : Registry) (s : Site) :
    R.content s = [] ∨ (R.content s).take 8 ∈ discriminators := by
  cases s with
  | config =>
      refine encoded_discriminator _ _ fun authority => ?_
      rw [take_encode_config]
      exact List.mem_of_elem_eq_true rfl
  | name k =>
      refine encoded_discriminator _ _ fun n => ?_
      rw [take_encode_name]
      exact List.mem_of_elem_eq_true rfl
  | record k slot =>
      refine encoded_discriminator _ _ fun p => ?_
      rw [take_encode_record]
      exact List.mem_of_elem_eq_true rfl
  | reverse o =>
      refine encoded_discriminator _ _ fun b => ?_
      rw [take_encode_reverse]
      exact List.mem_of_elem_eq_true rfl
  | listing k =>
      refine encoded_discriminator _ _ fun l => ?_
      rw [take_encode_listing]
      exact List.mem_of_elem_eq_true rfl
  | offer k buyer =>
      refine encoded_discriminator _ _ fun o => ?_
      rw [take_encode_offer]
      exact List.mem_of_elem_eq_true rfl

theorem accountDisc_not_mem : Idl.accountDisc ∉ discriminators := by decide

theorem zeros_not_mem : List.replicate 8 0 ∉ discriminators := by decide

namespace Idl

/-! ## What an IDL instruction does -/

variable [Deployment] {S : Scope} {L L' : Ledger} {R : Registry} {accounts : List AccountInfo}

/-- One account of the program is written, which is not one of the registry, and
a signer may pay for it. -/
structure Effect (S : Scope) (accounts : List AccountInfo) (L L' : Ledger) : Prop where
  owner : ∀ s ∈ S, L'.owner s.address = L.owner s.address
  data : ∀ s ∈ S, L'.data s.address = L.data s.address
  tokens : L'.tokens = L.tokens
  total : L'.total = L.total
  spares : ∃ p, (∃ a ∈ accounts, a.isSigner = true ∧ a.key = p) ∧
    ∀ s ∈ S, s.address ≠ p → L.lamports s.address ≤ L'.lamports s.address

/-- An account that looks like an IDL account is not one of the registry. -/
theorem not_derived (agrees : Agrees S L R.content) {k : ArchAddress}
    (howned : L.owner k = programId) (hlength : headerLen ≤ (L.data k).length)
    (hdisc : (L.data k).take 8 ∉ discriminators) : ¬ S.Derived k := by
  rintro ⟨s, hs, rfl⟩
  have hcontent := agrees s hs
  rw [Ledger.content_of_owner howned] at hcontent
  rcases R.content_discriminator s with hnil | hmem
  · rw [hcontent, hnil] at hlength
    exact absurd hlength (by decide)
  · rw [← hcontent] at hmem
    exact hdisc hmem

theorem not_derived_of_idl (agrees : Agrees S L R.content) {idl signer : AccountInfo} {n : Nat}
    {body : List UInt8} (h : Authorized L idl signer n body) : ¬ S.Derived idl.key := by
  apply not_derived agrees h.keeps.owner
  · rw [h.keeps.data, length_image]
    exact Nat.le_add_right _ _
  · rw [h.keeps.data, take_image]
    exact accountDisc_not_mem

/-- Writing the bytes of an account outside the registry. -/
theorem effect_setData {k : ArchAddress} {bytes : List UInt8} {signer : AccountInfo}
    (hmem : signer ∈ accounts) (hsigner : signer.isSigner = true) (hk : ¬ S.Derived k) :
    Effect S accounts L (L.setData k bytes) :=
  { owner := fun s _ => L.owner_setData k s.address bytes
    data := fun s hs => by
      rw [Ledger.data_setData, if_neg fun h => hk ⟨s, hs, h⟩]
    tokens := rfl
    total := Ledger.total_of_eq fun j => L.lamports_setData k j bytes
    spares := ⟨signer.key, ⟨signer, hmem, hsigner, rfl⟩, fun s _ _ => by
      rw [Ledger.lamports_setData]
      exact UInt64.le_refl _⟩ }

theorem createAccount_effect {dataLen : Nat} (h : createAccount L accounts dataLen = .ok L') :
    Effect S accounts L L' := by
  obtain ⟨payer, target, base, system, program, rest, L₁, rfl, hsigner, -, -, -, -, hexpected, hcreate,
    hheader⟩ := createAccount_ok.mp h
  have hk : ¬ S.Derived target.key := fun ⟨s, hs, hkey⟩ => S.apart s hs (hkey ▸ hexpected)
  have created := systemCreateAccount_ok hcreate
  obtain ⟨-, rfl⟩ := writeHeader_ok.mp hheader
  have hne : ∀ s ∈ S, s.address ≠ target.key := fun s hs h => hk ⟨s, hs, h⟩
  exact
    { owner := fun s hs => by rw [Ledger.owner_setData, created.owner, if_neg (hne s hs)]
      data := fun s hs => by
        rw [Ledger.data_setData, if_neg (hne s hs), created.data, if_neg (hne s hs)]
      tokens := created.tokens
      total := by
        rw [← created.total]
        exact Ledger.total_of_eq fun j => Ledger.lamports_setData ..
      spares := ⟨payer.key, ⟨payer, List.mem_cons_self, hsigner, rfl⟩, fun s _ hpayer => by
        rw [Ledger.lamports_setData]
        exact created.spares _ hpayer⟩ }

theorem createBuffer_effect (agrees : Agrees S L R.content)
    (h : createBuffer L accounts = .ok L') : Effect S accounts L L' := by
  obtain ⟨buffer, signer, rest, rfl, hsigner, -, howned, hlength, hzeros, rfl⟩ :=
    createBuffer_ok.mp h
  refine effect_setData (List.mem_cons_of_mem _ List.mem_cons_self) hsigner ?_
  exact not_derived agrees howned hlength (by rw [hzeros]; exact zeros_not_mem)

theorem write_effect {chunk : List UInt8} (agrees : Agrees S L R.content)
    (h : write L accounts chunk = .ok L') : Effect S accounts L L' := by
  obtain ⟨idl, signer, rest, n, body, rfl, authorized, -, rfl⟩ := write_ok.mp h
  exact effect_setData (List.mem_cons_of_mem _ List.mem_cons_self) authorized.signs
    (not_derived_of_idl agrees authorized)

theorem setBuffer_effect (agrees : Agrees S L R.content)
    (h : setBuffer L accounts = .ok L') : Effect S accounts L L' := by
  obtain ⟨buffer, idl, signer, rest, n, body, m, target, rfl, -, authorized, -, -, -, rfl⟩ :=
    setBuffer_ok.mp h
  exact effect_setData (List.mem_cons_of_mem _ (List.mem_cons_of_mem _ List.mem_cons_self))
    authorized.signs (not_derived_of_idl agrees authorized)

theorem setAuthority_effect {newAuthority : ArchAddress} (agrees : Agrees S L R.content)
    (h : setAuthority L accounts newAuthority = .ok L') : Effect S accounts L L' := by
  obtain ⟨idl, signer, rest, n, body, rfl, authorized, rfl⟩ := setAuthority_ok.mp h
  exact effect_setData (List.mem_cons_of_mem _ List.mem_cons_self) authorized.signs
    (not_derived_of_idl agrees authorized)

omit [Deployment] in
/-- Draining one account into another, or into itself, keeps the total. -/
theorem total_drain {k destination : ArchAddress}
    (hfits : ((L.setLamports k 0).lamports destination).toNat + (L.lamports k).toNat < 2 ^ 64) :
    ((L.setLamports k 0).setLamports destination
      ((L.setLamports k 0).lamports destination + L.lamports k)).total = L.total := by
  have hdrain := Ledger.total_setLamports (L := L) k 0
  have hcredit := Ledger.total_setLamports (L := L.setLamports k 0) destination
    ((L.setLamports k 0).lamports destination + L.lamports k)
  rw [toNat_add_of_lt hfits] at hcredit
  simp only [UInt64.toNat_zero] at hdrain
  omega

theorem close_effect (agrees : Agrees S L R.content) (h : close L accounts = .ok L') :
    Effect S accounts L L' := by
  obtain ⟨account, signer, destination, rest, n, body, rfl, authorized, hfits, hlamports, howner,
    hdata, htokens⟩ := close_ok h
  have hk := not_derived_of_idl agrees authorized
  have hne : ∀ s ∈ S, s.address ≠ account.key := fun s hs h => hk ⟨s, hs, h⟩
  exact
    { owner := fun s _ => howner _
      data := fun s hs => by rw [hdata, if_neg (hne s hs)]
      tokens := htokens
      total := by
        rw [Ledger.total_of_eq hlamports, total_drain hfits]
      spares := ⟨signer.key, ⟨signer, by simp, authorized.signs, rfl⟩, fun s hs _ => by
        rw [hlamports, Ledger.lamports_setLamports]
        split
        · rename_i hdestination
          rw [UInt64.le_iff_toNat_le, toNat_add_of_lt hfits, hdestination,
            Ledger.lamports_setLamports, if_neg (hdestination ▸ hne s hs)]
          omega
        · rw [Ledger.lamports_setLamports, if_neg (hne s hs)]
          exact UInt64.le_refl _⟩ }

theorem resize_effect {dataLen : Nat} (agrees : Agrees S L R.content)
    (h : resize L accounts dataLen = .ok L') : Effect S accounts L L' := by
  obtain ⟨idl, signer, system, rest, body, rfl, -, authorized, h⟩ := resize_ok.mp h
  have hk := not_derived_of_idl agrees authorized
  have hne : ∀ s ∈ S, s.address ≠ idl.key := fun s hs h => hk ⟨s, hs, h⟩
  split at h
  · subst h
    exact
      { owner := fun _ _ => rfl
        data := fun _ _ => rfl
        tokens := rfl
        total := rfl
        spares := ⟨signer.key, ⟨signer, by simp, authorized.signs, rfl⟩,
          fun s _ _ => UInt64.le_refl _⟩ }
  · obtain ⟨L₁, hfund, hrealloc⟩ := h
    obtain ⟨howner, hdata, htokens, hspares, htotal, -⟩ := fundRentExempt_topped hfund
    obtain ⟨howner', hdata', htokens', hlamports'⟩ := realloc_ok hrealloc
    exact
      { owner := fun s _ => by rw [howner', howner]
        data := fun s hs => by rw [hdata' _ (hne s hs), hdata]
        tokens := htokens'.trans htokens
        total := (Ledger.total_of_eq hlamports').trans htotal
        spares := ⟨signer.key, ⟨signer, by simp, authorized.signs, rfl⟩, fun s _ hpayer => by
          rw [hlamports']
          exact hspares _ hpayer⟩ }

theorem process_effect {data : List UInt8} (agrees : Agrees S L R.content)
    (h : process L accounts data = .ok L') : Effect S accounts L L' := by
  obtain ⟨instruction, -, h⟩ := process_ok.mp h
  cases instruction with
  | create => exact createAccount_effect h
  | createBuffer => exact createBuffer_effect agrees h
  | write => exact write_effect agrees h
  | setBuffer => exact setBuffer_effect agrees h
  | setAuthority => exact setAuthority_effect agrees h
  | close => exact close_effect agrees h
  | resize => exact resize_effect agrees h

end Idl

end ArchNameService
