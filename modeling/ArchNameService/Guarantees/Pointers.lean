import ArchNameService.Guarantees.Isolation

/-!
# What `ClearPrimary` erases

The handler asks neither for the derived address nor for the discriminator. It
erases whatever account of the program reads as a pointer of the signer.
-/

namespace ArchNameService
open Deployment

section
variable [Deployment] {S : Scope} {L₀ L L' : Ledger} {R : Registry} {history : List Event} {c : Call}
  {signer k : ArchAddress}

/-- An account of the program away from the pointer of the signer that reads as
one: 8 bytes, a flag, 2 bytes, the key of the signer, and 48 more bytes. -/
structure Decoy (L : Ledger) (signer k : ArchAddress) : Prop where
  owned : L.owner k = programId
  elsewhere : k ≠ (Site.reverse signer).address
  layout : ∃ (front : List UInt8) (flag : Bool) (version rest : List UInt8), L.data k =
    (front ++ ((if flag then 1 else 0) :: version)) ++ (signer.toList ++ rest) ∧
      front.length = 8 ∧ version.length = 2 ∧ rest.length = 48

omit [Deployment] in
/-- The layout of a pointer, byte by byte. -/
theorem encodes_reverse_iff {bytes : List UInt8} :
    (∃ r : ReverseAccount, bytes = encodeState r ∧ r.owner = signer) ↔
      ∃ (front : List UInt8) (flag : Bool) (version rest : List UInt8), bytes =
        (front ++ ((if flag then 1 else 0) :: version)) ++ (signer.toList ++ rest) ∧
        front.length = 8 ∧ version.length = 2 ∧ rest.length = 48 := by
  constructor
  · rintro ⟨r, rfl, rfl⟩
    refine ⟨r.header.discriminator.toList, r.header.initialized, Borsh.serialize r.header.stateVersion,
      Borsh.serialize (r.primaryNameHash, r.bindingNonce, r.updatedAtSlot), ?_, ?_, ?_, ?_⟩
    · change (r.header.discriminator.toList ++ (Borsh.serialize r.header.initialized ++
        Borsh.serialize r.header.stateVersion)) ++ (r.owner.toList ++ _) = _
      cases r.header.initialized <;> rfl
    · exact r.header.discriminator.toList_length
    · exact Borsh.length_u16 _
    · simp only [Borsh.length_prod, Borsh.length_bytes, Borsh.length_u64]
  · rintro ⟨front, flag, version, rest, rfl, hfront, hversion, hrest⟩
    obtain ⟨disc, rfl⟩ := Borsh.Total.bytes 8 front hfront
    obtain ⟨version, rfl⟩ := Borsh.Total.u16 version hversion
    obtain ⟨⟨hash, nonce, slot⟩, rfl⟩ :=
      ((Borsh.Total.bytes 32).prod (Borsh.Total.u64.prod Borsh.Total.u64)) rest hrest
    refine ⟨⟨⟨disc, flag, version⟩, signer, hash, nonce, slot⟩, ?_, rfl⟩
    change _ = (disc.toList ++ (Borsh.serialize flag ++ Borsh.serialize version)) ++
      (signer.toList ++ _)
    cases flag <;> rfl

theorem clearPrimary_ok {accounts : List AccountInfo} :
    clearPrimary L accounts = .ok L' ↔
      ∃ owner pointer rest, ∃ r : ReverseAccount, accounts = owner :: pointer :: rest ∧
        owner.isSigner = true ∧ Holds L pointer.key r ∧ r.owner = owner.key ∧
        L' = L.setData pointer.key [] := by
  simp only [clearPrimary, Outcome.bind_ok, Outcome.reject_ok, nextAccountInfo_ok, Prod.exists,
    requireSigner_ok, requireOwner_ok, exists_const, ne_eq, not_not]
  constructor
  · rintro ⟨owner, _, rfl, pointer, rest, rfl, hsigner, howned, r, hload, howner, hrealloc⟩
    have hholds := owned_load_ok.mp ⟨howned, hload⟩
    obtain rfl | ⟨hempty, -⟩ := realloc_zero_ok hrealloc
    · exact ⟨owner, pointer, rest, r, rfl, hsigner, hholds, howner.symm, rfl⟩
    · exact absurd (hholds.2.symm.trans hempty) (encode_reverse_ne r)
  · rintro ⟨owner, pointer, rest, r, rfl, hsigner, hholds, howner, rfl⟩
    obtain ⟨howned, hload⟩ := owned_load_ok.mpr hholds
    refine ⟨owner, _, rfl, pointer, rest, rfl, hsigner, howned, r, hload, howner.symm, ?_⟩
    have hlength : 0 ≠ (L.data pointer.key).length := by
      rw [hholds.2, length_encode_reverse]
      decide
    have hempty : resizeData (L.data pointer.key) 0 = [] := by
      simp only [resizeData, List.take_zero, Nat.zero_sub, List.replicate_zero, List.append_nil]
    rw [realloc, if_neg hlength, Nat.zero_sub, reject, if_neg (Nat.not_lt_zero _), hempty]
    rfl

/-- The pointer of the signer is emptied, and no other account changes. -/
structure ErasesPointer (L L' : Ledger) (signer : ArchAddress) : Prop where
  held : ∃ r : ReverseAccount, Holds L (Site.reverse signer).address r ∧
    r.header = .fresh reverseAccountDiscriminator ∧ r.owner = signer
  erased : L'.data (Site.reverse signer).address = []
  others : ∀ k, k ≠ (Site.reverse signer).address → L'.data k = L.data k

theorem process_of_action {a : Action} (haction : c.action? = some a) :
    processInstruction L c.accounts c.data = dispatch L c.accounts a.instruction := by
  unfold Call.action? at haction
  unfold processInstruction
  cases hpayload : Idl.payload? c.data with
  | some payload =>
      rw [hpayload] at haction
      exact nomatch haction
  | none =>
      rw [hpayload] at haction
      simp only [Option.bind_eq_some_iff, Option.map_eq_some_iff] at haction
      obtain ⟨instruction, hdeserialize, signer, -, rfl⟩ := haction
      simp only [hdeserialize]
      rfl

/-- The account that is erased, whichever it is, read as a pointer of the signer. -/
theorem cleared_account (haction : c.action? = some ⟨signer, .clearPrimary⟩)
    (h : processInstruction L c.accounts c.data = .ok L') :
    ∃ pointer, ∃ r : ReverseAccount, c.accounts[1]? = some pointer ∧ Holds L pointer.key r ∧
      r.owner = signer ∧ L' = L.setData pointer.key [] := by
  obtain ⟨hsigner, hdispatch⟩ := dispatch_of_action haction h
  obtain ⟨owner, pointer, rest, r, haccounts, -, hholds, howner, rfl⟩ := clearPrimary_ok.mp hdispatch
  rw [haccounts] at hsigner ⊢
  exact ⟨pointer, r, rfl, hholds, howner.trans (key_of_signer? hsigner), rfl⟩

/-- Where the account given is a decoy, the call succeeds and erases it. -/
theorem Decoy.erased {info : AccountInfo} (decoy : Decoy L signer info.key)
    (haction : c.action? = some ⟨signer, .clearPrimary⟩) (hinfo : c.accounts[1]? = some info) :
    processInstruction L c.accounts c.data = .ok (L.setData info.key []) := by
  rw [process_of_action haction]
  obtain ⟨r, hdata, howner⟩ := encodes_reverse_iff.mpr decoy.layout
  unfold Call.action? at haction
  split at haction
  · exact nomatch haction
  · simp only [Option.bind_eq_some_iff, Option.map_eq_some_iff] at haction
    obtain ⟨instruction, -, s, hsigner, hsame⟩ := haction
    cases hsame
    match haccounts : c.accounts with
    | [] =>
        rw [haccounts] at hinfo
        exact nomatch hinfo
    | [_] =>
        rw [haccounts] at hinfo
        exact nomatch hinfo
    | owner :: second :: rest =>
        rw [haccounts] at hsigner hinfo
        cases hinfo
        have hkey := key_of_signer? hsigner
        simp only [signer?, Option.ite_none_right_eq_some] at hsigner
        exact clearPrimary_ok.mpr ⟨owner, info, rest, r, rfl, hsigner.1, ⟨decoy.owned, hdata⟩,
          howner.trans hkey.symm, rfl⟩

/-- No account of the registry in play is a decoy. -/
theorem Decoy.not_derived (agrees : Agrees S L R.content) (decoy : Decoy L signer k) :
    ¬ S.Derived k := by
  rintro ⟨s, hs, rfl⟩
  obtain ⟨r, hdata, howner⟩ := encodes_reverse_iff.mpr decoy.layout
  have hcontent := agrees s hs
  rw [Ledger.content_of_owner decoy.owned, hdata] at hcontent
  obtain ⟨o, b, rfl, -, rfl⟩ := reverse_of_content hcontent.symm
  exact decoy.elsewhere (by rw [← howner]; rfl)

/-- In every reachable ledger, `ClearPrimary` erases the pointer of its signer and
nothing else, exactly when the account it is given is no decoy. In no case does it
erase another account of the registry. -/
theorem clears_own_pointer_iff (genesis : Genesis L₀) (run : Run (Ledger.Step S) L₀ history L)
    (haction : c.action? = some ⟨signer, .clearPrimary⟩) (hsite : .reverse signer ∈ S) :
    ((∀ L', processInstruction L c.accounts c.data = .ok L' → ErasesPointer L L' signer) ↔
      ∀ info, c.accounts[1]? = some info → ¬ Decoy L signer info.key) ∧
    ∀ L', processInstruction L c.accounts c.data = .ok L' →
      ∀ s ∈ S, s ≠ .reverse signer → L'.data s.address = L.data s.address := by
  obtain ⟨R, -, corresponds⟩ := genesis.reached run
  have agrees := corresponds.agrees
  refine ⟨⟨?_, ?_⟩, ?_⟩
  · intro herases info hinfo decoy
    have hothers := (herases _ (decoy.erased haction hinfo)).others info.key decoy.elsewhere
    rw [Ledger.data_setData, if_pos rfl] at hothers
    obtain ⟨r, hdata, -⟩ := encodes_reverse_iff.mpr decoy.layout
    exact encode_reverse_ne r (hdata.symm.trans hothers.symm)
  · intro hdecoys L' h
    obtain ⟨pointer, r, hinfo, hholds, howner, rfl⟩ := cleared_account haction h
    have hkey : pointer.key = (Site.reverse signer).address := by
      by_contra helsewhere
      exact hdecoys pointer hinfo
        ⟨hholds.1, helsewhere, encodes_reverse_iff.mp ⟨r, hholds.2, howner⟩⟩
    obtain ⟨b, -, rfl⟩ := agrees.reverse hsite hkey hholds
    rw [hkey] at hholds ⊢
    refine ⟨⟨_, hholds, rfl, rfl⟩, ?_, ?_⟩
    · rw [Ledger.data_setData, if_pos rfl]
    · intro k hk
      rw [Ledger.data_setData, if_neg hk]
  · intro L' h s hs hother
    obtain ⟨pointer, r, hinfo, hholds, howner, rfl⟩ := cleared_account haction h
    rw [Ledger.data_setData, if_neg]
    intro hkey
    by_cases hpointer : pointer.key = (Site.reverse signer).address
    · exact hother (S.distinct hs hsite (hkey.trans hpointer))
    · have decoy : Decoy L signer pointer.key :=
        ⟨hholds.1, hpointer, encodes_reverse_iff.mp ⟨r, hholds.2, howner⟩⟩
      exact decoy.not_derived agrees ⟨s, hs, hkey⟩

end

namespace Testnet

def clearing : Call := call ann [(Site.reverse ann).address] .clearPrimary

/-- An account that Eve creates at a key of her own: 91 zero bytes of the program. -/
def buffer : ArchAddress := Bytes.fill 32 0xE1

def prepared : Ledger := (start.setData buffer (List.replicate 91 0)).setOwner buffer program

def idlCall (accounts : List AccountInfo) (payload : List UInt8) : Call :=
  { accounts, data := Idl.ixTagLe ++ payload }

/-- Eve makes it a buffer, with an authority that carries most of her own key. -/
def disguise : List Call :=
  [ idlCall [⟨buffer, false, true⟩, ⟨eve, true, false⟩] [1],
    idlCall [⟨buffer, false, true⟩, ⟨eve, true, false⟩] (4 :: ([1, 0, 0] ++ List.replicate 29 3)) ]

def eveScope : Scope := Scope.ofList [.reverse eve] (by decide +kernel) (by decide +kernel)

theorem prepared_outside : Outside eveScope start prepared := by
  have hne : ∀ s ∈ eveScope, s.address ≠ buffer := by
    intro s hs
    cases List.mem_singleton.mp hs
    decide +kernel
  refine ⟨fun s hs => ?_, fun s hs => ?_, fun s _ => ?_⟩
  · rw [prepared, Ledger.owner_setOwner, if_neg (hne s hs), Ledger.owner_setData]
  · rw [prepared, Ledger.data_setOwner, Ledger.data_setData, if_neg (hne s hs)]
  · rw [prepared, Ledger.lamports_setOwner, Ledger.lamports_setData]
    exact UInt64.le_refl _

end Testnet

open Testnet in
/-- Ann clears the pointer she has bound. -/
theorem pointer_cleared : ∃ L L' : Ledger, ErasesPointer L L' ann := by
  obtain ⟨L, run, -, -, hp⟩ := reached (opening ++ [binding])
    (fun L => (processInstruction L clearing.accounts clearing.data).toOption.isSome)
    (by decide +kernel) (by decide +kernel)
  obtain ⟨L', hcall⟩ := Option.isSome_iff_exists.mp hp
  have haction : clearing.action? = some ⟨ann, .clearPrimary⟩ := call_action ..
  have hiff := (clears_own_pointer_iff start_genesis run haction
    (by decide : .reverse ann ∈ sites)).1
  refine ⟨L, L', hiff.mpr ?_ L' (Outcome.toOption_eq_some.mp hcall)⟩
  intro info hinfo decoy
  cases hinfo
  exact decoy.elsewhere rfl

open Testnet in
/-- Eve clears her pointer, and erases an IDL account instead. -/
theorem idl_account_erased : ∃ (history : List Event) (L L' : Ledger) (c : Call),
    Run (Ledger.Step eveScope) start history L ∧ Ledger.Step eveScope L (.accepted c) L' ∧
      c.action? = some ⟨eve, .clearPrimary⟩ ∧ L.IsIdl buffer ∧
      buffer ≠ (Site.reverse eve).address ∧ L'.data buffer = [] := by
  let c := call eve [buffer] .clearPrimary
  have hexecute : (prepared.execute disguise).toOption.any (fun L => decide (L.IsIdl buffer) &&
      (processInstruction L c.accounts c.data).toOption.any fun L' =>
        decide (L'.data buffer = [])) = true := by decide +kernel
  obtain ⟨L, hL, hready⟩ := (Option.any_eq_true ..).mp hexecute
  obtain ⟨hidl, hcall⟩ := Bool.and_eq_true_iff.mp hready
  obtain ⟨L', hL', hempty⟩ := (Option.any_eq_true ..).mp hcall
  have hsites : ∀ s ∈ [Site.reverse eve], s ∈ eveScope := fun _ hs => hs
  have hcreated : Run (Ledger.Step eveScope) start [.outside] prepared :=
    .single (.outside prepared_outside)
  have run := run_of_execute hcreated (Outcome.toOption_eq_some.mp hL) hsites
    (List.all_eq_true.mp (by decide +kernel : disguise.all (Call.stays [.reverse eve]) = true))
  have step : Ledger.Step eveScope L (.accepted c) L' :=
    accepted_of_stays (Outcome.toOption_eq_some.mp hL') hsites (by decide +kernel)
  exact ⟨_, L, L', c, run, step, call_action .., of_decide_eq_true hidl, by decide +kernel,
    of_decide_eq_true hempty⟩

end ArchNameService
