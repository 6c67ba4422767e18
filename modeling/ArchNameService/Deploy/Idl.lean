import ArchNameService.Registry.Idl

/-!
# Publishing an IDL

The deployment tool (`ans-deploy/src/idl.rs`): the transactions with which it
creates, grows, fills and replaces the IDL account of the program. What it
publishes is given compressed.
-/

namespace ArchNameService
open Crypto Deployment

namespace Deploy

def maxWriteSize : Nat := 600

/-- An instruction of a transaction: of the program, or `create_account` of the
system program. -/
inductive Instruction where
  | invoke (accounts : List AccountInfo) (data : List UInt8)
  | createAccount (payer account : ArchAddress) (lamports : UInt64) (space : Nat)
      (owner : ArchAddress)

abbrev Transaction := List Instruction

def accountMeta (key : ArchAddress) (isSigner : Bool) : AccountInfo := ⟨key, isSigner, true⟩
def accountMetaReadonly (key : ArchAddress) (isSigner : Bool) : AccountInfo :=
  ⟨key, isSigner, false⟩

/-! ## Instruction data -/

def createIxData (dataLen : Nat) : List UInt8 := Idl.ixTagLe ++ 0 :: leBytes 8 dataLen

/-- The length of the chunk is cast to `u32`. -/
def writeIxData (chunk : List UInt8) : List UInt8 :=
  Idl.ixTagLe ++ 2 :: (leBytes 4 chunk.length ++ chunk)

def resizeIxData (accountSpace : Nat) : List UInt8 := Idl.ixTagLe ++ 6 :: leBytes 8 accountSpace

def unitIxData (tag : UInt8) : List UInt8 := Idl.ixTagLe ++ [tag]

/-- The pieces of a slice, all of one size but the last. -/
def chunks (size : Nat) (bytes : List UInt8) : List (List UInt8) :=
  if size = 0 ∨ bytes = [] then []
  else bytes.take size :: chunks size (bytes.drop size)
termination_by bytes.length
decreasing_by
  rename_i h
  obtain ⟨hsize, hbytes⟩ := not_or.mp h
  have hlength := List.length_pos_iff.mpr hbytes
  rw [List.length_drop]
  omega

section
variable [Deployment]

/-! ## Transactions -/

def createTransaction (authority idl : ArchAddress) (compressed : List UInt8) : Transaction :=
  [ .invoke
      [ accountMeta authority true, accountMeta idl false, accountMetaReadonly Idl.baseAddress false,
        accountMetaReadonly systemProgram false, accountMetaReadonly programId false ]
      (createIxData compressed.length) ]

def resizeTransaction (idl authority : ArchAddress) (targetSpace : Nat) : Transaction :=
  [ .invoke
      [ accountMeta idl false, accountMeta authority true, accountMetaReadonly systemProgram false ]
      (resizeIxData targetSpace) ]

/-- The loop of `resize_to`, which tracks the length it expects of the account. -/
def resizeFrom (idl authority : ArchAddress) (targetSpace current : Nat) : List Transaction :=
  if current < targetSpace then
    resizeTransaction idl authority targetSpace ::
      resizeFrom idl authority targetSpace
        (current + min (targetSpace - current) Idl.createMaxSpace)
  else []
termination_by targetSpace - current
decreasing_by
  simp only [Idl.createMaxSpace]
  omega

def resizeTo (idl authority : ArchAddress) (targetSpace : Nat) : List Transaction :=
  resizeFrom idl authority targetSpace (min targetSpace Idl.createMaxSpace)

def writeTransaction (target authority : ArchAddress) (chunk : List UInt8) : Transaction :=
  [ .invoke [accountMeta target false, accountMetaReadonly authority true] (writeIxData chunk) ]

def writeChunks (target authority : ArchAddress) (compressed : List UInt8) : List Transaction :=
  (chunks maxWriteSize compressed).map (writeTransaction target authority)

def createBufferTransaction (authority buffer : ArchAddress) (space : Nat) : Transaction :=
  [ .createAccount authority buffer (minimumRent space) space programId,
    .invoke [accountMeta buffer false, accountMetaReadonly authority true] (unitIxData 1) ]

def setBufferTransaction (buffer idl authority : ArchAddress) : Transaction :=
  [ .invoke [accountMeta buffer false, accountMeta idl false, accountMetaReadonly authority true]
      (unitIxData 3) ]

/-- `derive_idl_addresses`, which may find no address. -/
def deriveIdlAddress : Option ArchAddress := createWithSeed Idl.baseAddress Idl.seed programId

def init (authority : ArchAddress) (compressed : List UInt8) : Option (List Transaction) := do
  let idl ← deriveIdlAddress
  let targetSpace := Idl.headerLen + compressed.length
  pure (createTransaction authority idl compressed ::
    (resizeTo idl authority targetSpace ++ writeChunks idl authority compressed))

/-- Gives up where the account found is too short; `buffer` is a fresh key. -/
def upgrade (L : Ledger) (authority buffer : ArchAddress) (compressed : List UInt8) :
    Option (List Transaction) := do
  let idl ← deriveIdlAddress
  let requiredSpace := Idl.headerLen + compressed.length
  if (L.data idl).length < requiredSpace then none
  else
    pure (createBufferTransaction authority buffer requiredSpace ::
      (writeChunks buffer authority compressed ++ [setBufferTransaction buffer idl authority]))

/-! ## Sending -/

def Instruction.execute (L : Ledger) : Instruction → ProgramResult Ledger
  | .invoke accounts data => processInstruction L accounts data
  | .createAccount payer account lamports space owner =>
      systemCreateAccount L [accountMeta payer true, accountMeta account true] payer account lamports
        space owner

/-- All instructions of a transaction, or none. -/
def sendAndConfirmMany (L : Ledger) (transaction : Transaction) : ProgramResult Ledger :=
  transaction.foldlM Instruction.execute L

/-- One transaction after the other; the first that fails ends it. -/
def sendAll (L : Ledger) (transactions : List Transaction) : ProgramResult Ledger :=
  transactions.foldlM sendAndConfirmMany L

end

end Deploy

end ArchNameService
