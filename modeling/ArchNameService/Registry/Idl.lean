import ArchNameService.Registry.Handlers

/-! The on-chain IDL account handlers (`idl.rs`) and the program's entry point. -/

namespace ArchNameService
open Crypto Deployment

namespace Idl

def ixTagLe : List UInt8 := [0x40, 0xf4, 0xbc, 0x78, 0xa7, 0xe9, 0x69, 0x0a]
def accountDisc : List UInt8 := [24, 70, 98, 191, 58, 144, 123, 158]
def seed : List UInt8 := ascii "anchor:idl"
def headerLen : Nat := 8 + 32 + 4
def createMaxSpace : Nat := 10000
def erasedAuthority : ArchAddress := Bytes.fill 32 0

/-- The slice `bytes[lo..hi]`, which panics outside the bounds. -/
def slice (bytes : List UInt8) (lo hi : Nat) : ProgramResult (List UInt8) :=
  if lo ≤ hi ∧ hi ≤ bytes.length then .ok ((bytes.take hi).drop lo) else .error .panic

/-- `bytes[lo..lo + part.len()].copy_from_slice(part)`. -/
def copyInto (bytes : List UInt8) (lo : Nat) (part : List UInt8) : ProgramResult (List UInt8) :=
  if lo + part.length ≤ bytes.length then
    .ok (bytes.take lo ++ part ++ bytes.drop (lo + part.length))
  else .error .panic

def readDataLen (bytes : List UInt8) : ProgramResult Nat := do
  reject (bytes.length < headerLen) (.error .accountDataTooSmall)
  let field ← slice bytes 40 44
  pure (leNat field)

/-- The length is cast to `u32`. -/
def writeDataLen (bytes : List UInt8) (dataLen : Nat) : ProgramResult (List UInt8) := do
  reject (bytes.length < headerLen) (.error .accountDataTooSmall)
  copyInto bytes 40 (leBytes 4 dataLen)

def readU64 (bytes : List UInt8) : ProgramResult Nat := do
  reject (bytes.length < 8) (.error .invalidInstructionData)
  let field ← slice bytes 0 8
  pure (leNat field)

def readPubkey (bytes : List UInt8) : ProgramResult ArchAddress := do
  reject (bytes.length < 32) (.error .invalidInstructionData)
  let field ← slice bytes 0 32
  orElseError .panic (Bytes.ofList? 32 field)

def readVec (bytes : List UInt8) : ProgramResult (List UInt8) := do
  reject (bytes.length < 4) (.error .invalidInstructionData)
  let field ← slice bytes 0 4
  let len := leNat field
  reject (bytes.length < 4 + len) (.error .invalidInstructionData)
  slice bytes 4 (4 + len)

section
variable [Deployment] (L : Ledger) (accounts : List AccountInfo)

def writeHeader (account : AccountInfo) (authority : ArchAddress) (dataLen : Nat) :
    ProgramResult Ledger := do
  reject ((L.data account.key).length < headerLen) (.error .accountDataTooSmall)
  let bytes ← copyInto (L.data account.key) 0 accountDisc
  let bytes ← copyInto bytes 8 authority.toList
  let bytes ← copyInto bytes 40 (leBytes 4 dataLen)
  pure (L.setData account.key bytes)

def requireIdlAccount (account : AccountInfo) : ProgramResult Unit := do
  reject (L.owner account.key ≠ programId) (.error .incorrectProgramId)
  reject ((L.data account.key).length < headerLen) (.error .accountDataTooSmall)
  let disc ← slice (L.data account.key) 0 8
  reject (disc ≠ accountDisc) (.error .invalidAccountData)

def requireAuthority (idl authority : AccountInfo) : ProgramResult Unit := do
  let stored ← slice (L.data idl.key) 8 40
  reject (stored = erasedAuthority.toList ∨ stored ≠ authority.key.toList)
    (.error .missingRequiredSignature)

def idlAuthorityAccounts : ProgramResult (AccountInfo × AccountInfo) := do
  let (idl, iterator) ← nextAccountInfo accounts
  let (authority, _) ← nextAccountInfo iterator
  requireSigner authority
  requireIdlAccount L idl
  requireAuthority L idl authority
  pure (idl, authority)

/-- The base of the canonical IDL address: the derived address without seeds. -/
def baseAddress : ArchAddress := (findProgramAddress [] programId).1

/-- `create_account_with_seed`; the length `44 + data_len` wraps as a `usize`. -/
def createAccount (dataLen : Nat) : ProgramResult Ledger := do
  let (payer, iterator) ← nextAccountInfo accounts
  let (target, iterator) ← nextAccountInfo iterator
  let (base, iterator) ← nextAccountInfo iterator
  let (systemProgramInfo, iterator) ← nextAccountInfo iterator
  let (program, _) ← nextAccountInfo iterator
  reject (¬ payer.isSigner) (.error .missingRequiredSignature)
  reject (program.key ≠ programId ∨ ¬ L.executable program.key) (.error .incorrectProgramId)
  reject (systemProgramInfo.key ≠ systemProgram) (.error .incorrectProgramId)
  reject (base.key ≠ baseAddress) (.error .invalidSeeds)
  let expectedTo ← orElseError (.error .invalidSeeds) (createWithSeed baseAddress seed programId)
  reject (target.key ≠ expectedTo) (.error .invalidSeeds)
  let space := min ((headerLen + dataLen) % 2 ^ 64) createMaxSpace
  let L ← systemCreateAccount L accounts payer.key target.key (minimumRent space) space programId
  writeHeader L target payer.key 0

def createBuffer : ProgramResult Ledger := do
  let (buffer, iterator) ← nextAccountInfo accounts
  let (authority, _) ← nextAccountInfo iterator
  requireSigner authority
  reject (authority.key = erasedAuthority) (.error .invalidArgument)
  reject (L.owner buffer.key ≠ programId) (.error .incorrectProgramId)
  reject ((L.data buffer.key).length < headerLen) (.error .accountDataTooSmall)
  let disc ← slice (L.data buffer.key) 0 8
  reject (disc ≠ List.replicate 8 0) (.error .accountAlreadyInitialized)
  writeHeader L buffer authority.key 0

def write (chunk : List UInt8) : ProgramResult Ledger := do
  let (idl, _) ← idlAuthorityAccounts L accounts
  let bytes := L.data idl.key
  let prevLen ← readDataLen bytes
  let newLen := prevLen + chunk.length
  reject (bytes.length < headerLen + newLen) (.error .accountDataTooSmall)
  let bytes ← copyInto bytes (headerLen + prevLen) chunk
  let bytes ← writeDataLen bytes newLen
  pure (L.setData idl.key bytes)

def setBuffer : ProgramResult Ledger := do
  let (buffer, iterator) ← nextAccountInfo accounts
  let (idl, iterator) ← nextAccountInfo iterator
  let (authority, _) ← nextAccountInfo iterator
  requireSigner authority
  requireIdlAccount L buffer
  requireIdlAccount L idl
  requireAuthority L buffer authority
  requireAuthority L idl authority
  let idlLen ← readDataLen (L.data buffer.key)
  let needed := headerLen + idlLen
  reject ((L.data idl.key).length < needed) (.error .accountDataTooSmall)
  reject (buffer.key = idl.key) (.error .accountBorrowFailed)
  let payload ← slice (L.data buffer.key) headerLen needed
  let bytes ← copyInto (L.data idl.key) headerLen payload
  let bytes ← writeDataLen bytes idlLen
  pure (L.setData idl.key bytes)

def setAuthority (newAuthority : ArchAddress) : ProgramResult Ledger := do
  let (idl, _) ← idlAuthorityAccounts L accounts
  let bytes ← copyInto (L.data idl.key) 8 newAuthority.toList
  pure (L.setData idl.key bytes)

def close : ProgramResult Ledger := do
  let (account, iterator) ← nextAccountInfo accounts
  let (authority, iterator) ← nextAccountInfo iterator
  let (destination, _) ← nextAccountInfo iterator
  requireSigner authority
  requireIdlAccount L account
  requireAuthority L account authority
  reject (¬ destination.isWritable) (.error .invalidAccountData)
  let lamports := L.lamports account.key
  let drained := L.setLamports account.key 0
  let credited ← orElseError (.error .insufficientFunds)
    (checkedAdd (drained.lamports destination.key) lamports)
  realloc (drained.setLamports destination.key credited) account 0

def resize (dataLen : Nat) : ProgramResult Ledger := do
  let (idl, iterator) ← nextAccountInfo accounts
  let (authority, iterator) ← nextAccountInfo iterator
  let (systemProgramInfo, _) ← nextAccountInfo iterator
  requireSigner authority
  reject (systemProgramInfo.key ≠ systemProgram) (.error .incorrectProgramId)
  requireIdlAccount L idl
  requireAuthority L idl authority
  let stored ← readDataLen (L.data idl.key)
  reject (stored ≠ 0) (.error .invalidAccountData)
  let current := (L.data idl.key).length
  if dataLen ≤ current then pure L
  else do
    let growBy := min (dataLen - current) createMaxSpace
    let newSpace := min (current + growBy) dataLen
    let L ← fundRentExempt L authority idl newSpace
    realloc L idl newSpace

/-- The selector's tag byte and its operands. -/
def process : List UInt8 → ProgramResult Ledger
  | [] => throw (.error .invalidInstructionData)
  | tag :: rest =>
      if tag = 0 then do
        let dataLen ← readU64 rest
        createAccount L accounts dataLen
      else if tag = 1 then createBuffer L accounts
      else if tag = 2 then do
        let chunk ← readVec rest
        write L accounts chunk
      else if tag = 3 then setBuffer L accounts
      else if tag = 4 then do
        let newAuthority ← readPubkey rest
        setAuthority L accounts newAuthority
      else if tag = 5 then close L accounts
      else if tag = 6 then do
        let dataLen ← readU64 rest
        resize L accounts dataLen
      else throw (.error .invalidInstructionData)

end

/-- The payload of an IDL instruction, or nothing when the data is not one. -/
def payload? (data : List UInt8) : Option (List UInt8) :=
  if data.length < 9 ∨ data.take 8 ≠ ixTagLe then none else some (data.drop 8)

end Idl

/-- The program's entry point. -/
def processInstruction [Deployment] (L : Ledger) (accounts : List AccountInfo)
    (instructionData : List UInt8) : ProgramResult Ledger :=
  match Idl.payload? instructionData with
  | some payload => Idl.process L accounts payload
  | none => do
      let instruction ← orElseError (.error .invalidInstructionData)
        (NameInstruction.deserialize instructionData)
      dispatch L accounts instruction

end ArchNameService
