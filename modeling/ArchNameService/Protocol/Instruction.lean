import ArchNameService.Protocol.State

/-! Instruction payloads (`instruction.rs`). -/

namespace ArchNameService
open Borsh (Str)

inductive NameInstruction where
  | initializeRegistry (networkId : UInt32) (namespaceAuthority : ArchAddress)
  | register (label : Str) (durationSlots : UInt64)
  | renew (nameHash : Bytes 32) (durationSlots : UInt64)
  | transfer (nameHash : Bytes 32) (newOwner : ArchAddress)
  | setRecord (nameHash : Bytes 32) (recordType : RecordType) (value : RecordValue)
      (expectedRevision : UInt64)
  | deleteRecord (nameHash : Bytes 32) (recordType : RecordType) (textKey : Str)
      (expectedRevision : UInt64)
  | setPrimary (nameHash : Bytes 32)
  | clearPrimary
  | reclaimExpired (label : Str) (durationSlots : UInt64)
  | updateConfig (paused : Option Bool) (gracePeriodSlots : Option UInt64)
  | listName (nameHash : Bytes 32) (currency : QuoteCurrency) (price : UInt64)
  | cancelListing (nameHash : Bytes 32)
  | buyName (nameHash : Bytes 32)
  | makeOffer (nameHash : Bytes 32) (currency : QuoteCurrency) (price : UInt64)
  | cancelOffer (nameHash : Bytes 32)
  | acceptOffer (nameHash : Bytes 32) (buyer : ArchAddress)
  deriving DecidableEq

/-- The variants of `NameInstruction`, in the order of the enumeration. -/
inductive NameInstruction.Kind where
  | initializeRegistry
  | register
  | renew
  | transfer
  | setRecord
  | deleteRecord
  | setPrimary
  | clearPrimary
  | reclaimExpired
  | updateConfig
  | listName
  | cancelListing
  | buyName
  | makeOffer
  | cancelOffer
  | acceptOffer
  deriving DecidableEq

namespace NameInstruction

def Kind.all : List Kind :=
  [.initializeRegistry, .register, .renew, .transfer, .setRecord, .deleteRecord, .setPrimary, .clearPrimary,
    .reclaimExpired, .updateConfig, .listName, .cancelListing, .buyName, .makeOffer, .cancelOffer, .acceptOffer]

def Kind.index : Kind → Fin 16
  | .initializeRegistry => 0
  | .register => 1
  | .renew => 2
  | .transfer => 3
  | .setRecord => 4
  | .deleteRecord => 5
  | .setPrimary => 6
  | .clearPrimary => 7
  | .reclaimExpired => 8
  | .updateConfig => 9
  | .listName => 10
  | .cancelListing => 11
  | .buyName => 12
  | .makeOffer => 13
  | .cancelOffer => 14
  | .acceptOffer => 15

instance : Borsh Kind :=
  letI := Borsh.tag 16 (by decide)
  Borsh.ofEquiv (α := Fin 16)
    { toFun := Kind.index
      invFun := fun i => Kind.all.get i
      left_inv := by intro k; cases k <;> rfl
      right_inv := by intro i; revert i; decide }

/-- What follows the variant byte of an instruction. -/
def Payload : Kind → Type
  | .initializeRegistry => UInt32 × ArchAddress
  | .register => Str × UInt64
  | .renew => Bytes 32 × UInt64
  | .transfer => Bytes 32 × ArchAddress
  | .setRecord => Bytes 32 × RecordType × RecordValue × UInt64
  | .deleteRecord => Bytes 32 × RecordType × Str × UInt64
  | .setPrimary => Bytes 32
  | .clearPrimary => Unit
  | .reclaimExpired => Str × UInt64
  | .updateConfig => Option Bool × Option UInt64
  | .listName => Bytes 32 × QuoteCurrency × UInt64
  | .cancelListing => Bytes 32
  | .buyName => Bytes 32
  | .makeOffer => Bytes 32 × QuoteCurrency × UInt64
  | .cancelOffer => Bytes 32
  | .acceptOffer => Bytes 32 × ArchAddress

instance : ∀ k, Borsh (Payload k)
  | .initializeRegistry => inferInstanceAs (Borsh (UInt32 × ArchAddress))
  | .register => inferInstanceAs (Borsh (Str × UInt64))
  | .renew => inferInstanceAs (Borsh (Bytes 32 × UInt64))
  | .transfer => inferInstanceAs (Borsh (Bytes 32 × ArchAddress))
  | .setRecord => inferInstanceAs (Borsh (Bytes 32 × RecordType × RecordValue × UInt64))
  | .deleteRecord => inferInstanceAs (Borsh (Bytes 32 × RecordType × Str × UInt64))
  | .setPrimary => inferInstanceAs (Borsh (Bytes 32))
  | .clearPrimary => inferInstanceAs (Borsh Unit)
  | .reclaimExpired => inferInstanceAs (Borsh (Str × UInt64))
  | .updateConfig => inferInstanceAs (Borsh (Option Bool × Option UInt64))
  | .listName => inferInstanceAs (Borsh (Bytes 32 × QuoteCurrency × UInt64))
  | .cancelListing => inferInstanceAs (Borsh (Bytes 32))
  | .buyName => inferInstanceAs (Borsh (Bytes 32))
  | .makeOffer => inferInstanceAs (Borsh (Bytes 32 × QuoteCurrency × UInt64))
  | .cancelOffer => inferInstanceAs (Borsh (Bytes 32))
  | .acceptOffer => inferInstanceAs (Borsh (Bytes 32 × ArchAddress))

def fields : NameInstruction ≃ Σ k, Payload k where
  toFun
    | .initializeRegistry n a => ⟨.initializeRegistry, (n, a)⟩
    | .register l d => ⟨.register, (l, d)⟩
    | .renew n d => ⟨.renew, (n, d)⟩
    | .transfer n o => ⟨.transfer, (n, o)⟩
    | .setRecord n t v r => ⟨.setRecord, (n, t, v, r)⟩
    | .deleteRecord n t k r => ⟨.deleteRecord, (n, t, k, r)⟩
    | .setPrimary n => ⟨.setPrimary, n⟩
    | .clearPrimary => ⟨.clearPrimary, ()⟩
    | .reclaimExpired l d => ⟨.reclaimExpired, (l, d)⟩
    | .updateConfig p g => ⟨.updateConfig, (p, g)⟩
    | .listName n c p => ⟨.listName, (n, c, p)⟩
    | .cancelListing n => ⟨.cancelListing, n⟩
    | .buyName n => ⟨.buyName, n⟩
    | .makeOffer n c p => ⟨.makeOffer, (n, c, p)⟩
    | .cancelOffer n => ⟨.cancelOffer, n⟩
    | .acceptOffer n b => ⟨.acceptOffer, (n, b)⟩
  invFun
    | ⟨.initializeRegistry, (n, a)⟩ => .initializeRegistry n a
    | ⟨.register, (l, d)⟩ => .register l d
    | ⟨.renew, (n, d)⟩ => .renew n d
    | ⟨.transfer, (n, o)⟩ => .transfer n o
    | ⟨.setRecord, (n, t, v, r)⟩ => .setRecord n t v r
    | ⟨.deleteRecord, (n, t, k, r)⟩ => .deleteRecord n t k r
    | ⟨.setPrimary, n⟩ => .setPrimary n
    | ⟨.clearPrimary, _⟩ => .clearPrimary
    | ⟨.reclaimExpired, (l, d)⟩ => .reclaimExpired l d
    | ⟨.updateConfig, (p, g)⟩ => .updateConfig p g
    | ⟨.listName, (n, c, p)⟩ => .listName n c p
    | ⟨.cancelListing, n⟩ => .cancelListing n
    | ⟨.buyName, n⟩ => .buyName n
    | ⟨.makeOffer, (n, c, p)⟩ => .makeOffer n c p
    | ⟨.cancelOffer, n⟩ => .cancelOffer n
    | ⟨.acceptOffer, (n, b)⟩ => .acceptOffer n b
  left_inv i := by cases i <;> rfl
  right_inv := by rintro ⟨k, p⟩; cases k <;> rfl

instance : Borsh NameInstruction := Borsh.ofEquiv fields

/-- `NameInstruction::deserialize` on a slice: bytes after the instruction are not looked at. -/
def deserialize (data : List UInt8) : Option NameInstruction :=
  (Borsh.deserialize (α := NameInstruction) data).map Prod.fst

example : deserialize [7, 0, 1] = some .clearPrimary := by decide

end NameInstruction

end ArchNameService
