import ArchNameService.Protocol.Resolve

/-! Taproot addresses of the protocol crate (`validate.rs`). -/

namespace ArchNameService
open Crypto

/-- The networks and address types of the `bitcoin` crate. -/
inductive Network where
  | bitcoin
  | testnet
  | signet
  | regtest
  deriving DecidableEq

inductive AddressType where
  | p2pkh
  | p2sh
  | p2wpkh
  | p2wsh
  | p2tr
  deriving DecidableEq

/-- What the `bitcoin` crate reads from the text of an address. A witness program has its
version beside it. -/
class Addresses extends Crypto where
  Address : Type
  fromStr : List UInt8 → Option Address
  requireNetwork : Address → Network → Option Address
  addressType : Address → Option AddressType
  toText : Address → List UInt8
  witnessProgram : Address → Option (Nat × List UInt8)

def bitcoinNetwork : BitcoinNetwork → Network
  | .mainnet => .bitcoin
  | .testnet => .testnet
  | .signet => .signet
  | .regtest => .regtest

/-- The program of the first version, where it has 32 bytes. -/
def firstVersionProgram (program : Nat × List UInt8) : Option (Bytes 32) :=
  if program.1 = 1 then Bytes.ofList? 32 program.2 else none

def parseTaprootAddress [Addresses] (address : List UInt8) (network : BitcoinNetwork) :
    Except AnsError RecordValue := do
  let unchecked ← orElseError .invalidTaprootAddress (Addresses.fromStr address)
  let checked ← orElseError .invalidTaprootAddress
    (Addresses.requireNetwork unchecked (bitcoinNetwork network))
  reject (Addresses.addressType checked ≠ some .p2tr ∨ Addresses.toText checked ≠ address)
    .invalidTaprootAddress
  let program ← orElseError .invalidTaprootAddress
    ((Addresses.witnessProgram checked).bind firstVersionProgram)
  pure (.bitcoinTaproot program)

end ArchNameService
