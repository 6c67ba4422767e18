import ArchNameService.Protocol.Taproot
import ArchNameService.Sdk.Resolve

/-! Taproot addresses of the SDK (`validate.ts`). -/

namespace ArchNameService

namespace Sdk

/-- What the `bech32` package reads. A failing `decode` throws, `fromWords` with a message. -/
class Bech32m extends Platform where
  decode : JsString → Option (JsString × List Nat)
  fromWords : List Nat → Except String (List UInt8)

def parseTaprootAddress [Bech32m] (address : JsString) (network : BitcoinNetwork) :
    Except Thrown RecordValue := do
  let decoded ← orElseError (.ansError .invalidTaprootAddress none) (Bech32m.decode address)
  reject (decoded.1 ≠ hrp network ∨ decoded.2.head? ≠ some 1) (.ansError .invalidTaprootAddress none)
  -- not inside the `try` of the decoding
  let bytes ← (Bech32m.fromWords (decoded.2.drop 1)).mapError .error
  let program ← orElseError (.ansError .invalidTaprootAddress none) (Bytes.ofList? 32 bytes)
  let canonical ← encodeTaprootAddress program network
  reject (canonical ≠ address) (.ansError .invalidTaprootAddress none)
  pure (.bitcoinTaproot program)

end Sdk

end ArchNameService
