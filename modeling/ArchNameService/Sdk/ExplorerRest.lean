import ArchNameService.Sdk.Confirm
import ArchNameService.Sdk.RpcParams

/-! The status of a transaction, as the Explorer's own API gives it (`explorer-rest.ts`). -/

namespace ArchNameService

namespace Sdk
open JsString JsValue

variable {ν : Type} [JsNumber ν]

/-- `a ?? b` -/
def coalesce : JsValue ν → JsValue ν → JsValue ν
  | .undefined, b | .null, b => b
  | a, _ => a

/-- `Object.keys(value)[0]` -/
def firstKey : JsValue ν → Option JsString
  | .object members => ((inKeyOrder members).map Prod.fst).head?
  | .array (_ :: _) | .uint8Array (_ :: _) => some (decimal 0)
  | _ => none

/-- `/fail|error|rollback/i` -/
def looksFailed (s : JsString) : Bool :=
  [text "fail", text "error", text "rollback"].any fun word => includes word (s.map lowerAscii)

/-- A failure with the text of its reason. -/
def failedWith (reason : JsValue ν) : Option ProcessedTransaction :=
  (stringOf reason).map fun error => { status := text "Failed", error := some error }

def statusType (status : JsValue ν) : Option JsString :=
  match get (text "type") status with
  | .string type => some type
  | _ => firstKey status

/-- There is none where the reason has no text. -/
def transactionStatus (body : JsValue ν) : Option ProcessedTransaction :=
  match get (text "status") body with
  | .string raw =>
      if looksFailed raw then
        failedWith (coalesce (get (text "error") body)
          (coalesce (get (text "logs") body) (.string raw)))
      else some { status := raw, error := none }
  | .undefined | .null | .bool _ | .number _ => some { status := text "Unknown", error := none }
  | status =>
      match statusType status with
      | none => some { status := text "Unknown", error := none }
      | some type =>
          if looksFailed type then
            failedWith (coalesce (get (text "error") status) (coalesce (get (text "Failed") status)
              (coalesce (get (text "error") body) (.string type))))
          else some { status := type, error := none }

end Sdk

end ArchNameService
