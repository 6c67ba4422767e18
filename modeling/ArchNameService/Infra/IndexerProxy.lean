import ArchNameService.Lib.Url
import ArchNameService.Lib.Values
import ArchNameService.Sdk.Derive

/-! The proxy that holds the key of the Explorer (`indexer-proxy/index.mjs`). -/

namespace ArchNameService

namespace Infra
open JsString JsValue
open Sdk (text Thrown)

def indexerRpcUrl : JsString := text "https://explorer.arch.network/api/v1/testnet/rpc"
def indexerRestBase : JsString := text "https://explorer.arch.network/api/v1/testnet"

def allowedRpcMethods : List JsString :=
  [text "create_account_with_faucet", text "get_multiple_accounts", text "get_program_accounts",
    text "read_account_info", text "send_transaction"]

/-- Paths are relative to `/api/v1/testnet/`. -/
def allowedRestPrefixes : List JsString :=
  [text "accounts/", text "programs/", text "search", text "network/", text "blocks/",
    text "transactions/"]

/-- What the gateway hands over, in either of its formats. -/
structure Event where
  rawPath : Option JsString
  path : Option JsString
  httpPath : Option JsString
  requestMethod : Option JsString
  httpMethod : Option JsString
  body : Option JsString
  queryStringParameters : Option (List (JsString × Option JsString))

structure Response where
  statusCode : Nat
  headers : List (JsString × JsString)
  body : JsString
  deriving DecidableEq

structure UpstreamRequest where
  url : JsString
  method : JsString
  headers : List (JsString × JsString)
  body : Option JsString
  deriving DecidableEq

inductive Handled where
  | answered (r : Response)
  | forwarded (q : UpstreamRequest)
  deriving DecidableEq

/-- An error, with a message to some. -/
def response (ν : Type) [JsonNumber ν] (statusCode : Nat) (error : JsString)
    (message : Option JsString) : Response where
  statusCode := statusCode
  headers := [(text "cache-control", text "no-store"),
    (text "content-type", text "application/json")]
  body := Json.write (ν := ν) (.object ((text "error", .string error) ::
    (message.map fun m => (text "message", .string m)).toList))

/-- API Gateway stage prefix e.g. `/prod/rpc` → `/rpc` -/
def requestPath (event : Event) : JsString :=
  let raw := ((event.rawPath <|> event.path) <|> event.httpPath).getD []
  let stripped := if startsWith (text "/prod") raw then raw.drop (text "/prod").length else raw
  if stripped = [] then raw else stripped

/-- `prefix.replace(/\/$/, "")` -/
def withoutSlash (front : JsString) : JsString :=
  if endsWith [0x2F] front then dropEnd 1 front else front

def isAllowedRestPath (relativePath : JsString) : Bool :=
  let normalized := relativePath.dropWhile (· = 0x2F)
  if normalized.isEmpty || includes (text "..") normalized || includes (text "//") normalized then
    false
  else if includes (text "?") normalized || includes (text "#") normalized then false
  else
    allowedRestPrefixes.any fun front =>
      normalized == withoutSlash front || startsWith front normalized

section
variable (ν : Type) [JsNumber ν] (apiKey : Except Thrown JsString)

def handleRpc (event : Event) : Except Thrown Handled :=
  match (JsValue.parse (event.body.getD []) : Option (JsValue ν)) with
  | none => .ok (.answered (response ν 400 (text "invalid_json") none))
  | some request =>
      match request.get (text "jsonrpc"), request.get (text "method") with
      | .string version, .string method =>
          if version = text "2.0" ∧ method ∈ allowedRpcMethods then do
            let key ← apiKey
            pure (.forwarded
              { url := indexerRpcUrl
                method := text "POST"
                headers := [(text "authorization", text "Bearer " ++ key),
                  (text "content-type", text "application/json")]
                body := stringify request })
          else unsupported
      | _, _ => unsupported
where
  unsupported : Except Thrown Handled :=
    .ok (.answered (response ν 400 (text "unsupported_rpc_request")
      (some (text "This proxy only accepts ANS manager RPC methods."))))

/-! ## Paths -/

/-- What `.` does not match. -/
def isLineEnd (u : UInt16) : Bool := u == 0x0A || u == 0x0D || u == 0x2028 || u == 0x2029

/-- `/^\/explorer\/(.*)$/` -/
def explorerRelative (path : JsString) : Option JsString :=
  if startsWith (text "/explorer/") path then
    let relative := path.drop (text "/explorer/").length
    if relative.any isLineEnd then none else some relative
  else none

def allowedQuery : List JsString :=
  [text "limit", text "page", text "offset", text "q", text "cursor", text "before", text "after"]

def formByte (b : UInt8) : JsString :=
  if b = 0x20 then [0x2B]
  else if (0x30 ≤ b && b ≤ 0x39) || (0x41 ≤ b && b ≤ 0x5A) || (0x61 ≤ b && b ≤ 0x7A) ||
      [0x2A, 0x2D, 0x2E, 0x5F].contains b then [b.toUInt16]
  else (Url.percentByte b).map UInt16.ofNat

def formEncode (s : JsString) : JsString := s.encode.flatMap formByte

/-- `URLSearchParams.toString` -/
def formText (pairs : List (JsString × JsString)) : JsString :=
  List.intercalate [0x26] (pairs.map fun pair => formEncode pair.1 ++ 0x3D :: formEncode pair.2)

/-- A small safe set of keys, with values of bounded length. -/
def safeQuery (incoming : List (JsString × Option JsString)) : JsString :=
  formText ((incoming.filterMap fun entry =>
    if entry.1 ∈ allowedQuery then entry.2.map fun value => (entry.1, value.take 128)
    else none).foldl setMember [])

def handleExplorerRest (event : Event) (method : JsString) : Except Thrown Handled :=
  match explorerRelative (requestPath event) with
  | none => .ok (.answered (response ν 404 (text "not_found") none))
  | some relative =>
      if isAllowedRestPath relative then do
        let qs := safeQuery (event.queryStringParameters.getD [])
        let key ← apiKey
        pure (.forwarded
          { url := indexerRestBase ++ 0x2F :: (relative ++ if qs = [] then [] else 0x3F :: qs)
            method := method
            headers := [(text "authorization", text "Bearer " ++ key),
              (text "accept", text "application/json")]
            body := none })
      else
        .ok (.answered (response ν 403 (text "path_not_allowed")
          (some (text "This proxy only forwards allowlisted Explorer REST read paths."))))

def handler (event : Event) : Except Thrown Handled :=
  let method := ((event.requestMethod <|> event.httpMethod)).getD (text "GET")
  let path := requestPath event
  if path = text "/rpc" ∨ endsWith (text "/rpc") path then
    if method ≠ text "POST" then
      .ok (.answered (response ν 405 (text "method_not_allowed") none))
    else handleRpc ν apiKey event
  else if path = text "/explorer" ∨ startsWith (text "/explorer/") path then
    if method ≠ text "GET" ∧ method ≠ text "HEAD" then
      .ok (.answered (response ν 405 (text "method_not_allowed") none))
    else handleExplorerRest ν apiKey event method
  else .ok (.answered (response ν 404 (text "not_found") none))

end

end Infra

end ArchNameService
