import MizanConnect.SerdeJson
import MizanConnect.Snaptrade.SignedRequest

/-!
# `MizanConnect.Snaptrade.Signing`: the text that is signed

`canonical_request_json` of `src/snaptrade/signing.rs`, and `send_signed` of
`src/snaptrade/client.rs` with a body. The HMAC over the text is left out.
-/

set_option autoImplicit false

namespace MizanConnect.Snaptrade.Signing

open SignedRequest (SnaptradeClient Method Outgoing sendSigned)

/-- `SignInput`. -/
structure SignInput where
  path : String
  query : String
  body : Option Value

/-- `is_empty_object`. -/
def isEmptyObject : Json → Bool
  | .obj fields => fields.isEmpty
  | _ => false

/-- The value under `content`. -/
def SignInput.content (input : SignInput) : Json :=
  match input.body with
  | some v => if !v.1.isNull && !isEmptyObject v.1 then v.1 else .null
  | none => .null

/-- The object that is signed. -/
def SignInput.canonical (input : SignInput) : Json :=
  let obj := Json.insert "content" input.content []
  let obj := Json.insert "path" (.str input.path) obj
  let obj := Json.insert "query" (.str input.query) obj
  .obj obj

/-- `canonical_request_json`. -/
def canonicalRequestJson (input : SignInput) : List Char := input.canonical.render

/-- A request with a body: the request line, what is signed, and the bytes that
`req.json` sends. -/
structure OutgoingJson where
  outgoing : Outgoing
  signInput : SignInput
  sentBody : Option (List Char)

/-- `send_signed` with a body, as the value that `serde_json::to_value` makes of
it. -/
def sendSignedJson (client : SnaptradeClient) (timestamp : Nat) (method : Method)
    (path : List Char) (params : List (List Char × List Char)) (body : Option Value) :
    OutgoingJson :=
  let outgoing := sendSigned client timestamp method path params
  { outgoing
    signInput :=
      { path := String.ofList outgoing.signedPath
        query := String.ofList outgoing.signedQuery
        body }
    sentBody := body.map fun v => v.1.render }

/-- The keys of the object are in order. -/
theorem SignInput.canonical_eq (input : SignInput) : input.canonical =
    .obj [("content", input.content), ("path", .str input.path), ("query", .str input.query)] := by
  rfl

/-- The keys of a body are sorted. -/
example : canonicalRequestJson
    { path := "/x"
      query := ""
      body := some ⟨.obj (Json.insert "a" (.bool true) (Json.insert "z" .null [])),
        .insert (.bool true) (.insert .null .empty)⟩ } =
    "\x7b\"content\":\x7b\"a\":true,\"z\":null\x7d,\"path\":\"/x\",\"query\":\"\"\x7d".toList := by
  decide

end MizanConnect.Snaptrade.Signing
