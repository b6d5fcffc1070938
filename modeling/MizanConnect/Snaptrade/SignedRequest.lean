import MizanConnect.Lib.Url
import MizanConnect.Lib.Utf8
import Mathlib.Data.List.DropRight

/-!
# `MizanConnect.Snaptrade.SignedRequest`: what is signed and what is sent

`send_signed` of `src/snaptrade/client.rs` up to the HTTP call, and the methods
that put an id into the path. A request is signed over its path and its query;
the URL is formatted from the same parts, and `reqwest` parses it before it is
sent. A Rust `String` is the list of its characters here.
-/

set_option autoImplicit false

namespace MizanConnect.Snaptrade.SignedRequest

/-- `SnaptradeClient`, the fields that the request line depends on. -/
structure SnaptradeClient where
  baseUrl : List Char
  clientId : List Char

/-- `SnaptradeClient::new`. -/
def SnaptradeClient.new (baseUrl clientId : List Char) : SnaptradeClient where
  baseUrl := baseUrl.rdropWhile (· = '/')
  clientId := clientId

/-- `reqwest::Method`. -/
inductive Method where
  | get
  | post
  | delete
deriving DecidableEq, Repr

/-- What goes to `sign`, and the URL. -/
structure Outgoing where
  method : Method
  signedPath : List Char
  signedQuery : List Char
  url : List Char

/-- `url::form_urlencoded::byte_serialize`. -/
def byteSerialize (bytes : List UInt8) : List Char :=
  bytes.flatMap fun b =>
    let c := Char.ofNat b.toNat
    if b = 0x20 then ['+']
    else if b < 0x80 ∧ (c.isAlphanum ∨ c ∈ ['*', '-', '.', '_']) then [c]
    else Url.percentEncode b

/-- One `key=value`. -/
def serializePair (pair : List Char × List Char) : List Char :=
  byteSerialize (Utf8.encode pair.1) ++ '=' :: byteSerialize (Utf8.encode pair.2)

/-- `build_query_string`. -/
def buildQueryString : List (List Char × List Char) → List Char
  | [] => []
  | [pair] => serializePair pair
  | pair :: pairs => serializePair pair ++ '&' :: buildQueryString pairs

/-- `api` and `v1`, the segments in front of every endpoint. -/
def apiVersion : List (List Char) := [['a', 'p', 'i'], ['v', '1']]

/-- `/api/v1`. -/
def versionPath : List Char := '/' :: ['a', 'p', 'i'] ++ '/' :: ['v', '1']

/-- `full_signing_path`. -/
def fullSigningPath (relative : List Char) : List Char :=
  if ['/', 'a', 'p', 'i', '/'].isPrefixOf relative then relative
  else if ['/'].isPrefixOf relative then versionPath ++ relative
  else versionPath ++ '/' :: relative

/-- `send_signed`, without a body, at a Unix timestamp. -/
def sendSigned (client : SnaptradeClient) (timestamp : Nat) (method : Method) (path : List Char)
    (params : List (List Char × List Char)) : Outgoing :=
  let allParams := params ++
    [("clientId".toList, client.clientId), ("timestamp".toList, (toString timestamp).toList)]
  let query := buildQueryString allParams
  { method
    signedPath := fullSigningPath path
    signedQuery := query
    url := client.baseUrl ++ path ++ '?' :: query }

/-- The credentials of a SnapTrade user, as every method below sends them. -/
def credentials (userId userSecret : List Char) : List (List Char × List Char) :=
  [("userId".toList, userId), ("userSecret".toList, userSecret)]

/-! ### The methods with an id -/

/-- `accounts`, the collection of the first two methods. -/
def accounts : List Char := ['a', 'c', 'c', 'o', 'u', 'n', 't', 's']

/-- `authorizations`, the collection of the other two. -/
def authorizations : List Char :=
  ['a', 'u', 't', 'h', 'o', 'r', 'i', 'z', 'a', 't', 'i', 'o', 'n', 's']

def holdings : List Char := ['h', 'o', 'l', 'd', 'i', 'n', 'g', 's']

def activities : List Char := ['a', 'c', 't', 'i', 'v', 'i', 't', 'i', 'e', 's']

def refresh : List Char := ['r', 'e', 'f', 'r', 'e', 's', 'h']

/-- A method that puts an id into its path. -/
inductive IdCall where
  | accountHoldings
  | accountActivities (extraParams : List (List Char × List Char))
  | refreshAuthorization
  | removeAuthorization

/-- The `format!` of the path. -/
def IdCall.path (call : IdCall) (id : List Char) : List Char :=
  match call with
  | .accountHoldings => '/' :: accounts ++ '/' :: id ++ '/' :: holdings
  | .accountActivities _ => '/' :: accounts ++ '/' :: id ++ '/' :: activities
  | .refreshAuthorization => '/' :: authorizations ++ '/' :: id ++ '/' :: refresh
  | .removeAuthorization => '/' :: authorizations ++ '/' :: id

/-- The HTTP method. -/
def IdCall.method : IdCall → Method
  | .accountHoldings => .get
  | .accountActivities _ => .get
  | .refreshAuthorization => .post
  | .removeAuthorization => .delete

/-- The parameters behind the credentials. -/
def IdCall.extraParams : IdCall → List (List Char × List Char)
  | .accountActivities extraParams => extraParams
  | _ => []

/-- The request of a method for an id. -/
def IdCall.request (call : IdCall) (client : SnaptradeClient) (timestamp : Nat)
    (userId userSecret id : List Char) : Outgoing :=
  sendSigned client timestamp call.method (call.path id)
    (credentials userId userSecret ++ call.extraParams)

/-- `account_holdings`. -/
def accountHoldings := IdCall.request .accountHoldings

/-- `account_activities`. -/
def accountActivities (extraParams : List (List Char × List Char)) :=
  IdCall.request (.accountActivities extraParams)

/-- `refresh_authorization`. -/
def refreshAuthorization := IdCall.request .refreshAuthorization

/-- `remove_authorization`. -/
def removeAuthorization := IdCall.request .removeAuthorization

/-- The segments of the endpoint in front of its last one, under `/api/v1`. -/
def IdCall.directories (call : IdCall) (id : List Char) : List (List Char) :=
  match call with
  | .accountHoldings => [accounts, id]
  | .accountActivities _ => [accounts, id]
  | .refreshAuthorization => [authorizations, id]
  | .removeAuthorization => [authorizations]

/-- The last segment of the endpoint. -/
def IdCall.last (call : IdCall) (id : List Char) : List Char :=
  match call with
  | .accountHoldings => holdings
  | .accountActivities _ => activities
  | .refreshAuthorization => refresh
  | .removeAuthorization => id

/-- The segments of the endpoint, with the id as one of them. -/
def IdCall.segments (call : IdCall) (id : List Char) : List (List Char) :=
  apiVersion ++ call.directories id ++ [call.last id]

/-- A base URL that ends in `/api/v1`: what is in front of its path, and what
its path has in front of `/api/v1`. It has no query and no fragment. -/
structure BaseUrl where
  origin : List Char
  lead : List Char
  noDelimiter : ∀ c ∈ lead, c ≠ '?' ∧ c ≠ '#'

/-- The text of the base URL. -/
def BaseUrl.text (base : BaseUrl) : List Char := base.origin ++ (base.lead ++ versionPath)

end MizanConnect.Snaptrade.SignedRequest
