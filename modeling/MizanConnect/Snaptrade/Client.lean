import MizanConnect.Snaptrade.Callback

/-!
# `MizanConnect.Snaptrade.Client`: the SnapTrade API

The methods of `SnaptradeClient` (`src/snaptrade/client.rs`) as the handlers
call them, their replies (`types.rs`) and their errors (`errors.rs`). The
signed HTTP request under a method is left out: the reply of SnapTrade comes
from outside.
-/

set_option autoImplicit false

namespace MizanConnect.Snaptrade

/-! ### Errors -/

/-- `SnaptradeError`. The body of a status and the source of the other errors
are only logged. -/
inductive SnaptradeError where
  | status (code : Nat)
  | transport (isTimeout : Bool)
  | decode
  | parse
deriving DecidableEq, Repr

/-- `impl From<SnaptradeError> for AppError`. -/
def SnaptradeError.toAppError : SnaptradeError → AppError
  | .status code =>
    if code = 401 then .internal "broker integration error"
    else if code = 403 then .forbidden "broker access denied"
    else if code = 404 then .notFound "broker connection or account not found"
    else if code = 429 then ⟨.tooManyRequests, "upstream rate limit"⟩
    else if 500 ≤ code ∧ code ≤ 599 then
      .serviceUnavailable "broker temporarily unavailable"
    else .internal "broker integration error"
  | .transport true => .serviceUnavailable "broker request timed out"
  | .transport false => .serviceUnavailable "broker temporarily unavailable"
  | .decode => .internal "broker integration error"
  | .parse => .internal "broker integration error"

/-! ### Replies -/

/-- `StRegisterUserResponse`. -/
structure StRegisterUserResponse where
  userId : String
  userSecret : String

/-- `StLoginResponse`, without the session id that nothing reads. -/
structure StLoginResponse where
  redirectUri : String

/-- `StAccount`. -/
structure StAccount where
  id : String
  brokerageAuthorization : Option String
  name : Option String
  number : Option String
  institutionName : Option String
  status : Option String
  rawType : Option String
  balance : Option Json
  syncStatus : Option Json
  isPaper : Option Bool

/-! ### Calls -/

/-- A method of `SnaptradeClient` with its arguments. All but the first carry
a SnapTrade user id and its secret. -/
inductive Call where
  | registerUser (userId : String)
  | loginUser (userId userSecret customRedirect : String)
  | listAuthorizations (userId userSecret : String)
  | listAccounts (userId userSecret : String)
  | accountHoldings (userId userSecret accountId : String)
  | accountActivities (userId userSecret accountId : String)
      (extraParams : List (String × String))
  | refreshAuthorization (userId userSecret authorizationId : String)
  | removeAuthorization (userId userSecret authorizationId : String)
deriving DecidableEq, Repr

/-- What a method replies when the request succeeds. -/
abbrev Call.Reply : Call → Type
  | .registerUser _ => StRegisterUserResponse
  | .loginUser _ _ _ => StLoginResponse
  | .listAuthorizations _ _ => List StAuthorization
  | .listAccounts _ _ => List StAccount
  | .accountHoldings _ _ _ => Json
  | .accountActivities _ _ _ _ => Json
  | .refreshAuthorization _ _ _ => Json
  | .removeAuthorization _ _ _ => Json

/-- The credentials of a call. -/
def Call.credentials : Call → Option (String × String)
  | .registerUser _ => none
  | .loginUser userId secret _ => some (userId, secret)
  | .listAuthorizations userId secret => some (userId, secret)
  | .listAccounts userId secret => some (userId, secret)
  | .accountHoldings userId secret _ => some (userId, secret)
  | .accountActivities userId secret _ _ => some (userId, secret)
  | .refreshAuthorization userId secret _ => some (userId, secret)
  | .removeAuthorization userId secret _ => some (userId, secret)

end MizanConnect.Snaptrade
