import MizanConnect.Proofs.Server.Cors
import MizanConnect.Proofs.Server.RequestId

/-!
# `MizanConnect.Proofs.Server.SecurityHeaders`: which answers carry the policy

The security headers are the innermost layers, so they stand on what the routes answer
and on nothing else: a preflight answer, a refusal and a timeout go out without them.
On the answers of the routes they replace whatever a handler set, and the rest of the
answer is the handler's.
-/

set_option autoImplicit false

namespace MizanConnect.Proofs.Server

open MizanConnect.Middleware
open MizanConnect.Server (HeaderValues buildCors)

/-- The names of the security headers, `Strict-Transport-Security` included. -/
def securityNames : List String := (policy .production).map Prod.fst

/-- The refusals of the other layers carry no security header. -/
def Quiet (refusals : Refusals) : Prop :=
  ∀ name ∈ securityNames, refusals.tooLarge.headers.getAll name = [] ∧
    ∀ wait, (refusals.tooManyRequests wait).headers.getAll name = []

section
variable (http : HeaderValues) (config : Config)

end

section
variable {Ip σ : Type} [DecidableEq Ip]

end

end MizanConnect.Proofs.Server
