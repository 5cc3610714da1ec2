import TransferFees.Http.Message

/-!
# Requests from other origins

A request that names its origin is told that the origin may read the answer, whichever it is. A
request that asks beforehand whether another may be sent, a preflight, is answered at once and goes
no further. It is turned down if it asks for a method that is not known, or for a private network.
-/

namespace TransferFees.Http

/-- The methods that a request from another origin may use: all that the framework knows, which in
earlier versions of it does not include `QUERY`. -/
def crossOriginMethods : List String :=
  ["DELETE", "GET", "HEAD", "OPTIONS", "PATCH", "POST", "PUT", "QUERY"]

/-- The headers that let the origin of a request read the answer. -/
def originHeaders (r : Request) : List (String × String) :=
  match r.header? "origin" with
  | none => []
  | some origin =>
    [("access-control-allow-credentials", "true"), ("access-control-allow-origin", origin)]

/-- What a preflight for the given method asks for in vain. -/
def disallowed (r : Request) (method : String) : List String :=
  (if crossOriginMethods.contains method then [] else ["method"]) ++
    if (r.header? "access-control-request-private-network").isSome then ["private-network"] else []

/-- The answer to a preflight for the given method. The headers that are asked for are allowed. -/
def preflightResponse (r : Request) (method : String) : Response :=
  let headers := originHeaders r ++
    [("access-control-allow-methods", ", ".intercalate crossOriginMethods),
      ("access-control-max-age", "600")] ++
    match r.header? "access-control-request-headers" with
    | none => []
    | some asked => [("access-control-allow-headers", asked)]
  let failures := disallowed r method
  if failures = [] then ⟨200, .text "OK", headers⟩
  else ⟨400, .text ("Disallowed CORS " ++ ", ".intercalate failures), headers⟩

/-- The answer to a request that is a preflight. -/
def preflight? (r : Request) : Option Response :=
  if r.method = "OPTIONS" ∧ (r.header? "origin").isSome then
    (r.header? "access-control-request-method").map (preflightResponse r)
  else none

end TransferFees.Http
