import TransferFees.Http.Message
import TransferFees.Text.PercentEncoding

/-!
# Resources

The paths of the fee state, the root and the health check, and what the methods on them do. The
pages that the server generates about itself are left out (`Resource.fixed`). A path is decoded
before it is looked up, so an encoded slash divides it. Fixed paths also go with a line feed at
their end.

A path that is not known but would be without the slashes at its end is redirected there.
-/

namespace TransferFees.Http

/-- What a path may lead to. -/
inductive Resource where
  /-- The name and the version of the service. -/
  | root
  /-- Whether the service is well. -/
  | health
  /-- The fee state as a whole. -/
  | fees
  /-- The fees of transfers. -/
  | calculation
  /-- The percent. -/
  | percent
  /-- The supported tokens. -/
  | tokens
  /-- One supported token. -/
  | token (id : String)
  deriving DecidableEq, Repr

/-- What a request may ask for. -/
inductive Endpoint where
  /-- The name and the version of the service. -/
  | root
  /-- Whether the service is well. -/
  | health
  /-- Create the fee state. -/
  | establish
  /-- The fee of a transfer. -/
  | fee
  /-- The percent. -/
  | percentText
  /-- Another percent. -/
  | setPercent
  /-- The supported tokens. -/
  | listTokens
  /-- One more token. -/
  | addToken
  /-- One token less. -/
  | removeToken (id : String)
  deriving DecidableEq, Repr

namespace Resource

/-- The fixed paths. Those of the generated pages are not among them and lead nowhere here: `/docs`,
`/docs/oauth2-redirect`, `/redoc` and `/openapi.json`, which describe the endpoints below and neither
read nor write what is stored. -/
def fixed : List (String × Resource) :=
  [("/api/v1/fees", .fees), ("/api/v1/fees/calculate", .calculation),
    ("/api/v1/fees/percent", .percent), ("/api/v1/fees/tokens", .tokens), ("/", .root),
    ("/health", .health)]

/-- What stands before the id in the path of a token. -/
def tokenPath : String := "/api/v1/fees/tokens/"

/-- What follows `start` at the front of a text. -/
def after? : List Char → List Char → Option (List Char)
  | [], cs => some cs
  | _ :: _, [] => none
  | a :: start, c :: cs => if a = c then after? start cs else none

/-- The token that a path leads to: a path segment of one character or more. -/
def tokenOf? (path : List Char) : Option String :=
  match after? tokenPath.toList path with
  | some id => if id ≠ [] ∧ '/' ∉ id then some (String.ofList id) else none
  | none => none

/-- What a decoded path leads to. -/
def ofPath? (path : String) : Option Resource :=
  match fixed.find? fun (fixedPath, _) => path = fixedPath ∨ path = fixedPath ++ "\n" with
  | some (_, resource) => some resource
  | none => (tokenOf? path.toList).map .token

/-- What the methods on a resource ask for. -/
def methods : Resource → List (String × Endpoint)
  | .root => [("GET", .root)]
  | .health => [("GET", .health)]
  | .fees => [("POST", .establish)]
  | .calculation => [("POST", .fee)]
  | .percent => [("GET", .percentText), ("PUT", .setPercent)]
  | .tokens => [("GET", .listTokens), ("POST", .addToken)]
  | .token id => [("DELETE", .removeToken id)]

/-- The method that is told of when another one is not allowed: the first. -/
def allowed (r : Resource) : String := ((r.methods.head?).map (·.1)).getD ""

end Resource

/-- Where a request leads. -/
inductive Route where
  /-- To something that it asks for. -/
  | endpoint (e : Endpoint)
  /-- To a resource that does not have the method. -/
  | notAllowed (allowed : String)
  /-- To another place. -/
  | elsewhere (location : String)
  /-- To nothing. -/
  | nowhere
  deriving DecidableEq, Repr

/-- A path that is not known, with the slashes at its end removed, or with one added if it has
none. -/
def otherPath (path : String) : String :=
  if path.toList.getLast? = some '/' then
    String.ofList (path.toList.reverse.dropWhile (· == '/')).reverse
  else path ++ "/"

/-- The characters that are not encoded in the location of a redirection. -/
def keptInLocation (c : Char) : Bool :=
  Text.PercentEncoding.isUnreserved c || ":/%#?=@[]!$&'()*+,;".toList.contains c

/-- Whether a character keeps its meaning inside a path, neither ending it nor beginning the
query. -/
def keptInPath (c : Char) : Bool := c != '?' && c != '#'

/-- The location of a path on the site of a request, with the query of the request. -/
def location (r : Request) (path : String) : String :=
  Text.PercentEncoding.encodeExcept keptInLocation
    (r.site ++ Text.PercentEncoding.encodeExcept keptInPath path ++
      (if r.query = "" then "" else "?" ++ r.query))

/-- Where a request leads. -/
def Route.ofRequest (r : Request) : Route :=
  let path := Text.PercentEncoding.decode r.rawPath
  match Resource.ofPath? path with
  | some resource =>
    match resource.methods.find? fun (method, _) => method = r.method with
    | some (_, e) => .endpoint e
    | none => .notAllowed resource.allowed
  | none =>
    let path := otherPath path
    if (Resource.ofPath? path).isSome then .elsewhere (location r path) else .nowhere

end TransferFees.Http
