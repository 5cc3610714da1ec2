import TransferFees.Json
import TransferFees.Text.Blank

/-!
# Requests and answers

A request has a method, a target, headers and a body; an answer has a status, a body and headers.
Header names are compared without regard to case, and of several headers of one name the first
counts.
-/

namespace TransferFees.Http

/-- A request. -/
structure Request where
  /-- The scheme and the host that the request was sent to. -/
  site : String
  /-- The method, in the letters it was sent in. -/
  method : String
  /-- The path, percent-encoded, and the query. -/
  target : String
  /-- Names and values. -/
  headers : List (String × String)
  /-- The body; a request without one has the empty text. -/
  body : String

namespace Request

/-- The value of the first header with the given name, which is in small letters. -/
def header? (name : String) (r : Request) : Option String :=
  (r.headers.find? fun (key, _) => key.toLower == name).map (·.2)

/-- The path, as it was sent. -/
def rawPath (r : Request) : String := String.ofList (r.target.toList.takeWhile (· != '?'))

/-- The query, without the question mark; without a query the empty text. -/
def query (r : Request) : String := String.ofList ((r.target.toList.dropWhile (· != '?')).drop 1)

end Request

/-- The body of an answer. -/
inductive Body where
  /-- A JSON value. -/
  | json (v : Json)
  /-- A text. -/
  | text (s : String)

/-- Whether a body can be written. -/
def Body.isWritable : Body → Bool
  | .json v => v.isWritable
  | .text _ => true

/-- An answer. -/
structure Response where
  /-- The status. -/
  status : Nat
  /-- The body. -/
  body : Body
  /-- Names in small letters, and values. -/
  headers : List (String × String)

namespace Response

/-- An answer that is a JSON value. -/
def ofJson (status : Nat) (v : Json) : Response := ⟨status, .json v, []⟩

/-- An answer that turns a request down and tells why. -/
def detail (status : Nat) (reason : Json) : Response :=
  ofJson status (.object [("detail", reason)])

/-- The answer of a server that fails to answer. -/
def failed : Response := ⟨500, .text "Internal Server Error", []⟩

/-- The answer with more headers. -/
def withHeaders (r : Response) (more : List (String × String)) : Response :=
  { r with headers := r.headers ++ more }

end Response

end TransferFees.Http
