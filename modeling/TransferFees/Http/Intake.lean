import TransferFees.Http.Message
import TransferFees.Json.Reader
import TransferFees.Validation

/-!
# What a request carries

The caller's header and the body of a request, read and checked. The caller is the value of a
header without the blanks at its ends. A body counts as JSON only if the content type is that of
JSON; any other body is there but has no fields.

Faulty JSON is told of alone. All other issues are told of together, the header's before the
body's.
-/

namespace TransferFees.Http

/-- The name of the caller's header. -/
def callerHeader : String := "X-Caller-Id"

/-- Whether a content type is that of JSON: before the first semicolon, without blanks at its ends
and in letters of either case, `application/json` or `application/` and a name that ends in
`+json`. Which types count is a policy of the framework that differs between its versions: earlier
ones also read a body without a content type as JSON. -/
def isJsonType (contentType : String) : Bool :=
  let essence :=
    (Text.trimBy Text.isBlank (contentType.toList.takeWhile (· != ';'))).map Char.toLower
  let main := essence.takeWhile (· != '/')
  let sub := (essence.dropWhile (· != '/')).drop 1
  essence.count '/' == 1 && main == "application".toList &&
    (sub == "json".toList || "+json".toList.isSuffixOf sub)

/-- What the body of a request comes to. -/
inductive Content where
  /-- There is no body. -/
  | absent
  /-- There is a body that is not taken for JSON. -/
  | plain (body : String)
  /-- There is a JSON value. -/
  | value (v : Json)
  /-- There is a body that should be JSON but is not. -/
  | faulty (e : Json.ReadError)

/-- What the body of a request comes to. -/
def Request.content (r : Request) : Content :=
  if r.body.toList = [] then .absent
  else if isJsonType ((r.header? "content-type").getD "") then
    match Json.readOctets r.body.toList with
    | .ok v => .value v
    | .error e => .faulty e
  else .plain r.body

/-- Why a request is turned down before anything is done. -/
inductive IntakeError where
  /-- The request is not as it should be. -/
  | invalid (issues : List Issue)
  /-- The body cannot be read. -/
  | unreadable

/-- The caller of a request. -/
def Request.caller (r : Request) : Checked String :=
  match r.header? callerHeader.toLower with
  | some value => .ok (Text.strip value)
  | none => .error [⟨[.field "header", .field callerHeader], .missing, .null⟩]

/-- A form read from the content of a request that is not faulty. -/
def readContent {α : Type} (ofObject : Json → Checked α) (content : Content) : Checked α :=
  Checked.inside (.field "body") <|
    match content with
    | .value v => if v.object?.isSome then ofObject v else .problem .noFields v
    | .plain body => .problem .noFields (.text body)
    | _ => .problem .missing .null

/-- The body of a request as a form, along with something else that is checked before it. Of faulty
syntax it is told that it is there; at which character it begins is left out. -/
def Request.intake {α β : Type} (r : Request) (before : Checked α)
    (ofObject : Json → Checked β) : Except IntakeError (α × β) :=
  match r.content with
  | .faulty .badSyntax => .error (.invalid [⟨[.field "body"], .badJson, .object []⟩])
  | .faulty _ => .error .unreadable
  | content => (before.both (readContent ofObject content)).mapError .invalid

end TransferFees.Http
