import TransferFees.AccountId
import TransferFees.IntegerText
import TransferFees.Json

/-!
# Validation

Checks that turn a JSON value into a value of the program, or into the list of all that is wrong
with it. Every issue names the place where it was found, from the outside in, the problem, and the
value that has it.

A check of one field stops at its first problem. The checks of several fields, and of the items of a
list, go on, and their issues are listed in order (`both`, `eachText`).
-/

namespace TransferFees

/-- A step on the way from a whole value to a part of it. -/
inductive Place where
  /-- The field of an object. -/
  | field (name : String)
  /-- The item of a list. -/
  | item (index : Nat)
  deriving DecidableEq, Repr

/-- What may be wrong with a value. -/
inductive Problem where
  /-- A field that has to be there is not. -/
  | missing
  /-- The value is not a text. -/
  | notText
  /-- The text holds halves of characters. -/
  | brokenText
  /-- The text has too few characters. -/
  | tooShort (least : Nat)
  /-- The text has too many characters. -/
  | tooLong (greatest : Nat)
  /-- The value is not a list. -/
  | notList
  /-- The value has the right shape but is refused for the given reason. -/
  | refused (reason : String)
  /-- The value is not an integer. -/
  | notInteger
  /-- The text is not that of an integer. -/
  | notIntegerText
  /-- An integer has too many digits, or is too large for what it is read from. -/
  | integerTooLarge
  /-- The number has a fraction. -/
  | fraction
  /-- The number is infinite or none. -/
  | notFinite
  /-- The text is not that of a truth value. -/
  | notTruthText
  /-- The value of a form of the given name is not an object. -/
  | notObject (form : String)
  /-- The body of a request is not an object. -/
  | noFields
  /-- The body of a request is not JSON. -/
  | badJson
  deriving DecidableEq, Repr

/-- The short name of a problem. -/
def Problem.kind : Problem → String
  | .missing => "missing"
  | .notText => "string_type"
  | .brokenText => "string_unicode"
  | .tooShort _ => "string_too_short"
  | .tooLong _ => "string_too_long"
  | .notList => "list_type"
  | .refused _ => "value_error"
  | .notInteger => "int_type"
  | .notIntegerText => "int_parsing"
  | .integerTooLarge => "int_parsing_size"
  | .fraction => "int_from_float"
  | .notFinite => "finite_number"
  | .notTruthText => "bool_parsing"
  | .notObject _ => "model_type"
  | .noFields => "model_attributes_type"
  | .badJson => "json_invalid"

/-- The sentence that tells of a problem. -/
def Problem.message : Problem → String
  | .missing => "Field required"
  | .notText => "Input should be a valid string"
  | .brokenText =>
    "Input should be a valid string, unable to parse raw data as a unicode string"
  | .tooShort least => "String should have at least " ++ Numeral.text least ++ " characters"
  | .tooLong greatest => "String should have at most " ++ Numeral.text greatest ++ " characters"
  | .notList => "Input should be a valid list"
  | .refused reason => "Value error, " ++ reason
  | .notInteger => "Input should be a valid integer"
  | .notIntegerText => "Input should be a valid integer, unable to parse string as an integer"
  | .integerTooLarge =>
    "Unable to parse input string as an integer, exceeded maximum size"
  | .fraction => "Input should be a valid integer, got a number with a fractional part"
  | .notFinite => "Input should be a finite number"
  | .notTruthText => "Input should be a valid boolean, unable to interpret input"
  | .notObject form => "Input should be a valid dictionary or instance of " ++ form
  | .noFields => "Input should be a valid dictionary or object to extract fields from"
  | .badJson => "JSON decode error"

/-- One thing that is wrong with a value. -/
structure Issue where
  /-- Where it was found. -/
  place : List Place
  /-- What it is. -/
  problem : Problem
  /-- The value that has the problem; for a missing field, what it is missing from. -/
  value : Json

/-- A place as JSON. -/
def Place.toJson : Place → Json
  | .field name => .text name
  | .item index => .int index

/-- An issue as JSON. The value that has the problem is quoted without its internal fields. The field
`ctx` is left out. What stands there is a bound, the kind of a syntax error or an empty object, so it
tells nothing new of the value, and it can always be written. -/
def Issue.toJson (issue : Issue) : Json :=
  .object [("type", .text issue.problem.kind), ("loc", .list (issue.place.map Place.toJson)),
    ("msg", .text issue.problem.message), ("input", issue.value.disclosed)]

/-- A value, or all that is wrong with what it should have been read from. -/
abbrev Checked (α : Type) := Except (List Issue) α

namespace Checked

variable {α β : Type}

/-- A single problem with the value as a whole. -/
def problem (p : Problem) (v : Json) : Checked α := .error [⟨[], p, v⟩]

/-- The same issues, found one place further in. -/
def inside (place : Place) (c : Checked α) : Checked α :=
  c.mapError (·.map fun issue => { issue with place := place :: issue.place })

/-- Two values, or the issues of both sides in order. -/
def both : Checked α → Checked β → Checked (α × β)
  | .ok a, .ok b => .ok (a, b)
  | .error x, .ok _ => .error x
  | .ok _, .error y => .error y
  | .error x, .error y => .error (x ++ y)

/-- The field of the given name, which has to be there. -/
def required (name : String) (check : Json → Checked α) (form : Json) : Checked α :=
  inside (.field name) <|
    match form.field? name with
    | some v => check v
    | none => problem .missing form

/-- The field of the given name, with a value to go by when it is not there. -/
def optional (name : String) (without : α) (check : Json → Checked α) (form : Json) : Checked α :=
  match form.field? name with
  | some v => inside (.field name) (check v)
  | none => .ok without

/-- A text, whole or broken. -/
def text (v : Json) : Checked String :=
  match v.text? with
  | some s => .ok s
  | none => problem .notText v

/-- A text without halves of characters, as any check of its length needs it. -/
def wholeText : Json → Checked String
  | .text s => .ok s
  | .brokenText shown => problem .brokenText (.brokenText shown)
  | v => problem .notText v

/-- A text with at most the given number of characters. -/
def textUpTo (greatest : Nat) (v : Json) : Checked String := do
  let s ← wholeText v
  if greatest < s.length then problem (.tooLong greatest) v else return s

/-- A text that is an account id. Its length is looked at before its form. -/
def accountId (v : Json) : Checked String := do
  let s ← wholeText v
  if s.length < AccountId.leastLength then problem (.tooShort AccountId.leastLength) v
  else if AccountId.greatestLength < s.length then problem (.tooLong AccountId.greatestLength) v
  else match AccountId.check s with
    | .ok id => return id
    | .error reason => problem (.refused reason.message) v

/-- The texts in a list, the first of which is at the given index. -/
def eachText (index : Nat) : List Json → Checked (List String)
  | [] => .ok []
  | v :: rest =>
    (both (inside (.item index) (text v)) (eachText (index + 1) rest)).map fun (s, ss) => s :: ss

/-- A list of texts. -/
def texts (v : Json) : Checked (List String) :=
  match v.list? with
  | some items => eachText 0 items
  | none => problem .notList v

/-- A list of account ids. Once all are texts, the first that is no id is the only issue. No id
holds the character that stands for halves in a broken text. -/
def accountIds (v : Json) : Checked (List String) := do
  let ids ← texts v
  match ids.mapM AccountId.check with
  | .ok ids => return ids
  | .error reason => problem (.refused reason.message) v

/-- The least power of two that is too large for an integer read from a number with a point. -/
def wholeBound : Nat := 0x8000000000000000

/-- An integer, or something that stands for one: a truth value, a number without a fraction whose
size takes no more than 63 bits, or a text. -/
def integer (v : Json) : Checked Int :=
  match v with
  | .int n => .ok n
  | .bool b => .ok (if b then 1 else 0)
  | .real (.finite negative significand exponent) =>
    match Double.wholeSize? significand exponent with
    | none => problem .fraction v
    | some n =>
      if wholeBound ≤ n then problem .integerTooLarge v
      else .ok (if negative then -(n : Int) else (n : Int))
  | .real _ => problem .notFinite v
  | .text s =>
    match IntegerText.read s.toList with
    | .ok n => .ok n
    | .error .tooLong => problem .integerTooLarge v
    | .error .notInteger => problem .notIntegerText v
  | .brokenText _ => problem .notIntegerText v
  | _ => problem .notInteger v

/-- A text, or `null`. -/
def textOrNull : Json → Checked (Option String)
  | .null => .ok none
  | v => (text v).map some

end Checked

end TransferFees
