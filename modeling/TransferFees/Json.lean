import TransferFees.Double

/-!
# JSON values

The values that requests carry and answers are made of. An object keeps its fields in the order
they were written, and may hold a name twice; looking a name up gives the last field of that name.

JSON text can spell more than JSON can hold: numbers beyond all bounds and the names for what is no
number, and texts in which half a character stands alone. Such values can be read but not be written
again (`isWritable`).

A value that is quoted to others is quoted without its internal fields, which a mark at the front of
their names tells (`disclosed`).
-/

namespace TransferFees

/-- A JSON value. -/
inductive Json where
  /-- The value `null`. -/
  | null
  /-- A truth value. -/
  | bool (b : Bool)
  /-- A number written without a point and without an exponent. -/
  | int (n : Int)
  /-- A number written with a point or an exponent, or one of the names for what is no number. -/
  | real (x : Double)
  /-- A text. -/
  | text (s : String)
  /-- A text in which halves of characters stand alone, with the replacement character for each. -/
  | brokenText (shown : String)
  /-- A list of values. -/
  | list (items : List Json)
  /-- Named values. -/
  | object (fields : List (String × Json))
  /-- Named values, and the names that are broken texts, without their values and with the
  replacement character for each half. -/
  | brokenObject (fields : List (String × Json)) (names : List String)

namespace Json

/-- The text, if the value is one; in a broken text replacement characters stand for the halves. -/
def text? : Json → Option String
  | .text s => some s
  | .brokenText shown => some shown
  | _ => none

/-- The items, if the value is a list. -/
def list? : Json → Option (List Json)
  | .list items => some items
  | _ => none

/-- The fields, if the value is an object. -/
def object? : Json → Option (List (String × Json))
  | .object fields => some fields
  | .brokenObject fields _ => some fields
  | _ => none

/-- The value of the last field with the given name. -/
def lookup (name : String) : List (String × Json) → Option Json
  | [] => none
  | (key, value) :: rest =>
    match lookup name rest with
    | some later => some later
    | none => if key = name then some value else none

/-- The field of an object with the given name. -/
def field? (name : String) (value : Json) : Option Json :=
  value.object?.bind (lookup name)

/-- A list of texts. -/
def texts (items : List String) : Json := .list (items.map .text)

mutual

/-- Whether a value can be written. -/
def isWritable : Json → Bool
  | .null => true
  | .bool _ => true
  | .int _ => true
  | .real x => x.isFinite
  | .text _ => true
  | .brokenText _ => false
  | .list items => areWritable items
  | .object fields => fieldsWritable fields
  | .brokenObject _ _ => false

/-- Whether all items of a list can be written. -/
def areWritable : List Json → Bool
  | [] => true
  | v :: rest => isWritable v && areWritable rest

/-- Whether all fields can be written that no later field of the same name replaces. -/
def fieldsWritable : List (String × Json) → Bool
  | [] => true
  | (key, v) :: rest => ((lookup key rest).isSome || isWritable v) && fieldsWritable rest

end

/-- The mark of internal fields. -/
def internalMark : String := "_sa"

/-- Whether a name is that of an internal field. -/
def isInternal (name : String) : Bool := internalMark.toList.isPrefixOf name.toList

mutual

/-- The value without internal fields, at any depth. -/
def disclosed : Json → Json
  | .list items => .list (disclosedItems items)
  | .object fields => .object (disclosedFields fields)
  | .brokenObject fields names =>
    match names.filter (!isInternal ·) with
    | [] => .object (disclosedFields fields)
    | names => .brokenObject (disclosedFields fields) names
  | v => v

/-- The items of a list without internal fields. -/
def disclosedItems : List Json → List Json
  | [] => []
  | v :: rest => disclosed v :: disclosedItems rest

/-- The fields that are not internal, each without internal fields. -/
def disclosedFields : List (String × Json) → List (String × Json)
  | [] => []
  | (key, v) :: rest =>
    if isInternal key then disclosedFields rest
    else (key, disclosed v) :: disclosedFields rest

end

end Json

end TransferFees
