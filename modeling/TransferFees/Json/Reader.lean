import TransferFees.Json
import TransferFees.Json.Encoding
import TransferFees.Text.PercentEncoding
import TransferFees.Text.Utf16

/-!
# Reading JSON

A reader for JSON text. Beyond the standard it takes the three names `NaN`, `Infinity` and
`-Infinity` for numbers, and halves of characters inside a text. It refuses control characters
inside a text. An integer of more than 4300 digits and values nested too deep are refused as well,
and told apart from faulty syntax.

Each step returns what is left of the text. The steps that call one another count down two numbers:
how much deeper values may be nested, and a fuel that `read` computes from the length of the text.
Two units of fuel for every character are enough, because an opening bracket takes two steps and
everything else takes one.
-/

namespace TransferFees.Json

open Text (Points)

/-- Why a text is not read. -/
inductive ReadError where
  /-- The text is not JSON. -/
  | badSyntax
  /-- An integer has more digits than are read. -/
  | integerTooLong
  /-- Lists and objects are nested deeper than is read. -/
  | tooDeep
  /-- The octets of the text are not those of its encoding. -/
  | badEncoding
  deriving DecidableEq, Repr

/-- The greatest number of digits of an integer: the limit that the interpreter sets by default. -/
def integerDigits : Nat := 4300

/-- How deep lists and objects may be nested. This is no rule of JSON. It is where the interpreter
stops the recursion of its reader below the calls that lead to it, and it differs between versions
of the interpreter and of the libraries. -/
def greatestDepth : Nat := 950

/-- The characters between values. -/
def isGap (c : Char) : Bool := c == ' ' || c == '\t' || c == '\n' || c == '\r'

/-- A text without the gap in front of it. -/
def skipGap (cs : Points) : Points := cs.dropWhile (·.any isGap)

/-- What follows `word` at the front of a text. -/
def after? : List Char → Points → Option Points
  | [], cs => some cs
  | _ :: _, [] => none
  | w :: ws, c :: cs => if c = some w then after? ws cs else none

/-- The digits at the front of a text. -/
def leadingDigits : Points → List Char
  | some c :: rest => if c.isDigit then c :: leadingDigits rest else []
  | _ => []

/-! ## Texts -/

/-- The value of four hexadecimal digits. -/
def hex4? (a b c d : Option Char) : Option Nat := do
  let a ← a.bind Text.PercentEncoding.hexValue?
  let b ← b.bind Text.PercentEncoding.hexValue?
  let c ← c.bind Text.PercentEncoding.hexValue?
  let d ← d.bind Text.PercentEncoding.hexValue?
  return ((a * 16 + b) * 16 + c) * 16 + d

/-- The character that a single letter after a backslash stands for. -/
def escape? : Option Char → Option Char
  | some '"' => some '"'
  | some '\\' => some '\\'
  | some '/' => some '/'
  | some 'b' => some '\x08'
  | some 'f' => some '\x0c'
  | some 'n' => some '\n'
  | some 'r' => some '\r'
  | some 't' => some '\t'
  | _ => none

/-- Whether a character may stand for itself inside a text. -/
def isPlain : Option Char → Bool
  | some c => 0x20 ≤ c.toNat && c != '\\'
  | none => true

/-- The points read so far, last one first, with the first half of a character that was not
completed. -/
def settle (first : Option Nat) (acc : Points) : Points :=
  match first with
  | none => acc
  | some _ => none :: acc

/-- The points up to the closing quote, and what follows it. `first` is the first half of a
character, which the next escape may complete. -/
def readPoints (first : Option Nat) (acc : Points) : Points → Option (Points × Points)
  | [] => none
  | some '"' :: rest => some ((settle first acc).reverse, rest)
  | some '\\' :: some 'u' :: a :: b :: c :: d :: rest =>
    match hex4? a b c d with
    | none => none
    | some u =>
      if Text.Utf16.isFirst u then readPoints (some u) (settle first acc) rest
      else
        match first with
        | some h =>
          if Text.Utf16.isSecond u then readPoints none (some (Text.Utf16.join h u) :: acc) rest
          else readPoints none (Text.Utf16.single u :: settle first acc) rest
        | none => readPoints none (Text.Utf16.single u :: acc) rest
  | some '\\' :: c :: rest =>
    match escape? c with
    | none => none
    | some e => readPoints none (some e :: settle first acc) rest
  | c :: rest => if isPlain c then readPoints none (c :: settle first acc) rest else none

/-- The value of a text between quotes. -/
def ofPoints (p : Points) : Json :=
  match p.whole? with
  | some cs => .text (String.ofList cs)
  | none => .brokenText p.shown

/-- The value of fields whose names may be broken. -/
def ofFields (fields : List (Points × Json)) : Json :=
  let named := fields.filterMap fun (name, v) => name.whole?.map fun cs => (String.ofList cs, v)
  match fields.filter fun (name, _) => name.whole?.isNone with
  | [] => .object named
  | broken => .brokenObject named (broken.map fun (name, _) => name.shown)

/-! ## Numbers -/

/-- The digits of the fraction at the front of a text, and what follows it. Without a digit behind
the point there is no fraction. -/
def takeFraction : Points → List Char × Points
  | some '.' :: r =>
    let ds := leadingDigits r
    if ds = [] then ([], some '.' :: r) else (ds, r.drop ds.length)
  | r => ([], r)

/-- The sign of an exponent, and the text after it. -/
def takeSign : Points → Bool × Points
  | some '-' :: r => (true, r)
  | some '+' :: r => (false, r)
  | r => (false, r)

/-- The exponent at the front of a text, if there is one, and what follows it. -/
def takeExponent (cs : Points) : Option Int × Points :=
  match cs with
  | some c :: r =>
    if c = 'e' ∨ c = 'E' then
      let (negative, s) := takeSign r
      let ds := leadingDigits s
      if ds = [] then (none, cs)
      else (some (if negative then -(Numeral.value ds : Int) else (Numeral.value ds : Int)),
        s.drop ds.length)
    else (none, cs)
  | _ => (none, cs)

/-- The number at the front of a text, with the minus sign read before it. -/
def readNumber (negative : Bool) (cs : Points) : Except ReadError (Json × Points) :=
  let whole := match cs with
    | some '0' :: _ => ['0']
    | _ => leadingDigits cs
  if whole = [] then .error .badSyntax
  else
    let (fraction, r) := takeFraction (cs.drop whole.length)
    let (exponent, r) := takeExponent r
    if fraction = [] ∧ exponent = none then
      if integerDigits < whole.length then .error .integerTooLong
      else
        let n : Int := Numeral.value whole
        .ok (.int (if negative then -n else n), r)
    else
      let d : Decimal :=
        ⟨negative, Numeral.value (whole ++ fraction), exponent.getD 0 - fraction.length⟩
      .ok (.real (Double.ofDecimal d), r)

/-- The value that a word at the front of a text names, or the number there. -/
def readWord (cs : Points) : Except ReadError (Json × Points) :=
  let words : List (String × Json) :=
    [("null", .null), ("true", .bool true), ("false", .bool false), ("NaN", .real .notANumber),
      ("Infinity", .real (.infinite false)), ("-Infinity", .real (.infinite true))]
  match words.findSome? fun (w, v) => (after? w.toList cs).map fun r => (v, r) with
  | some found => .ok found
  | none =>
    match cs with
    | some '-' :: r => readNumber true r
    | _ => readNumber false cs

/-! ## Values -/

mutual

/-- The value at the front of a text. -/
def readValue : Nat → Nat → Points → Except ReadError (Json × Points)
  | 0, _, _ => .error .badSyntax
  | fuel + 1, depth, cs =>
    match cs with
    | some '"' :: r =>
      match readPoints none [] r with
      | some (p, r) => .ok (ofPoints p, r)
      | none => .error .badSyntax
    | some '[' :: r =>
      match depth with
      | 0 => .error .tooDeep
      | depth + 1 =>
        match skipGap r with
        | some ']' :: r => .ok (.list [], r)
        | r => readItems fuel depth [] r
    | some '{' :: r =>
      match depth with
      | 0 => .error .tooDeep
      | depth + 1 =>
        match skipGap r with
        | some '}' :: r => .ok (.object [], r)
        | r => readFields fuel depth [] r
    | cs => readWord cs

/-- The items of a list, from the next one on, and what follows the closing bracket. -/
def readItems : Nat → Nat → List Json → Points → Except ReadError (Json × Points)
  | 0, _, _, _ => .error .badSyntax
  | fuel + 1, depth, acc, cs =>
    match readValue fuel depth cs with
    | .error e => .error e
    | .ok (v, r) =>
      match skipGap r with
      | some ',' :: r => readItems fuel depth (v :: acc) (skipGap r)
      | some ']' :: r => .ok (.list (v :: acc).reverse, r)
      | _ => .error .badSyntax

/-- The fields of an object, from the next one on, and what follows the closing brace. -/
def readFields : Nat → Nat → List (Points × Json) → Points → Except ReadError (Json × Points)
  | 0, _, _, _ => .error .badSyntax
  | fuel + 1, depth, acc, cs =>
    match cs with
    | some '"' :: r =>
      match readPoints none [] r with
      | none => .error .badSyntax
      | some (name, r) =>
        match skipGap r with
        | some ':' :: r =>
          match readValue fuel depth (skipGap r) with
          | .error e => .error e
          | .ok (v, r) =>
            match skipGap r with
            | some ',' :: r => readFields fuel depth ((name, v) :: acc) (skipGap r)
            | some '}' :: r => .ok (ofFields ((name, v) :: acc).reverse, r)
            | _ => .error .badSyntax
        | _ => .error .badSyntax
    | _ => .error .badSyntax

end

/-- The value that a text of points holds, with gaps before and after it. -/
def readAll (cs : Points) : Except ReadError Json :=
  match readValue (2 * cs.length + 2) greatestDepth (skipGap cs) with
  | .error e => .error e
  | .ok (v, r) => if skipGap r = [] then .ok v else .error .badSyntax

/-- The value that a text holds. -/
def read (cs : List Char) : Except ReadError Json := readAll (cs.map some)

/-- The value of JSON text in any encoding, given as the characters that its octets are in UTF-8. -/
def readOctets (cs : List Char) : Except ReadError Json :=
  match recode? cs with
  | some points => readAll points
  | none => .error .badEncoding

end TransferFees.Json
