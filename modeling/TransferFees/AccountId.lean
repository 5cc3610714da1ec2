import TransferFees.Text.DecimalDigit
import TransferFees.Text.Pattern

/-!
# Account ids

Accounts and tokens are named by ids of 2 to 64 characters. An id is one segment or several with a
point between them; a segment is one run or several with a hyphen or an underscore between them;
and a run is one letter `a` to `z` or decimal digit, or several. The digits of every script count.

`check` first looks at the number of characters and then at the form, so each refused text has one
reason.
-/

namespace TransferFees.AccountId

/-- The least number of characters of an id. -/
def leastLength : Nat := 2

/-- The greatest number of characters of an id. -/
def greatestLength : Nat := 64

/-- The characters of a run. -/
def isRunChar (c : Char) : Bool := ('a' ≤ c && c ≤ 'z') || Text.isDecimalDigit c

/-- The characters between runs. -/
def isJoint (c : Char) : Bool := c == '-' || c == '_'

/-- One run of letters and digits. -/
def run : Text.Pattern := .plus (.char isRunChar)

/-- One segment: runs, each but the last with a joint after it. -/
def segment : Text.Pattern := .seq (.star (.seq run (.char isJoint))) run

/-- A whole id: segments, each but the last with a point after it. -/
def form : Text.Pattern := .seq (.star (.seq segment (.lit '.'))) segment

/-- Why a value is not an account id. -/
inductive Error where
  /-- The value is not a text. -/
  | notText
  /-- The text has too few or too many characters. -/
  | badLength (id : String)
  /-- The text has not the form of an id. -/
  | badForm (id : String)
  deriving DecidableEq, Repr

/-- The sentence that tells what is wrong. -/
def Error.message : Error → String
  | .notText => "Account id must be a string"
  | .badLength id => "Account id '" ++ id ++ "' must be between 2 and 64 characters"
  | .badForm id => "Invalid account id '" ++ id ++ "'"

/-- The id itself if the text is an account id, and else the reason why it is none. -/
def check (id : String) : Except Error String :=
  if id.length < leastLength ∨ greatestLength < id.length then .error (.badLength id)
  else if form.accepts id.toList then .ok id
  else .error (.badForm id)

/-- The same for a value that may be something other than a text. -/
def checkValue : Option String → Except Error String
  | none => .error .notText
  | some id => check id

/-- Whether a text is an account id. -/
def isValid (id : String) : Bool :=
  leastLength ≤ id.length && id.length ≤ greatestLength && form.accepts id.toList

/-- The check passes an id on as it is, and passes just the ids that are valid. -/
theorem check_eq_ok_iff {id other : String} :
    check id = .ok other ↔ other = id ∧ isValid id = true := by
  unfold check isValid
  by_cases hl : id.length < leastLength ∨ greatestLength < id.length
  · rw [if_pos hl]
    refine iff_of_false nofun fun ⟨_, h⟩ => ?_
    simp only [Bool.and_eq_true, decide_eq_true_eq] at h
    omega
  · rw [if_neg hl]
    have hlen : leastLength ≤ id.length ∧ id.length ≤ greatestLength := by omega
    by_cases hf : form.accepts id.toList = true
    · simp [hf, hlen, eq_comm]
    · simp [hf]

end TransferFees.AccountId
