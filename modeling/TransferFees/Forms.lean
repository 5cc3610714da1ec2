import TransferFees.FeeState
import TransferFees.Validation

/-!
# Forms

The objects that requests carry in their bodies and the objects that answers are made of. Each form
has a reading from a JSON object (`ofObject`), which fills in what may be left out and passes over
fields it does not know, and a writing (`toJson`).
-/

namespace TransferFees

/-- Reads a form of the given name from a value, which has to be an object. -/
def readForm {α : Type} (name : String) (ofObject : Json → Checked α) (v : Json) : Checked α :=
  if v.object?.isSome then ofObject v else .problem (.notObject name) v

/-! ## Requests -/

/-- The request to create the fee state. -/
structure EstablishForm where
  /-- The tokens to support from the start. -/
  tokens : List String

namespace EstablishForm

/-- Reads the form. Without a field there are no tokens. -/
def ofObject (v : Json) : Checked EstablishForm :=
  (Checked.optional "tokens" [] Checked.accountIds v).map EstablishForm.mk

/-- Writes the form. -/
def toJson (f : EstablishForm) : Json := .object [("tokens", .texts f.tokens)]

end EstablishForm

/-- Why a text is not an amount. -/
inductive AmountError where
  /-- The text is not made of digits alone. -/
  | notDigits
  /-- The text has too many digits to be read. -/
  | tooManyDigits (count : Nat)
  /-- The amount takes more than 128 bits. -/
  | tooLarge

/-- The sentence that tells what is wrong with an amount. -/
def AmountError.message : AmountError → String
  | .notDigits => "Amount must be a non-negative integer"
  | .tooManyDigits count =>
    "Exceeds the limit (4300 digits) for integer string conversion: value has " ++
      Numeral.text count ++
      " digits; use sys.set_int_max_str_digits() to increase the limit"
  | .tooLarge => "Amount does not fit into 128 bits"

/-- The greatest number of digits of an amount, leading zeros among them. -/
def amountDigits : Nat := 4300

/-- The amount that a text stands for. -/
def parseAmount (s : String) : Except AmountError Int :=
  if !Numeral.isNumeral s.toList then .error .notDigits
  else if amountDigits < s.length then .error (.tooManyDigits s.length)
  else
    let amount : Int := Numeral.value s.toList
    if greatestAmount < amount then .error .tooLarge else .ok amount

/-- A text that stands for an amount; the text is kept. -/
def Checked.amount (v : Json) : Checked String := do
  let s ← Checked.text v
  match parseAmount s with
  | .ok _ => return s
  | .error reason => Checked.problem (.refused reason.message) v

/-- The request for the fee of a transfer. -/
structure FeeForm where
  /-- The amount as a text of digits. -/
  amount : String
  /-- The token that is transferred. -/
  token : String
  /-- The network it goes to. -/
  network : String
  /-- The recipient there. -/
  address : String

namespace FeeForm

/-- Reads the form. -/
def ofObject (v : Json) : Checked FeeForm :=
  let amount := Checked.required "amount" Checked.amount v
  let token := Checked.required "token_id" Checked.accountId v
  let network := Checked.required "target_network" Checked.accountId v
  let address := Checked.required "target_address" Checked.text v
  (amount.both (token.both (network.both address))).map
    fun (amount, token, network, address) => ⟨amount, token, network, address⟩

/-- Writes the form. -/
def toJson (f : FeeForm) : Json :=
  .object [("amount", .text f.amount), ("token_id", .text f.token),
    ("target_network", .text f.network), ("target_address", .text f.address)]

/-- The transfer that the form describes. -/
def transfer (f : FeeForm) : Transfer :=
  ⟨Numeral.value f.amount.toList, f.token, f.network, f.address⟩

end FeeForm

/-- The request for another percent. -/
structure PercentForm where
  /-- The percent as a text of any kind. -/
  percent : String

namespace PercentForm

/-- The greatest number of characters of a percent text. -/
def greatestLength : Nat := 64

/-- Reads the form. -/
def ofObject (v : Json) : Checked PercentForm :=
  (Checked.required "percent" (Checked.textUpTo greatestLength) v).map PercentForm.mk

/-- Writes the form. -/
def toJson (f : PercentForm) : Json := .object [("percent", .text f.percent)]

end PercentForm

/-- The request to support a token. -/
structure TokenForm where
  /-- The token. -/
  token : String

namespace TokenForm

/-- Reads the form. -/
def ofObject (v : Json) : Checked TokenForm :=
  (Checked.required "token_id" Checked.accountId v).map TokenForm.mk

/-- Writes the form. -/
def toJson (f : TokenForm) : Json := .object [("token_id", .text f.token)]

end TokenForm

/-! ## Answers -/

/-- The answer that describes a fee state. -/
structure StateAnswer where
  /-- The owner. -/
  owner : String
  /-- The percent as a text. -/
  percent : String
  /-- The supported tokens. -/
  tokens : List String

namespace StateAnswer

/-- Reads the form. -/
def ofObject (v : Json) : Checked StateAnswer :=
  let owner := Checked.required "owner" Checked.text v
  let percent := Checked.required "percent" Checked.text v
  let tokens := Checked.required "supported_tokens" Checked.texts v
  (owner.both (percent.both tokens)).map fun (owner, percent, tokens) => ⟨owner, percent, tokens⟩

/-- Writes the form. -/
def toJson (a : StateAnswer) : Json :=
  .object [("owner", .text a.owner), ("percent", .text a.percent),
    ("supported_tokens", .texts a.tokens)]

end StateAnswer

/-- The answer that gives a fee. -/
structure FeeAnswer where
  /-- The fee as a text of digits. -/
  fee : String

namespace FeeAnswer

/-- Reads the form. -/
def ofObject (v : Json) : Checked FeeAnswer :=
  (Checked.required "fee" Checked.text v).map FeeAnswer.mk

/-- Writes the form. -/
def toJson (a : FeeAnswer) : Json := .object [("fee", .text a.fee)]

end FeeAnswer

/-- The answer that gives the percent. -/
structure PercentAnswer where
  /-- The percent as a text. -/
  percent : String

namespace PercentAnswer

/-- Reads the form. -/
def ofObject (v : Json) : Checked PercentAnswer :=
  (Checked.required "percent" Checked.text v).map PercentAnswer.mk

/-- Writes the form. -/
def toJson (a : PercentAnswer) : Json := .object [("percent", .text a.percent)]

end PercentAnswer

/-- The answer that lists the supported tokens. -/
structure TokensAnswer where
  /-- The tokens. -/
  tokens : List String
  /-- How many there are. -/
  total : Int

namespace TokensAnswer

/-- The answer for the given tokens. -/
def ofList (tokens : List String) : TokensAnswer := ⟨tokens, tokens.length⟩

/-- Reads the form. -/
def ofObject (v : Json) : Checked TokensAnswer :=
  let tokens := Checked.required "tokens" Checked.texts v
  let total := Checked.required "total" Checked.integer v
  (tokens.both total).map fun (tokens, total) => ⟨tokens, total⟩

/-- Writes the form. -/
def toJson (a : TokensAnswer) : Json :=
  .object [("tokens", .texts a.tokens), ("total", .int a.total)]

end TokensAnswer

/-- The answer that tells of an error. -/
structure ErrorAnswer where
  /-- The error. -/
  error : String
  /-- More about it, if there is more. -/
  detail : Option String

namespace ErrorAnswer

/-- Reads the form. Without a field there is no more to tell. -/
def ofObject (v : Json) : Checked ErrorAnswer :=
  let error := Checked.required "error" Checked.text v
  let detail := Checked.optional "detail" none Checked.textOrNull v
  (error.both detail).map fun (error, detail) => ⟨error, detail⟩

/-- Writes the form. -/
def toJson (a : ErrorAnswer) : Json :=
  .object [("error", .text a.error), ("detail", (a.detail.map Json.text).getD .null)]

end ErrorAnswer

end TransferFees
