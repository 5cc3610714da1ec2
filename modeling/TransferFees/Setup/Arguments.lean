import TransferFees.Text.DecimalDigit

/-!
# The arguments of the setup command

The command takes an option `--owner` with a value, an option `--help` or `-h`, and operands: the
tokens to support from the start.

* An option with two hyphens may be shortened as long as it can only be one, and may have its value
  after `=`. If the option is given several times, the last value counts. The joined value `--` is
  dropped like any other `--`, which leaves the option without a value.
* More letters `h` may be joined to `-h`, behind one `=` or at once.
* A lone hyphen, what looks like a negative number, and what contains a space and is no option are
  operands. After `--` everything is.
* All operands stand together. Operands after an option that follows earlier operands are too many,
  and so is an option that is not known.

The rules are those of one version of the argument parser (`Arguments.parse`). Which words are
options is settled first. Then the words are taken from left to right, and `--help`
takes effect as soon as it is reached, however faulty the rest.
-/

namespace TransferFees.Setup

/-- What is known of the owner. -/
inductive Owner where
  /-- The option is not given. -/
  | absent
  /-- The option is given without a value. -/
  | withoutValue
  /-- The option names an owner. -/
  | named (id : String)
  deriving DecidableEq, Repr

/-- The arguments of the command. -/
structure Arguments where
  /-- The owner of a fee state that is to be created. -/
  owner : Owner
  /-- The tokens to support from the start. -/
  tokens : List String
  deriving DecidableEq, Repr

/-- Why a command line gives no arguments. -/
inductive Refused where
  /-- Help was asked for. -/
  | help
  /-- The command line is faulty. -/
  | usage
  deriving DecidableEq, Repr

/-- What a word of the command line is. -/
inductive Word where
  /-- An operand. -/
  | operand (s : String)
  /-- The owner's option, with a value joined to it or without. -/
  | owner (joined : Option String)
  /-- The long option for help, with a value joined to it or without. -/
  | help (joined : Option String)
  /-- The short option for help, with something joined to it or without. -/
  | shortHelp (joined : Option (List Char))
  /-- An option that is not known. -/
  | unknown

/-- A word split at its first `=`. -/
def splitAtEquals (cs : List Char) : List Char × Option String :=
  match cs.dropWhile (· != '=') with
  | [] => (cs, none)
  | _ :: value => (cs.takeWhile (· != '='), some (String.ofList value))

/-- Whether a word looks like a negative number: a hyphen, then digits, or digits or none, a point
and digits. A line feed at the end does no harm. -/
def looksNegative (cs : List Char) : Bool :=
  let cs := if cs.getLast? = some '\n' then cs.dropLast else cs
  match cs with
  | '-' :: number =>
    let fraction := (number.dropWhile (· != '.')).drop 1
    if number.contains '.' then
      (number.takeWhile (· != '.')).all Text.isDecimalDigit && !fraction.isEmpty &&
        fraction.all Text.isDecimalDigit
    else !number.isEmpty && number.all Text.isDecimalDigit
  | _ => false

/-- The option that a word is, in full or shortened, alone or with something joined to it. -/
def option? (cs : List Char) : Except Refused (Option Word) :=
  match cs with
  | '-' :: '-' :: _ =>
    let (name, joined) := splitAtEquals cs
    match name.isPrefixOf "--help".toList, name.isPrefixOf "--owner".toList with
    | true, true => .error .usage
    | true, false => .ok (some (.help joined))
    | false, true => .ok (some (.owner joined))
    | false, false => .ok none
  | '-' :: 'h' :: '=' :: joined => .ok (some (.shortHelp (some joined)))
  | '-' :: 'h' :: joined => .ok (some (.shortHelp (if joined = [] then none else some joined)))
  | _ => .ok none

/-- What a word is. -/
def classify (s : String) : Except Refused Word :=
  let cs := s.toList
  if cs.head? ≠ some '-' ∨ cs = ['-'] then .ok (.operand s)
  else do
    match ← option? cs with
    | some word => return word
    | none => return if looksNegative cs ∨ ' ' ∈ cs then .operand s else .unknown

/-- What the short option for help comes to, given what is joined to it. -/
def refusedBy : Option (List Char) → Refused
  | none => .help
  | some joined => if joined ≠ [] ∧ joined.all (· == 'h') then .help else .usage

/-- What has been taken from a command line so far. -/
structure Taken where
  /-- What is known of the owner. -/
  owner : Owner
  /-- The operands. -/
  operands : Option (List String)
  /-- Whether the word before was one of the operands. -/
  amidOperands : Bool
  /-- Whether there was a word too many. -/
  surplus : Bool

/-- Takes words from left to right; `rest` is what followed `--`, if that was there. -/
def take (rest : Option (List String)) (t : Taken) : List Word → Except Refused Arguments
  | [] =>
    let late := rest.isSome && t.operands.isSome && !t.amidOperands
    if t.surplus || late then .error .usage
    else .ok ⟨t.owner, t.operands.getD [] ++ rest.getD []⟩
  | .operand s :: words =>
    match t.operands with
    | none => take rest { t with operands := some [s], amidOperands := true } words
    | some earlier =>
      if t.amidOperands then take rest { t with operands := some (earlier ++ [s]) } words
      else take rest { t with surplus := true } words
  | .owner (some value) :: words =>
    let owner := if value = "--" then .withoutValue else .named value
    take rest { t with owner, amidOperands := false } words
  | .owner none :: .operand value :: words =>
    take rest { t with owner := .named value, amidOperands := false } words
  | .owner none :: _ => .error .usage
  | .help none :: _ => .error .help
  | .help (some _) :: _ => .error .usage
  | .shortHelp joined :: _ => .error (refusedBy joined)
  | .unknown :: words => take rest { t with surplus := true, amidOperands := false } words

/-- The arguments that a command line gives. The rules are those of `argparse` before version 3.11.9.
Later versions take some rare command lines otherwise, among them those with `--owner=--` or with
something joined to `-h`. -/
def Arguments.parse (argv : List String) : Except Refused Arguments := do
  let words ← (argv.takeWhile (· != "--")).mapM classify
  let rest := match argv.dropWhile (· != "--") with
    | [] => none
    | _ :: rest => some rest
  take rest ⟨.absent, none, false, false⟩ words

end TransferFees.Setup
