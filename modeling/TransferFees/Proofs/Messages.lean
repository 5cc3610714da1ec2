import TransferFees.Log
import TransferFees.Proofs.AccountIds
import TransferFees.Proofs.FeeState
import TransferFees.Proofs.Numerals
import TransferFees.Proofs.TokenSets

/-!
# What the message of an event tells

Of an event that was logged only the message can be read. It tells which event it was
(`Event.eq_of_message`). The first character tells the kind of the event, and each value in the
message is followed by a character that the value itself does not hold: a comma or a quote, which
no account id holds, or a blank, which no number holds. A value at the end needs none.
-/

namespace TransferFees

/-- What stands before the first of a character is settled by the whole. -/
theorem eq_of_append_cons {c : Char} {front front' rest rest' : List Char} (hc : c ∉ front)
    (hc' : c ∉ front') (h : front ++ c :: rest = front' ++ c :: rest') :
    front = front' ∧ rest = rest' := by
  induction front generalizing front' with
  | nil =>
      cases front' with
      | nil => exact ⟨rfl, List.tail_eq_of_cons_eq h⟩
      | cons x front' =>
          have hx : c = x := List.head_eq_of_cons_eq h
          exact absurd (by simp [hx]) hc'
  | cons x front ih =>
      cases front' with
      | nil =>
          have hx : x = c := List.head_eq_of_cons_eq h
          exact absurd (by simp [hx]) hc
      | cons y front' =>
          rw [List.cons_append, List.cons_append] at h
          obtain ⟨rfl, htail⟩ := List.cons.inj h
          obtain ⟨rfl, hrest⟩ :=
            ih (fun hmem => hc (.tail _ hmem)) (fun hmem => hc' (.tail _ hmem)) htail
          exact ⟨rfl, hrest⟩

/-- The same for texts with something between them that begins with the character. -/
theorem eq_of_append_separator {c : Char} {front front' separator rest rest' : String}
    (hseparator : separator.toList.head? = some c) (hc : c ∉ front.toList)
    (hc' : c ∉ front'.toList) (h : front ++ (separator ++ rest) = front' ++ (separator ++ rest')) :
    front = front' ∧ rest = rest' := by
  obtain ⟨tail, htail⟩ := List.head?_eq_some_iff.1 hseparator
  have hchars := congrArg String.toList h
  simp only [String.toList_append, htail, List.cons_append] at hchars
  obtain ⟨hfront, hrest⟩ := eq_of_append_cons hc hc' hchars
  exact ⟨String.toList_inj.1 hfront, String.toList_inj.1 (List.append_cancel_left hrest)⟩

/-! ## Numbers -/

namespace Numeral

theorem toList_signedText (z : Int) :
    (signedText z).toList = if z < 0 then '-' :: digits z.natAbs else digits z.natAbs := by
  rw [signedText]
  split
  · simp [text]
  · rw [text, String.toList_ofList]

theorem not_mem_signedText {c : Char} (hc : ¬(c = '-' ∨ c.isDigit = true)) (z : Int) :
    c ∉ (signedText z).toList := by
  have hdigits : c ∈ digits z.natAbs → c.isDigit = true :=
    (isNumeral_iff.1 (isNumeral_digits z.natAbs)).2 c
  intro h
  rw [toList_signedText] at h
  split at h
  · rcases List.mem_cons.1 h with hminus | hdigit
    · exact hc (.inl hminus)
    · exact hc (.inr (hdigits hdigit))
  · exact hc (.inr (hdigits h))

/-- Reading the text of an integer gives it back. -/
theorem integer?_signedText (z : Int) : integer? (signedText z).toList = some z := by
  have hnumeral := isNumeral_digits z.natAbs
  rw [toList_signedText]
  split
  · simp only [integer?, hnumeral, if_true, value_digits]
    exact congrArg some (by omega)
  · have hminus : ∀ rest, digits z.natAbs ≠ '-' :: rest := by
      intro rest hrest
      rw [hrest] at hnumeral
      exact absurd ((isNumeral_iff.1 hnumeral).2 '-' (by simp)) (by decide)
    rw [integer?.eq_2 _ hminus, if_pos hnumeral, value_digits]
    exact congrArg some (by omega)

/-- Integers are told apart by their texts. -/
theorem signedText_inj {z w : Int} (h : signedText z = signedText w) : z = w := by
  have hread := integer?_signedText z
  rw [h, integer?_signedText] at hread
  exact (Option.some.inj hread).symm

end Numeral

/-! ## Lists of ids -/

/-- The quote around an id. -/
def quoteMark : Char := Char.ofNat 0x27

theorem comma_not_mem_of_isValid {id : String} (h : AccountId.isValid id = true) :
    ',' ∉ id.toList := by
  intro hc
  exact absurd (AccountId.mem_of_isValid h hc) (by decide)

theorem quoteMark_not_mem_of_isValid {id : String} (h : AccountId.isValid id = true) :
    quoteMark ∉ id.toList := by
  intro hc
  exact absurd (AccountId.mem_of_isValid h hc) (by decide)

/-- The characters of a list of ids behind the quote that follows one of them. -/
def quotedRest : List String → List Char
  | [] => [']']
  | id :: rest => [',', ' ', quoteMark] ++ id.toList ++ quoteMark :: quotedRest rest

/-- A list is its first id between quotes and then the rest. -/
theorem toList_quotedList (id : String) (rest : List String) :
    (quotedList (id :: rest)).toList =
      ['[', quoteMark] ++ id.toList ++ quoteMark :: quotedRest rest := by
  have hmark : "'".toList = [quoteMark] := rfl
  induction rest generalizing id with
  | nil => simp [quotedList, quotedRest, hmark]
  | cons other rest ih => simpa [quotedList, quotedRest, hmark] using ih other

section
variable {ids others : List String}

/-- Ids are read back one after the other, each up to the quote behind it. -/
theorem eq_of_quotedRest (hids : ∀ id ∈ ids, AccountId.isValid id = true)
    (hothers : ∀ id ∈ others, AccountId.isValid id = true)
    (h : quotedRest ids = quotedRest others) : ids = others := by
  induction ids generalizing others with
  | nil =>
      cases others with
      | nil => rfl
      | cons other rest' => simp [quotedRest] at h
  | cons id rest ih =>
      cases others with
      | nil => simp [quotedRest] at h
      | cons other rest' =>
          obtain ⟨hid, hrest⟩ := List.forall_mem_cons.1 hids
          obtain ⟨hother, hrest'⟩ := List.forall_mem_cons.1 hothers
          simp only [quotedRest, List.append_assoc, List.append_cancel_left_eq] at h
          obtain ⟨hsame, h⟩ := eq_of_append_cons (quoteMark_not_mem_of_isValid hid)
            (quoteMark_not_mem_of_isValid hother) h
          rw [String.toList_inj.1 hsame, ih hrest hrest' h]

/-- Lists of account ids with the same text are the same. -/
theorem eq_of_quotedList (hids : ∀ id ∈ ids, AccountId.isValid id = true)
    (hothers : ∀ id ∈ others, AccountId.isValid id = true)
    (h : quotedList ids = quotedList others) : ids = others := by
  have hchars := congrArg String.toList h
  have hnil : (quotedList []).toList = ['[', ']'] := rfl
  cases ids with
  | nil =>
      cases others with
      | nil => rfl
      | cons other rest' => simp [hnil, toList_quotedList, quoteMark] at hchars
  | cons id rest =>
      cases others with
      | nil => simp [hnil, toList_quotedList, quoteMark] at hchars
      | cons other rest' =>
          refine eq_of_quotedRest hids hothers ?_
          rw [toList_quotedList, toList_quotedList] at hchars
          simpa [quotedRest] using hchars

end

/-! ## Events -/

namespace Event

/-- Where a fee state was created, it is a valid one. -/
def Sound : Event → Prop
  | .initialized state => state.Valid
  | _ => True

/-- The first character of the message. -/
def initial : Event → Char
  | .initialized _ => 'I'
  | .percentSet .. => 'F'
  | .tokenAdded _ => 'A'
  | .tokenRemoved _ => 'R'

/-- The messages, with their parts in view. -/
theorem message_initialized (state : FeeState) :
    (initialized state).message =
      "Initialized fees calculator: owner=" ++ state.owner ++ ", percent=" ++
        Numeral.signedText state.percent ++ ", tokens=" ++ quotedList state.tokens.toList := rfl

theorem message_percentSet (value : Int) (caller : String) :
    (percentSet value caller).message =
      "Fee percent set to " ++ Numeral.signedText value ++ " by " ++ caller := rfl

theorem message_tokenAdded (id : String) :
    (tokenAdded id).message = "Added supported token: " ++ id := rfl

theorem message_tokenRemoved (id : String) :
    (tokenRemoved id).message = "Removed supported token: " ++ id := rfl

/-- The first letter of a message tells which kind of event it is about. -/
theorem head?_message (e : Event) : e.message.toList.head? = some e.initial := by
  cases e with
  | initialized state => simp [message_initialized, initial]
  | percentSet value caller => simp [message_percentSet, initial]
  | tokenAdded id => simp [message_tokenAdded, initial]
  | tokenRemoved id => simp [message_tokenRemoved, initial]

theorem initial_eq_of_message {e e' : Event} (h : e.message = e'.message) :
    e.initial = e'.initial := by
  have hhead := e.head?_message
  rw [h, head?_message] at hhead
  exact (Option.some.inj hhead).symm

/-- Owner, percent and tokens can be read back. The owner is an account id and ends before the
comma. -/
theorem eq_of_message_initialized {state state' : FeeState} (hstate : state.Valid)
    (hstate' : state'.Valid)
    (h : (initialized state).message = (initialized state').message) : state = state' := by
  simp only [message_initialized, String.append_assoc, String.append_right_inj] at h
  obtain ⟨howner, h⟩ := eq_of_append_separator (c := ',') (by simp)
    (comma_not_mem_of_isValid hstate.owner) (comma_not_mem_of_isValid hstate'.owner) h
  obtain ⟨hpercent, h⟩ := eq_of_append_separator (c := ',') (by simp)
    (Numeral.not_mem_signedText (by decide) _) (Numeral.not_mem_signedText (by decide) _) h
  have htokens : state.tokens = state'.tokens := by
    refine TokenSet.ext_mem fun id => ?_
    rw [TokenSet.mem_def, eq_of_quotedList hstate.tokens hstate'.tokens h]
    rfl
  obtain ⟨owner, percent, tokens⟩ := state
  obtain ⟨owner', percent', tokens'⟩ := state'
  obtain rfl : owner = owner' := howner
  obtain rfl : percent = percent' := Numeral.signedText_inj hpercent
  obtain rfl : tokens = tokens' := htokens
  rfl

/-- So can percent and caller: the percent ends before the blank, and the caller is all that is
left. -/
theorem eq_of_message_percentSet {value value' : Int} {caller caller' : String}
    (h : (percentSet value caller).message = (percentSet value' caller').message) :
    value = value' ∧ caller = caller' := by
  simp only [message_percentSet, String.append_assoc, String.append_right_inj] at h
  obtain ⟨hvalue, hcaller⟩ := eq_of_append_separator (c := ' ') (by simp)
    (Numeral.not_mem_signedText (by decide) _) (Numeral.not_mem_signedText (by decide) _) h
  exact ⟨Numeral.signedText_inj hvalue, hcaller⟩

/-- **The message tells the event.** -/
theorem eq_of_message {e e' : Event} (he : e.Sound) (he' : e'.Sound)
    (h : e.message = e'.message) : e = e' := by
  have hinitial := initial_eq_of_message h
  cases e <;> cases e' <;> try cases hinitial
  case initialized state state' => rw [eq_of_message_initialized he he' h]
  case percentSet value caller value' caller' =>
    obtain ⟨rfl, rfl⟩ := eq_of_message_percentSet h
    rfl
  case tokenAdded id id' =>
    rw [message_tokenAdded, message_tokenAdded, String.append_right_inj] at h
    rw [h]
  case tokenRemoved id id' =>
    rw [message_tokenRemoved, message_tokenRemoved, String.append_right_inj] at h
    rw [h]

end Event

end TransferFees
