import TransferFees.AccountId
import TransferFees.Text.Blank

/-!
# The characters of account ids

A text of a pattern is made of the characters that the pattern mentions (`Pattern.mentions`). For
account ids these are small letters, decimal digits of any script, hyphens, underscores and points.
None of them is a slash or a blank, so an id is one segment of a path, and there is nothing to strip
from it.
-/

namespace TransferFees

namespace Text

namespace Pattern

/-- Whether a character is in a class of the pattern. -/
def mentions (c : Char) : Pattern → Bool
  | .nothing => false
  | .empty => false
  | .char p => p c
  | .seq a b => a.mentions c || b.mentions c
  | .alt a b => a.mentions c || b.mentions c
  | .star a => a.mentions c

/-- A text of a pattern has no characters but those that are mentioned. By induction on how the text
matches: each constructor puts texts together, and no character comes from elsewhere. -/
theorem mentions_of_matches {a : Pattern} {s : List Char} (h : Matches a s) :
    ∀ c ∈ s, a.mentions c = true := by
  induction h with
  | empty => simp
  | char h => simpa [mentions] using h
  | seq _ _ iha ihb =>
      intro c hc
      rcases List.mem_append.1 hc with hc | hc
      · simp [mentions, iha c hc]
      · simp [mentions, ihb c hc]
  | left _ ih =>
      intro c hc
      simp [mentions, ih c hc]
  | right _ ih =>
      intro c hc
      simp [mentions, ih c hc]
  | done => simp
  | more _ _ iha ihs =>
      intro c hc
      rcases List.mem_append.1 hc with hc | hc
      · exact iha c hc
      · exact ihs c hc

end Pattern

/-- No digit of any script is a blank. -/
theorem isBlank_of_isDecimalDigit {c : Char} (h : isDecimalDigit c = true) : isBlank c = false := by
  have htable : ∀ first ∈ digitZeros, ∀ k < 10, isBlank (Char.ofNat (first + k)) = false := by
    decide +kernel
  obtain ⟨first, hfirst, hc⟩ := List.any_eq_true.1 h
  simp only [Bool.and_eq_true, decide_eq_true_eq] at hc
  have hdigit := htable first hfirst (c.toNat - first) (by omega)
  rwa [Nat.add_sub_cancel' hc.1, Char.ofNat_toNat] at hdigit

/-- Without blanks there is nothing to strip. -/
theorem strip_eq_self {s : String} (h : ∀ c ∈ s.toList, isBlank c = false) : strip s = s := by
  have htrim : trimBy isBlank s.toList = s.toList :=
    trimBy_eq_self (fun c hc => h c (List.mem_of_mem_head? hc))
      (fun c hc => h c (List.mem_of_getLast? hc))
  rw [strip, htrim, String.ofList_toList]

end Text

namespace AccountId

/-- What ids are made of, as the pattern of ids has it. -/
theorem form_mentions (c : Char) :
    form.mentions c = (isRunChar c || isJoint c || c == '.') := by
  simp only [form, segment, run, Text.Pattern.plus, Text.Pattern.lit, Text.Pattern.mentions]
  cases isRunChar c <;> cases isJoint c <;> cases c == '.' <;> rfl

section
variable {id : String}

/-- The characters of an account id. -/
theorem mem_of_isValid (h : isValid id = true) {c : Char} (hc : c ∈ id.toList) :
    (isRunChar c || isJoint c || c == '.') = true := by
  simp only [isValid, Bool.and_eq_true] at h
  rw [← form_mentions]
  exact Text.Pattern.mentions_of_matches (Text.Pattern.accepts_iff.1 h.2) c hc

/-- An account id is not empty, so it can be a segment of a path. -/
theorem ne_nil_of_isValid (h : isValid id = true) : id.toList ≠ [] := by
  intro hnil
  obtain rfl : id = "" := String.toList_inj.1 hnil
  exact absurd h (by decide)

/-- No slash divides an account id into two segments. -/
theorem slash_not_mem_of_isValid (h : isValid id = true) : '/' ∉ id.toList := by
  intro hc
  exact absurd (mem_of_isValid h hc) (by decide)

/-- No character of an account id is a blank, not even among the digits of all scripts. -/
theorem isBlank_of_mem (h : isValid id = true) {c : Char} (hc : c ∈ id.toList) :
    Text.isBlank c = false := by
  have hchar := mem_of_isValid h hc
  simp only [isRunChar, isJoint, Bool.or_eq_true, Bool.and_eq_true, decide_eq_true_eq,
    beq_iff_eq] at hchar
  rcases hchar with ((⟨ha, hz⟩ | hdigit) | rfl | rfl) | rfl
  · have hletter : 0x61 ≤ c.toNat ∧ c.toNat ≤ 0x7A := ⟨ha, hz⟩
    simp only [Text.isBlank, Text.isWhiteSpace, Bool.or_eq_false_iff, Bool.and_eq_false_iff,
      decide_eq_false_iff_not, beq_eq_false_iff_ne]
    omega
  · exact Text.isBlank_of_isDecimalDigit hdigit
  · decide
  · decide
  · decide

/-- An id is what it is without the blanks at its ends. -/
theorem strip_of_isValid (h : isValid id = true) : Text.strip id = id :=
  Text.strip_eq_self fun _ hc => isBlank_of_mem h hc

end

end AccountId

end TransferFees
