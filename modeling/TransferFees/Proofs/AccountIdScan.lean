import Mathlib.Data.List.Chain
import TransferFees.AccountId
import TransferFees.Proofs.Patterns

/-!
# Account ids in one pass

The pattern of account ids repeats segments between points, and in each segment runs between joints.
It leaves open how a text is to be divided. One pass from left to right needs no division: it keeps
in mind whether the character before belongs to a run, as only then a separator may come, or the end
(`scan`). The two agree on all texts (`matches_form_iff_scan`), by one argument for each direction.

**From the pattern to the pass.** What has been read of a text matters only through that one bit
(`Leads`). A run ends amid a run, a run and a joint end behind a separator, and so on outwards to
segments and whole ids.

**From the pass to the pattern.** The induction is on what is left of the text. Behind a separator it
has to be an id by itself; amid a run it has to make an id together with the run so far, whatever
that run is.

What the pass accepts can be said without it: separators stand neither at the ends nor side by side
(`scan_iff_spaced`).
-/

namespace TransferFees.AccountId

open Text (Pattern)
open Text.Pattern

/-! ## The pass -/

/-- The characters between runs: joints and points. -/
def isSeparator (c : Char) : Bool := isJoint c || c == '.'

/-- Reads a text from left to right, with the bit that tells whether the character before belongs to
a run. -/
def scan : Bool → List Char → Bool
  | afterRun, [] => afterRun
  | afterRun, c :: rest =>
    if isRunChar c then scan true rest else isSeparator c && afterRun && scan false rest

/-- No character both continues a run and ends it, so the pass has one way to go. -/
theorem isSeparator_of_isRunChar {c : Char} (h : isRunChar c = true) : isSeparator c = false := by
  cases hc : isSeparator c with
  | false => rfl
  | true =>
      simp only [isSeparator, isJoint, Bool.or_eq_true, beq_iff_eq] at hc
      rcases hc with (rfl | rfl) | rfl <;> exact absurd h (by decide)

section
variable {afterRun : Bool} {c : Char} {rest : List Char}

theorem scan_run (h : isRunChar c = true) : scan afterRun (c :: rest) = scan true rest := if_pos h

/-- A character that belongs to no run has to be a separator behind a run. -/
theorem scan_not_run (h : ¬isRunChar c = true) :
    scan afterRun (c :: rest) = (isSeparator c && afterRun && scan false rest) := if_neg h

theorem scan_separator (h : isSeparator c = true) : scan true (c :: rest) = scan false rest := by
  have hrun : ¬isRunChar c = true := by
    intro hc
    rw [isSeparator_of_isRunChar hc] at h
    cases h
  rw [scan_not_run hrun, h, Bool.true_and, Bool.true_and]

end

/-! ## From the pattern to the pass -/

/-- Reading the text leads from one bit to the other, whatever comes next. -/
def Leads (before : Bool) (cs : List Char) (after : Bool) : Prop :=
  ∀ rest, scan before (cs ++ rest) = scan after rest

namespace Leads

variable {before amid after : Bool} {cs ds : List Char} {a b : Pattern}

theorem append (h : Leads before cs amid) (h' : Leads amid ds after) :
    Leads before (cs ++ ds) after := by
  intro rest
  rw [List.append_assoc, h, h']

/-- What leads back to where it began may be repeated. -/
theorem of_star (ha : ∀ u, Matches a u → Leads before u before) (h : Matches (.star a) cs) :
    Leads before cs before :=
  star_induction (fun _ => rfl) (fun u _ hu _ ih => (ha u hu).append ih) h

/-- A concatenation leads through the point where its parts meet. -/
theorem of_seq (ha : ∀ u, Matches a u → Leads before u amid)
    (hb : ∀ u, Matches b u → Leads amid u after) (h : Matches (.seq a b) cs) :
    Leads before cs after := by
  obtain ⟨u, v, rfl, hu, hv⟩ := matches_seq_iff.1 h
  exact (ha u hu).append (hb v hv)

/-- Parts with separators lead where one part leads, if a separator leads back. -/
theorem of_separated (ha : ∀ u, Matches a u → Leads before u after)
    (hb : ∀ u, Matches b u → Leads after u before) (h : Matches (separated a b) cs) :
    Leads before cs after :=
  of_seq (fun _ => of_star fun _ => of_seq ha hb) ha h

theorem of_run (h : Matches run cs) : Leads before cs true := by
  obtain ⟨hne, hrun⟩ := matches_plus_char_iff.1 h
  intro rest
  clear h
  induction cs generalizing before with
  | nil => exact absurd rfl hne
  | cons c others ih =>
      obtain ⟨hc, hothers⟩ := List.forall_mem_cons.1 hrun
      rw [List.cons_append, scan_run hc]
      cases others with
      | nil => rfl
      | cons d others => exact ih (by simp) hothers

theorem of_separator {p : Char → Bool} (hp : ∀ c, p c = true → isSeparator c = true)
    (h : Matches (.char p) cs) : Leads true cs false := by
  obtain ⟨c, rfl, hc⟩ := matches_char_iff.1 h
  exact fun rest => scan_separator (hp c hc)

theorem of_segment (h : Matches segment cs) : Leads false cs true := by
  refine of_separated (fun _ => of_run) (fun _ => of_separator fun c hc => ?_) h
  simp [isSeparator, hc]

/-- The pattern of ids leads from the beginning to behind a run, where a text may end. -/
theorem of_form (h : Matches form cs) : Leads false cs true := by
  refine of_separated (fun _ => of_segment) (fun _ => of_separator fun c hc => ?_) h
  simp_all [isSeparator]

end Leads

/-! ## From the pass to the pattern -/

section
variable {u w : List Char} {c : Char}

/-- A run goes on with each of its characters. -/
theorem matches_run_concat (hu : Matches run u) (hc : isRunChar c = true) :
    Matches run (u ++ [c]) := by
  obtain ⟨-, hrun⟩ := matches_plus_char_iff.1 hu
  refine matches_plus_char_iff.2 ⟨by simp, fun d hd => ?_⟩
  rcases List.mem_append.1 hd with hd | hd
  · exact hrun d hd
  · rwa [List.mem_singleton.1 hd]

theorem matches_segment_of_run (hu : Matches run u) : Matches segment u :=
  matches_separated_iff.2 (.inl hu)

theorem matches_form_of_run (hu : Matches run u) : Matches form u :=
  matches_separated_iff.2 (.inl (matches_segment_of_run hu))

/-- A run and a joint in front of an id belong to its first segment. -/
theorem matches_form_joint (hu : Matches run u) (hc : isJoint c = true) (hw : Matches form w) :
    Matches form (u ++ c :: w) := by
  have hsegment : ∀ {v}, Matches segment v → Matches segment (u ++ c :: v) := fun hv =>
    matches_separated_iff.2 (.inr ⟨u, [c], _, rfl, hu, .char hc, hv⟩)
  rcases matches_separated_iff.1 hw with hfirst | ⟨first, point, others, rfl, hfirst, hpoint, hothers⟩
  · exact matches_separated_iff.2 (.inl (hsegment hfirst))
  · refine matches_separated_iff.2 (.inr ⟨_, point, others, ?_, hsegment hfirst, hpoint, hothers⟩)
    simp

/-- A run and a point in front of an id are a segment of their own. -/
theorem matches_form_point (hu : Matches run u) (hw : Matches form w) :
    Matches form (u ++ '.' :: w) :=
  matches_separated_iff.2
    (.inr ⟨u, ['.'], w, rfl, matches_segment_of_run hu, matches_lit_iff.2 rfl, hw⟩)

/-- A run and any separator may stand in front of what is in the form already. The two kinds of
separators are at different depths of the pattern, hence the case split. -/
theorem matches_form_separator (hu : Matches run u) (hc : isSeparator c = true)
    (hw : Matches form w) : Matches form (u ++ c :: w) := by
  simp only [isSeparator, Bool.or_eq_true, beq_iff_eq] at hc
  rcases hc with hjoint | rfl
  · exact matches_form_joint hu hjoint hw
  · exact matches_form_point hu hw

end

/-- What the pass lets through is in the form. By induction on the text, for both states at once:
behind a run there is a run in front that the rest of the text goes on from. -/
theorem matches_form_of_scan (cs : List Char) :
    (scan false cs = true → Matches form cs) ∧
      (scan true cs = true → ∀ u, Matches run u → Matches form (u ++ cs)) := by
  induction cs with
  | nil =>
      refine ⟨nofun, fun _ u hu => ?_⟩
      rw [List.append_nil]
      exact matches_form_of_run hu
  | cons c rest ih =>
      obtain ⟨ihSeparator, ihRun⟩ := ih
      by_cases hc : isRunChar c = true
      · rw [scan_run hc, scan_run hc]
        refine ⟨fun h => ihRun h [c] (matches_plus_char_iff.2 (by simp [hc])), fun h u hu => ?_⟩
        -- the run so far grows by the character, so the induction has to be about all runs
        simpa using ihRun h _ (matches_run_concat hu hc)
      · rw [scan_not_run hc, scan_not_run hc]
        simp only [Bool.and_false, Bool.false_and, Bool.and_true, Bool.and_eq_true, reduceCtorEq,
          false_implies, true_and]
        rintro ⟨hseparator, hrest⟩ u hu
        exact matches_form_separator hu hseparator (ihSeparator hrest)

/-- **The pattern and the pass agree.** -/
theorem matches_form_iff_scan (cs : List Char) : Matches form cs ↔ scan false cs = true := by
  constructor
  · intro h
    have hled := Leads.of_form h []
    rwa [List.append_nil] at hled
  · exact (matches_form_of_scan cs).1

/-! ## Without the pass -/

/-- The characters are those of runs and separators. The first and the last one are no separators,
and no two separators stand side by side. -/
structure Spaced (cs : List Char) : Prop where
  chars : ∀ c ∈ cs, isRunChar c = true ∨ isSeparator c = true
  first : ∃ c ∈ cs.head?, isSeparator c = false
  last : ∃ c ∈ cs.getLast?, isSeparator c = false
  apart : cs.IsChain fun c d => ¬(isSeparator c = true ∧ isSeparator d = true)

/-- The bit that a pass begins with stands for a character in front of the text. The induction is on
the text, and each character takes the place of the one before. -/
theorem scan_iff_behind (before : Char) (cs : List Char) :
    scan (!isSeparator before) cs = true ↔
      (∀ c ∈ cs, isRunChar c = true ∨ isSeparator c = true) ∧
        ((before :: cs).IsChain fun c d => ¬(isSeparator c = true ∧ isSeparator d = true)) ∧
        ∃ c ∈ (before :: cs).getLast?, isSeparator c = false := by
  induction cs generalizing before with
  | nil => simp [scan]
  | cons c rest ih =>
      rw [List.forall_mem_cons, List.isChain_cons_cons, List.getLast?_cons_cons]
      by_cases hc : isRunChar c = true
      · have hapart : isSeparator c = false := isSeparator_of_isRunChar hc
        have hrest := ih c
        rw [hapart, Bool.not_false] at hrest
        rw [scan_run hc, hrest]
        simp [hc, hapart]
      · rw [scan_not_run hc]
        cases hseparator : isSeparator c with
        | false => simp [hc]
        | true =>
            have hrest := ih c
            rw [hseparator, Bool.not_true] at hrest
            simp only [Bool.true_and, Bool.and_eq_true, Bool.not_eq_true', hrest]
            cases isSeparator before <;> simp

/-- **What the pass accepts.** -/
theorem scan_iff_spaced (cs : List Char) : scan false cs = true ↔ Spaced cs := by
  -- a text begins as it goes on behind a point
  have hpoint := scan_iff_behind '.' cs
  rw [show (!isSeparator '.') = false from rfl] at hpoint
  rw [hpoint]
  cases cs with
  | nil =>
      refine iff_of_false ?_ fun h => by simpa using h.first
      rintro ⟨-, -, c, hc, hlast⟩
      cases hc
      cases hlast
  | cons c rest =>
      rw [List.isChain_cons_cons, List.getLast?_cons_cons]
      constructor
      · rintro ⟨hchars, ⟨hfirst, hapart⟩, hlast⟩
        refine ⟨hchars, ⟨c, rfl, ?_⟩, hlast, hapart⟩
        simpa [isSeparator] using hfirst
      · rintro ⟨hchars, ⟨d, hd, hfirst⟩, hlast, hapart⟩
        cases hd
        exact ⟨hchars, ⟨by simp [hfirst], hapart⟩, hlast⟩

/-- **The check accepts exactly the texts of 2 to 64 characters with single separators between
runs.** It gives an accepted text back and refuses every other one, and on the form of a text the
pattern and one pass from left to right agree. -/
theorem check_eq_ok_iff_spaced (id : String) :
    (check id = .ok id ↔ (2 ≤ id.length ∧ id.length ≤ 64) ∧ Spaced id.toList) ∧
      ((∃ reason, check id = .error reason) ↔
        ¬((2 ≤ id.length ∧ id.length ≤ 64) ∧ Spaced id.toList)) ∧
      ∀ cs, (Matches form cs ↔ scan false cs = true) ∧ (scan false cs = true ↔ Spaced cs) := by
  have haccepted : check id = .ok id ↔ (2 ≤ id.length ∧ id.length ≤ 64) ∧ Spaced id.toList := by
    rw [check_eq_ok_iff, isValid, ← scan_iff_spaced, ← matches_form_iff_scan, ← accepts_iff]
    simp only [Bool.and_eq_true, decide_eq_true_eq, true_and]
    exact Iff.rfl
  refine ⟨haccepted, ?_, fun cs => ⟨matches_form_iff_scan cs, scan_iff_spaced cs⟩⟩
  rw [← haccepted]
  cases hcheck : check id with
  | ok other =>
      obtain rfl := (check_eq_ok_iff.1 hcheck).1
      simp
  | error reason => simp

end TransferFees.AccountId
