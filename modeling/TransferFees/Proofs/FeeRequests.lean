import Mathlib
import TransferFees.Proofs.Numerals
import TransferFees.Proofs.Statuses

/-!
# Requests for fees

From the texts of a request for a fee to the text of the answer. Which amounts and ids are taken is
said of the texts alone (`IsAmount`, `AccountId.isValid`). What is charged is the percent of the
amount, rounded down, and nothing for a token without support (`Http.handle_fee`). Neither the
network nor the address makes a difference, and the cap never does.

An answer that turns a request down quotes what is wrong with it. Whole texts can be quoted. Half a
character cannot, and where it stands in the amount the answer is lost
(`Http.handle_fee_half_character`).
-/

namespace TransferFees

/-! ## Amounts -/

/-- The text stands for an amount: ASCII digits, one of them or more and 4300 at most, with a value
of 128 bits. -/
structure IsAmount (s : String) : Prop where
  nonempty : s.toList ≠ []
  digits : ∀ c ∈ s.toList, c.isDigit = true
  length : s.length ≤ 4300
  value : Numeral.value s.toList < Nat.pow 2 128

theorem greatestAmount_add_one : greatestAmount + 1 = (Nat.pow 2 128 : Nat) := by decide

/-- What is read as an amount is an amount, and is read as its value. -/
theorem parseAmount_eq_ok_iff {s : String} {n : Int} :
    parseAmount s = .ok n ↔ IsAmount s ∧ n = Numeral.value s.toList := by
  have hgreatest := greatestAmount_add_one
  rw [parseAmount]
  by_cases hnumeral : Numeral.isNumeral s.toList = true
  · obtain ⟨hnonempty, hdigits⟩ := Numeral.isNumeral_iff.1 hnumeral
    rw [if_neg (by simp [hnumeral])]
    by_cases hlength : amountDigits < s.length
    · rw [if_pos hlength]
      exact iff_of_false nofun fun h => absurd h.1.length (Nat.not_le.2 hlength)
    · rw [if_neg hlength]
      by_cases hlarge : greatestAmount < (Numeral.value s.toList : Int)
      · rw [if_pos hlarge]
        refine iff_of_false nofun fun h => ?_
        have hvalue := h.1.value
        omega
      · rw [if_neg hlarge]
        have hvalue : Numeral.value s.toList < Nat.pow 2 128 := by omega
        constructor
        · rintro ⟨⟩
          exact ⟨⟨hnonempty, hdigits, Nat.not_lt.1 hlength, hvalue⟩, rfl⟩
        · rintro ⟨-, rfl⟩
          rfl
  · rw [if_pos (by simp [hnumeral])]
    refine iff_of_false nofun fun h => hnumeral ?_
    exact Numeral.isNumeral_iff.2 ⟨h.1.nonempty, h.1.digits⟩

/-! ## Issues -/

namespace Checked

variable {α β : Type}

/-- What is wrong, if anything is. -/
def issues : Checked α → List Issue
  | .ok _ => []
  | .error found => found

@[simp] theorem issues_problem (p : Problem) (v : Json) :
    (problem p v : Checked α).issues = [⟨[], p, v⟩] := rfl

@[simp] theorem issues_inside (place : Place) (c : Checked α) :
    (c.inside place).issues =
      c.issues.map fun issue => { issue with place := place :: issue.place } := by
  cases c <;> rfl

/-- The issues of two checks are put together, so a refusal quotes whatever either of them has
found. -/
@[simp] theorem issues_both (x : Checked α) (y : Checked β) :
    (x.both y).issues = x.issues ++ y.issues := by
  cases x <;> cases y <;> simp [both, issues]

@[simp] theorem issues_map (c : Checked α) (f : α → β) : issues (c.map f) = c.issues := by
  cases c <;> rfl

/-- Whatever is wrong is wrong with a whole text. -/
def QuotesTexts (c : Checked α) : Prop := ∀ issue ∈ c.issues, ∃ s, issue.value = .text s

/-- Where only texts are quoted by each check, only texts are quoted by both. -/
theorem QuotesTexts.both {x : Checked α} {y : Checked β} (hx : x.QuotesTexts)
    (hy : y.QuotesTexts) : (x.both y).QuotesTexts := by
  intro issue hissue
  rw [issues_both] at hissue
  rcases List.mem_append.1 hissue with h | h
  · exact hx issue h
  · exact hy issue h

theorem QuotesTexts.inside {c : Checked α} (hc : c.QuotesTexts) (place : Place) :
    (c.inside place).QuotesTexts := by
  intro issue hissue
  rw [issues_inside] at hissue
  obtain ⟨inner, hinner, rfl⟩ := List.mem_map.1 hissue
  exact hc inner hinner

/-- A check that finds no more than one problem, and finds it with the text as a whole. -/
theorem quotesTexts_of_text {s : String} {c : Checked α}
    (h : (∃ a, c = .ok a) ∨ ∃ p, c = problem p (.text s)) : c.QuotesTexts := by
  rcases h with ⟨a, rfl⟩ | ⟨p, rfl⟩
  · exact nofun
  · intro issue hissue
    rw [issues_problem, List.mem_singleton] at hissue
    exact ⟨s, by rw [hissue]⟩

theorem quotesTexts_ok (a : α) : QuotesTexts (.ok a) := nofun

/-- The field of the amount is read as a text, and kept as it was written. -/
theorem amount_text (s : String) :
    amount (.text s) =
      match parseAmount s with
      | .ok _ => .ok s
      | .error reason => problem (.refused reason.message) (.text s) := rfl

theorem amount_text_eq_ok_iff {s s' : String} :
    amount (.text s) = .ok s' ↔ s' = s ∧ IsAmount s := by
  rw [amount_text]
  cases hparse : parseAmount s with
  | ok n => simp [(parseAmount_eq_ok_iff.1 hparse).1, eq_comm]
  | error reason =>
      refine iff_of_false nofun fun h => ?_
      rw [parseAmount_eq_ok_iff.2 ⟨h.2, rfl⟩] at hparse
      cases hparse

theorem quotesTexts_amount (s : String) : (amount (.text s)).QuotesTexts := by
  refine quotesTexts_of_text (s := s) ?_
  rw [amount_text]
  cases parseAmount s with
  | ok n => exact .inl ⟨s, rfl⟩
  | error reason => exact .inr ⟨_, rfl⟩

theorem quotesTexts_accountId (s : String) : (accountId (.text s)).QuotesTexts := by
  refine quotesTexts_of_text (s := s) ?_
  simp only [accountId, wholeText, bind, Except.bind]
  split
  · exact .inr ⟨_, rfl⟩
  · split
    · exact .inr ⟨_, rfl⟩
    · split
      · exact .inl ⟨_, rfl⟩
      · exact .inr ⟨_, rfl⟩

end Checked

/-- **An issue with a whole text can be written.** This is the hypothesis that halves of characters
break. -/
theorem Issue.isWritable_toJson {issue : Issue} {s : String} (h : issue.value = .text s) :
    issue.toJson.isWritable = true := by
  have hplaces : ∀ places : List Place,
      Json.areWritable (places.map Place.toJson) = true := by
    intro places
    induction places with
    | nil => rfl
    | cons place rest ih =>
        cases place <;> simpa [Json.areWritable, Json.isWritable, Place.toJson] using ih
  simp [toJson, h, Json.isWritable, Json.fieldsWritable, Json.disclosed, hplaces]

theorem Json.areWritable_iff {items : List Json} :
    areWritable items = true ↔ ∀ v ∈ items, v.isWritable = true := by
  induction items with
  | nil => simp [areWritable]
  | cons v rest ih => simp [areWritable, ih]

/-! ## The form -/

/-- The four fields of a request for a fee hold these texts. The first three are whole. -/
structure FeeForm.Holds (v : Json) (form : FeeForm) : Prop where
  amount : v.field? "amount" = some (.text form.amount)
  token : v.field? "token_id" = some (.text form.token)
  network : v.field? "target_network" = some (.text form.network)
  address : (v.field? "target_address").bind Json.text? = some form.address

/-- The texts that a request for a fee has to hold. -/
structure FeeForm.InOrder (form : FeeForm) : Prop where
  amount : IsAmount form.amount
  token : AccountId.isValid form.token = true
  network : AccountId.isValid form.network = true

namespace FeeForm.Holds

variable {v : Json} {form : FeeForm}

/-- The address alone is not looked at, and may hold halves of characters. -/
theorem ofObject_eq (h : FeeForm.Holds v form) :
    ofObject v =
      (((Checked.amount (.text form.amount)).inside (.field "amount")).both
        (((Checked.accountId (.text form.token)).inside (.field "token_id")).both
          (((Checked.accountId (.text form.network)).inside (.field "target_network")).both
            (.ok form.address)))).map
        fun (amount, token, network, address) => ⟨amount, token, network, address⟩ := by
  obtain ⟨a, haddress, htext⟩ := Option.bind_eq_some_iff.1 h.address
  simp only [ofObject, Checked.required, h.amount, h.token, h.network, haddress, Checked.text,
    htext]
  rfl

/-- **What is taken.** -/
theorem ofObject_eq_ok_iff (h : FeeForm.Holds v form) {read : FeeForm} :
    ofObject v = .ok read ↔ form.InOrder ∧ read = form := by
  rw [h.ofObject_eq]
  constructor
  · intro hread
    obtain ⟨⟨amount, token, network, address⟩, hfields, rfl⟩ := Except.map_eq_ok_iff.1 hread
    obtain ⟨hamount, hfields⟩ := Checked.both_eq_ok_iff.1 hfields
    obtain ⟨htoken, hfields⟩ := Checked.both_eq_ok_iff.1 hfields
    obtain ⟨hnetwork, haddress⟩ := Checked.both_eq_ok_iff.1 hfields
    obtain ⟨rfl, hisAmount⟩ :=
      Checked.amount_text_eq_ok_iff.1 (Checked.inside_eq_ok_iff.1 hamount)
    obtain ⟨⟨⟩, hisToken⟩ := Checked.accountId_eq_ok_iff.1 (Checked.inside_eq_ok_iff.1 htoken)
    obtain ⟨⟨⟩, hisNetwork⟩ := Checked.accountId_eq_ok_iff.1 (Checked.inside_eq_ok_iff.1 hnetwork)
    cases haddress
    exact ⟨⟨hisAmount, hisToken, hisNetwork⟩, rfl⟩
  · rintro ⟨⟨hamount, htoken, hnetwork⟩, rfl⟩
    rw [Checked.amount_text_eq_ok_iff.2 ⟨rfl, hamount⟩,
      Checked.accountId_eq_ok_iff.2 ⟨rfl, htoken⟩, Checked.accountId_eq_ok_iff.2 ⟨rfl, hnetwork⟩]
    rfl

/-- A form with four texts, right or wrong, is told of in texts. -/
theorem quotesTexts (h : FeeForm.Holds v form) : (ofObject v).QuotesTexts := by
  have hfields := (((Checked.quotesTexts_amount form.amount).inside (.field "amount")).both
    (((Checked.quotesTexts_accountId form.token).inside (.field "token_id")).both
      (((Checked.quotesTexts_accountId form.network).inside (.field "target_network")).both
        (Checked.quotesTexts_ok form.address))))
  intro issue hissue
  rw [h.ofObject_eq, Checked.issues_map] at hissue
  exact hfields issue hissue

end FeeForm.Holds

/-! ## What is charged -/

/-- For an amount that is taken, the formula is exact. -/
theorem FeeState.Valid.fee_of_inOrder {s : FeeState} (hs : s.Valid) {form : FeeForm}
    (h : form.InOrder) :
    s.fee form.transfer =
      .ok (if form.token ∈ s.tokens then Numeral.value form.amount.toList * s.percent / 10000
        else 0) := by
  have hle : (Numeral.value form.amount.toList : Int) ≤ greatestAmount := by
    have hvalue := h.amount.value
    have hgreatest := greatestAmount_add_one
    omega
  have hfee : feeOf (Numeral.value form.amount.toList) s.percent =
      .ok (Numeral.value form.amount.toList * s.percent / 10000) := by
    rw [feeOf_of_le_greatestAmount (Int.natCast_nonneg _) hle hs.percent, Int.mul_comm]
    rfl
  by_cases hmem : form.token ∈ s.tokens
  · rw [if_pos hmem, ← hfee]
    exact if_pos hmem
  · rw [if_neg hmem]
    exact if_neg hmem

namespace Http

/-- The request leads to the fee of a transfer, and its body is an object with these texts. -/
structure Request.AsksFee (r : Request) (form : FeeForm) : Prop where
  endpoint : Route.ofRequest r = .endpoint .fee
  content : ∃ v, r.content = .value v ∧ FeeForm.Holds v form

section
variable {r : Request} {form : FeeForm} {s : FeeState}

theorem Request.AsksFee.intake (h : r.AsksFee form) :
    ∃ v, FeeForm.Holds v form ∧
      r.intake (.ok ()) FeeForm.ofObject =
        (Checked.both (.ok ()) ((FeeForm.ofObject v).inside (.field "body"))).mapError
          .invalid := by
  obtain ⟨v, hcontent, hholds⟩ := h.content
  exact ⟨v, hholds, r.intake_of_value hcontent (Json.isSome_object? hholds.amount) _ _⟩

theorem Request.AsksFee.call? (h : r.AsksFee form) (hform : form.InOrder) :
    r.call? = some (.fee form) := by
  obtain ⟨v, hholds, hintake⟩ := h.intake
  have hread : FeeForm.ofObject v = .ok form := hholds.ofObject_eq_ok_iff.2 ⟨hform, rfl⟩
  rw [hread] at hintake
  rw [Request.call?, h.endpoint, Route.call?, Endpoint.call?, hintake]
  rfl

/-- A question leaves everything as it is. -/
theorem Request.AsksFee.storage (h : r.AsksFee form) (settings : Settings) (storage : Storage) :
    (handle settings r storage).storage = storage := by
  rcases handle_effect settings r storage with hsame | ⟨-, c, hc, -⟩
  · exact hsame
  · rw [Request.change?, h.endpoint] at hc
    cases hc

/-- What is turned down is turned down in words, since it holds whole texts. -/
theorem Request.AsksFee.status_refused (h : r.AsksFee form) (hform : ¬form.InOrder)
    (settings : Settings) (storage : Storage) :
    (handle settings r storage).response.status = 422 := by
  obtain ⟨v, hholds, hintake⟩ := h.intake
  have hquotes : ((FeeForm.ofObject v).inside (.field "body")).QuotesTexts :=
    hholds.quotesTexts.inside _
  cases hread : (FeeForm.ofObject v).inside (.field "body") with
  | ok read =>
      have hok := hholds.ofObject_eq_ok_iff.1 (Checked.inside_eq_ok_iff.1 hread)
      exact absurd hok.1 hform
  | error issues =>
      rw [hread] at hintake hquotes
      have hanswer : Endpoint.fee.answer settings r storage =
          .still (IntakeError.invalid issues).response storage := by
        simp only [Endpoint.answer, proceed, hintake]
        rfl
      have hwritable : (IntakeError.invalid issues).response.body.isWritable = true := by
        have hissues : Json.areWritable (issues.map Issue.toJson) = true := by
          rw [Json.areWritable_iff]
          intro w hw
          obtain ⟨issue, hissue, rfl⟩ := List.mem_map.1 hw
          obtain ⟨text, htext⟩ := hquotes issue hissue
          exact Issue.isWritable_toJson htext
        simp [IntakeError.response, Response.detail, Response.ofJson, Body.isWritable,
          Json.isWritable, Json.fieldsWritable, hissues]
      rw [handle_of_endpoint settings h.endpoint, hanswer]
      simp only [Exchange.still, hwritable, if_true]
      rfl

/-- **From text to text.** A request for a fee is taken if the amount and the two ids are in order,
and is answered with the canonical text of the fee; any other is turned down with 422. -/
theorem handle_fee (settings : Settings) (hs : s.Valid) (h : r.AsksFee form) :
    let exchange := handle settings r (.ready s.tables)
    exchange.storage = .ready s.tables ∧
      (¬form.InOrder → exchange.response.status = 422) ∧
      (form.InOrder → exchange.response.status = 200 ∧
        ∃ text n, exchange.response.body = .json (.object [("fee", .text text)]) ∧
          Numeral.IsCanonical text n ∧
          (n : Int) = if form.token ∈ s.tokens then
            Numeral.value form.amount.toList * s.percent / 10000 else 0) := by
  intro exchange
  refine ⟨h.storage settings _, fun hform => h.status_refused hform settings _, fun hform => ?_⟩
  have hexchange : exchange = _ := handle_of_call settings (h.call? hform) _
  have hfee := hs.fee_of_inOrder hform
  generalize hcharge : (if form.token ∈ s.tokens then
    (Numeral.value form.amount.toList : Int) * s.percent / 10000 else 0) = charge at hfee
  have hnonneg : 0 ≤ charge := by
    have hpercent : 0 ≤ s.percent := Int.le_trans (by decide) hs.percent.1
    have hproduct := Int.mul_nonneg (Int.natCast_nonneg (Numeral.value form.amount.toList)) hpercent
    split at hcharge <;> omega
  obtain ⟨n, rfl⟩ := Int.eq_ofNat_of_zero_le hnonneg
  have hanswer : ((Call.fee form).answer settings (.ready s.tables)).response =
      .ofJson 200 (FeeAnswer.toJson ⟨Numeral.text n⟩) := by
    rw [← Numeral.signedText_natCast]
    exact response_serve (Work.Yields.commit
      (.bind (Service.yields_fee hs hfee) (Work.yields_pure _)))
  rw [hexchange, hanswer]
  exact ⟨rfl, Numeral.text n, n, rfl, Numeral.isCanonical_text n, rfl⟩

end

/-! ## Two requests -/

/-- A request for the fee of a transfer to Aurora. The amount stands between its quotes as it is. -/
def Request.forFee (amount : String) : Request :=
  ⟨"http://localhost", "POST", "/api/v1/fees/calculate", [("content-type", "application/json")],
    "\x7b\"amount\":\"" ++ amount ++ "\",\"token_id\":\"usdt.near\"," ++
      "\"target_network\":\"aurora\",\"target_address\":\"x\"\x7d"⟩

/-- What the body of such a request holds, with what the amount is read as. -/
def Request.forFeeBody (amount : Json) : Json :=
  .object [("amount", amount), ("token_id", .text "usdt.near"), ("target_network", .text "aurora"),
    ("target_address", .text "x")]

theorem Request.content_forFee {amount : String} {v : Json}
    (h : Json.readOctets (forFee amount).body.toList = .ok v) :
    (forFee amount).content = .value v := by
  have hheader : (forFee amount).header? "content-type" = some "application/json" := by cbv
  exact content_of_readOctets hheader h

/-- A thousand with zeros in front costs fifty at five percent. -/
theorem handle_fee_thousand :
    let s : FeeState := ⟨"owner.near", 500, .ofList ["usdt.near"]⟩
    let form : FeeForm := ⟨"001000", "usdt.near", "aurora", "x"⟩
    let response := (handle {} (Request.forFee "001000") (.ready s.tables)).response
    s.Valid ∧ (Request.forFee "001000").AsksFee form ∧ form.InOrder ∧ response.status = 200 ∧
      ∃ text, response.body = .json (.object [("fee", .text text)]) ∧
        Numeral.IsCanonical text 50 := by
  intro s form response
  have hmake : FeeState.make "owner.near" 500 (.ofList ["usdt.near"]) = .ok s := rfl
  have hs : s.Valid := (FeeState.make_eq_ok_iff.1 hmake).2
  have hroute : Route.ofRequest (Request.forFee "001000") = .endpoint .fee := by decide
  have hread : Json.readOctets (Request.forFee "001000").body.toList =
      .ok (Request.forFeeBody (.text "001000")) := by cbv
  have hasks : (Request.forFee "001000").AsksFee form :=
    ⟨hroute, _, Request.content_forFee hread, rfl, rfl, rfl, rfl⟩
  have hnumeral : Numeral.isNumeral form.amount.toList = true := by decide
  obtain ⟨hnonempty, hdigits⟩ := Numeral.isNumeral_iff.1 hnumeral
  have hform : form.InOrder :=
    ⟨⟨hnonempty, hdigits, by decide, by decide⟩, by decide, by decide⟩
  obtain ⟨hstatus, text, n, hbody, hcanonical, hn⟩ := (handle_fee {} hs hasks).2.2 hform
  have hmem : form.token ∈ s.tokens := TokenSet.mem_ofList.2 List.mem_cons_self
  have hvalue : Numeral.value form.amount.toList = 1000 := by decide
  have hcharge : (n : Int) = 50 := by
    rw [hn, if_pos hmem, hvalue]
    rfl
  obtain rfl : n = 50 := Int.ofNat_inj.1 hcharge
  exact ⟨hs, hasks, hform, hstatus, text, hbody, hcanonical⟩

/-- The half of a character is no digit, so this request should be turned down as well. But the
answer would quote it, and is not written. -/
theorem handle_fee_half_character :
    let s : FeeState := ⟨"owner.near", 500, .ofList ["usdt.near"]⟩
    let r := Request.forFee "1\\udc00"
    s.Valid ∧ Route.ofRequest r = .endpoint .fee ∧
      r.content = .value (Request.forFeeBody (.brokenText "1\uFFFD")) ∧
      (handle {} r (.ready s.tables)).response.status = 500 := by
  intro s r
  have hmake : FeeState.make "owner.near" 500 (.ofList ["usdt.near"]) = .ok s := rfl
  have hroute : Route.ofRequest (Request.forFee "1\\udc00") = .endpoint .fee := by decide
  have hread : Json.readOctets (Request.forFee "1\\udc00").body.toList =
      .ok (Request.forFeeBody (.brokenText "1\uFFFD")) := by cbv
  have hcontent := Request.content_forFee hread
  have hintake : (Request.forFee "1\\udc00").intake (.ok ()) FeeForm.ofObject =
      .error (.invalid [⟨[.field "body", .field "amount"], .refused AmountError.notDigits.message,
        .brokenText "1\uFFFD"⟩]) := by
    rw [Request.intake, hcontent]
    rfl
  refine ⟨(FeeState.make_eq_ok_iff.1 hmake).2, hroute, hcontent, ?_⟩
  rw [handle_of_endpoint {} hroute]
  simp only [Endpoint.answer, proceed, hintake]
  rfl

end Http

end TransferFees
