import Mathlib
import TransferFees.Proofs.AccountIds
import TransferFees.Proofs.PercentEncoding
import TransferFees.Proofs.Statuses
import TransferFees.Proofs.Successions

/-!
# Adding and removing a token by requests

The two requests undo each other (`Http.token_requests_inverse`), whatever else is stored. They name
the token in different ways. One has it in its body, where it is checked; the other has it in its
path, percent-encoded and unchecked. So there are two questions: whether every token that passes the
check is one path segment that is decoded to itself (`Request.DeletesToken.route`), and whether
putting in a token and taking it out again cancel in the set (`TokenSet.erase_insert`,
`TokenSet.insert_erase`).
-/

namespace TransferFees

open Text

/-! ## Ids in paths -/

namespace Http

theorem Resource.after?_append (start rest : List Char) :
    after? start (start ++ rest) = some rest := by
  induction start with
  | nil => rfl
  | cons c more ih =>
      rw [List.cons_append, after?, if_pos rfl]
      exact ih

/-- What stands behind the path of tokens is a token if it is one segment. -/
theorem Resource.ofPath?_tokenPath (t : String) :
    ofPath? (tokenPath ++ t) =
      if t.toList ≠ [] ∧ '/' ∉ t.toList then some (.token t) else none := by
  have hprefix : ∀ entry ∈ fixed, ¬tokenPath.toList <+: entry.1.toList ∧
      ¬tokenPath.toList <+: (entry.1 ++ "\n").toList := by decide
  have hfixed : (fixed.find? fun entry => tokenPath ++ t = entry.1 ∨
      tokenPath ++ t = entry.1 ++ "\n") = none := by
    rw [List.find?_eq_none]
    intro entry hentry hfound
    obtain ⟨hplain, hline⟩ := hprefix entry hentry
    rcases of_decide_eq_true hfound with h | h
    · exact hplain ⟨t.toList, by rw [← h, String.toList_append]⟩
    · exact hline ⟨t.toList, by rw [← h, String.toList_append]⟩
  simp only [ofPath?, hfixed, tokenOf?, String.toList_append, after?_append, String.ofList_toList]
  split <;> rfl

/-- Where a request leads to no endpoint it is redirected or turned down, unless it asks on behalf of
another origin. -/
theorem status_of_no_endpoint {r : Request} (hmethod : r.method ≠ "OPTIONS")
    (hroute : ∀ e, Route.ofRequest r ≠ .endpoint e) (settings : Settings) (s : Storage) :
    300 ≤ (handle settings r s).response.status := by
  have hpreflight : preflight? r = none := by
    rw [preflight?, if_neg fun h => hmethod h.1]
  rw [handle, hpreflight]
  delta answer
  cases hr : Route.ofRequest r with
  | endpoint e => exact absurd hr (hroute e)
  | notAllowed allowed => exact Nat.le_of_ble_eq_true rfl
  | elsewhere location => exact Nat.le_of_ble_eq_true rfl
  | nowhere => exact Nat.le_of_ble_eq_true rfl

/-! ## The two requests -/

/-- The request adds a token, and its body is an object that names `t`. -/
structure Request.PostsToken (r : Request) (t : String) : Prop where
  endpoint : Route.ofRequest r = .endpoint .addToken
  content : ∃ v, r.content = .value v ∧ v.field? "token_id" = some (.text t)

/-- The request deletes what the path of tokens leads to with `t` behind it, percent-encoded. -/
structure Request.DeletesToken (r : Request) (t : String) : Prop where
  method : r.method = "DELETE"
  target : r.target = Resource.tokenPath ++ PercentEncoding.encode t

section
variable {r : Request} {t : String} {s : Storage} {state next : FeeState}

namespace Request.PostsToken

/-- The body is in order just if the token is an account id. -/
theorem intake_eq_ok_iff (h : r.PostsToken t) {form : TokenForm} :
    r.intake (.ok ()) TokenForm.ofObject = .ok ((), form) ↔
      AccountId.isValid t = true ∧ form = ⟨t⟩ := by
  obtain ⟨v, hcontent, hfield⟩ := h.content
  rw [r.intake_of_value hcontent (Json.isSome_object? hfield), Except.mapError_eq_ok_iff,
    Checked.both_eq_ok_iff, Checked.inside_eq_ok_iff, TokenForm.ofObject, Except.map_eq_ok_iff]
  constructor
  · rintro ⟨-, id, hid, rfl⟩
    obtain ⟨w, hw, hcheck⟩ := Checked.required_eq_ok_iff.1 hid
    rw [hfield] at hw
    cases hw
    obtain ⟨⟨⟩, hvalid⟩ := Checked.accountId_eq_ok_iff.1 hcheck
    exact ⟨hvalid, rfl⟩
  · rintro ⟨hvalid, rfl⟩
    have hcheck := Checked.accountId_eq_ok_iff.2 ⟨rfl, hvalid⟩
    exact ⟨rfl, t, Checked.required_eq_ok_iff.2 ⟨_, hfield, hcheck⟩, rfl⟩

theorem call? (h : r.PostsToken t) (ht : AccountId.isValid t = true) :
    r.call? = some (.addToken ⟨t⟩) := by
  rw [Request.call?, h.endpoint, Route.call?, Endpoint.call?, h.intake_eq_ok_iff.2 ⟨ht, rfl⟩]
  rfl

theorem change? (h : r.PostsToken t) (ht : AccountId.isValid t = true) (settings : Settings) :
    r.change? settings = some (.addToken t) := by
  rw [Request.change?, h.endpoint, Route.change?, Endpoint.change?,
    h.intake_eq_ok_iff.2 ⟨ht, rfl⟩]
  rfl

/-- The request succeeds only where the stored state takes the token. -/
theorem of_status (h : r.PostsToken t) {settings : Settings}
    (hstatus : (handle settings r s).response.status < 300) :
    ∃ state next : FeeState, s = .ready state.tables ∧ state.Valid ∧
      state.addToken t = .ok next := by
  obtain ⟨call, hcall⟩ := Request.exists_call h.endpoint ⟨nofun, nofun⟩ hstatus
  rw [Request.call?, h.endpoint] at hcall
  obtain ⟨⟨⟨⟩, form⟩, hintake, -⟩ := Request.exists_of_intake_map hcall
  have ht := (h.intake_eq_ok_iff.1 hintake).1
  have hmade := handle_made (h.change? ht settings) hstatus
  obtain ⟨state, plan, hstate, hplanned, -⟩ := hmade.exists_planned rfl
  cases hplanned with
  | addToken hid hnew =>
      exact ⟨state, _, hstate.2, hstate.1, FeeState.addToken_eq_ok_iff.2 ⟨hid, hnew, rfl⟩⟩

/-- Where the stored state takes the token the request succeeds, and the tokens are listed. -/
theorem granted (h : r.PostsToken t) (hs : state.Valid) (hadd : state.addToken t = .ok next)
    (settings : Settings) :
    let added := handle settings r (.ready state.tables)
    added.response.status = 201 ∧
      added.response.body = .json (TokensAnswer.ofList next.tokens.toList).toJson ∧
      added.storage = .ready next.tables := by
  have ht : AccountId.isValid t = true := (FeeState.addToken_eq_ok_iff.1 hadd).1
  have hplan : (Change.addToken t).plan (some state) = .ok ⟨.tokenAdded t, next⟩ := by
    rw [Change.plan_addToken, hadd]
    rfl
  have hanswer : ((Call.addToken ⟨t⟩).answer settings (.ready state.tables)).response =
      .ofJson 201 (TokensAnswer.ofList next.tokens.toList).toJson :=
    response_serve (Work.Yields.commit (.bind (Service.yields_addToken hs hadd) fun d =>
      .bind (Work.yields_record _ d) (Work.yields_pure _)))
  exact handle_of_plan (h.call? ht) (h.change? ht settings) hs hplan hanswer (by omega)

end Request.PostsToken

namespace Request.DeletesToken

/-- Decoding brings back the token, whatever characters it has. -/
theorem path (h : r.DeletesToken t) :
    PercentEncoding.decode r.rawPath = Resource.tokenPath ++ t := by
  have hquery : ∀ c ∈ r.target.toList, (c != '?') = true := by
    intro c hc
    rw [h.target, String.toList_append, List.mem_append] at hc
    rw [bne_iff_ne]
    rintro rfl
    rcases hc with hc | hc
    · exact absurd hc (by decide)
    · exact absurd (PercentEncoding.isUnreserved_of_mem_encode hc (by decide)) (by decide)
  have hraw : r.rawPath = r.target := by
    rw [Request.rawPath, List.takeWhile_eq_self_iff.2 hquery, String.ofList_toList]
  rw [hraw, h.target, PercentEncoding.decode_append_encode (by decide)]

/-- **A token is one segment of the path, and is decoded to itself.** -/
theorem route (h : r.DeletesToken t) (ht : t.toList ≠ [] ∧ '/' ∉ t.toList) :
    Route.ofRequest r = .endpoint (.removeToken t) := by
  delta Route.ofRequest
  simp only [h.path, Resource.ofPath?_tokenPath, if_pos ht, Resource.methods, h.method]
  rfl

/-- An id with a slash in it, or none at all, leads to no endpoint. -/
theorem route_of_no_segment (h : r.DeletesToken t) (ht : ¬(t.toList ≠ [] ∧ '/' ∉ t.toList))
    (e : Endpoint) : Route.ofRequest r ≠ .endpoint e := by
  delta Route.ofRequest
  simp only [h.path, Resource.ofPath?_tokenPath, if_neg ht]
  split <;> simp

/-- The request succeeds only where the stored state has the token. -/
theorem of_status (h : r.DeletesToken t) {settings : Settings}
    (hstatus : (handle settings r s).response.status < 300) :
    ∃ state next : FeeState, s = .ready state.tables ∧ state.Valid ∧
      state.removeToken t = .ok next := by
  by_cases ht : t.toList ≠ [] ∧ '/' ∉ t.toList
  · have hchange : r.change? settings = some (.removeToken t) := by
      rw [Request.change?, h.route ht]
      rfl
    have hmade := handle_made hchange hstatus
    obtain ⟨state, plan, hstate, hplanned, -⟩ := hmade.exists_planned rfl
    cases hplanned with
    | removeToken hid =>
        exact ⟨state, _, hstate.2, hstate.1, FeeState.removeToken_eq_ok_iff.2 ⟨hid, rfl⟩⟩
  · have hmethod : r.method ≠ "OPTIONS" := by
      rw [h.method]
      decide
    have hrefused := status_of_no_endpoint hmethod (h.route_of_no_segment ht) settings s
    omega

/-- Where the stored state has the token the request succeeds, and the other tokens are listed. -/
theorem granted (h : r.DeletesToken t) (hs : state.Valid) (hremove : state.removeToken t = .ok next)
    (settings : Settings) :
    let removed := handle settings r (.ready state.tables)
    removed.response.status = 200 ∧
      removed.response.body = .json (TokensAnswer.ofList next.tokens.toList).toJson ∧
      removed.storage = .ready next.tables := by
  have ht : AccountId.isValid t = true := hs.tokens t (FeeState.removeToken_eq_ok_iff.1 hremove).1
  have hroute : Route.ofRequest r = .endpoint (.removeToken t) :=
    h.route ⟨AccountId.ne_nil_of_isValid ht, AccountId.slash_not_mem_of_isValid ht⟩
  have hplan : (Change.removeToken t).plan (some state) = .ok ⟨.tokenRemoved t, next⟩ := by
    rw [Change.plan_removeToken, hremove]
    rfl
  have hanswer : ((Call.removeToken t).answer settings (.ready state.tables)).response =
      .ofJson 200 (TokensAnswer.ofList next.tokens.toList).toJson :=
    response_serve (Work.Yields.commit (.bind (Service.yields_removeToken hs hremove) fun d =>
      .bind (Work.yields_record _ d) (Work.yields_pure _)))
  refine handle_of_plan ?_ ?_ hs hplan hanswer (by omega)
  · rw [Request.call?, hroute]
    rfl
  · rw [Request.change?, hroute]
    rfl

end Request.DeletesToken

end

/-! ## One after the other -/

/-- **Adding and removing a token undo each other**, on whatever is stored. What is removed again
leaves the tokens as they were listed before, and what is added again restores them. -/
theorem token_requests_inverse {t : String} {post delete list : Request}
    (hpost : post.PostsToken t) (hdelete : delete.DeletesToken t)
    (hlist : Route.ofRequest list = .endpoint .listTokens) (settings : Settings) (s : Storage) :
    (let added := handle settings post s
     added.response.status = 201 →
       let removed := handle settings delete added.storage
       let listed := handle settings list s
       removed.response.status = 200 ∧ removed.storage = s ∧ listed.response.status = 200 ∧
         ∃ tokens, listed.response.body = .json (TokensAnswer.ofList tokens).toJson ∧
           removed.response.body = .json (TokensAnswer.ofList tokens).toJson) ∧
    (let removed := handle settings delete s
     removed.response.status = 200 →
       let added := handle settings post removed.storage
       added.response.status = 201 ∧ added.storage = s) := by
  constructor
  · intro added hstatus removed listed
    obtain ⟨state, next, rfl, hs, hadd⟩ := hpost.of_status (by rw [hstatus]; decide)
    have hadded : added.storage = .ready next.tables := (hpost.granted hs hadd settings).2.2
    have hnext : next.Valid := hs.addToken hadd
    have hremove : next.removeToken t = .ok state := by
      obtain ⟨-, hnew, rfl⟩ := FeeState.addToken_eq_ok_iff.1 hadd
      refine FeeState.removeToken_eq_ok_iff.2 ⟨TokenSet.mem_insert.2 (.inl rfl), ?_⟩
      rw [TokenSet.erase_insert hnew]
    have hremoved := hdelete.granted hnext hremove settings
    rw [← hadded] at hremoved
    have hcall : list.call? = some .listTokens := by
      rw [Request.call?, hlist]
      rfl
    have hlisted := handle_listTokens hs hcall settings
    exact ⟨hremoved.1, hremoved.2.2, hlisted.1, _, hlisted.2, hremoved.2.1⟩
  · intro removed hstatus added
    obtain ⟨state, next, rfl, hs, hremove⟩ :=
      hdelete.of_status (by rw [hstatus]; decide)
    have hremoved : removed.storage = .ready next.tables := (hdelete.granted hs hremove settings).2.2
    have hnext : next.Valid := hs.removeToken hremove
    have hadd : next.addToken t = .ok state := by
      obtain ⟨hold, rfl⟩ := FeeState.removeToken_eq_ok_iff.1 hremove
      refine FeeState.addToken_eq_ok_iff.2 ⟨hs.tokens t hold, ?_, ?_⟩
      · exact fun hmem => (TokenSet.mem_erase.1 hmem).2 rfl
      · rw [TokenSet.insert_erase hold]
    have hadded := hpost.granted hnext hadd settings
    rw [← hremoved] at hadded
    exact ⟨hadded.1, hadded.2.2⟩

/-- A token with the digits of another script takes six octets in the path, and comes back. -/
theorem token_requests_inverse_other_digits :
    let t := "\u0663\u0663.near"
    let state : FeeState := ⟨"owner.near", 500, .ofList ["usdt.near"]⟩
    let post : Request := ⟨"http://localhost", "POST", "/api/v1/fees/tokens",
      [("content-type", "application/json")], "\x7b\"token_id\":\"\\u0663\\u0663.near\"\x7d"⟩
    let delete : Request := ⟨"http://localhost", "DELETE",
      "/api/v1/fees/tokens/%D9%A3%D9%A3.near", [], ""⟩
    let list : Request := ⟨"http://localhost", "GET", "/api/v1/fees/tokens", [], ""⟩
    post.PostsToken t ∧ delete.DeletesToken t ∧ Route.ofRequest list = .endpoint .listTokens ∧
      (handle {} post (.ready state.tables)).response.status = 201 ∧
      (handle {} delete (handle {} post (.ready state.tables)).storage).storage =
        .ready state.tables := by
  intro t state post delete list
  have hs : state.Valid := by
    have hmake : FeeState.make "owner.near" 500 (.ofList ["usdt.near"]) = .ok state := rfl
    exact (FeeState.make_eq_ok_iff.1 hmake).2
  have hread : Json.readOctets post.body.toList = .ok (.object [("token_id", .text t)]) := by cbv
  have htype : post.header? "content-type" = some "application/json" := by cbv
  have hpost : post.PostsToken t :=
    ⟨by decide, _, Request.content_of_readOctets htype hread, rfl⟩
  have hdelete : delete.DeletesToken t := ⟨rfl, by decide⟩
  have hlist : Route.ofRequest list = .endpoint .listTokens := by decide
  have hadd := FeeState.addToken_eq_ok_iff.2
    ⟨show AccountId.isValid t = true by decide, show t ∉ state.tokens by decide, rfl⟩
  obtain ⟨hadded, -, -⟩ := hpost.granted hs hadd {}
  obtain ⟨hthere, -⟩ := token_requests_inverse hpost hdelete hlist {} (.ready state.tables)
  exact ⟨hpost, hdelete, hlist, hadded, (hthere hadded).2.1⟩

end Http

end TransferFees
