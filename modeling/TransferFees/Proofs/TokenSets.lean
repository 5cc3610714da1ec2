import Mathlib.Data.List.Sort
import TransferFees.TokenSet

/-!
# The algebra of token sets

A token set is kept as an ascending list, but nothing said of it should depend on that. Everything
here follows from what the operations do to the members, because sets with the same members are
equal (`TokenSet.ext_mem`).
-/

namespace TransferFees.TokenSet

/-- **Sets with the same members are equal**, for their members stand in the same order. -/
theorem ext_mem {s t : TokenSet} (h : ∀ id, id ∈ s ↔ id ∈ t) : s = t := by
  obtain ⟨l, hl⟩ := s
  obtain ⟨m, hm⟩ := t
  obtain rfl : l = m := hl.eq_of_mem_iff hm h
  rfl

/-- No member is listed twice. -/
theorem nodup_toList (s : TokenSet) : s.toList.Nodup := s.sorted.nodup

/-! ## Lists of members -/

/-- A set can be made again from the list that is told of it. -/
theorem ofList_toList (s : TokenSet) : ofList s.toList = s := ext_mem fun _ => mem_ofList

/-- Neither the order of a list nor how often an id is in it matters to the set. -/
theorem ofList_congr {ids others : List String} (h : ∀ id, id ∈ others ↔ id ∈ ids) :
    ofList others = ofList ids := by
  refine ext_mem fun id => ?_
  rw [mem_ofList, mem_ofList, h]

/-- The set with the members of a list added to it. -/
def insertAll (ids : List String) (s : TokenSet) : TokenSet :=
  ids.foldl (fun s id => s.insert id) s

theorem mem_insertAll {ids : List String} {s : TokenSet} {y : String} :
    y ∈ s.insertAll ids ↔ y ∈ ids ∨ y ∈ s := by
  induction ids generalizing s with
  | nil => simp [insertAll]
  | cons id rest ih =>
      have hcons : s.insertAll (id :: rest) = (s.insert id).insertAll rest := rfl
      rw [hcons, ih, mem_insert, List.mem_cons, or_assoc, or_left_comm]

/-- A set that is written token by token where none are is the same set again. -/
theorem insertAll_empty (s : TokenSet) : empty.insertAll s.toList = s := by
  refine ext_mem fun id => ?_
  rw [mem_insertAll]
  exact or_iff_left not_mem_empty

/-! ## Putting in and taking out -/

section
variable {id : String} {s : TokenSet}

/-- Taking out undoes putting in, if the id was not there before. -/
theorem erase_insert (h : id ∉ s) : (s.insert id).erase id = s := by
  refine ext_mem fun y => ?_
  rw [mem_erase, mem_insert]
  constructor
  · rintro ⟨rfl | hy, hne⟩
    · exact absurd rfl hne
    · exact hy
  · intro hy
    refine ⟨.inr hy, ?_⟩
    rintro rfl
    exact h hy

/-- Putting in undoes taking out, if the id was there before. -/
theorem insert_erase (h : id ∈ s) : (s.erase id).insert id = s := by
  refine ext_mem fun y => ?_
  rw [mem_insert, mem_erase]
  constructor
  · rintro (rfl | ⟨hy, -⟩)
    · exact h
    · exact hy
  · intro hy
    by_cases hne : y = id
    · exact .inl hne
    · exact .inr ⟨hy, hne⟩

end

end TransferFees.TokenSet
