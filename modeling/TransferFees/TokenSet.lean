/-!
# Token sets

The ids of the supported tokens. A set is kept as the list of its members in ascending order of
code points, each once, so that two sets with the same members are the same and listing the members
needs no sorting. `mem_insert`, `mem_erase` and `mem_ofList` say what each operation does to the
members.
-/

namespace TransferFees

/-- A finite set of token ids. -/
structure TokenSet where
  /-- The members in ascending order. -/
  toList : List String
  /-- Each member comes before all that follow it. -/
  sorted : toList.Pairwise (· < ·)

namespace TokenSet

instance : Membership String TokenSet := ⟨fun s id => id ∈ s.toList⟩

theorem mem_def {id : String} {s : TokenSet} : id ∈ s ↔ id ∈ s.toList := Iff.rfl

instance (id : String) (s : TokenSet) : Decidable (id ∈ s) :=
  inferInstanceAs (Decidable (id ∈ s.toList))

instance : DecidableEq TokenSet := fun a b =>
  decidable_of_iff (a.toList = b.toList) ⟨fun h => by cases a; cases b; cases h; rfl, congrArg _⟩

/-- The set without members. -/
def empty : TokenSet := ⟨[], .nil⟩

/-- A list in ascending order with one more member at its place. -/
def insertInto (id : String) : List String → List String
  | [] => [id]
  | x :: rest =>
    if id < x then id :: x :: rest
    else if id = x then x :: rest
    else x :: insertInto id rest

/-- Inserting adds the one member and loses none. -/
theorem mem_insertInto {id y : String} {l : List String} :
    y ∈ insertInto id l ↔ y = id ∨ y ∈ l := by
  induction l with
  | nil => simp [insertInto]
  | cons x rest ih =>
    unfold insertInto
    split
    · simp
    · split
      · rename_i h
        subst h
        simp
      · simp only [List.mem_cons, ih]
        exact ⟨fun h => by rcases h with h | h | h <;> simp [h],
          fun h => by rcases h with h | h | h <;> simp [h]⟩

/-- Inserting keeps a list in ascending order, so the sets below carry their order with them. -/
theorem sorted_insertInto {id : String} {l : List String} (h : l.Pairwise (· < ·)) :
    (insertInto id l).Pairwise (· < ·) := by
  induction l with
  | nil => simp [insertInto]
  | cons x rest ih =>
    obtain ⟨hx, hrest⟩ := List.pairwise_cons.1 h
    unfold insertInto
    split
    · rename_i hlt
      exact List.pairwise_cons.2 ⟨fun y hy => by
        rcases List.mem_cons.1 hy with rfl | hy
        · exact hlt
        · exact String.lt_trans hlt (hx y hy), h⟩
    · split
      · exact h
      · rename_i hlt hne
        refine List.pairwise_cons.2 ⟨fun y hy => ?_, ih hrest⟩
        rcases mem_insertInto.1 hy with rfl | hy
        · rcases String.le_total x y with hle | hle
          · exact Decidable.byContradiction fun hn =>
              hne (String.le_antisymm (String.not_lt.1 hn) hle)
          · exact absurd (String.le_antisymm hle (String.not_lt.1 hlt)) hne
        · exact hx y hy

/-- The set with one more member. -/
def insert (id : String) (s : TokenSet) : TokenSet :=
  ⟨insertInto id s.toList, sorted_insertInto s.sorted⟩

/-- The set without the given member. -/
def erase (id : String) (s : TokenSet) : TokenSet :=
  ⟨s.toList.filter (· != id), s.sorted.filter _⟩

/-- The set of the ids in a list. -/
def ofList : List String → TokenSet
  | [] => empty
  | id :: rest => (ofList rest).insert id

theorem not_mem_empty {id : String} : id ∉ empty := List.not_mem_nil

theorem mem_insert {id y : String} {s : TokenSet} : y ∈ s.insert id ↔ y = id ∨ y ∈ s :=
  mem_insertInto

theorem mem_erase {id y : String} {s : TokenSet} : y ∈ s.erase id ↔ y ∈ s ∧ y ≠ id := by
  simp [mem_def, erase]

/-- The members of the set are those of the list. -/
theorem mem_ofList {y : String} {l : List String} : y ∈ ofList l ↔ y ∈ l := by
  induction l with
  | nil => simp [ofList, not_mem_empty]
  | cons id rest ih => rw [ofList, mem_insert, ih, List.mem_cons]

end TokenSet

end TransferFees
