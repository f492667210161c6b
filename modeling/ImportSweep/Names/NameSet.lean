/-!
# Sets of names

A set of names is kept as the list of its members in increasing order. `NameSet.mem_insert` and
`NameSet.mem_ofList` say which names a set holds.
-/

namespace ImportSweep

/-- A set of names. -/
structure NameSet where
  /-- The members, in increasing order. -/
  names : List String
  /-- The order is strict. -/
  sorted : names.Pairwise (· < ·)

namespace NameSet

/-- Puts a name in its place among names in increasing order. -/
def insertSorted (name : String) : List String → List String
  | [] => [name]
  | first :: rest =>
    if name < first then name :: first :: rest
    else if name = first then first :: rest
    else first :: insertSorted name rest

/-- The names after an insertion. -/
theorem mem_insertSorted {name other : String} {names : List String} :
    other ∈ insertSorted name names ↔ other = name ∨ other ∈ names := by
  induction names with
  | nil => simp [insertSorted]
  | cons first rest ih =>
    simp only [insertSorted]
    split
    · simp
    · split
      · rename_i h
        subst h
        simp
      · simp only [List.mem_cons, ih]
        exact or_left_comm

/-- An insertion keeps the order. -/
theorem sorted_insertSorted {name : String} {names : List String} (h : names.Pairwise (· < ·)) :
    (insertSorted name names).Pairwise (· < ·) := by
  induction names with
  | nil => simp [insertSorted]
  | cons first rest ih =>
    rw [List.pairwise_cons] at h
    simp only [insertSorted]
    split
    · rename_i hlt
      refine List.pairwise_cons.2 ⟨fun other hm => ?_, List.pairwise_cons.2 h⟩
      rcases List.mem_cons.1 hm with rfl | hm
      · exact hlt
      · exact String.lt_trans hlt (h.1 other hm)
    · split
      · exact List.pairwise_cons.2 h
      · rename_i hlt hne
        refine List.pairwise_cons.2 ⟨fun other hm => ?_, ih h.2⟩
        rcases mem_insertSorted.1 hm with rfl | hm
        · exact String.not_le.1 fun hle => hne (String.le_antisymm hle (String.not_lt.1 hlt))
        · exact h.1 other hm

/-- The set without members. -/
def empty : NameSet :=
  ⟨[], .nil⟩

/-- The set with one more member. -/
def insert (name : String) (set : NameSet) : NameSet :=
  ⟨insertSorted name set.names, sorted_insertSorted set.sorted⟩

/-- The set of the names of a list. -/
def ofList (names : List String) : NameSet :=
  names.foldr insert empty

/-- A name is in the set. -/
instance : Membership String NameSet where
  mem set name := name ∈ set.names

/-- The members after an insertion. -/
theorem mem_insert {name other : String} {set : NameSet} :
    other ∈ set.insert name ↔ other = name ∨ other ∈ set :=
  mem_insertSorted

/-- The set of a list has the members of the list. -/
theorem mem_ofList {name : String} {names : List String} : name ∈ ofList names ↔ name ∈ names := by
  induction names with
  | nil => exact ⟨fun h => absurd h List.not_mem_nil, fun h => absurd h List.not_mem_nil⟩
  | cons first rest ih =>
    rw [List.mem_cons, ← ih]
    exact mem_insert

/-- No name is in both sets. -/
def disjoint (a b : NameSet) : Bool :=
  a.names.all fun name => !b.names.contains name

/-- Two sets are disjoint exactly when no name is in both. -/
theorem disjoint_iff {a b : NameSet} : a.disjoint b = true ↔ ∀ name ∈ a, name ∉ b := by
  simp only [disjoint, List.all_eq_true, Bool.not_eq_true', List.contains_eq_mem,
    decide_eq_false_iff_not]
  exact Iff.rfl

end NameSet

end ImportSweep
