/-
# Sets of names

The evidence of a test file is a set of names, and a report lists sets in one order only.  A set
is therefore kept as its strictly increasing list: two sets with the same members are equal, and
the order in which names were added cannot show.
-/
namespace CoverageEstimate

/-- A set of names, as the strictly increasing list of its members.  Strings are compared by code
points, which is also the order of their UTF-8 bytes. -/
structure NameSet where
  toList : List String
  sorted : toList.Pairwise (· < ·)

namespace NameSet

/-- The place of a name in an increasing list. -/
def insertInto (name : String) : List String → List String
  | [] => [name]
  | x :: xs =>
    if name < x then name :: x :: xs
    else if name = x then x :: xs
    else x :: insertInto name xs

theorem mem_insertInto {name y : String} {xs : List String} :
    y ∈ insertInto name xs ↔ y = name ∨ y ∈ xs := by
  induction xs with
  | nil => simp [insertInto]
  | cons x xs ih =>
    unfold insertInto
    split
    · simp
    · split
      · rename_i h
        simp [h]
      · simp only [List.mem_cons, ih]
        constructor
        · rintro (h | h | h) <;> simp [h]
        · rintro (h | h | h) <;> simp [h]

theorem pairwise_insertInto {name : String} {xs : List String}
    (h : xs.Pairwise (· < ·)) : (insertInto name xs).Pairwise (· < ·) := by
  induction xs with
  | nil => simp [insertInto]
  | cons x xs ih =>
    have hx := List.pairwise_cons.mp h
    unfold insertInto
    split
    · rename_i hlt
      refine List.pairwise_cons.mpr ⟨?_, h⟩
      intro y hy
      rcases List.mem_cons.mp hy with rfl | hy
      · exact hlt
      · exact String.lt_trans hlt (hx.1 y hy)
    · split
      · exact h
      · rename_i hnlt hne
        refine List.pairwise_cons.mpr ⟨?_, ih hx.2⟩
        intro y hy
        rcases mem_insertInto.mp hy with rfl | hy
        · by_cases hlt : x < y
          · exact hlt
          · exact absurd (String.le_antisymm (String.not_lt.mp hlt) (String.not_lt.mp hnlt)) hne
        · exact hx.1 y hy

/-- The set without members. -/
def empty : NameSet := ⟨[], List.Pairwise.nil⟩

instance : EmptyCollection NameSet := ⟨empty⟩

instance : Inhabited NameSet := ⟨empty⟩

instance : Membership String NameSet := ⟨fun s name => name ∈ s.toList⟩

instance (name : String) (s : NameSet) : Decidable (name ∈ s) :=
  inferInstanceAs (Decidable (name ∈ s.toList))

/-- The set with one more member. -/
def insert (s : NameSet) (name : String) : NameSet :=
  ⟨insertInto name s.toList, pairwise_insertInto s.sorted⟩

/-- Whether the name is a member. -/
def contains (s : NameSet) (name : String) : Bool := decide (name ∈ s)

/-- The set with every name of the list added. -/
def insertAll (s : NameSet) (names : List String) : NameSet := names.foldl insert s

/-- The set of the names of a list. -/
def ofList (names : List String) : NameSet := insertAll ∅ names

@[simp] theorem not_mem_empty (name : String) : ¬name ∈ (∅ : NameSet) := List.not_mem_nil

@[simp] theorem mem_insert {s : NameSet} {x y : String} : y ∈ s.insert x ↔ y = x ∨ y ∈ s :=
  mem_insertInto

@[simp] theorem contains_iff {s : NameSet} {x : String} : s.contains x = true ↔ x ∈ s := by
  simp [contains]

theorem mem_insertAll {s : NameSet} {names : List String} {y : String} :
    y ∈ s.insertAll names ↔ y ∈ names ∨ y ∈ s := by
  induction names generalizing s with
  | nil => simp [insertAll]
  | cons x xs ih =>
    have h : s.insertAll (x :: xs) = (s.insert x).insertAll xs := rfl
    rw [h, ih, mem_insert, List.mem_cons]
    constructor
    · rintro (h | h | h) <;> simp [h]
    · rintro ((h | h) | h) <;> simp [h]

@[simp] theorem mem_ofList {names : List String} {y : String} :
    y ∈ ofList names ↔ y ∈ names := by
  simp [ofList, mem_insertAll]

end NameSet

end CoverageEstimate
