/-!
# Tables

A table is a list of keys with values, in the order in which the keys were entered.  It is read by
`List.lookup`; `Table.put` enters a key, or changes its value in place.  What a table holds after
`put` is told by `lookup_put_self` and `lookup_put_of_ne`, and of two values for one key the later
one counts (`put_put`).
-/

namespace HackVm

/-- Keys with values. -/
abbrev Table (κ α : Type) := List (κ × α)

namespace Table

variable {κ α : Type} [BEq κ] [LawfulBEq κ]

/-- Sets the value of a key. -/
def put (table : Table κ α) (key : κ) (value : α) : Table κ α :=
  match table with
  | [] => [(key, value)]
  | (first, old) :: rest =>
    if key == first then (key, value) :: rest else (first, old) :: put rest key value

/-- A key has the value that was put there. -/
theorem lookup_put_self (table : Table κ α) (key : κ) (value : α) :
    (put table key value).lookup key = some value := by
  induction table with
  | nil => simp [put]
  | cons entry rest ih =>
    obtain ⟨first, old⟩ := entry
    cases hfirst : key == first with
    | true => simp [put, hfirst]
    | false =>
      simp only [put, hfirst, Bool.false_eq_true, if_false, List.lookup_cons]
      exact ih

/-- Every other key keeps its value. -/
theorem lookup_put_of_ne (table : Table κ α) {key other : κ} (hother : other ≠ key) (value : α) :
    (put table key value).lookup other = table.lookup other := by
  have hne : (other == key) = false := by simpa using hother
  induction table with
  | nil => simp [put, List.lookup_cons, hne]
  | cons entry rest ih =>
    obtain ⟨first, old⟩ := entry
    cases hfirst : key == first with
    | true =>
      have heq : key = first := eq_of_beq hfirst
      subst heq
      simp only [put, beq_self_eq_true, if_true, List.lookup_cons, hne]
    | false =>
      simp only [put, hfirst, Bool.false_eq_true, if_false, List.lookup_cons]
      rw [ih]

/-- A value takes the place of the one that was put before. -/
theorem put_put (table : Table κ α) (key : κ) (old new : α) :
    put (put table key old) key new = put table key new := by
  induction table with
  | nil => simp [put]
  | cons entry rest ih =>
    obtain ⟨first, value⟩ := entry
    cases hfirst : key == first with
    | true => simp [put, hfirst]
    | false => simp [put, hfirst, ih]

end Table

end HackVm
