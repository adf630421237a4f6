/-!
# Indices

A place in a row is named by an integer: counted from zero at the start, or, when it is negative,
backward from the end.  An index that names no place is a fault, whose wording depends on whether
the place was to be read or written.
-/

namespace HackVm.Index

/-- What a place is wanted for. -/
inductive Access where
  | read | write
  deriving DecidableEq, Repr

/-- An index that names no place. -/
structure Fault where
  access : Access
  index : Int
  deriving DecidableEq, Repr

/-- The first number that is too large for any index. -/
def limit : Int := 0x8000000000000000

/-- The wording of a fault. -/
def Fault.message (fault : Fault) : String :=
  if fault.index < -limit ∨ limit ≤ fault.index then
    "cannot fit 'int' into an index-sized integer"
  else
    match fault.access with
    | .read => "list index out of range"
    | .write => "list assignment index out of range"

/-- The distance from the start that an index means in a row of `size` places. -/
def offset (size : Nat) (index : Int) : Int :=
  if index < 0 then index + size else index

/-- The place that an index names in a row of `size` places. -/
def place? (size : Nat) (index : Int) : Option (Fin size) :=
  let place := (offset size index).toNat
  if h : 0 ≤ offset size index ∧ place < size then some ⟨place, h.2⟩ else none

/-- An index from zero up to the size names the place of that number. -/
theorem place?_natCast {size n : Nat} (h : n < size) : place? size n = some ⟨n, h⟩ := by
  have hoffset : offset size n = n := if_neg (Int.not_lt.mpr (Int.natCast_nonneg n))
  simp [place?, hoffset, h]

end HackVm.Index
