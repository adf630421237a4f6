import HackVm.Proofs.Assembly.Layout

/-!
# Labels of a text

The first pass of the loader goes over the significant lines of a text and enters every label with
the number of instructions before it.  Here it is said without the pass what comes out.  A place in
a text is given by what stands before it: `front ++ [line] <+: lines`.

`DeclaredAt` is the address of a label and `FirstRepeat` the first label that is declared again.
After the pass over `front` the table holds the labels of `front` (`Collected`), and that invariant
leads to one of the two (`collectLabels_cases`).
-/

namespace HackVm.Hack

/-- The lines that become instructions: those that do not start with a parenthesis. -/
def instructionLines (lines : List (List Char)) : List (List Char) :=
  lines.filter (·.head? != some '(')

/-- One of the lines declares the label. -/
def Declared (lines : List (List Char)) (name : String) : Prop :=
  ∃ line ∈ lines, labelOf? line = some name

instance (lines : List (List Char)) (name : String) : Decidable (Declared lines name) :=
  inferInstanceAs (Decidable (∃ line ∈ lines, labelOf? line = some name))

/-- The label is declared where the address is the number of instructions before. -/
def DeclaredAt (lines : List (List Char)) (name : String) (address : Nat) : Prop :=
  ∃ front line, front ++ [line] <+: lines ∧ labelOf? line = some name ∧
    address = (instructionLines front).length

/-- The label is declared again after a declaration. -/
def DeclaredTwice (lines : List (List Char)) (name : String) : Prop :=
  ∃ front line, front ++ [line] <+: lines ∧ labelOf? line = some name ∧ Declared front name

/-- The label is the first one that is declared again. -/
def FirstRepeat (lines : List (List Char)) (name : String) : Prop :=
  ∃ front line, front ++ [line] <+: lines ∧ labelOf? line = some name ∧ Declared front name ∧
    ∀ other, ¬ DeclaredTwice front other

/-! ## Places in a text -/

theorem place_concat {α : Type} {lines front : List α} {line last : α} :
    front ++ [line] <+: lines ++ [last] ↔
      front ++ [line] <+: lines ∨ front = lines ∧ line = last := by
  rw [List.prefix_concat_iff, or_comm, ← List.concat_eq_append, ← List.concat_eq_append,
    List.concat_inj]

/-- Of two places in a text one is before the other, or they are the same. -/
theorem place_cases {α : Type} {lines front front' : List α} {line line' : α}
    (h : front ++ [line] <+: lines) (h' : front' ++ [line'] <+: lines) :
    front ++ [line] <+: front' ∨ (front = front' ∧ line = line') ∨ front' ++ [line'] <+: front := by
  rcases List.prefix_or_prefix_of_prefix h h' with hle | hle
  · rcases place_concat.mp hle with hbefore | hsame
    · exact .inl hbefore
    · exact .inr (.inl hsame)
  · rcases place_concat.mp hle with hafter | ⟨hfront, hline⟩
    · exact .inr (.inr hafter)
    · exact .inr (.inl ⟨hfront.symm, hline.symm⟩)

theorem FirstRepeat.declaredTwice {lines : List (List Char)} {name : String}
    (h : FirstRepeat lines name) : DeclaredTwice lines name := by
  obtain ⟨front, line, hplace, hline, hdeclared, -⟩ := h
  exact ⟨front, line, hplace, hline, hdeclared⟩

/-- Of two labels that are declared again, the one that comes first would be repeated before the
other. -/
theorem FirstRepeat.unique {lines : List (List Char)} {name other : String}
    (hname : FirstRepeat lines name) (hother : FirstRepeat lines other) : name = other := by
  obtain ⟨front, line, hplace, hline, hdeclared, honce⟩ := hname
  obtain ⟨front', line', hplace', hline', hdeclared', honce'⟩ := hother
  rcases place_cases hplace hplace' with hbefore | ⟨rfl, rfl⟩ | hafter
  · exact absurd ⟨front, line, hbefore, hline, hdeclared⟩ (honce' name)
  · exact Option.some.inj (hline.symm.trans hline')
  · exact absurd ⟨front', line', hafter, hline', hdeclared'⟩ (honce other)

/-! ## The first pass -/

theorem labelOf?_eq_none_iff {line : List Char} : labelOf? line = none ↔ line.head? ≠ some '(' := by
  unfold labelOf?
  split
  · simp
  · next hline =>
    refine ⟨fun _ hhead => ?_, fun _ => rfl⟩
    obtain ⟨rest, rfl⟩ := List.head?_eq_some_iff.mp hhead
    exact hline rest rfl

theorem head?_of_labelOf? {line : List Char} {name : String} (h : labelOf? line = some name) :
    line.head? = some '(' := by
  unfold labelOf? at h
  split at h
  · rfl
  · exact absurd h (by simp)

theorem instructionLines_append (first second : List (List Char)) :
    instructionLines (first ++ second) = instructionLines first ++ instructionLines second :=
  List.filter_append ..

theorem instructionLines_cons_label {line : List Char} {name : String}
    (hline : labelOf? line = some name) (rest : List (List Char)) :
    instructionLines (line :: rest) = instructionLines rest := by
  rw [instructionLines, List.filter_cons_of_neg (by simp [head?_of_labelOf? hline]),
    instructionLines]

theorem instructionLines_cons_code {line : List Char} (hline : labelOf? line = none)
    (rest : List (List Char)) :
    instructionLines (line :: rest) = line :: instructionLines rest := by
  have hhead := labelOf?_eq_none_iff.mp hline
  rw [instructionLines, List.filter_cons_of_pos (by simpa using hhead), instructionLines]

theorem declaredAt_concat {front : List (List Char)} {line : List Char} {name : String}
    {address : Nat} :
    DeclaredAt (front ++ [line]) name address ↔ DeclaredAt front name address ∨
      labelOf? line = some name ∧ address = (instructionLines front).length := by
  constructor
  · rintro ⟨before, found, hplace, hfound, haddress⟩
    rcases place_concat.mp hplace with hbefore | ⟨rfl, rfl⟩
    · exact .inl ⟨before, found, hbefore, hfound, haddress⟩
    · exact .inr ⟨hfound, haddress⟩
  · rintro (⟨before, found, hplace, hfound, haddress⟩ | ⟨hline, haddress⟩)
    · exact ⟨before, found, hplace.trans (List.prefix_append ..), hfound, haddress⟩
    · exact ⟨front, line, List.prefix_rfl, hline, haddress⟩

theorem declaredTwice_concat {front : List (List Char)} {line : List Char} {name : String} :
    DeclaredTwice (front ++ [line]) name ↔
      DeclaredTwice front name ∨ labelOf? line = some name ∧ Declared front name := by
  constructor
  · rintro ⟨before, found, hplace, hfound, hdeclared⟩
    rcases place_concat.mp hplace with hbefore | ⟨rfl, rfl⟩
    · exact .inl ⟨before, found, hbefore, hfound, hdeclared⟩
    · exact .inr ⟨hfound, hdeclared⟩
  · rintro (⟨before, found, hplace, hfound, hdeclared⟩ | ⟨hline, hdeclared⟩)
    · exact ⟨before, found, hplace.trans (List.prefix_append ..), hfound, hdeclared⟩
    · exact ⟨front, line, List.prefix_rfl, hline, hdeclared⟩

theorem declared_iff_exists_declaredAt {lines : List (List Char)} {name : String} :
    Declared lines name ↔ ∃ address, DeclaredAt lines name address := by
  constructor
  · rintro ⟨line, hmem, hline⟩
    obtain ⟨front, rest, rfl⟩ := List.append_of_mem hmem
    exact ⟨_, front, line, ⟨rest, by simp⟩, hline, rfl⟩
  · rintro ⟨address, front, line, hplace, hline, -⟩
    exact ⟨line, hplace.subset (by simp), hline⟩

/-- The table holds the labels of the lines, none of which is declared again. -/
structure Collected (lines : List (List Char)) (labels : Symbols) : Prop where
  lookup : ∀ name address, labels.lookup name = some address ↔ DeclaredAt lines name address
  once : ∀ name, ¬ DeclaredTwice lines name

theorem Collected.lookup_eq_none_iff {lines : List (List Char)} {labels : Symbols}
    (h : Collected lines labels) {name : String} :
    labels.lookup name = none ↔ ¬ Declared lines name := by
  rw [declared_iff_exists_declaredAt, Option.eq_none_iff_forall_ne_some, not_exists]
  exact forall_congr' fun address => not_congr (h.lookup name address)

theorem collected_nil : Collected [] [] := by
  constructor
  · intro name address
    constructor
    · intro h
      exact absurd h (by simp)
    · rintro ⟨front, line, hplace, -⟩
      exact absurd (List.prefix_nil.mp hplace) (by simp)
  · rintro name ⟨front, line, hplace, -⟩
    exact absurd (List.prefix_nil.mp hplace) (by simp)

/-- A line that declares a new label. -/
theorem Collected.label {front : List (List Char)} {labels : Symbols} {line : List Char}
    {name : String} (h : Collected front labels) (hline : labelOf? line = some name)
    (hnew : labels.lookup name = none) :
    Collected (front ++ [line]) (labels ++ [(name, (instructionLines front).length)]) := by
  have hundeclared := h.lookup_eq_none_iff.mp hnew
  constructor
  · intro other address
    rw [declaredAt_concat, hline, List.lookup_append, Option.or_eq_some_iff, h.lookup,
      h.lookup_eq_none_iff]
    by_cases hother : other = name
    · subst hother
      simp [hundeclared, eq_comm]
    · simp [List.lookup_cons, beq_eq_false_iff_ne.mpr hother, Ne.symm hother]
  · intro other htwice
    rcases declaredTwice_concat.mp htwice with hearlier | ⟨hother, hdeclared⟩
    · exact h.once other hearlier
    · obtain rfl : name = other := Option.some.inj (hline.symm.trans hother)
      exact hundeclared hdeclared

/-- A line that becomes an instruction. -/
theorem Collected.code {front : List (List Char)} {labels : Symbols} {line : List Char}
    (h : Collected front labels) (hline : labelOf? line = none) :
    Collected (front ++ [line]) labels := by
  constructor
  · intro name address
    rw [declaredAt_concat, hline, h.lookup]
    simp
  · intro name htwice
    rcases declaredTwice_concat.mp htwice with hearlier | ⟨hname, -⟩
    · exact h.once name hearlier
    · exact absurd (hline.symm.trans hname) (by simp)

/-- The first pass collects the labels of all lines, or ends at the first one that is declared
again. -/
theorem collectLabels_cases {front : List (List Char)} {labels : Symbols}
    (h : Collected front labels) (rest : List (List Char)) :
    (∃ table, collectLabels (instructionLines front).length labels rest = .ok table ∧
      Collected (front ++ rest) table) ∨
    ∃ name, collectLabels (instructionLines front).length labels rest =
      .error (.duplicateLabel name) ∧ FirstRepeat (front ++ rest) name := by
  induction rest generalizing front labels with
  | nil =>
      rw [List.append_nil]
      exact .inl ⟨labels, rfl, h⟩
  | cons line rest ih =>
      have hsplit : front ++ line :: rest = front ++ [line] ++ rest := by simp
      rw [hsplit]
      cases hline : labelOf? line with
      | some name =>
          cases hfound : labels.lookup name with
          | some address =>
              have hdeclared := declared_iff_exists_declaredAt.mpr
                ⟨address, (h.lookup name address).mp hfound⟩
              -- Everything before was declared once, so this is the first label to be repeated.
              refine .inr ⟨name, ?_, front, line, List.prefix_append .., hline, hdeclared, h.once⟩
              simp only [collectLabels, hline, hfound]
          | none =>
              have hlength : (instructionLines (front ++ [line])).length =
                  (instructionLines front).length := by
                rw [instructionLines_append, instructionLines_cons_label hline]
                simp [instructionLines]
              have hnext := ih (h.label hline hfound)
              rw [hlength] at hnext
              simpa only [collectLabels, hline, hfound] using hnext
      | none =>
          have hlength : (instructionLines (front ++ [line])).length =
              (instructionLines front).length + 1 := by
            rw [instructionLines_append, instructionLines_cons_code hline]
            simp [instructionLines]
          have hnext := ih (h.code hline)
          rw [hlength] at hnext
          simpa only [collectLabels, hline] using hnext

end HackVm.Hack
