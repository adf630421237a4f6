import HackVm.Proofs.Emission.Labels
import HackVm.Proofs.Emission.Loaded
import HackVm.Proofs.Reference.Ram

/-!
# What symbols mean in a loaded program

Compiled code refers to registers, numbers, static variables and labels by text, and the loader
looks every text up among the labels first.  In a program with clean names it finds what was meant.

* A label that is declared means the address at which it stands (`meaning_label`).
* A register means its cell, because no label is spelled like one (`meaning_register`).  A label
  that is spelled like one takes its place (`meaning_register_of_label`).
* A number means itself (`meaning_number`).
* A static variable means the cell of its symbol (`meaning_static`).

The labels of a program are the names that its commands declare and the labels made up for
comparisons and calls (`Builds.declare_cases`).
-/

namespace HackVm

open Emit Hack Text

/-- The declared names are neither numerals nor predefined. -/
def CleanLabels (sources : List Source) : Prop :=
  ∀ entry ∈ listing sources, ∀ name ∈ entry.command.declares?,
    isNumberText name.toList = false ∧ predefined.lookup name = none

instance (sources : List Source) : Decidable (CleanLabels sources) :=
  inferInstanceAs (Decidable (∀ entry ∈ listing sources, ∀ name ∈ entry.command.declares?,
    isNumberText name.toList = false ∧ predefined.lookup name = none))

/-- No source name holds a comment mark. -/
def UnmarkedNames (sources : List Source) : Prop :=
  ∀ source ∈ sources, ¬ commentMark <:+: source.name.toList

instance (sources : List Source) : Decidable (UnmarkedNames sources) :=
  inferInstanceAs (Decidable (∀ source ∈ sources, ¬ commentMark <:+: source.name.toList))

/-! ## Texts -/

theorem mem_text_of_isMadeUp {symbol : Symbol} (h : symbol.isMadeUp = true) :
    '_' ∈ symbol.text.toList ∨ '.' ∈ symbol.text.toList := by
  cases symbol with
  | comparison place operator serial => exact Or.inl (by simp [Symbol.text, String.toList_append])
  | returnOf function serial => exact Or.inr (by simp [Symbol.text, String.toList_append])
  | _ => exact absurd h (by simp [Symbol.isMadeUp])

theorem isNumberText_of_mem {text : List Char} {c : Char} (hc : isDigitLike c = false)
    (hmem : c ∈ text) : isNumberText text = false := by
  rw [isNumberText, Bool.and_eq_false_iff]
  right
  rw [List.all_eq_false]
  exact ⟨c, hmem, by simp [hc]⟩

theorem isNumberText_of_dot {text : List Char} (h : '.' ∈ text) : isNumberText text = false :=
  isNumberText_of_mem (by decide) h

theorem isNumberText_of_isMadeUp {symbol : Symbol} (h : symbol.isMadeUp = true) :
    isNumberText symbol.text.toList = false := by
  rcases mem_text_of_isMadeUp h with hbar | hdot
  · exact isNumberText_of_mem (by decide) hbar
  · exact isNumberText_of_dot hdot

private theorem predefined_signs :
    ∀ entry ∈ predefined, '_' ∉ entry.1.toList ∧ '.' ∉ entry.1.toList := by
  decide

/-- A predefined name holds neither a bar nor a dot. -/
theorem lookup_predefined {name : String} (h : '_' ∈ name.toList ∨ '.' ∈ name.toList) :
    predefined.lookup name = none := by
  rw [List.lookup_eq_none_iff]
  intro entry hentry
  rw [bne_iff_ne]
  rintro rfl
  obtain ⟨hbar, hdot⟩ := predefined_signs entry hentry
  exact h.elim hbar hdot

theorem Emit.Symbol.operand_of_isWord {symbol : Symbol} (h : IsWord symbol.text) :
    symbol.operand = symbol.text.toList := by
  rw [Symbol.operand, beforeComment_eq_self h.2, withoutEndBlanks_eq_self h.1]

/-! ## Declared labels -/

theorem mem_declaredIn {symbol : Symbol} {statements : List Statement} :
    symbol ∈ declaredIn statements ↔ .declare symbol ∈ statements := by
  rw [declaredIn, List.mem_filterMap]
  constructor
  · rintro ⟨statement, hstatement, hdeclared⟩
    cases statement with
    | declare found => exact Option.some.inj hdeclared ▸ hstatement
    | _ => exact absurd hdeclared (by simp [Statement.declared?])
  · intro hdeclare
    exact ⟨_, hdeclare, rfl⟩

variable {settings : Settings} {sources : List Source} {image : Image}

/-- A declared label is made up, or the name that a command declares. -/
theorem declare_cases {text : String} (h : compileText settings sources = .ok text)
    {symbol : Symbol} (hdeclare : .declare symbol ∈ programCode settings sources) :
    symbol.isMadeUp = true ∨
      ∃ entry ∈ listing sources, ∃ name, symbol = .name name ∧
        entry.command.declares? = some name := by
  rcases code_cases h hdeclare with ⟨shown, hcomment⟩ | hstack | hcall |
    ⟨entry, hentry, session, -, hholds⟩
  · exact absurd hcomment (by simp)
  · exact absurd hstack (by simp [fetchAddress, store, assign])
  · rcases labels_cases hcall with ⟨place, operator, serial, rfl⟩ | ⟨name, -, hnone⟩ | rfl
    · exact Or.inl rfl
    · exact absurd hnone (by simp [Command.declares?])
    · exact Or.inl rfl
  · rcases labels_cases hholds with ⟨place, operator, serial, rfl⟩ | ⟨name, hname, hdeclares⟩ | rfl
    · exact Or.inl rfl
    · exact Or.inr ⟨entry, hentry, name, hname, hdeclares⟩
    · exact Or.inl rfl

theorem Builds.declare_cases (h : Builds settings sources image) {symbol : Symbol}
    (hdeclare : .declare symbol ∈ programCode settings sources) :
    symbol.isMadeUp = true ∨
      ∃ entry ∈ listing sources, ∃ name, symbol = .name name ∧
        entry.command.declares? = some name := by
  obtain ⟨text, hcompile, -⟩ := h
  exact HackVm.declare_cases hcompile hdeclare

/-- A label of the image was declared. -/
theorem Builds.exists_declare (h : Builds settings sources image)
    (hnames : SingleLineNames sources) {name : String} {place : Nat}
    (hlookup : image.labels.lookup name = some place) :
    ∃ symbol, .declare symbol ∈ programCode settings sources ∧ symbol.text = name := by
  rw [(h.laysOut hnames).2.2] at hlookup
  obtain ⟨symbol, hsymbol, htext⟩ := exists_declare_of_mem_declarations (mem_of_lookup hlookup)
  exact ⟨symbol, hsymbol, htext⟩

/-- A name that a command declares is a label at the address of the command. -/
theorem Builds.lookup_declared (h : Builds settings sources image)
    (hnames : SingleLineNames sources) {i : Nat} {entry : Entry} {name : String}
    (hentry : (listing sources)[i]? = some entry)
    (hdeclares : entry.command.declares? = some name) :
    image.labels.lookup name = some (address settings sources i) := by
  obtain ⟨session, next, body, -, hblock, hlaid, -, -⟩ := h.block hnames hentry
  obtain ⟨source, command⟩ := entry
  cases block_eq_ok_iff.mp hblock with
  | label other =>
      obtain rfl := Option.some.inj hdeclares
      exact hlaid.1
  | function other locals =>
      obtain rfl := Option.some.inj hdeclares
      exact hlaid.1
  | _ => exact absurd hdeclares (by simp [Command.declares?])

/-! ## Meanings -/

theorem meaning_of_isWord {image : Image} {symbol : Symbol} (hword : IsWord symbol.text)
    (hname : isNumberText symbol.text.toList = false) :
    image.meaning symbol = (image.symbol? symbol.text).getD 0 := by
  rw [Image.meaning, operandValue, Symbol.operand_of_isWord hword, hname, String.ofList_toList]
  rfl

/-- A label that stands at a place means that place. -/
theorem meaning_label {symbol : Symbol} {place : Nat} (hword : IsWord symbol.text)
    (hname : isNumberText symbol.text.toList = false)
    (hlookup : image.labels.lookup symbol.text = some place) : image.meaning symbol = place := by
  rw [meaning_of_isWord hword hname, Image.symbol?, hlookup]
  rfl

theorem isWord_register (register : Register) : IsWord (Symbol.register register).text := by
  cases register <;> decide

private theorem lookup_register (register : Register) :
    predefined.lookup register.text = some register.cell := by
  cases register <;> decide

/-- A name without the signs of made-up labels is a label only if a command declares it. -/
theorem Builds.lookup_undeclared (h : Builds settings sources image)
    (hnames : SingleLineNames sources) {name : String} (hbar : '_' ∉ name.toList)
    (hdot : '.' ∉ name.toList)
    (hfree : ∀ entry ∈ listing sources, entry.command.declares? ≠ some name) :
    image.labels.lookup name = none := by
  cases hlookup : image.labels.lookup name with
  | none => rfl
  | some place =>
      exfalso
      obtain ⟨symbol, hdeclare, rfl⟩ := h.exists_declare hnames hlookup
      rcases h.declare_cases hdeclare with hmade | ⟨entry, hentry, name, rfl, hdeclares⟩
      · exact (mem_text_of_isMadeUp hmade).elim hbar hdot
      · exact hfree entry hentry hdeclares

theorem isNumberText_register (register : Register) :
    isNumberText (Symbol.register register).text.toList = false := by
  cases register <;> decide

/-- A register means its cell if no command declares its name. -/
theorem meaning_register_of_free (h : Builds settings sources image)
    (hnames : SingleLineNames sources) {register : Register}
    (hfree : ∀ entry ∈ listing sources, entry.command.declares? ≠ some register.text) :
    image.meaning (.register register) = register.cell := by
  obtain ⟨hbar, hdot⟩ := predefined_signs _ (mem_of_lookup (lookup_register register))
  have hlabel := h.lookup_undeclared hnames hbar hdot hfree
  have hmeaning : image.meaning (.register register) = (image.symbol? register.text).getD 0 :=
    meaning_of_isWord (isWord_register register) (isNumberText_register register)
  rw [hmeaning, Image.symbol?, hlabel, lookup_register]
  rfl

/-- Otherwise it means what the label of its name means. -/
theorem meaning_register_of_label {register : Register} {place : Nat}
    (hlookup : image.labels.lookup register.text = some place) :
    image.meaning (.register register) = place :=
  meaning_label (isWord_register register) (isNumberText_register register) hlookup

/-- A register means its cell if no declared name is predefined. -/
theorem meaning_register_of_unshadowed (h : Builds settings sources image)
    (hnames : SingleLineNames sources)
    (hclean : ∀ entry ∈ listing sources, ∀ name ∈ entry.command.declares?,
      predefined.lookup name = none)
    (register : Register) : image.meaning (.register register) = register.cell := by
  apply meaning_register_of_free h hnames
  intro entry hentry hdeclares
  have hnone := hclean entry hentry register.text hdeclares
  rw [lookup_register] at hnone
  exact absurd hnone (by simp)

theorem meaning_register (h : Builds settings sources image) (hnames : SingleLineNames sources)
    (hclean : CleanLabels sources) (register : Register) :
    image.meaning (.register register) = register.cell :=
  meaning_register_of_unshadowed h hnames
    (fun entry hentry name hname => (hclean entry hentry name hname).2) register

private theorem isNumberText_naturalDigits (n : Nat) : isNumberText (naturalDigits n) = true := by
  rw [isNumberText, Bool.and_eq_true]
  constructor
  · simp [naturalDigits_ne_nil]
  · rw [List.all_eq_true]
    intro c hc
    rw [isDigitLike, isDecimalDigit, digitValue?_of_isDigit (isDigit_of_mem_naturalDigits hc)]
    rfl

/-- A number that is not negative is seen as its digits. -/
theorem operand_number {value : Int} (hvalue : 0 ≤ value) :
    (Symbol.number value).operand = naturalDigits value.toNat := by
  have htext : (Symbol.number value).text = natural value.toNat := decimal_of_nonneg hvalue
  rw [Symbol.operand_of_isWord (by rw [htext]; exact isWord_natural _), htext, toList_natural]

/-- A number within the digit limit is read back. -/
theorem readInt_number {value : Int} (hvalue : 0 ≤ value) (hwritable : isWritable value = true) :
    readInt 10 (String.ofList (Symbol.number value).operand) = .ok value := by
  have hlimit : ¬ maxDigits < (naturalDigits value.toNat).length := by
    rw [Nat.not_lt]
    exact length_naturalDigits_le (by omega) hwritable
  rw [operand_number hvalue, ← toList_natural, String.ofList_toList, readInt_natural, if_neg hlimit,
    Int.toNat_of_nonneg hvalue]

/-- A number within the digit limit means itself. -/
theorem meaning_number {value : Int} (hvalue : 0 ≤ value) (hwritable : isWritable value = true) :
    image.meaning (.number value) = value.toNat := by
  have hdigits : isNumberText (Symbol.number value).operand = true := by
    rw [operand_number hvalue]
    exact isNumberText_naturalDigits _
  rw [Image.meaning, operandValue, hdigits, if_pos rfl, readInt_number hvalue hwritable]

theorem toList_static {source : String} {index : Int} (hindex : 0 ≤ index) :
    (Symbol.static source index).text.toList =
      source.toList ++ '.' :: naturalDigits index.toNat := by
  simp [Symbol.text, String.toList_append, decimal_of_nonneg hindex]

/-- A static variable means what the loader knows by its text, which is seen whole. -/
theorem operand_static {source : String} {index : Int} (hmark : ¬ commentMark <:+: source.toList)
    (hindex : 0 ≤ index) :
    (Symbol.static source index).operand = (Symbol.static source index).text.toList := by
  have hdigits : ∀ c ∈ naturalDigits index.toNat, c.isDigit = true :=
    fun _ => isDigit_of_mem_naturalDigits
  have hlast := List.dropLast_concat_getLast (naturalDigits_ne_nil index.toNat)
  have htext : (Symbol.static source index).text.toList =
      (source.toList ++ '.' :: (naturalDigits index.toNat).dropLast) ++
        [(naturalDigits index.toNat).getLast (naturalDigits_ne_nil _)] := by
    rw [toList_static hindex, List.append_assoc, List.cons_append, hlast]
  refine Symbol.operand_eq_text htext (isBlank_of_isDigit (hdigits _ (List.getLast_mem _))) ?_
  rw [toList_static hindex]
  refine not_isInfix_append_cons (by decide) hmark (not_isInfix_of_forall_ne ?_)
  rintro c hc rfl
  exact absurd (hdigits _ hc) (by decide)

theorem meaning_static {source : String} {index : Int} (hmark : ¬ commentMark <:+: source.toList)
    (hindex : 0 ≤ index) :
    image.meaning (.static source index) =
      (image.symbol? (Symbol.static source index).text).getD 0 := by
  have hname : isNumberText (Symbol.static source index).text.toList = false := by
    rw [toList_static hindex]
    exact isNumberText_of_dot (by simp)
  rw [Image.meaning, operandValue, operand_static hmark hindex, hname, String.ofList_toList]
  rfl

end HackVm
