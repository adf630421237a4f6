import HackVm.Proofs.Emission.Rules
import HackVm.Proofs.Text.Numerals

/-!
# Labels in a block

Comparisons and calls need labels that no program wrote.  A session makes them up from its two
counters: the places inside a comparison carry the number of the comparison, and the return of a
call carries the number of the call after the name of the current function.

`declaredIn_block` lists the labels that the block of a command declares, in order.  `holds_block`
says which statements can stand in the block at all, and so what it can refer to.  In particular a
block declares every made-up label that it refers to (`mem_declaredIn_of_loaded`).
-/

namespace HackVm

/-- The name that a command declares. -/
def Command.declares? : Command → Option String
  | .label name => some name
  | .function name _ => some name
  | _ => none

/-- The name that a command jumps to. -/
def Command.target? : Command → Option String
  | .goto name => some name
  | .ifGoto name => some name
  | .call name _ => some name
  | _ => none

theorem Command.word?_of_declares? {command : Command} {name : String}
    (h : command.declares? = some name) : command.word? = some name := by
  revert h
  cases command <;> simp [Command.declares?, Command.word?]

theorem Command.word?_of_target? {command : Command} {name : String}
    (h : command.target? = some name) : command.word? = some name := by
  revert h
  cases command <;> simp [Command.target?, Command.word?]

end HackVm

namespace HackVm.Emit

open Hack Text

/-! ## Labels in statements -/

/-- The symbol that a statement declares. -/
def Statement.declared? : Statement → Option Symbol
  | .declare symbol => some symbol
  | _ => none

/-- The symbols that statements declare, in order. -/
def declaredIn (statements : List Statement) : List Symbol :=
  statements.filterMap Statement.declared?

@[simp] theorem declaredIn_append (first second : List Statement) :
    declaredIn (first ++ second) = declaredIn first ++ declaredIn second :=
  List.filterMap_append

/-- The labels that are made up: the places of comparisons and the returns of calls. -/
def Symbol.isMadeUp : Symbol → Bool
  | .comparison _ _ _ => true
  | .returnOf _ _ => true
  | _ => false

@[simp] theorem Symbol.isMadeUp_register (r : Register) : (Symbol.register r).isMadeUp = false :=
  rfl

@[simp] theorem Symbol.isMadeUp_number (value : Int) : (Symbol.number value).isMadeUp = false := rfl

@[simp] theorem Symbol.isMadeUp_name (word : String) : (Symbol.name word).isMadeUp = false := rfl

theorem toList_comparison (place : Place) (operator : Comparison) (serial : Nat) :
    (Symbol.comparison place operator serial).text.toList =
      (place.text.toList ++ operator.text.toList) ++ '_' :: naturalDigits serial := by
  simp [Symbol.text, String.toList_append]

theorem toList_returnOf (function : String) (serial : Nat) :
    (Symbol.returnOf function serial).text.toList =
      (function.toList ++ ['$', 'r', 'e', 't']) ++ '.' :: naturalDigits serial := by
  simp [Symbol.text, String.toList_append]

theorem dot_not_mem_comparison (place : Place) (operator : Comparison) (serial : Nat) :
    '.' ∉ (Symbol.comparison place operator serial).text.toList := by
  intro hdot
  rw [toList_comparison, List.mem_append, List.mem_append, List.mem_cons] at hdot
  rcases hdot with (hplace | hoperator) | hmark | hdigit
  · revert hplace
    cases place <;> decide
  · revert hoperator
    cases operator <;> decide
  · exact absurd hmark (by decide)
  · exact absurd (isDigit_of_mem_naturalDigits hdigit) (by decide)

/-- The places inside the code of a comparison, in the order in which its block declares them. -/
def comparisonPlaces (comparison : Comparison) : List Place :=
  (if comparison = .eq then [] else [.negative, .sameSign, .test]) ++ [.holds, .done]

/-- The labels of one comparison. -/
def comparisonLabels (comparison : Comparison) (serial : Nat) : List Symbol :=
  (comparisonPlaces comparison).map (.comparison · comparison serial)

/-- The labels that the block of a command declares. -/
def Session.labels (session : Session) : Command → List Symbol
  | .arithmetic word =>
    match Operator.ofWord? word with
    | some .eq => comparisonLabels .eq (session.comparisons + 1)
    | some .gt => comparisonLabels .gt (session.comparisons + 1)
    | some .lt => comparisonLabels .lt (session.comparisons + 1)
    | _ => []
  | .label name => [.name name]
  | .function name _ => [.name name]
  | .call _ _ => [session.nextReturn]
  | _ => []

/-- A label of a block is a place of a comparison, a name that the command declares, or the return
of a call. -/
theorem labels_cases {session : Session} {command : Command} {symbol : Symbol}
    (h : symbol ∈ session.labels command) :
    (∃ place operator serial, symbol = .comparison place operator serial) ∨
      (∃ name, symbol = .name name ∧ command.declares? = some name) ∨
      symbol = session.nextReturn := by
  have hcomparison : ∀ {comparison serial}, symbol ∈ comparisonLabels comparison serial →
      ∃ place operator serial, symbol = .comparison place operator serial := by
    intro comparison serial hlabel
    obtain ⟨place, -, rfl⟩ := List.mem_map.mp hlabel
    exact ⟨place, comparison, serial, rfl⟩
  cases command with
  | arithmetic word =>
      dsimp only [Session.labels] at h
      split at h
      · exact .inl (hcomparison h)
      · exact .inl (hcomparison h)
      · exact .inl (hcomparison h)
      · exact absurd h (by simp)
  | label name => exact .inr (.inl ⟨name, List.mem_singleton.mp h, rfl⟩)
  | function name locals => exact .inr (.inl ⟨name, List.mem_singleton.mp h, rfl⟩)
  | call name arguments => exact .inr (.inr (List.mem_singleton.mp h))
  | _ => exact absurd h (by simp [Session.labels])

/-! ### The pieces of a comparison -/

@[simp] theorem declaredIn_nil : declaredIn [] = [] := rfl

@[simp] theorem declaredIn_declare (symbol : Symbol) (rest : List Statement) :
    declaredIn (.declare symbol :: rest) = symbol :: declaredIn rest := rfl

@[simp] theorem declaredIn_assign (destination : Destination) (computation : Computation)
    (rest : List Statement) :
    declaredIn (assign destination computation :: rest) = declaredIn rest := rfl

@[simp] theorem declaredIn_popD : declaredIn popD = [] := rfl

@[simp] theorem declaredIn_atTop : declaredIn atTop = [] := rfl

@[simp] theorem declaredIn_store (symbol : Symbol) : declaredIn (store symbol) = [] := rfl

@[simp] theorem declaredIn_fetch (symbol : Symbol) : declaredIn (fetch symbol) = [] := rfl

@[simp] theorem declaredIn_jumpTo (symbol : Symbol) : declaredIn (jumpTo symbol) = [] := rfl

@[simp] theorem declaredIn_jumpWhen (jump : Jump) (symbol : Symbol) :
    declaredIn (jumpWhen jump symbol) = [] := rfl

private theorem declaredIn_comparisonBlock (comparison : Comparison) (serial : Nat) :
    declaredIn (comparisonBlock comparison serial) = comparisonLabels comparison serial := by
  unfold comparisonBlock signedDifference
  cases comparison <;> simp [difference, comparisonLabels, comparisonPlaces]

/-! ### The labels of a block -/

private theorem declaredIn_pushBlock (location : Location) :
    declaredIn (pushBlock location) = [] := by
  cases location <;> rfl

private theorem declaredIn_popBlock? {location : Location} {statements : List Statement}
    (h : popBlock? location = some statements) : declaredIn statements = [] := by
  cases location with
  | constant value => exact absurd h (by simp [popBlock?])
  | indirect base index => rw [← Option.some.inj h]; rfl
  | direct symbol => rw [← Option.some.inj h]; rfl

private theorem filterMap_functionBlock {α : Type} {pick : Statement → Option α}
    (hpick : pushZero.filterMap pick = []) (name : String) (locals : Int) :
    (functionBlock name locals).filterMap pick =
      [Statement.declare (.name name)].filterMap pick := by
  have hzeros : (List.replicate locals.toNat pushZero).flatten.filterMap pick = [] := by
    rw [List.filterMap_eq_nil_iff] at hpick ⊢
    intro statement hmem
    obtain ⟨block, hblock, hstatement⟩ := List.mem_flatten.mp hmem
    exact hpick statement (List.eq_of_mem_replicate hblock ▸ hstatement)
  rw [functionBlock, ← List.singleton_append, List.filterMap_append, hzeros, List.append_nil]

/-- The labels that a block declares. -/
theorem declaredIn_block {session next : Session} {command : Command} {body : List Statement}
    (h : session.block command = .ok (next, body)) : declaredIn body = session.labels command := by
  cases block_eq_ok_iff.mp h with
  | @operate word operator hoperator =>
      rw [Session.labels, hoperator]
      cases operator with
      | eq => exact declaredIn_comparisonBlock .eq _
      | gt => exact declaredIn_comparisonBlock .gt _
      | lt => exact declaredIn_comparisonBlock .lt _
      | _ => rfl
  | push _ _ => exact declaredIn_pushBlock _
  | pop _ _ hbody => exact declaredIn_popBlock? hbody
  | function name locals => exact filterMap_functionBlock rfl name locals
  | _ => rfl

/-! ## What stands in a block -/

/-- What the block of a command can load: registers and numbers, the static variable and the target
that the command names, and the labels made up for it. -/
def Session.Refers (session : Session) (command : Command) : Symbol → Prop
  | .register _ => True
  | .number _ => True
  | .static source index => session.source = some source ∧ command.number? = some index
  | .name name => command.target? = some name
  | .comparison place operator serial => .comparison place operator serial ∈ session.labels command
  | .returnOf function serial => .returnOf function serial ∈ session.labels command

/-- A statement that the block of a command can hold. -/
def Session.Holds (session : Session) (command : Command) : Statement → Prop
  | .comment _ => False
  | .declare symbol => symbol ∈ session.labels command
  | .load symbol => session.Refers command symbol
  | .compute _ _ _ => True

@[simp] theorem Session.holds_declare (session : Session) (command : Command) (symbol : Symbol) :
    session.Holds command (.declare symbol) ↔ symbol ∈ session.labels command := Iff.rfl

@[simp] theorem Session.holds_load (session : Session) (command : Command) (symbol : Symbol) :
    session.Holds command (.load symbol) ↔ session.Refers command symbol := Iff.rfl

@[simp] theorem Session.holds_compute (session : Session) (command : Command)
    (destination : Destination) (computation : Computation) (jump : Option Jump) :
    session.Holds command (.compute destination computation jump) := trivial

@[simp] theorem Session.refers_register (session : Session) (command : Command) (r : Register) :
    session.Refers command (.register r) := trivial

@[simp] theorem Session.refers_number (session : Session) (command : Command) (value : Int) :
    session.Refers command (.number value) := trivial

theorem Session.Refers.mem_labels {session : Session} {command : Command} {symbol : Symbol}
    (h : session.Refers command symbol) (hmadeUp : symbol.isMadeUp = true) :
    symbol ∈ session.labels command := by
  cases symbol with
  | comparison place operator serial => exact h
  | returnOf function serial => exact h
  | _ => exact absurd hmadeUp (by simp [Symbol.isMadeUp])

private theorem holds_comparisonBlock {session : Session} {command : Command}
    {comparison : Comparison} {serial : Nat}
    (hlabels : session.labels command = comparisonLabels comparison serial) :
    ∀ statement ∈ comparisonBlock comparison serial, session.Holds command statement := by
  unfold comparisonBlock signedDifference
  cases comparison <;>
    simp [difference, popD, atTop, store, fetch, jumpTo, jumpWhen, atRegister, assign, jumpIf,
      Session.Refers, hlabels, comparisonLabels, comparisonPlaces]

private theorem holds_operate {session : Session} {word : String} {operator : Operator}
    (hoperator : Operator.ofWord? word = some operator) :
    ∀ statement ∈ (session.operate operator).2, session.Holds (.arithmetic word) statement := by
  cases operator with
  | eq => exact holds_comparisonBlock (by rw [Session.labels, hoperator])
  | gt => exact holds_comparisonBlock (by rw [Session.labels, hoperator])
  | lt => exact holds_comparisonBlock (by rw [Session.labels, hoperator])
  | _ => simp [Session.operate, binaryBlock, unaryBlock, popD, atTop, atRegister, assign]

/-- A cell that is found by a symbol is a fixed one, or the static variable that is asked for. -/
private theorem refers_of_locates {session : Session} {command : Command} {segment : Segment}
    {index : Int} {symbol : Symbol} (hnumber : command.number? = some index)
    (h : session.Locates segment index (.direct symbol)) : session.Refers command symbol := by
  cases h with
  | static _ hsource _ => exact ⟨hsource, hnumber⟩
  | _ => trivial

private theorem holds_pushBlock {session : Session} {command : Command} {location : Location}
    (hlocation : ∀ symbol, location = .direct symbol → session.Refers command symbol) :
    ∀ statement ∈ pushBlock location, session.Holds command statement := by
  cases location with
  | direct symbol => simp [pushBlock, fetch, pushD, atRegister, assign, hlocation symbol rfl]
  | _ => simp [pushBlock, fetchAddress, pushD, atRegister, assign]

private theorem holds_popBlock? {session : Session} {command : Command} {location : Location}
    {body : List Statement}
    (hlocation : ∀ symbol, location = .direct symbol → session.Refers command symbol)
    (h : popBlock? location = some body) :
    ∀ statement ∈ body, session.Holds command statement := by
  cases location with
  | constant value => exact absurd h (by simp [popBlock?])
  | indirect base index =>
      rw [← Option.some.inj h]
      simp [fetchAddress, store, popD, atRegister, assign]
  | direct symbol =>
      rw [← Option.some.inj h]
      simp [store, popD, atRegister, assign, hlocation symbol rfl]

private theorem holds_functionBlock (session : Session) (name : String) (locals : Int) :
    ∀ statement ∈ functionBlock name locals, session.Holds (.function name locals) statement := by
  intro statement hmem
  rcases List.mem_cons.mp hmem with rfl | hmem
  · exact List.mem_singleton_self _
  · obtain ⟨block, hblock, hstatement⟩ := List.mem_flatten.mp hmem
    rw [List.eq_of_mem_replicate hblock] at hstatement
    simp only [pushZero, atRegister, assign, List.mem_cons, List.not_mem_nil, or_false]
      at hstatement
    rcases hstatement with rfl | rfl | rfl | rfl | rfl <;> simp

/-- Nothing else stands in a block. -/
theorem holds_block {session next : Session} {command : Command} {body : List Statement}
    (h : session.block command = .ok (next, body)) :
    ∀ statement ∈ body, session.Holds command statement := by
  cases block_eq_ok_iff.mp h with
  | operate hoperator => exact holds_operate hoperator
  | push _ hlocates =>
      apply holds_pushBlock
      rintro symbol rfl
      exact refers_of_locates rfl hlocates
  | pop _ hlocates hbody =>
      apply holds_popBlock? _ hbody
      rintro symbol rfl
      exact refers_of_locates rfl hlocates
  | label name => simp [labelBlock, Session.labels]
  | goto name => simp [gotoBlock, jumpTo, jumpIf, Session.Refers, Command.target?]
  | ifGoto name =>
      simp [ifGotoBlock, popD, jumpWhen, jumpIf, atRegister, assign, Session.Refers,
        Command.target?]
  | function name locals => exact holds_functionBlock session name locals
  | call name arguments =>
      simp [callBlock, savedRegisters, fetchAddress, fetch, store, pushD, jumpTo, atRegister,
        atNumber, assign, jumpIf, Session.nextReturn, Session.Refers, Session.labels,
        Command.target?]
  | ret => simp [returnBlock, restore, fetch, store, popD, atRegister, atNumber, assign, jumpIf]

/-- A block declares every made-up label that it refers to. -/
theorem mem_declaredIn_of_loaded {session next : Session} {command : Command}
    {body : List Statement} (h : session.block command = .ok (next, body)) {symbol : Symbol}
    (hmadeUp : symbol.isMadeUp = true) (hload : .load symbol ∈ body) :
    symbol ∈ declaredIn body := by
  rw [declaredIn_block h]
  exact (holds_block h _ hload).mem_labels hmadeUp

end HackVm.Emit
