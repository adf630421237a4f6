import HackVm.Proofs.Emission.Labels
import HackVm.Proofs.Emission.Words

/-!
# Programs that compile and load

`Builds` relates a program to the image that its code is loaded as.  Everything later is about such
programs, and uses these facts.

* `code_cases`: what the code of a program consists of.
* `isPlain_of_compileText`, `isWritable_of_compileText`: every statement is plain and within the
  digit limit, so that the loader sees the lines of the code (`load_compiled`).
* `Builds.block`: the block of every command stands at its address.
-/

namespace HackVm

open Emit Hack Text

/-! ## Emitted blocks are plain -/

/-- The names that a session remembers are what the program gives. -/
structure Emit.Session.IsPlain (session : Session) : Prop where
  source : ∀ source, session.source = some source → IsSingleLine source
  function : ∀ function, session.function = some function → IsWord function

private theorem isPlain_nextReturn {session : Session} (hsession : session.IsPlain) :
    session.nextReturn.IsPlain := by
  rw [Session.nextReturn, Symbol.isPlain_returnOf]
  cases hfunction : session.function.filter (!·.isEmpty) with
  | none => decide +kernel
  | some function => exact hsession.function function (Option.eq_some_of_filter_eq_some hfunction)

private theorem isPlain_labels {session : Session} {command : Command} {symbol : Symbol}
    (hsession : session.IsPlain) (hcommand : command.IsPlain)
    (h : symbol ∈ session.labels command) : symbol.IsPlain ∧ symbol.isLabel = true := by
  rcases labels_cases h with ⟨place, operator, serial, rfl⟩ | ⟨name, rfl, hname⟩ | rfl
  · exact ⟨trivial, rfl⟩
  · exact ⟨hcommand.word name (Command.word?_of_declares? hname), rfl⟩
  · exact ⟨isPlain_nextReturn hsession, rfl⟩

private theorem isPlain_of_refers {session : Session} {command : Command} {symbol : Symbol}
    (hsession : session.IsPlain) (hcommand : command.IsPlain)
    (h : session.Refers command symbol) : symbol.IsPlain := by
  cases symbol with
  | static source index => exact hsession.source source h.1
  | name name => exact hcommand.word name (Command.word?_of_target? h)
  | returnOf function serial => exact (isPlain_labels hsession hcommand h).1
  | _ => trivial

/-- What a block can hold is made of names that the session and the command give. -/
private theorem isPlain_of_holds {session : Session} {command : Command} {statement : Statement}
    (hsession : session.IsPlain) (hcommand : command.IsPlain)
    (h : session.Holds command statement) : statement.IsPlain := by
  cases statement with
  | comment text => exact h.elim
  | declare symbol => exact isPlain_labels hsession hcommand h
  | load symbol => exact isPlain_of_refers hsession hcommand h
  | compute destination computation jump => trivial

/-- The block of a plain command has plain statements and leaves a plain session. -/
theorem isPlain_block {session next : Session} {command : Command} {body : List Statement}
    (hsession : session.IsPlain) (hcommand : command.IsPlain)
    (h : session.block command = .ok (next, body)) :
    (∀ statement ∈ body, statement.IsPlain) ∧ next.IsPlain := by
  refine ⟨fun statement hmem => isPlain_of_holds hsession hcommand (holds_block h _ hmem), ?_, ?_⟩
  · rw [block_source h]
    exact hsession.source
  · intro function hfunction
    rw [block_function h] at hfunction
    rcases Option.or_eq_some_iff.mp hfunction with hbegun | ⟨-, hsame⟩
    · exact hcommand.word function (Command.word?_of_begun? hbegun)
    · exact hsession.function function hsame

/-- A plain command is shown on one line. -/
theorem isSingleLine_text {command : Command} (hcommand : command.IsPlain) :
    IsSingleLine command.text := by
  have hword : ∀ word, command.word? = some word → IsSingleLine word :=
    fun word h => (hcommand.word word h).isSingleLine
  have hnumber : ∀ n, IsSingleLine (decimal n) := fun n => (isWord_decimal n).isSingleLine
  have hspace : IsSingleLine " " := by decide
  cases command with
  | arithmetic word => exact hword word rfl
  | push segment index =>
      have hfirst : IsSingleLine "push " := by decide
      exact ((hfirst.append (hword segment rfl)).append hspace).append (hnumber index)
  | pop segment index =>
      have hfirst : IsSingleLine "pop " := by decide
      exact ((hfirst.append (hword segment rfl)).append hspace).append (hnumber index)
  | label name =>
      have hfirst : IsSingleLine "label " := by decide
      exact hfirst.append (hword name rfl)
  | goto name =>
      have hfirst : IsSingleLine "goto " := by decide
      exact hfirst.append (hword name rfl)
  | ifGoto name =>
      have hfirst : IsSingleLine "if-goto " := by decide
      exact hfirst.append (hword name rfl)
  | function name locals =>
      have hfirst : IsSingleLine "function " := by decide
      exact ((hfirst.append (hword name rfl)).append hspace).append (hnumber locals)
  | call name arguments =>
      have hfirst : IsSingleLine "call " := by decide
      exact ((hfirst.append (hword name rfl)).append hspace).append (hnumber arguments)
  | ret => decide

theorem eq_comment_of_mem {session : Session} {shown : String} {statement : Statement}
    (h : statement ∈ session.annotation shown) : statement = .comment shown := by
  rcases session.annotation_cases shown with hcomment | hnone
  · rw [hcomment] at h
    exact List.mem_singleton.mp h
  · rw [hnone] at h
    exact absurd h List.not_mem_nil

private theorem isPlain_annotation (session : Session) {text : String} (htext : IsSingleLine text) :
    ∀ statement ∈ session.annotation text, statement.IsPlain := by
  intro statement hmem
  rw [eq_comment_of_mem hmem]
  exact htext

/-- The emission of a plain command has plain statements and leaves a plain session. -/
theorem isPlain_emit {session next : Session} {source : String} {command : Command}
    {statements : List Statement} (hsession : session.IsPlain) (hsource : IsSingleLine source)
    (hcommand : command.IsPlain)
    (h : (session.openSource source).emit command = (next, .ok statements)) :
    (∀ statement ∈ statements, statement.IsPlain) ∧ next.IsPlain := by
  have hopen : (session.openSource source).IsPlain :=
    ⟨fun other hother => Option.some.inj hother ▸ hsource, hsession.function⟩
  obtain ⟨body, hblock, rfl, -⟩ := emit_eq_ok h
  obtain ⟨hbody, hnext⟩ := isPlain_block hopen hcommand hblock
  refine ⟨fun statement hmem => ?_, hnext⟩
  rcases List.mem_append.mp hmem with hmem | hmem
  · exact isPlain_annotation _ (isSingleLine_text hcommand) statement hmem
  · exact hbody statement hmem

/-! ## The start -/

private theorem isPlain_startup {settings : Settings}
    (hstart : (compileStart settings.session settings.bootstrap).failure = none) :
    (∀ statement ∈ settings.startup, statement.IsPlain) ∧ settings.opening.IsPlain := by
  have hbare : settings.session.IsPlain :=
    ⟨fun _ h => (nomatch h), fun _ h => (nomatch h)⟩
  have hentry : (Command.call entryFunction 0).IsPlain := by
    constructor
    · intro word hword
      rw [← Option.some.inj hword]
      decide +kernel
    · intro number hnumber
      rw [← Option.some.inj hnumber]
  have hcomment : IsSingleLine "bootstrap" := by decide
  rcases startup_cases hstart with ⟨-, hcode, hopening⟩ | ⟨-, -, hcode, hopening⟩
  · rw [hcode, hopening]
    exact ⟨by simp, hbare⟩
  · rw [hcode, hopening]
    refine ⟨fun statement hmem => ?_, hbare.source, hbare.function⟩
    rcases List.mem_append.mp hmem with hmem | hmem
    · exact isPlain_annotation _ hcomment statement hmem
    · rcases List.mem_append.mp hmem with hmem | hmem
      · simp only [fetchAddress, store, assign, List.mem_append, List.mem_cons, List.not_mem_nil,
          or_false] at hmem
        rcases hmem with (rfl | rfl) | rfl | rfl <;> simp
      · exact (isPlain_block hbare hentry rfl).1 statement hmem

/-! ## Programs -/

/-- No source name holds a line break. -/
def SingleLineNames (sources : List Source) : Prop :=
  ∀ source ∈ sources, IsSingleLine source.name

instance (sources : List Source) : Decidable (SingleLineNames sources) :=
  inferInstanceAs (Decidable (∀ source ∈ sources, IsSingleLine source.name))

section Compilation

variable {settings : Settings} {sources : List Source} {text : String}

/-- The emission of every command in its place: the session before it, its block, and what is known
of both. -/
theorem emission_of_compileText (h : compileText settings sources = .ok text)
    (hnames : SingleLineNames sources) {i : Nat} {entry : Entry}
    (hentry : (listing sources)[i]? = some entry) :
    ∃ (before next : Session) (block : List Statement), before.IsPlain ∧
      (programBlocks settings sources)[i]? = some block ∧
      (before.openSource entry.source).emit entry.command = (next, .ok block) := by
  obtain ⟨hstart, -, final, hemission⟩ := compile_eq_ok h
  refine hemission.exists_emit (isPlain_startup hstart).2 ?_ hentry
  intro entry hmem before next block hbefore hemit
  obtain ⟨hplain, source, hsource, hname⟩ := isPlain_of_mem_listing hmem
  exact (isPlain_emit hbefore (hname ▸ hnames source hsource) hplain hemit).2

/-- All statements of a program are plain. -/
theorem isPlain_of_compileText (h : compileText settings sources = .ok text)
    (hnames : SingleLineNames sources) :
    ∀ statement ∈ programCode settings sources, statement.IsPlain := by
  intro statement hmem
  obtain ⟨hstart, -, final, hemission⟩ := compile_eq_ok h
  rcases List.mem_append.mp hmem with hmem | hmem
  · exact (isPlain_startup hstart).1 statement hmem
  · obtain ⟨block, hblock, hstatement⟩ := List.mem_flatten.mp hmem
    obtain ⟨i, hi⟩ := List.getElem?_of_mem hblock
    obtain ⟨entry, -, -, hentry, -⟩ := hemission.exists_entry hi
    obtain ⟨before, next, found, hbefore, hfound, hemit⟩ := emission_of_compileText h hnames hentry
    obtain rfl : found = block := Option.some.inj (hfound.symm.trans hi)
    obtain ⟨hplain, source, hsource, hname⟩ := isPlain_of_mem_listing (List.mem_of_getElem? hentry)
    exact (isPlain_emit hbefore (hname ▸ hnames source hsource) hplain hemit).1 statement hstatement

theorem exists_compileText (h : (compile settings sources).failure = none) :
    ∃ text, compileText settings sources = .ok text := by
  refine ⟨assembly (compile settings sources).statements, ?_⟩
  rw [compileText, Outcome.result, h]

/-- The loader sees the lines of the code of a program. -/
theorem load_compiled (h : compileText settings sources = .ok text)
    (hnames : SingleLineNames sources) :
    Image.load text = Image.ofLines ((programCode settings sources).filterMap Statement.line?) := by
  have hlines := fun statement hmem => (isPlain_of_compileText h hnames statement hmem).isLine
  rw [(compile_eq_ok h).2.1, load_eq_ofLines, significantLines_assembly hlines]

/-- What the code of a program consists of: comments, the setting of the stack pointer, the call of
the entry function, and the blocks of the listing. -/
theorem code_cases (h : compileText settings sources = .ok text) {statement : Statement}
    (hmem : statement ∈ programCode settings sources) :
    (∃ shown, statement = .comment shown) ∨
      statement ∈ fetchAddress (.number settings.stackBase) ++ store (.register .sp) ∨
      settings.session.Holds (.call entryFunction 0) statement ∨
      ∃ entry ∈ listing sources, ∃ session : Session, session.source = some entry.source ∧
        session.Holds entry.command statement := by
  obtain ⟨hstart, -, final, hemission⟩ := compile_eq_ok h
  rcases List.mem_append.mp hmem with hmem | hmem
  · rcases startup_cases hstart with ⟨-, hcode, -⟩ | ⟨-, -, hcode, -⟩
    · rw [hcode] at hmem
      exact absurd hmem (by simp)
    · rw [hcode] at hmem
      rcases List.mem_append.mp hmem with hmem | hmem
      · exact .inl ⟨_, eq_comment_of_mem hmem⟩
      · rcases List.mem_append.mp hmem with hmem | hmem
        · exact .inr (.inl hmem)
        · exact .inr (.inr (.inl (holds_block rfl _ hmem)))
  · obtain ⟨block, hblock, hstatement⟩ := List.mem_flatten.mp hmem
    obtain ⟨i, hi⟩ := List.getElem?_of_mem hblock
    obtain ⟨entry, before, next, hentry, hemit⟩ := hemission.exists_entry hi
    obtain ⟨body, hbody, rfl, -⟩ := emit_eq_ok hemit
    rcases List.mem_append.mp hstatement with hmem | hmem
    · exact .inl ⟨_, eq_comment_of_mem hmem⟩
    · have hentry := List.mem_of_getElem? hentry
      exact .inr (.inr (.inr ⟨entry, hentry, _, rfl, holds_block hbody _ hmem⟩))

/-- All numbers in the code of a program are within the digit limit. -/
theorem isWritable_of_compileText (h : compileText settings sources = .ok text)
    {statement : Statement} (hmem : statement ∈ programCode settings sources) :
    statement.isWritable = true := by
  obtain ⟨hstart, -, final, hemission⟩ := compile_eq_ok h
  rcases List.mem_append.mp hmem with hmem | hmem
  · rcases startup_cases hstart with ⟨-, hcode, -⟩ | ⟨-, hwritable, hcode, -⟩
    · rw [hcode] at hmem
      exact absurd hmem (by simp)
    · have hframe : isWritable frameSize = true := isWritable_of_lt (by decide)
      have hblock : ∀ statement ∈ bootstrapBlock settings.stackBase settings.session.nextReturn,
          statement.isWritable = true := by
        simp [bootstrapBlock, callBlock, savedRegisters, fetchAddress, fetch, store, pushD, jumpTo,
          atRegister, atNumber, assign, jumpIf, Session.nextReturn, Statement.isWritable,
          Symbol.isWritable, hwritable, hframe]
      rw [hcode] at hmem
      rcases List.mem_append.mp hmem with hmem | hmem
      · rw [eq_comment_of_mem hmem]
        rfl
      · exact hblock statement hmem
  · obtain ⟨block, hblock, hstatement⟩ := List.mem_flatten.mp hmem
    obtain ⟨i, hi⟩ := List.getElem?_of_mem hblock
    obtain ⟨entry, before, next, hentry, hemit⟩ := hemission.exists_entry hi
    obtain ⟨body, -, -, hwritable⟩ := emit_eq_ok hemit
    exact hwritable statement hstatement

end Compilation

/-! ## Blocks in place -/

/-- The program compiles, and its code loads as the image. -/
def Builds (settings : Settings) (sources : List Source) (image : Image) : Prop :=
  ∃ text, compileText settings sources = .ok text ∧ Image.load text = .ok image

/-- The image of a program, if it compiles and loads.  It is made without the text in between. -/
def build? (settings : Settings) (sources : List Source) : Option Image :=
  if (compile settings sources).failure = none then
    (Image.ofLines ((programCode settings sources).filterMap Statement.line?)).toOption
  else
    none

theorem builds_of_build? {settings : Settings} {sources : List Source} {image : Image}
    (hnames : SingleLineNames sources) (h : build? settings sources = some image) :
    Builds settings sources image := by
  unfold build? at h
  split at h
  · next hnone =>
    obtain ⟨text, hcompile⟩ := exists_compileText hnone
    refine ⟨text, hcompile, ?_⟩
    rw [load_compiled hcompile hnames]
    cases hload : Image.ofLines ((programCode settings sources).filterMap Statement.line?) with
    | error error => simp [hload, Except.toOption] at h
    | ok loaded =>
        rw [hload] at h
        rw [Option.some.inj h]
  · exact absurd h (by simp)

namespace Builds

variable {settings : Settings} {sources : List Source} {image : Image}

theorem isPlain (h : Builds settings sources image) (hnames : SingleLineNames sources) :
    ∀ statement ∈ programCode settings sources, statement.IsPlain := by
  obtain ⟨text, hcompile, -⟩ := h
  exact isPlain_of_compileText hcompile hnames

/-- The code of a program stands in program memory, and fills it. -/
theorem laysOut (h : Builds settings sources image) (hnames : SingleLineNames sources) :
    image.LaysOut 0 (programCode settings sources) ∧
      image.rom.size = address settings sources (listing sources).length ∧
      image.labels = declarations 0 (programCode settings sources) := by
  have hlines := fun statement hmem => (h.isPlain hnames statement hmem).isLine
  obtain ⟨text, hcompile, hload⟩ := h
  obtain ⟨-, rfl, final, hemission⟩ := compile_eq_ok hcompile
  rw [← hemission.length_eq, address_length]
  exact laysOut_of_load hlines hload

/-- The block of a command stands at its address and ends at the address of the next one. -/
theorem block (h : Builds settings sources image) (hnames : SingleLineNames sources) {i : Nat}
    {entry : Entry} (hentry : (listing sources)[i]? = some entry) :
    ∃ (session next : Session) (body : List Statement), session.source = some entry.source ∧
      session.block entry.command = .ok (next, body) ∧
      image.LaysOut (address settings sources i) body ∧
      address settings sources (i + 1) = address settings sources i + codeSize body ∧
      ∀ statement ∈ body, statement ∈ programCode settings sources ∧
        statement.isWritable = true := by
  have hcode := (h.laysOut hnames).1
  obtain ⟨text, hcompile, -⟩ := h
  obtain ⟨before, next, block, hbefore, hblock, hemit⟩ :=
    emission_of_compileText hcompile hnames hentry
  obtain ⟨body, hbody, rfl, hwritable⟩ := emit_eq_ok hemit
  have hlaid := laysOut_append.mp (laysOut_block hcode hblock)
  rw [codeSize_annotation_eq_zero, Nat.add_zero] at hlaid
  refine ⟨before.openSource entry.source, next, body, rfl, hbody, hlaid.2, ?_, ?_⟩
  · rw [address_succ hblock, codeSize_append, codeSize_annotation_eq_zero, Nat.zero_add]
  · intro statement hmem
    have hblocks := List.mem_of_getElem? hblock
    refine ⟨List.mem_append_right _ (List.mem_flatten.mpr ⟨_, hblocks, ?_⟩), hwritable statement ?_⟩
    · exact List.mem_append_right _ hmem
    · exact List.mem_append_right _ hmem

end Builds

end HackVm
