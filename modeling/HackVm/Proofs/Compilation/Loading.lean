import HackVm.Proofs.Assembly.Resolution
import HackVm.Proofs.Emission.Freshness
import HackVm.Proofs.Emission.Meaning
import Mathlib.Data.List.Duplicate

/-!
# Compiled programs are understood by the loader

The code of a program is written out as text, with the names of the program spliced in as they are,
and the loader reads the text without knowing what the names stood for.  Two things can keep it from
loading, and both come from names that commands give.

* A label is declared twice.  The labels made up for a program are all different texts
  (`nodup_madeUp_of_compileText`), so one of the two declarations is a label or function command
  (`exists_declares_of_duplicate`).
* A number cannot be read.  Whatever is written in digits alone is a number to the loader, and the
  only texts that may be digits and yet no number are targets of jumps (`MisreadsTarget`).

`compiled_text_understood` puts the two together: a program loads unless one of them happens.
-/

namespace HackVm

open Emit Hack Text

/-! ## Declared labels -/

/-- A label is declared twice if it stands twice among the labels of the lines. -/
theorem declaredTwice_iff {lines : List (List Char)} {name : String} :
    DeclaredTwice lines name ↔ List.Duplicate name (lines.filterMap labelOf?) := by
  rw [List.duplicate_iff_two_le_count]
  -- A declaration is a repeat because of what comes before it, so lines are added at the end.
  induction lines using List.reverseRecOn with
  | nil => simpa using collected_nil.once name
  | append_singleton front line ih =>
      have hdeclared : Declared front name ↔ 0 < (front.filterMap labelOf?).count name := by
        rw [List.count_pos_iff, List.mem_filterMap]
        exact Iff.rfl
      rw [declaredTwice_concat, ih, hdeclared, List.filterMap_append, List.count_append]
      cases hline : labelOf? line with
      | none => simp [hline]
      | some other =>
          by_cases hother : other = name
          · subst hother
            rw [List.filterMap_cons_some hline, List.filterMap_nil, List.count_singleton_self]
            simp only [true_and]
            omega
          · simp [hline, hother]

/-- The labels of the lines of statements are those that the statements declare. -/
theorem labels_of_lines (statements : List Statement) :
    (statements.filterMap Statement.line?).filterMap labelOf? =
      (declaredIn statements).map Symbol.text := by
  rw [declaredIn, List.filterMap_filterMap, List.map_filterMap]
  apply List.filterMap_congr
  intro statement _
  cases statement with
  | comment shown => rfl
  | declare symbol => exact labelOf?_declare symbol
  | load symbol => rfl
  | compute destination computation jump => exact labelOf?_compute destination computation jump

/-- What a listing declares of made-up labels is what its commands make up, one after the other. -/
theorem Emission.madeUp_eq {session final : Session} {entries : List Entry}
    {blocks : List (List Statement)} (h : Emission session entries blocks final) :
    (declaredIn blocks.flatten).filter Symbol.isMadeUp =
      session.labelsMade (entries.flatMap fun entry =>
        [.setSource (some entry.source), .emit entry.command]) := by
  induction h with
  | nil => rfl
  | @cons session next final entry rest block blocks hemit _ ih =>
      -- To open a source is an operation of its own, which makes up nothing.
      have hperform : (session.openSource entry.source).perform (.emit entry.command) =
          (next, .ok block) := hemit
      have hnext : ((session.openSource entry.source).perform (.emit entry.command)).1 = next := by
        rw [hperform]
      rw [List.flatten_cons, declaredIn_append, List.filter_append, (perform_labels hperform).1, ih,
        ← hnext]
      rfl

variable {settings : Settings} {sources : List Source} {text : String}

/-- No two of the labels that are made up for a program are the same text. -/
theorem nodup_madeUp_of_compileText (h : compileText settings sources = .ok text) :
    (((declaredIn (programCode settings sources)).filter Symbol.isMadeUp).map
      Symbol.text).Nodup := by
  obtain ⟨hstart, -, final, hemission⟩ := compile_eq_ok h
  rw [programCode, declaredIn_append, List.filter_append, hemission.madeUp_eq]
  rcases startup_cases hstart with ⟨-, hcode, hopening⟩ | ⟨-, hwritable, hcode, hopening⟩
  · rw [hcode, hopening]
    exact nodup_labelsMade settings.session _
  · have hperform : settings.session.perform .bootstrap =
        (settings.opening, .ok settings.startup) := by
      have hbase : isWritable settings.session.stackBase = true := hwritable
      rw [hcode, hopening, Session.perform, Session.bootstrap, if_pos hbase]
      rfl
    have hnext : (settings.session.perform .bootstrap).1 = settings.opening := by rw [hperform]
    rw [(perform_labels hperform).1, ← hnext]
    exact nodup_labelsMade settings.session (.bootstrap :: _)

/-- Of two declarations of the same text at least one is a command of the program. -/
theorem exists_declares_of_duplicate (h : compileText settings sources = .ok text) {name : String}
    (hduplicate : List.Duplicate name
      ((declaredIn (programCode settings sources)).map Symbol.text)) :
    ∃ entry ∈ listing sources, entry.command.declares? = some name := by
  by_contra hnone
  have hmadeUp : ∀ symbol ∈ declaredIn (programCode settings sources), symbol.text = name →
      symbol.isMadeUp = true := by
    intro symbol hsymbol htext
    rcases declare_cases h (mem_declaredIn.mp hsymbol) with hmade |
      ⟨entry, hentry, word, rfl, hword⟩
    · exact hmade
    · exact absurd ⟨entry, hentry, htext ▸ hword⟩ hnone
  -- All of its declarations are made up, so there are two of it among the labels made up.
  have hcount : ((declaredIn (programCode settings sources)).map Symbol.text).count name =
      (((declaredIn (programCode settings sources)).filter Symbol.isMadeUp).map
        Symbol.text).count name := by
    rw [List.count_eq_countP, List.count_eq_countP, List.countP_map, List.countP_map,
      List.countP_filter]
    apply List.countP_congr
    intro symbol hsymbol
    simpa using hmadeUp symbol hsymbol
  have hnodup := nodup_madeUp_of_compileText h
  rw [List.duplicate_iff_two_le_count, hcount, ← List.duplicate_iff_two_le_count] at hduplicate
  exact hduplicate.not_nodup hnodup

/-! ## Numbers that cannot be read -/

/-- The symbol is written in digits that are no number. -/
def Emit.Symbol.IsMisread (symbol : Symbol) (reason : NumberError) : Prop :=
  isNumberText symbol.operand = true ∧ readInt 10 (String.ofList symbol.operand) = .error reason

/-- A computing line is always read. -/
private theorem not_unreadable_computeText (destination : Destination) (computation : Computation)
    (jump : Option Jump) (error : LoadError) :
    ¬ Unreadable (computeText destination computation jump).toList error := by
  intro hwrong
  obtain ⟨first, rest, htext, -, hat⟩ := computeText_eq_cons destination computation jump
  have hload : (computeText destination computation jump).toList.head? ≠ some '@' := by
    rw [htext, List.head?_cons]
    exact fun hfirst => hat (Option.some.inj hfirst)
  have hread := readCompute_of_unreadable hload hwrong
  rw [readCompute_computeText] at hread
  exact absurd hread (by simp)

/-- The lines of statements can be read but for numbers. -/
theorem unreadable_lines_iff {statements : List Statement} {error : LoadError} :
    (∃ line ∈ instructionLines (statements.filterMap Statement.line?), Unreadable line error) ↔
      ∃ symbol reason, .load symbol ∈ statements ∧ error = .number reason ∧
        symbol.IsMisread reason := by
  constructor
  · rintro ⟨line, hline, hwrong⟩
    obtain ⟨hmem, hcode⟩ := List.mem_filter.mp hline
    obtain ⟨statement, hstatement, hshown⟩ := List.mem_filterMap.mp hmem
    cases statement with
    | comment shown => exact absurd hshown (by simp [Statement.line?])
    | declare symbol =>
        rw [← Option.some.inj hshown] at hcode
        exact absurd hcode (by simp)
    | load symbol =>
        rw [← Option.some.inj hshown] at hwrong
        cases hwrong with
        | number hdigits herror => exact ⟨symbol, _, hstatement, rfl, hdigits, herror⟩
        | computation hload => exact absurd rfl hload
        | jump hload => exact absurd rfl hload
        | destination hload => exact absurd rfl hload
    | compute destination computation jump =>
        rw [← Option.some.inj hshown] at hwrong
        exact absurd hwrong (not_unreadable_computeText destination computation jump error)
  · rintro ⟨symbol, reason, hload, rfl, hdigits, herror⟩
    refine ⟨'@' :: symbol.operand, List.mem_filter.mpr ⟨?_, rfl⟩, .number hdigits herror⟩
    exact List.mem_filterMap.mpr ⟨_, hload, rfl⟩

/-- A name is misread if it is made of digits that are no number. -/
theorem isMisread_name_iff {name : String} {reason : NumberError} (hword : IsWord name) :
    (Symbol.name name).IsMisread reason ↔
      isNumberText name.toList = true ∧ readInt 10 name = .error reason := by
  have hoperand : (Symbol.name name).operand = name.toList := Symbol.operand_of_isWord hword
  rw [Symbol.IsMisread, hoperand, String.ofList_toList]

/-- A word with a sign that is no digit is not misread. -/
private theorem not_isMisread_of_isWord {symbol : Symbol} (hword : IsWord symbol.text)
    (hname : isNumberText symbol.text.toList = false) {reason : NumberError} :
    ¬ symbol.IsMisread reason := by
  rintro ⟨hdigits, -⟩
  rw [Symbol.operand_of_isWord hword, hname] at hdigits
  exact absurd hdigits (by simp)

private theorem not_isMisread_register (register : Register) {reason : NumberError} :
    ¬ (Symbol.register register).IsMisread reason :=
  not_isMisread_of_isWord (isWord_register register) (isNumberText_register register)

private theorem not_isMisread_number {value : Int} (hwritable : isWritable value = true)
    {reason : NumberError} : ¬ (Symbol.number value).IsMisread reason := by
  by_cases hvalue : 0 ≤ value
  · rintro ⟨-, herror⟩
    rw [readInt_number hvalue hwritable] at herror
    exact absurd herror (by simp)
  · have hword : IsWord (Symbol.number value).text := isWord_decimal value
    have hminus : '-' ∈ (Symbol.number value).text.toList := by
      rw [Symbol.text, decimal, if_pos (Int.not_le.mp hvalue), String.toList_append]
      exact List.mem_append_left _ (by decide)
    exact not_isMisread_of_isWord hword (isNumberText_of_mem (by decide) hminus)

/-- The name of a source need not be a word, but a dot comes after it. -/
private theorem not_isMisread_static {source : String} {index : Int} {reason : NumberError}
    (hmark : ¬ commentMark <:+: source.toList) (hindex : 0 ≤ index) :
    ¬ (Symbol.static source index).IsMisread reason := by
  rintro ⟨hdigits, -⟩
  rw [operand_static hmark hindex, toList_static hindex, isNumberText_of_dot (by simp)] at hdigits
  exact absurd hdigits (by simp)

private theorem not_isMisread_madeUp {symbol : Symbol} (hplain : symbol.IsPlain)
    (hlabel : symbol.isLabel = true) (hmadeUp : symbol.isMadeUp = true) {reason : NumberError} :
    ¬ symbol.IsMisread reason :=
  not_isMisread_of_isWord (hplain.isWord hlabel) (isNumberText_of_isMadeUp hmadeUp)

/-- What a command refers to can be read, unless it is the target of a jump. -/
private theorem target?_of_isMisread {session : Session} {command : Command} {symbol : Symbol}
    {reason : NumberError}
    (hsource : ∀ source, session.source = some source → ¬ commentMark <:+: source.toList)
    (hnumber : ∀ number, command.number? = some number → 0 ≤ number)
    (hplain : symbol.IsPlain) (hwritable : symbol.isWritable = true)
    (hrefers : session.Refers command symbol) (h : symbol.IsMisread reason) :
    ∃ target, symbol = .name target ∧ command.target? = some target := by
  cases symbol with
  | register register => exact absurd h (not_isMisread_register register)
  | number value => exact absurd h (not_isMisread_number hwritable)
  | static source index =>
      exact absurd h (not_isMisread_static (hsource source hrefers.1) (hnumber index hrefers.2))
  | name target => exact ⟨target, rfl, hrefers⟩
  | comparison place operator serial => exact absurd h (not_isMisread_madeUp hplain rfl rfl)
  | returnOf function serial => exact absurd h (not_isMisread_madeUp hplain rfl rfl)

/-- A jump of the program has a target of digits that are no number. -/
def MisreadsTarget (sources : List Source) (reason : NumberError) : Prop :=
  ∃ entry ∈ listing sources, ∃ target, entry.command.target? = some target ∧
    isNumberText target.toList = true ∧ readInt 10 target = .error reason

/-- A symbol of a program that cannot be read is the target of one of its jumps. -/
private theorem misreadsTarget_of_isMisread (h : compileText settings sources = .ok text)
    (hnames : SingleLineNames sources) (hmarks : UnmarkedNames sources) {symbol : Symbol}
    {reason : NumberError} (hload : .load symbol ∈ programCode settings sources)
    (hmisread : symbol.IsMisread reason) : MisreadsTarget sources reason := by
  have hplain : symbol.IsPlain := isPlain_of_compileText h hnames _ hload
  have hwritable : symbol.isWritable = true := isWritable_of_compileText h hload
  rcases code_cases h hload with ⟨shown, hcomment⟩ | hstack | hcall |
    ⟨entry, hentry, session, hsource, hholds⟩
  · exact absurd hcomment (by simp)
  · simp only [fetchAddress, store, assign, List.cons_append, List.nil_append, List.mem_cons,
      List.not_mem_nil, Statement.load.injEq, reduceCtorEq, or_false, false_or] at hstack
    rcases hstack with rfl | rfl
    · exact absurd hmisread (not_isMisread_number hwritable)
    · exact absurd hmisread (not_isMisread_register .sp)
  · -- The call of the entry function jumps to a name with a dot.
    have hsource : ∀ source, settings.session.source = some source →
        ¬ commentMark <:+: source.toList := by
      intro source hsource
      have hnone : settings.session.source = none := rfl
      exact absurd (hnone.symm.trans hsource) (by simp)
    have hnumber : ∀ number, (Command.call entryFunction 0).number? = some number → 0 ≤ number := by
      intro number hnumber
      rw [← Option.some.inj hnumber]
    obtain ⟨target, rfl, htarget⟩ :=
      target?_of_isMisread hsource hnumber hplain hwritable hcall hmisread
    obtain rfl := Option.some.inj htarget
    have hdot : isNumberText (Symbol.name entryFunction).text.toList = false :=
      isNumberText_of_dot (by decide)
    exact absurd hmisread (not_isMisread_of_isWord (hplain.isWord rfl) hdot)
  · obtain ⟨hcommand, source, hmem, hname⟩ := isPlain_of_mem_listing hentry
    have hmark : ∀ other, session.source = some other → ¬ commentMark <:+: other.toList := by
      intro other hother
      rw [← Option.some.inj (hsource.symm.trans hother), ← hname]
      exact hmarks source hmem
    obtain ⟨target, rfl, htarget⟩ :=
      target?_of_isMisread hmark hcommand.number hplain hwritable hholds hmisread
    exact ⟨entry, hentry, target, htarget, (isMisread_name_iff hplain).mp hmisread⟩

/-! ## Jumps -/

/-- The block of a jump ends with the load of its target and the jump, which at most the return of a
call comes after. -/
theorem jump_of_block {session next : Session} {command : Command} {body : List Statement}
    {target : String} (h : session.block command = .ok (next, body))
    (htarget : command.target? = some target) :
    ∃ front computation jump rest,
      body = front ++ .load (.name target) :: jumpIf computation jump :: rest ∧
        codeSize rest = 0 := by
  cases block_eq_ok_iff.mp h with
  | goto name =>
      obtain rfl := Option.some.inj htarget
      exact ⟨[], .zero, .always, [], rfl, rfl⟩
  | ifGoto name =>
      obtain rfl := Option.some.inj htarget
      exact ⟨popD, .d, .ne, [], rfl, rfl⟩
  | call name arguments =>
      obtain rfl := Option.some.inj htarget
      rw [callBlock, List.append_assoc]
      exact ⟨_, .zero, .always, [.declare session.nextReturn], rfl, rfl⟩
  | _ => exact absurd htarget (by simp [Command.target?])

/-- The code of a program loads the target of every jump. -/
theorem load_target_mem (h : compileText settings sources = .ok text)
    (hnames : SingleLineNames sources) {entry : Entry} (hentry : entry ∈ listing sources)
    {target : String} (htarget : entry.command.target? = some target) :
    .load (.name target) ∈ programCode settings sources := by
  obtain ⟨i, hi⟩ := List.getElem?_of_mem hentry
  obtain ⟨before, next, block, -, hblock, hemit⟩ := emission_of_compileText h hnames hi
  obtain ⟨body, hbody, rfl, -⟩ := emit_eq_ok hemit
  obtain ⟨front, computation, jump, rest, rfl, -⟩ := jump_of_block hbody htarget
  apply List.mem_append_right
  exact List.mem_flatten.mpr ⟨_, List.mem_of_getElem? hblock, by simp⟩

/-! ## Loading what was compiled -/

/-- A jump to digits that are no number is a line that cannot be read. -/
theorem exists_unreadable_of_misreadsTarget (h : compileText settings sources = .ok text)
    (hnames : SingleLineNames sources) {reason : NumberError}
    (hmisreads : MisreadsTarget sources reason) :
    ∃ line ∈ instructionLines ((programCode settings sources).filterMap Statement.line?),
      Unreadable line (.number reason) := by
  obtain ⟨entry, hentry, target, htarget, hnumber⟩ := hmisreads
  have hload := load_target_mem h hnames hentry htarget
  have hword : IsWord target := isPlain_of_compileText h hnames _ hload
  exact unreadable_lines_iff.mpr
    ⟨_, reason, hload, rfl, (isMisread_name_iff hword).mpr hnumber⟩

/-- There are no other such lines. -/
theorem misreadsTarget_of_unreadable (h : compileText settings sources = .ok text)
    (hnames : SingleLineNames sources) (hmarks : UnmarkedNames sources) {error : LoadError}
    (hunreadable : ∃ line ∈ instructionLines
      ((programCode settings sources).filterMap Statement.line?), Unreadable line error) :
    ∃ reason, error = .number reason ∧ MisreadsTarget sources reason := by
  obtain ⟨symbol, reason, hload, herror, hmisread⟩ := unreadable_lines_iff.mp hunreadable
  exact ⟨reason, herror, misreadsTarget_of_isMisread h hnames hmarks hload hmisread⟩

/-- Loading the text of a program can only fail at a label that is declared again, and then a
command declares its name, or at a jump to digits that are no number.  Two labels that are made up
never get in each other's way.  If nothing is declared twice and every target can be read, the text
loads. -/
theorem compiled_text_understood (h : compileText settings sources = .ok text)
    (hnames : SingleLineNames sources) (hmarks : UnmarkedNames sources) :
    (∀ error, Image.load text = .error error →
      (∃ name, error = .duplicateLabel name ∧ error.message = "duplicate label " ++ name ∧
        ∃ entry ∈ listing sources, entry.command.declares? = some name) ∨
      ∃ reason, error = .number reason ∧ MisreadsTarget sources reason) ∧
    (text = assembly (programCode settings sources) ∧
      (((declaredIn (programCode settings sources)).filter Symbol.isMadeUp).map
        Symbol.text).Nodup) ∧
    ((∃ image, Image.load text = .ok image) ↔
      ((declaredIn (programCode settings sources)).map Symbol.text).Nodup ∧
        ∀ reason, ¬ MisreadsTarget sources reason) := by
  rw [load_compiled h hnames, exists_ofLines_iff]
  refine ⟨?_, ⟨(compile_eq_ok h).2.1, nodup_madeUp_of_compileText h⟩, and_congr ?_ ?_⟩
  · intro error herror
    rcases ofLines_eq_error_iff.mp herror with ⟨name, rfl, hrepeat⟩ | ⟨-, hfirst⟩
    · have htwice := declaredTwice_iff.mp hrepeat.declaredTwice
      rw [labels_of_lines] at htwice
      exact .inl ⟨name, rfl, rfl, exists_declares_of_duplicate h htwice⟩
    · exact .inr (misreadsTarget_of_unreadable h hnames hmarks hfirst.exists_mem)
  · rw [List.nodup_iff_forall_not_duplicate, ← labels_of_lines]
    exact forall_congr' fun name => not_congr declaredTwice_iff
  · constructor
    · intro hreadable reason hmisreads
      obtain ⟨line, hline, hwrong⟩ := exists_unreadable_of_misreadsTarget h hnames hmisreads
      exact hreadable line hline _ hwrong
    · intro htargets line hline error hwrong
      obtain ⟨reason, -, hmisreads⟩ :=
        misreadsTarget_of_unreadable h hnames hmarks ⟨line, hline, hwrong⟩
      exact htargets reason hmisreads

/-- The first program makes up labels for the start, a comparison and a call, and loads.  The others
do not: one declares the return of the start itself, and one jumps to a superscript two. -/
theorem compiled_text_understood_sample :
    let settings : Settings := ⟨true, false, 256⟩
    let loads : List Source := [⟨"Main", ["function Sys.init 0", "push constant 1",
      "push static 2", "lt", "if-goto Sys.init", "call Sys.init 0"]⟩]
    let repeats : List Source := [⟨"Main", ["label Bootstrap$ret.0"]⟩]
    let misreads : List Source := [⟨"Main", ["goto ²"]⟩]
    (∃ text image, compileText settings loads = .ok text ∧ Image.load text = .ok image) ∧
    (∃ text, compileText settings repeats = .ok text ∧ ¬ ∃ image, Image.load text = .ok image) ∧
    ∃ text, compileText settings misreads = .ok text ∧ ¬ ∃ image, Image.load text = .ok image := by
  intro settings loads repeats misreads
  obtain ⟨text, hloads⟩ : ∃ text, compileText settings loads = .ok text :=
    exists_compileText (by decide +kernel)
  obtain ⟨other, hrepeats⟩ : ∃ text, compileText settings repeats = .ok text :=
    exists_compileText (by decide +kernel)
  obtain ⟨third, hmisreads⟩ : ∃ text, compileText settings misreads = .ok text :=
    exists_compileText (by decide +kernel)
  refine ⟨?_, ⟨other, hrepeats, ?_⟩, third, hmisreads, ?_⟩
  · have htargets : ∀ entry ∈ listing loads, ∀ target ∈ entry.command.target?,
        isNumberText target.toList = false := by decide +kernel
    obtain ⟨-, -, hiff⟩ := compiled_text_understood hloads (by decide +kernel) (by decide +kernel)
    obtain ⟨image, himage⟩ := hiff.mpr ⟨by decide +kernel, by
      rintro reason ⟨entry, hentry, target, htarget, hdigits, -⟩
      rw [htargets entry hentry target htarget] at hdigits
      exact absurd hdigits (by simp)⟩
    exact ⟨text, image, hloads, himage⟩
  · obtain ⟨-, -, hiff⟩ := compiled_text_understood hrepeats (by decide +kernel) (by decide +kernel)
    rw [hiff]
    rintro ⟨hnodup, -⟩
    exact absurd hnodup (by decide +kernel)
  · obtain ⟨-, -, hiff⟩ :=
      compiled_text_understood hmisreads (by decide +kernel) (by decide +kernel)
    rw [hiff]
    rintro ⟨-, htargets⟩
    refine htargets (.notNumeral 10 "²") ⟨⟨"Main", .goto "²"⟩, ?_, "²", rfl, ?_, ?_⟩
    · decide +kernel
    · decide +kernel
    · rfl

end HackVm
