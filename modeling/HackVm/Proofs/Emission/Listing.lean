import HackVm.Program
import HackVm.Proofs.Assembly.Layout
import HackVm.Proofs.Emission.Rules

/-!
# The listing of a program

A program is compiled source by source and line by line, but its code only depends on the flat
list of its commands, each with the name of its source.  `listing` is that list, and `Emission`
says which block of statements every entry of a listing becomes, session by session.

`compile_eq_ok` puts a successful compilation in these terms: its statements are the start-up
code followed by the blocks of the listing.  `address` is where the block of an entry begins in
program memory, and `laysOut_block` finds the block there.
-/

namespace HackVm

open Emit Hack

/-- A command with the name of the source it stands in. -/
structure Entry where
  source : String
  command : Command
  deriving DecidableEq, Repr

/-- The commands of the lines of a source, from line `number` on. -/
def entriesFrom (source : String) (number : Nat) (lines : List String) : List Entry :=
  (readLines source number lines).1.map fun line => ⟨source, line.2⟩

/-- The commands of a program in order. -/
def listing (sources : List Source) : List Entry :=
  sources.flatMap fun source => entriesFrom source.name 1 source.lines

/-! ## Emission along a listing -/

/-- From a session, the entries become the blocks and leave another session behind. -/
inductive Emission : Session → List Entry → List (List Statement) → Session → Prop
  | nil (session : Session) : Emission session [] [] session
  | cons {session next final : Session} {entry : Entry} {rest : List Entry}
      {block : List Statement} {blocks : List (List Statement)}
      (hemit : (session.openSource entry.source).emit entry.command = (next, .ok block))
      (hrest : Emission next rest blocks final) :
      Emission session (entry :: rest) (block :: blocks) final

namespace Emission

theorem append {session middle final : Session} {first second : List Entry}
    {firstBlocks secondBlocks : List (List Statement)}
    (hfirst : Emission session first firstBlocks middle)
    (hsecond : Emission middle second secondBlocks final) :
    Emission session (first ++ second) (firstBlocks ++ secondBlocks) final := by
  induction hfirst with
  | nil => exact hsecond
  | cons hemit _ ih => exact .cons hemit (ih hsecond)

/-- Opening a source is forgotten when the next entry opens its own. -/
theorem of_openSource {session final : Session} {name : String} {entries : List Entry}
    {blocks : List (List Statement)}
    (h : Emission (session.openSource name) entries blocks final) :
    ∃ final, Emission session entries blocks final := by
  cases h with
  | nil => exact ⟨session, .nil session⟩
  | cons hemit hrest => exact ⟨_, .cons hemit hrest⟩

theorem length_eq {session final : Session} {entries : List Entry}
    {blocks : List (List Statement)} (h : Emission session entries blocks final) :
    blocks.length = entries.length := by
  induction h with
  | nil => rfl
  | cons _ _ ih => rw [List.length_cons, List.length_cons, ih]

/-- What holds of the first session and is kept by every entry holds where an entry is emitted. -/
theorem exists_emit {session final : Session} {entries : List Entry}
    {blocks : List (List Statement)} (h : Emission session entries blocks final)
    {P : Session → Prop} (hstart : P session)
    (hkeep : ∀ entry ∈ entries, ∀ {before next block}, P before →
      (before.openSource entry.source).emit entry.command = (next, .ok block) → P next)
    {i : Nat} {entry : Entry} (hentry : entries[i]? = some entry) :
    ∃ before next block, P before ∧ blocks[i]? = some block ∧
      (before.openSource entry.source).emit entry.command = (next, .ok block) := by
  induction h generalizing i with
  | nil => simp at hentry
  | cons hemit _ ih =>
      cases i with
      | zero =>
          obtain rfl := Option.some.inj hentry
          exact ⟨_, _, _, hstart, rfl, hemit⟩
      | succ i =>
          exact ih (hkeep _ (List.mem_cons_self ..) hstart hemit)
            (fun later hlater => hkeep later (List.mem_cons_of_mem _ hlater)) hentry

/-- Every block was emitted for an entry. -/
theorem exists_entry {session final : Session} {entries : List Entry}
    {blocks : List (List Statement)} (h : Emission session entries blocks final) {i : Nat}
    {block : List Statement} (hblock : blocks[i]? = some block) :
    ∃ (entry : Entry) (before next : Session), entries[i]? = some entry ∧
      (before.openSource entry.source).emit entry.command = (next, .ok block) := by
  have hlength : i < entries.length := by
    rw [← h.length_eq]
    exact (List.getElem?_eq_some_iff.mp hblock).1
  have hentry := List.getElem?_eq_getElem hlength
  obtain ⟨before, next, found, -, hfound, hemit⟩ :=
    h.exists_emit (P := fun _ => True) trivial (fun _ _ _ _ _ _ _ => trivial) hentry
  obtain rfl : found = block := Option.some.inj (hfound.symm.trans hblock)
  exact ⟨entries[i], before, next, hentry, hemit⟩

end Emission

/-- The blocks of a listing.  Where a command is refused there is none. -/
def blocksFrom (session : Session) : List Entry → List (List Statement)
  | [] => []
  | entry :: rest =>
    let emitted := (session.openSource entry.source).emit entry.command
    (emitted.2.toOption.getD []) :: blocksFrom emitted.1 rest

theorem Emission.blocksFrom_eq {session final : Session} {entries : List Entry}
    {blocks : List (List Statement)} (h : Emission session entries blocks final) :
    blocksFrom session entries = blocks := by
  induction h with
  | nil => rfl
  | cons hemit _ ih => simp [blocksFrom, hemit, ih, Except.toOption]

/-! ## One emission -/

/-- A comment takes no room in program memory. -/
theorem codeSize_annotation_eq_zero (session : Session) (text : String) :
    codeSize (session.annotation text) = 0 := by
  rcases session.annotation_cases text with hcomment | hnone
  · rw [hcomment]
    rfl
  · rw [hnone]
    rfl

/-- An emission is the comment of the session followed by the block of the command. -/
theorem emit_eq_ok {session next : Session} {command : Command} {statements : List Statement}
    (h : session.emit command = (next, .ok statements)) :
    ∃ body, session.block command = .ok (next, body) ∧
      statements = session.annotation command.text ++ body ∧
      ∀ statement ∈ statements, statement.isWritable = true := by
  unfold Session.emit at h
  split at h
  · exact absurd (Prod.mk.inj h).2 (by simp)
  · split at h
    · exact absurd (Prod.mk.inj h).2 (by simp)
    · next next' body hblock =>
      obtain ⟨rfl, hchecked⟩ := Prod.mk.inj h
      unfold Session.checked at hchecked
      split at hchecked
      · next hall =>
        obtain rfl := Except.ok.inj hchecked
        exact ⟨body, hblock, rfl, List.all_eq_true.mp hall⟩
      · exact absurd hchecked (by simp)

/-- What a block can change of a session: a counter goes on by one, or the function is another. -/
inductive Emit.Session.Moves (session : Session) : Session → Prop
  | stays : Moves session session
  | comparison : Moves session { session with comparisons := session.comparisons + 1 }
  | call : Moves session { session with calls := session.calls + 1 }
  | function (name : String) : Moves session { session with function := some name }

private theorem moves_operate (session : Session) (operator : Operator) :
    session.Moves (session.operate operator).1 := by
  cases operator with
  | eq => exact .comparison
  | gt => exact .comparison
  | lt => exact .comparison
  | _ => exact .stays

theorem moves_block {session next : Session} {command : Command} {body : List Statement}
    (h : session.block command = .ok (next, body)) : session.Moves next := by
  cases block_eq_ok_iff.mp h with
  | operate _ => exact moves_operate session _
  | function name locals => exact .function name
  | call name arguments => exact .call
  | _ => exact .stays

theorem block_source {session next : Session} {command : Command} {body : List Statement}
    (h : session.block command = .ok (next, body)) : next.source = session.source := by
  cases moves_block h <;> rfl

/-- The function that a command begins. -/
def Command.begun? : Command → Option String
  | .function name _ => some name
  | _ => none

theorem Command.word?_of_begun? {command : Command} {name : String}
    (h : command.begun? = some name) : command.word? = some name := by
  cases command with
  | function _ _ => exact h
  | _ => exact absurd h (by simp [Command.begun?])

/-- A session remembers its function until a command begins another. -/
theorem block_function {session next : Session} {command : Command} {body : List Statement}
    (h : session.block command = .ok (next, body)) :
    next.function = command.begun?.or session.function := by
  cases block_eq_ok_iff.mp h with
  | @operate word operator _ => cases operator <;> rfl
  | _ => rfl

/-! ## Compilation as emission -/

/-- The current source is opened again without effect. -/
theorem openSource_eq_self {session : Session} {name : String}
    (hsource : session.source = some name) : session.openSource name = session := by
  cases session
  subst hsource
  rfl

private theorem compileLines_emission {name : String} {lines : List String} {number : Nat}
    {session : Session} (hsource : session.source = some name)
    (hok : (compileLines name number session lines).failure = none) :
    ∃ blocks, (compileLines name number session lines).statements = blocks.flatten ∧
      Emission session (entriesFrom name number lines) blocks
        (compileLines name number session lines).session := by
  induction lines generalizing number session with
  | nil => exact ⟨[], rfl, .nil session⟩
  | cons line rest ih =>
      cases hread : readLine name number line with
      | error error => simp [compileLines, hread, Outcome.failed] at hok
      | ok command? =>
          cases command? with
          | none =>
              simp only [compileLines, entriesFrom, readLines, hread] at hok ⊢
              exact ih hsource hok
          | some command =>
              cases hemit : session.emit command with
              | mk next result =>
                  cases result with
                  | error error =>
                      simp [compileLines, hread, hemit, Outcome.failed, Outcome.withRecord] at hok
                  | ok block =>
                      obtain ⟨body, hblock, -, -⟩ := emit_eq_ok hemit
                      have hnext : next.source = some name := by
                        rw [block_source hblock, hsource]
                      simp only [compileLines, hread, hemit, Outcome.withRecord,
                        Outcome.withCommand] at hok ⊢
                      obtain ⟨blocks, hstatements, hrest⟩ := ih hnext hok
                      refine ⟨block :: blocks, by rw [hstatements, List.flatten_cons], ?_⟩
                      simp only [entriesFrom, readLines, hread, List.map_cons]
                      exact .cons (by rw [openSource_eq_self hsource]; exact hemit) hrest

private theorem compileSource_emission {session : Session} {source : Source}
    (hok : (compileSource session source).failure = none) :
    ∃ blocks, (compileSource session source).statements = blocks.flatten ∧
      Emission (session.openSource source.name) (entriesFrom source.name 1 source.lines) blocks
        (compileSource session source).session := by
  have hlines :
      (compileLines source.name 1 (session.openSource source.name) source.lines).failure =
        none := by
    cases hfailure :
        (compileLines source.name 1 (session.openSource source.name) source.lines).failure with
    | none => rfl
    | some failure => simp [compileSource, hfailure, Outcome.withRecord] at hok
  obtain ⟨blocks, hstatements, hemission⟩ := compileLines_emission rfl hlines
  refine ⟨blocks, ?_, ?_⟩
  · simpa [compileSource, hlines, Outcome.withRecord] using hstatements
  · simpa [compileSource, hlines, Outcome.withRecord] using hemission

private theorem compileSources_emission {session : Session} {sources : List Source}
    (hok : (compileSources session sources).failure = none) :
    ∃ blocks final, (compileSources session sources).statements = blocks.flatten ∧
      Emission session (listing sources) blocks final := by
  induction sources generalizing session with
  | nil => exact ⟨[], session, rfl, .nil session⟩
  | cons source rest ih =>
      cases hfirst : (compileSource session source).failure with
      | some failure => simp [compileSources, Outcome.andThen, hfirst] at hok
      | none =>
          simp only [compileSources, Outcome.andThen, hfirst, Outcome.followedBy] at hok ⊢
          obtain ⟨firstBlocks, hfirstStatements, hfirstEmission⟩ := compileSource_emission hfirst
          obtain ⟨restBlocks, final, hrestStatements, hrestEmission⟩ := ih hok
          obtain ⟨final, hemission⟩ := (hfirstEmission.append hrestEmission).of_openSource
          refine ⟨firstBlocks ++ restBlocks, final, ?_, hemission⟩
          rw [hfirstStatements, hrestStatements, List.flatten_append]

/-! ## The whole program -/

/-- The start-up code of a program. -/
def Settings.startup (settings : Settings) : List Statement :=
  (compileStart settings.session settings.bootstrap).statements

/-- The session in which the first command is compiled. -/
def Settings.opening (settings : Settings) : Session :=
  (compileStart settings.session settings.bootstrap).session

/-- A program starts with nothing, or with the stack base and the call of the entry function. -/
theorem startup_cases {settings : Settings}
    (hstart : (compileStart settings.session settings.bootstrap).failure = none) :
    (settings.bootstrap = false ∧ settings.startup = [] ∧ settings.opening = settings.session) ∨
    (settings.bootstrap = true ∧ Text.isWritable settings.stackBase = true ∧
      settings.startup = settings.session.annotation "bootstrap" ++
        bootstrapBlock settings.stackBase settings.session.nextReturn ∧
      settings.opening = { settings.session with calls := settings.session.calls + 1 }) := by
  unfold Settings.startup Settings.opening
  unfold compileStart at hstart ⊢
  cases hboot : settings.bootstrap with
  | false => exact .inl ⟨rfl, rfl, rfl⟩
  | true =>
      rw [hboot, if_pos rfl] at hstart
      rw [if_pos rfl]
      unfold compileBootstrap Session.bootstrap at hstart ⊢
      by_cases hwritable : Text.isWritable settings.session.stackBase = true
      · rw [if_pos hwritable]
        exact .inr ⟨rfl, hwritable, rfl, rfl⟩
      · simp [hwritable, Outcome.failed] at hstart

/-- The blocks of the commands of a program. -/
def programBlocks (settings : Settings) (sources : List Source) : List (List Statement) :=
  blocksFrom settings.opening (listing sources)

/-- The statements of a program. -/
def programCode (settings : Settings) (sources : List Source) : List Statement :=
  settings.startup ++ (programBlocks settings sources).flatten

/-- The address in program memory at which the block of command number `i` begins. -/
def address (settings : Settings) (sources : List Source) (i : Nat) : Nat :=
  codeSize (settings.startup ++ ((programBlocks settings sources).take i).flatten)

/-- A successful compilation gives the start-up code and then the blocks of the listing. -/
theorem compile_eq_ok {settings : Settings} {sources : List Source} {text : String}
    (h : compileText settings sources = .ok text) :
    (compileStart settings.session settings.bootstrap).failure = none ∧
      text = assembly (programCode settings sources) ∧
      ∃ final, Emission settings.opening (listing sources) (programBlocks settings sources)
        final := by
  have hok : (compile settings sources).failure = none ∧
      assembly (compile settings sources).statements = text := by
    unfold compileText Outcome.result at h
    split at h
    · exact absurd h (by simp)
    · next hnone => exact ⟨hnone, Except.ok.inj h⟩
  obtain ⟨hnone, htext⟩ := hok
  cases hstart : (compileStart settings.session settings.bootstrap).failure with
  | some failure => simp [compile, compileIn, Outcome.andThen, hstart] at hnone
  | none =>
      simp only [compile, compileIn, Outcome.andThen, hstart, Outcome.followedBy] at hnone htext
      obtain ⟨blocks, final, hstatements, hemission⟩ := compileSources_emission hnone
      have hblocks : programBlocks settings sources = blocks := hemission.blocksFrom_eq
      refine ⟨rfl, ?_, final, ?_⟩
      · rw [← htext, hstatements, programCode, hblocks, Settings.startup]
      · rw [hblocks]
        exact hemission

private theorem flatten_split {α : Type} {blocks : List (List α)} {i : Nat} {block : List α}
    (h : blocks[i]? = some block) :
    blocks.flatten = (blocks.take i).flatten ++ (block ++ (blocks.drop (i + 1)).flatten) := by
  obtain ⟨hi, rfl⟩ := List.getElem?_eq_some_iff.mp h
  calc blocks.flatten
      = (blocks.take i ++ blocks.drop i).flatten := by rw [List.take_append_drop]
    _ = _ := by rw [List.flatten_append, List.drop_eq_getElem_cons hi, List.flatten_cons]

/-- The block of a command stands at its address. -/
theorem laysOut_block {settings : Settings} {sources : List Source} {image : Image} {i : Nat}
    {block : List Statement}
    (hlaid : image.LaysOut 0 (programCode settings sources))
    (hblock : (programBlocks settings sources)[i]? = some block) :
    image.LaysOut (address settings sources i) block := by
  rw [programCode, flatten_split hblock, ← List.append_assoc] at hlaid
  have hrest := (laysOut_append.mp hlaid).2
  rw [Nat.zero_add] at hrest
  exact (laysOut_append.mp hrest).1

/-- The block of a command ends where the next one begins. -/
theorem address_succ {settings : Settings} {sources : List Source} {i : Nat}
    {block : List Statement} (hblock : (programBlocks settings sources)[i]? = some block) :
    address settings sources (i + 1) = address settings sources i + codeSize block := by
  rw [address, address, List.take_add_one, hblock]
  simp [Nat.add_assoc]

theorem address_length (settings : Settings) (sources : List Source) :
    address settings sources (programBlocks settings sources).length =
      codeSize (programCode settings sources) := by
  rw [address, List.take_length, programCode]

end HackVm
