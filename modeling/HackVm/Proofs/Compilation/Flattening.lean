import HackVm.Proofs.Emission.Listing
import HackVm.Proofs.Reading.Grammar

/-!
# The output depends only on the listing

How a program is laid out in sources and lines does not matter, as long as all of its lines can be
read.  Its text is that of its `listing`, the sequence of its commands with the names of their
sources.

A compilation goes through two loops, over sources and over lines, while `compileEntries` goes
through the listing with one.  Both emit the same commands in the same order, and no session state
is touched in between except the current source, which the next command sets again
(`code_openSource`).  So both give the same code (`compileSources_code`).

What the listing itself depends on are the `phrases` of a program: the words of its lines, where
insignificant lines drop out and the borders between sources of one name vanish.
-/

namespace HackVm

open Emit

/-! ## Compiling a listing -/

/-- What a compilation gives: its statements, and the failure that ended it. -/
def Outcome.code (outcome : Outcome) : List Statement × Option Failure :=
  (outcome.statements, outcome.failure)

/-- Compiles a listing, each command in its own source. -/
def compileEntries (session : Session) : List Entry → Outcome
  | [] => .start session
  | entry :: rest =>
    match (session.openSource entry.source).emit entry.command with
    | (next, .error error) => .failed next (.ofEmit error)
    | (next, .ok block) => (compileEntries next rest).withCommand block

namespace Outcome

theorem result_of_code_eq {first second : Outcome} (h : first.code = second.code) :
    first.result = second.result := by
  obtain ⟨hstatements, hfailure⟩ := Prod.mk.inj h
  rw [result, result, hfailure, hstatements]

/-- Two outcomes that differ at most in their counts and records. -/
structure Agrees (first second : Outcome) : Prop where
  code : first.code = second.code
  session : first.session = second.session

theorem Agrees.refl (outcome : Outcome) : outcome.Agrees outcome :=
  ⟨rfl, rfl⟩

/-- Going on in the same way gives the same code. -/
theorem Agrees.code_andThen {first second : Outcome} {next next' : Session → Outcome}
    (h : first.Agrees second) (hnext : ∀ session, (next session).code = (next' session).code) :
    (first.andThen next).code = (second.andThen next').code := by
  obtain ⟨hstatements, hfailure⟩ := Prod.mk.inj h.code
  cases hsecond : second.failure with
  | some failure =>
      have hfirst := hfailure.trans hsecond
      simpa only [andThen, hfirst, hsecond] using h.code
  | none =>
      obtain ⟨hlater, hends⟩ := Prod.mk.inj (hnext second.session)
      rw [andThen_of_none (hfailure.trans hsecond), andThen_of_none hsecond, h.session]
      apply Prod.ext
      · change first.statements ++ _ = second.statements ++ _
        rw [hstatements, hlater]
      · exact hends

end Outcome

theorem compileEntries_append (session : Session) (first second : List Entry) :
    compileEntries session (first ++ second) =
      (compileEntries session first).andThen fun next => compileEntries next second := by
  induction first generalizing session with
  | nil =>
      rw [List.nil_append, compileEntries, Outcome.andThen_of_none rfl, Outcome.start_followedBy]
      rfl
  | cons entry rest ih =>
      rw [List.cons_append, compileEntries, compileEntries]
      cases hemit : (session.openSource entry.source).emit entry.command with
      | mk next result =>
          cases result with
          | error error => rfl
          | ok block =>
              dsimp only
              rw [ih]
              unfold Outcome.andThen
              dsimp only [Outcome.withCommand]
              split
              · rfl
              · simp [Outcome.followedBy, Nat.add_right_comm]

/-- A source that is opened is forgotten when the next command opens its own. -/
theorem code_openSource (session : Session) (name : String) (entries : List Entry) :
    (compileEntries (session.openSource name) entries).code =
      (compileEntries session entries).code := by
  cases entries with
  | nil => rfl
  | cons entry rest => rfl

/-! ## Lines that can be read -/

/-- Every line of every source is insignificant or holds a command. -/
def ReadsThrough (sources : List Source) : Prop :=
  ∀ source ∈ sources, ∀ line ∈ source.lines, (Line.read line).isOk = true

instance (sources : List Source) : Decidable (ReadsThrough sources) :=
  inferInstanceAs (Decidable (∀ source ∈ sources, ∀ line ∈ source.lines,
    (Line.read line).isOk = true))

theorem exists_readLine {line : String} (h : (Line.read line).isOk = true) (source : String)
    (number : Nat) : ∃ found, readLine source number line = .ok found := by
  cases hread : Line.read line with
  | ok found => exact ⟨found, readLine_eq_ok_iff.mpr hread⟩
  | error fault =>
      rw [hread] at h
      exact absurd h (by simp [Except.isOk, Except.toBool])

section FirstLine

variable {source line : String} {number : Nat}

theorem entriesFrom_blank (hread : readLine source number line = .ok none) (rest : List String) :
    entriesFrom source number (line :: rest) = entriesFrom source (number + 1) rest := by
  rw [entriesFrom, readLines, hread]
  rfl

theorem entriesFrom_command {command : Command}
    (hread : readLine source number line = .ok (some command)) (rest : List String) :
    entriesFrom source number (line :: rest) =
      ⟨source, command⟩ :: entriesFrom source (number + 1) rest := by
  rw [entriesFrom, readLines, hread]
  rfl

end FirstLine

/-- The lines of the current source are compiled as their commands are. -/
theorem compileLines_agrees {name : String} {session : Session} {lines : List String}
    (hsource : session.source = some name)
    (hreads : ∀ line ∈ lines, (Line.read line).isOk = true) (number : Nat) :
    (compileLines name number session lines).Agrees
      (compileEntries session (entriesFrom name number lines)) := by
  induction lines generalizing number session with
  | nil => exact .refl _
  | cons line rest ih =>
      obtain ⟨hline, hrest⟩ := List.forall_mem_cons.mp hreads
      obtain ⟨found, hread⟩ := exists_readLine hline name number
      cases found with
      | none =>
          rw [compileLines_blank hread, entriesFrom_blank hread]
          exact ih hsource hrest (number + 1)
      | some command =>
          -- The listing opens the source again for every command, which changes nothing here.
          rw [entriesFrom_command hread, compileEntries, openSource_eq_self hsource]
          cases hemit : session.emit command with
          | mk next result =>
              cases result with
              | error error =>
                  rw [compileLines_unemitted hread hemit]
                  exact ⟨rfl, rfl⟩
              | ok block =>
                  obtain ⟨body, hblock, -, -⟩ := emit_eq_ok hemit
                  have hnext : next.source = some name := by
                    rw [block_source hblock, hsource]
                  have hlater := ih hnext hrest (number + 1)
                  obtain ⟨hstatements, hfailure⟩ := Prod.mk.inj hlater.code
                  rw [compileLines_command hread hemit]
                  refine ⟨Prod.ext ?_ hfailure, hlater.session⟩
                  exact congrArg (block ++ ·) hstatements

theorem compileSource_agrees {source : Source}
    (hreads : ∀ line ∈ source.lines, (Line.read line).isOk = true) (session : Session) :
    (compileSource session source).Agrees
      (compileEntries (session.openSource source.name)
        (entriesFrom source.name 1 source.lines)) := by
  have hopen : (session.openSource source.name).source = some source.name := rfl
  have hlines := compileLines_agrees hopen hreads 1
  obtain ⟨hfailure, -, hstatements, hsession⟩ := compileSource_eq_compileLines session source
  refine ⟨?_, hsession.trans hlines.session⟩
  rw [← hlines.code, Outcome.code, Outcome.code, hfailure, hstatements]

/-- A program gives the code of its listing. -/
theorem compileSources_code {sources : List Source} (hreads : ReadsThrough sources)
    (session : Session) :
    (compileSources session sources).code = (compileEntries session (listing sources)).code := by
  induction sources generalizing session with
  | nil => rfl
  | cons source rest ih =>
      obtain ⟨hsource, hrest⟩ := List.forall_mem_cons.mp hreads
      have hown := compileSource_agrees hsource session
      calc (compileSources session (source :: rest)).code
          = ((compileEntries (session.openSource source.name)
              (entriesFrom source.name 1 source.lines)).andThen
                fun next => compileEntries next (listing rest)).code :=
            hown.code_andThen fun next => ih hrest next
        _ = (compileEntries (session.openSource source.name) (listing (source :: rest))).code := by
            rw [← compileEntries_append, listing, listing, List.flatMap_cons]
        _ = (compileEntries session (listing (source :: rest))).code := code_openSource ..

theorem compileText_of_listing_eq (settings : Settings) {first second : List Source}
    (hfirst : ReadsThrough first) (hsecond : ReadsThrough second)
    (hlisting : listing first = listing second) :
    compileText settings first = compileText settings second := by
  apply Outcome.result_of_code_eq
  apply (Outcome.Agrees.refl _).code_andThen
  intro session
  rw [compileSources_code hfirst, compileSources_code hsecond, hlisting]

/-! ## Phrases -/

/-- The words of the lines of a program, with the names of their sources.  Lines without words are
left out. -/
def phrases (sources : List Source) : List (String × List String) :=
  sources.flatMap fun source =>
    ((source.lines.map Line.words).filter (!·.isEmpty)).map (source.name, ·)

/-- The command that a phrase is. -/
def commandOf? : List String → Option Command
  | [] => none
  | word :: operands => (Line.command word operands).toOption

/-- The entry that a phrase becomes. -/
def entryOf? (phrase : String × List String) : Option Entry :=
  (commandOf? phrase.2).map (Entry.mk phrase.1)

theorem read_eq_none_iff {line : String} : Line.read line = .ok none ↔ Line.words line = [] := by
  unfold Line.read
  cases Line.words line with
  | nil => simp
  | cons word operands =>
      dsimp only
      cases Line.command word operands <;> simp [Except.map]

theorem read_eq_some_iff {line : String} {command : Command} :
    Line.read line = .ok (some command) ↔ commandOf? (Line.words line) = some command := by
  unfold Line.read
  cases Line.words line with
  | nil => simp [commandOf?]
  | cons word operands =>
      dsimp only [commandOf?]
      cases Line.command word operands <;> simp [Except.map, Except.toOption]

/-- A program can be read if its phrases are commands. -/
theorem readsThrough_iff {sources : List Source} :
    ReadsThrough sources ↔ ∀ phrase ∈ phrases sources, (commandOf? phrase.2).isSome = true := by
  constructor
  · intro hreads phrase hphrase
    obtain ⟨source, hsource, hmem⟩ := List.mem_flatMap.mp hphrase
    obtain ⟨words, hwords, rfl⟩ := List.mem_map.mp hmem
    obtain ⟨hline, hne⟩ := List.mem_filter.mp hwords
    obtain ⟨line, hsourceLine, rfl⟩ := List.mem_map.mp hline
    obtain ⟨found, hread⟩ := exists_readLine (hreads source hsource line hsourceLine) source.name 1
    rw [readLine_eq_ok_iff] at hread
    cases found with
    | none => exact absurd (read_eq_none_iff.mp hread) (by simpa using hne)
    | some command => rw [read_eq_some_iff.mp hread, Option.isSome_some]
  · intro hphrases source hsource line hline
    by_cases hwords : Line.words line = []
    · rw [read_eq_none_iff.mpr hwords]
      rfl
    · have hphrase : (source.name, Line.words line) ∈ phrases sources := by
        refine List.mem_flatMap.mpr ⟨source, hsource, List.mem_map_of_mem ?_⟩
        exact List.mem_filter.mpr ⟨List.mem_map_of_mem hline, by simpa using hwords⟩
      obtain ⟨command, hcommand⟩ := Option.isSome_iff_exists.mp (hphrases _ hphrase)
      rw [read_eq_some_iff.mpr hcommand]
      rfl

private theorem entriesFrom_eq {lines : List String}
    (hreads : ∀ line ∈ lines, (Line.read line).isOk = true) (name : String) (number : Nat) :
    entriesFrom name number lines =
      (((lines.map Line.words).filter (!·.isEmpty)).map (name, ·)).filterMap entryOf? := by
  induction lines generalizing number with
  | nil => rfl
  | cons line rest ih =>
      obtain ⟨hline, hrest⟩ := List.forall_mem_cons.mp hreads
      obtain ⟨found, hread⟩ := exists_readLine hline name number
      cases found with
      | none =>
          have hwords := read_eq_none_iff.mp (readLine_eq_ok_iff.mp hread)
          rw [entriesFrom_blank hread, ih hrest, List.map_cons, hwords]
          rfl
      | some command =>
          have hcommand := read_eq_some_iff.mp (readLine_eq_ok_iff.mp hread)
          have hwords : (!(Line.words line).isEmpty) = true := by
            cases h : Line.words line with
            | nil => simp [h, commandOf?] at hcommand
            | cons word operands => rfl
          have hentry : entryOf? (name, Line.words line) = some ⟨name, command⟩ := by
            rw [entryOf?, hcommand]
            rfl
          rw [entriesFrom_command hread, ih hrest, List.map_cons, List.filter_cons, if_pos hwords,
            List.map_cons, List.filterMap_cons_some hentry]

/-- The listing of a program that can be read comes from its phrases. -/
theorem listing_eq {sources : List Source} (hreads : ReadsThrough sources) :
    listing sources = (phrases sources).filterMap entryOf? := by
  rw [listing, phrases, List.filterMap_flatMap]
  apply List.flatMap_congr
  intro source hsource
  exact entriesFrom_eq (hreads source hsource) source.name 1

theorem compileText_of_phrases_eq (settings : Settings) {first second : List Source}
    (hfirst : ReadsThrough first) (hphrases : phrases first = phrases second) :
    compileText settings first = compileText settings second := by
  have hsecond : ReadsThrough second := by
    rw [readsThrough_iff, ← hphrases, ← readsThrough_iff]
    exact hfirst
  apply compileText_of_listing_eq settings hfirst hsecond
  rw [listing_eq hfirst, listing_eq hsecond, hphrases]

theorem phrases_append (first second : List Source) :
    phrases (first ++ second) = phrases first ++ phrases second := by
  rw [phrases, List.flatMap_append, phrases, phrases]

/-- A border between sources of one name is in no phrase. -/
theorem phrases_cut (name : String) (front back : List String) (rest : List Source) :
    phrases (⟨name, front⟩ :: ⟨name, back⟩ :: rest) = phrases (⟨name, front ++ back⟩ :: rest) := by
  simp [phrases]

/-- A source of insignificant lines has no phrases. -/
theorem phrases_blank {lines : List String}
    (hlines : ∀ line ∈ lines, Line.isSignificant line = false) (name : String)
    (rest : List Source) : phrases (⟨name, lines⟩ :: rest) = phrases rest := by
  have hnone : (lines.map Line.words).filter (!·.isEmpty) = [] := by
    rw [List.filter_eq_nil_iff]
    intro words hwords
    obtain ⟨line, hline, rfl⟩ := List.mem_map.mp hwords
    have hsignificant := mt isSignificant_iff.mpr (Bool.eq_false_iff.mp (hlines line hline))
    simpa using hsignificant
  rw [phrases, List.flatMap_cons, hnone]
  rfl

/-- Two programs whose lines can be read and whose listings are the same compile to the same text,
or fail with the same failure.  That is so if they have the same phrases, however these are spread
over lines with blanks and comments; and so the lines of a source may be cut into two sources of its
name anywhere, and a source of insignificant lines may be left out. -/
theorem output_depends_on_listing (settings : Settings) :
    (∀ first second, ReadsThrough first → ReadsThrough second → listing first = listing second →
      compileText settings first = compileText settings second) ∧
    (∀ first second, ReadsThrough first → phrases first = phrases second →
      compileText settings first = compileText settings second) ∧
    (∀ before name front back after, ReadsThrough (before ++ ⟨name, front ++ back⟩ :: after) →
      compileText settings (before ++ ⟨name, front⟩ :: ⟨name, back⟩ :: after) =
        compileText settings (before ++ ⟨name, front ++ back⟩ :: after)) ∧
    (∀ before name lines after, ReadsThrough (before ++ after) →
      (∀ line ∈ lines, Line.isSignificant line = false) →
      compileText settings (before ++ ⟨name, lines⟩ :: after) =
        compileText settings (before ++ after)) := by
  refine ⟨fun first second => compileText_of_listing_eq settings,
    fun first second => compileText_of_phrases_eq settings, ?_, ?_⟩
  · intro before name front back after hreads
    symm
    apply compileText_of_phrases_eq settings hreads
    rw [phrases_append, phrases_append, phrases_cut]
  · intro before name lines after hreads hlines
    symm
    apply compileText_of_phrases_eq settings hreads
    rw [phrases_append, phrases_append, phrases_blank hlines]

/-- A function is cut in its middle, around a source of another name that holds only a comment, and
a number is written with more zeros. -/
theorem output_depends_on_listing_sample :
    let settings : Settings := ⟨true, true, 256⟩
    let whole := [⟨"Main", ["function Main.f 1", "call Main.g 0", "push static 3", "eq"]⟩]
    let pieces := [⟨"Main", ["// start", "\tfunction  Main.f 1"]⟩, ⟨"Other", ["", "  // none"]⟩,
      ⟨"Main", ["call Main.g 00// again", "push static 3", "", "eq"]⟩]
    ReadsThrough whole ∧ ReadsThrough pieces ∧ listing whole = listing pieces ∧
      phrases whole ≠ phrases pieces ∧
      compileText settings whole = compileText settings pieces := by
  intro settings whole pieces
  have hwhole : ReadsThrough whole := by decide +kernel
  have hpieces : ReadsThrough pieces := by decide +kernel
  have hlisting : listing whole = listing pieces := by decide +kernel
  refine ⟨hwhole, hpieces, hlisting, by decide +kernel, ?_⟩
  exact (output_depends_on_listing settings).1 whole pieces hwhole hpieces hlisting

end HackVm
