import HackVm.Proofs.Reading.Grammar
import HackVm.Vm.Cursor

/-!
# Every significant line is delivered once

A cursor and its readers are asked in any order: to advance, whether there is more, to start over,
for a new reader, and for the next command of a reader.  `Readers.log` records what was answered,
and `handedOut` what was handed out since the cursor last started over, by whichever consumer.

The second side is `outcomes`, the significant lines of the source with their numbers and what each
is read as.  `Cursor.left` are those that a cursor has still ahead, and a delivery is described by
what it does to them (`steps_advance`): one outcome is taken from the front, or none is left.  So
what was handed out and what is left always make up `outcomes` together (`Cursor.Tracks`).  One
request keeps that (`Readers.Tracks.perform`), and so do any number of them.

Looking for more passes insignificant lines, which the next delivery would pass in any case.  States
that differ only in that give the same answers for ever (`Alike`).
-/

namespace HackVm

/-! ## Requests and answers -/

/-- What a cursor and its readers can be asked. -/
inductive Request where
  /-- The next command. -/
  | advance
  /-- Whether a significant line is left. -/
  | hasMore
  /-- Back to the start of the source. -/
  | restart
  /-- Another reader. -/
  | add
  /-- The next command of a reader, counted from zero. -/
  | next (reader : Nat)
  deriving DecidableEq, Repr

inductive Answer where
  | delivered (delivery : Delivery)
  | more (more : Bool)
  | done
  | noReader (fault : Index.Fault)
  deriving DecidableEq, Repr

namespace Readers

/-- Answers one request. -/
def perform (readers : Readers) : Request → Readers × Answer
  | .advance =>
    ({ readers with cursor := readers.cursor.advance.1 }, .delivered readers.cursor.advance.2)
  | .hasMore =>
    ({ readers with cursor := readers.cursor.hasMore.1 }, .more readers.cursor.hasMore.2)
  | .restart => ({ readers with cursor := readers.cursor.restart }, .done)
  | .add => (readers.add, .done)
  | .next reader =>
    match readers.next reader with
    | (readers, .ok delivery) => (readers, .delivered delivery)
    | (readers, .error fault) => (readers, .noReader fault)

/-- The state after a sequence of requests. -/
def after (readers : Readers) : List Request → Readers
  | [] => readers
  | request :: rest => (readers.perform request).1.after rest

/-- A sequence of requests with their answers. -/
def log (readers : Readers) : List Request → List (Request × Answer)
  | [] => []
  | request :: rest =>
    (request, (readers.perform request).2) :: (readers.perform request).1.log rest

end Readers

/-- A command or a fault that was delivered. -/
def Delivery.outcome? : Delivery → Option (Except LineError Command)
  | .command found => some (.ok found)
  | .failed error => some (.error error)
  | .ended => none

def Answer.outcome? : Answer → Option (Except LineError Command)
  | .delivered delivery => delivery.outcome?
  | _ => none

/-- What was handed out since the last restart, in order, whoever asked for it. -/
def handedOut (log : List (Request × Answer)) : List (Except LineError Command) :=
  log.foldl (fun handed entry =>
    if entry.1 = .restart then [] else handed ++ entry.2.outcome?.toList) []

/-- A delivery after which a reader is finished: the end or a fault. -/
def Delivery.isLast : Delivery → Bool
  | .command _ => false
  | _ => true

def Answer.isLast : Answer → Bool
  | .delivered delivery => delivery.isLast
  | _ => false

/-- The reader has met the end or a fault. -/
def HasEnded (log : List (Request × Answer)) (reader : Nat) : Prop :=
  ∃ entry ∈ log, entry.1 = .next reader ∧ entry.2.isLast = true

instance (log : List (Request × Answer)) (reader : Nat) : Decidable (HasEnded log reader) :=
  inferInstanceAs (Decidable (∃ entry ∈ log, entry.1 = .next reader ∧ entry.2.isLast = true))

/-! ## What there is to deliver -/

/-- The significant lines from line `number` on, each with its number and what it is read as. -/
def outcomes (source : String) (number : Nat) (lines : List String) :
    List (Nat × Except LineError (Option Command)) :=
  ((lines.zipIdx number).filter fun line => Line.isSignificant line.1).map
    fun line => (line.2, readLine source line.2 line.1)

/-- The last command of a list of outcomes, with its line number. -/
def lastCommand (outcomes : List (Nat × Except LineError (Option Command))) :
    Option (Command × Nat) :=
  (outcomes.filterMap fun outcome =>
    match outcome with
    | (number, .ok (some command)) => some (command, number)
    | _ => none).getLast?

private theorem outcomes_cons {line : String} (hline : Line.isSignificant line = true)
    (source : String) (number : Nat) (rest : List String) :
    outcomes source number (line :: rest) =
      (number, readLine source number line) :: outcomes source (number + 1) rest := by
  simp [outcomes, hline]

private theorem outcomes_cons_of_not {line : String} (hline : Line.isSignificant line = false)
    (source : String) (number : Nat) (rest : List String) :
    outcomes source number (line :: rest) = outcomes source (number + 1) rest := by
  simp [outcomes, hline]

/-- A significant line is read as a command or as a fault. -/
theorem exists_outcome_of_isSignificant {line : String} (hline : Line.isSignificant line = true)
    (source : String) (number : Int) :
    (∃ command, readLine source number line = .ok (some command)) ∨
      ∃ error, readLine source number line = .error error := by
  cases hread : readLine source number line with
  | error error => exact Or.inr ⟨error, rfl⟩
  | ok found =>
      cases found with
      | some command => exact Or.inl ⟨command, rfl⟩
      | none =>
          have htokens := (readLine_eq_nothing_iff (lineTokens_iff.mpr rfl)).mp hread
          exact absurd htokens (isSignificant_iff.mp hline)

/-! ## One step of a cursor -/

namespace Cursor

/-- What a cursor has still to deliver. -/
def left (cursor : Cursor) : List (Nat × Except LineError (Option Command)) :=
  outcomes cursor.source (cursor.passed + 1) cursor.ahead

private theorem outcomes_drop (source : String) (number : Nat) (lines : List String) :
    outcomes source (number + (lines.takeWhile (!Line.isSignificant ·)).length)
        (lines.drop (lines.takeWhile (!Line.isSignificant ·)).length) =
      outcomes source number lines := by
  induction lines generalizing number with
  | nil => rfl
  | cons line rest ih =>
      cases hline : Line.isSignificant line with
      | true => simp [hline]
      | false =>
          have hcount : number + ((rest.takeWhile (!Line.isSignificant ·)).length + 1) =
              number + 1 + (rest.takeWhile (!Line.isSignificant ·)).length := by omega
          rw [outcomes_cons_of_not hline, ← ih (number + 1)]
          simp [hline, hcount]

theorem left_skip (cursor : Cursor) : cursor.skip.left = cursor.left := by
  have hnumber : ∀ count, cursor.passed + count + 1 = cursor.passed + 1 + count := by omega
  rw [left, left, skip, hnumber]
  exact outcomes_drop cursor.source (cursor.passed + 1) cursor.ahead

private theorem isSignificant_of_skip {cursor : Cursor} {line : String} {rest : List String}
    (h : cursor.skip.ahead = line :: rest) : Line.isSignificant line = true := by
  have hdrop : cursor.skip.ahead = cursor.ahead.dropWhile (!Line.isSignificant ·) := by
    have hlines := @List.drop_left _ (cursor.ahead.takeWhile (!Line.isSignificant ·))
      (cursor.ahead.dropWhile (!Line.isSignificant ·))
    rwa [List.takeWhile_append_dropWhile] at hlines
  have hhead := List.head?_dropWhile_not (!Line.isSignificant ·) cursor.ahead
  rw [← hdrop, h] at hhead
  simpa using hhead

/-- Passing insignificant lines twice passes no more of them. -/
theorem skip_skip (cursor : Cursor) : cursor.skip.skip = cursor.skip := by
  have hnone : cursor.skip.ahead.takeWhile (!Line.isSignificant ·) = [] := by
    cases hahead : cursor.skip.ahead with
    | nil => rfl
    | cons line rest => simp [isSignificant_of_skip hahead]
  generalize cursor.skip = passed at hnone
  simp [skip, hnone]

theorem restart_skip (cursor : Cursor) : cursor.skip.restart = cursor.restart :=
  rfl

private theorem left_of_skip_cons {cursor : Cursor} {line : String} {rest : List String}
    (h : cursor.skip.ahead = line :: rest) :
    cursor.left = (cursor.skip.passed + 1,
        readLine cursor.skip.source (cursor.skip.passed + 1 : Nat) line) ::
      outcomes cursor.skip.source (cursor.skip.passed + 1 + 1) rest := by
  rw [← left_skip, left, h, outcomes_cons (isSignificant_of_skip h)]

private theorem left_of_skip_nil {cursor : Cursor} (h : cursor.skip.ahead = []) :
    cursor.left = [] := by
  rw [← left_skip, left, h]
  rfl

/-- What one delivery does to what is left. -/
inductive Steps (cursor next : Cursor) : Delivery → Prop
  | ended (hleft : cursor.left = []) (hnext : next = cursor.skip) : Steps cursor next .ended
  | command {number : Nat} {command : Command}
      (hleft : cursor.left = (number, .ok (some command)) :: next.left)
      (hsource : next.source = cursor.source ∧ next.lines = cursor.lines)
      (hcurrent : next.current = some command ∧ next.lineNumber = number) :
      Steps cursor next (.command command)
  | failed {number : Nat} {error : LineError}
      (hleft : cursor.left = (number, .error error) :: next.left)
      (hsource : next.source = cursor.source ∧ next.lines = cursor.lines)
      (hcurrent : next.current = cursor.current ∧ next.lineNumber = cursor.lineNumber) :
      Steps cursor next (.failed error)

theorem steps_advance (cursor : Cursor) : cursor.Steps cursor.advance.1 cursor.advance.2 := by
  cases hahead : cursor.skip.ahead with
  | nil =>
      have hadvance : cursor.advance = (cursor.skip, .ended) := by simp [advance, hahead]
      rw [hadvance]
      exact .ended (left_of_skip_nil hahead) rfl
  | cons line rest =>
      have hleft := left_of_skip_cons hahead
      rcases exists_outcome_of_isSignificant (isSignificant_of_skip hahead) cursor.skip.source
        (cursor.skip.passed + 1 : Nat) with ⟨command, hread⟩ | ⟨error, hread⟩
      · rw [hread] at hleft
        simp only [advance, hahead, hread]
        exact .command hleft ⟨rfl, rfl⟩ ⟨rfl, rfl⟩
      · rw [hread] at hleft
        simp only [advance, hahead, hread]
        exact .failed hleft ⟨rfl, rfl⟩ ⟨rfl, rfl⟩

theorem left_eq_nil_of_ended {cursor : Cursor} (h : cursor.advance.2 = .ended) :
    cursor.left = [] := by
  have hstep := cursor.steps_advance
  rw [h] at hstep
  cases hstep with
  | ended hleft _ => exact hleft

theorem hasMore_eq (cursor : Cursor) : cursor.hasMore = (cursor.skip, !cursor.left.isEmpty) := by
  cases hahead : cursor.skip.ahead with
  | nil => simp [hasMore, hahead, left_of_skip_nil hahead]
  | cons line rest => simp [hasMore, hahead, left_of_skip_cons hahead]

/-! ## What a cursor has handed out -/

/-- The cursor of a source has handed out the outcomes `taken`, as `handed`, since it last started,
and has all others still to deliver. -/
structure Tracks (source : String) (lines : List String) (cursor : Cursor)
    (handed : List (Except LineError Command))
    (taken : List (Nat × Except LineError (Option Command))) : Prop where
  source_eq : cursor.source = source
  lines_eq : cursor.lines = lines
  split : outcomes source 1 lines = taken ++ cursor.left
  handed_eq : handed.map (Except.map some) = taken.map (·.2)
  current_eq : cursor.current = (lastCommand taken).map (·.1)
  lineNumber_eq : cursor.lineNumber = ((lastCommand taken).map (·.2)).getD 0

theorem tracks_ofLines (source : String) (lines : List String) :
    (ofLines source lines).Tracks source lines [] [] :=
  ⟨rfl, rfl, rfl, rfl, rfl, rfl⟩

private theorem lastCommand_concat_command
    (taken : List (Nat × Except LineError (Option Command))) (number : Nat) (command : Command) :
    lastCommand (taken ++ [(number, .ok (some command))]) = some (command, number) := by
  simp [lastCommand]

private theorem lastCommand_concat_error
    (taken : List (Nat × Except LineError (Option Command))) (number : Nat) (error : LineError) :
    lastCommand (taken ++ [(number, .error error)]) = lastCommand taken := by
  simp [lastCommand]

variable {source : String} {lines : List String} {cursor next : Cursor}
  {handed : List (Except LineError Command)}
  {taken : List (Nat × Except LineError (Option Command))}

theorem Tracks.restart (h : cursor.Tracks source lines handed taken) :
    cursor.restart.Tracks source lines [] [] := by
  rw [Cursor.restart, h.source_eq, h.lines_eq]
  exact tracks_ofLines source lines

theorem Tracks.skip (h : cursor.Tracks source lines handed taken) :
    cursor.skip.Tracks source lines handed taken :=
  ⟨h.source_eq, h.lines_eq, cursor.left_skip ▸ h.split, h.handed_eq, h.current_eq, h.lineNumber_eq⟩

theorem Tracks.length_eq (h : cursor.Tracks source lines handed taken) :
    taken.length = handed.length := by
  simpa using (congrArg List.length h.handed_eq).symm

/-- A delivery moves one outcome from what is left to what was handed out. -/
theorem Tracks.step {delivery : Delivery} (h : cursor.Tracks source lines handed taken)
    (hstep : cursor.Steps next delivery) :
    ∃ more, next.Tracks source lines (handed ++ delivery.outcome?.toList) more := by
  cases hstep with
  | ended hleft hnext =>
      rw [hnext, Delivery.outcome?, Option.toList_none, List.append_nil]
      exact ⟨taken, h.skip⟩
  | @command number command hleft hsource hcurrent =>
      refine ⟨taken ++ [(number, .ok (some command))], ?_⟩
      refine ⟨hsource.1.trans h.source_eq, hsource.2.trans h.lines_eq, ?_, ?_, ?_, ?_⟩
      · rw [h.split, hleft, List.append_assoc, List.singleton_append]
      · rw [List.map_append, List.map_append, h.handed_eq]
        rfl
      · rw [hcurrent.1, lastCommand_concat_command]
        rfl
      · rw [hcurrent.2, lastCommand_concat_command]
        rfl
  | @failed number error hleft hsource hcurrent =>
      -- The fault counts as handed out, but the last command is still the one before it.
      refine ⟨taken ++ [(number, .error error)], ?_⟩
      refine ⟨hsource.1.trans h.source_eq, hsource.2.trans h.lines_eq, ?_, ?_, ?_, ?_⟩
      · rw [h.split, hleft, List.append_assoc, List.singleton_append]
      · rw [List.map_append, List.map_append, h.handed_eq]
        rfl
      · rw [hcurrent.1, lastCommand_concat_error, h.current_eq]
      · rw [hcurrent.2, lastCommand_concat_error, h.lineNumber_eq]

end Cursor

/-! ## One request -/

theorem handedOut_concat (log : List (Request × Answer)) (request : Request) (answer : Answer) :
    handedOut (log ++ [(request, answer)]) =
      if request = .restart then [] else handedOut log ++ answer.outcome?.toList := by
  simp [handedOut]

theorem hasEnded_concat {log : List (Request × Answer)} {entry : Request × Answer} {reader : Nat} :
    HasEnded (log ++ [entry]) reader ↔
      HasEnded log reader ∨ (entry.1 = .next reader ∧ entry.2.isLast = true) := by
  simp [HasEnded, or_and_right, exists_or]

theorem hasEnded_concat_next {log : List (Request × Answer)} {reader other : Nat}
    {delivery : Delivery} :
    HasEnded (log ++ [(.next reader, .delivered delivery)]) other ↔
      HasEnded log other ∨ (reader = other ∧ delivery.isLast = true) := by
  simp [hasEnded_concat, Answer.isLast]

namespace Readers

/-- What a request to a reader can do. -/
theorem next_cases (readers : Readers) (reader : Nat) :
    (readers.finished.length ≤ reader ∧
      ∃ fault, readers.perform (.next reader) = (readers, .noReader fault)) ∨
    (readers.finished[reader]? = some true ∧
      readers.perform (.next reader) = (readers, .delivered .ended)) ∨
    (readers.finished[reader]? = some false ∧
      readers.perform (.next reader) =
        (⟨readers.cursor.advance.1, if readers.cursor.advance.2.isLast
          then readers.finished.set reader true else readers.finished⟩,
          .delivered readers.cursor.advance.2)) := by
  by_cases hreader : reader < readers.finished.length
  · right
    have hplace := Index.place?_natCast hreader
    cases hfinished : readers.finished[reader] with
    | true =>
        refine Or.inl ⟨by simp [hreader, hfinished], ?_⟩
        simp [perform, next, hplace, hfinished]
    | false =>
        refine Or.inr ⟨by simp [hreader, hfinished], ?_⟩
        cases hadvance : readers.cursor.advance with
        | mk cursor delivery =>
            cases delivery <;>
              simp [perform, next, hplace, hfinished, hadvance, Delivery.isLast]
  · left
    have hplace : Index.place? readers.finished.length reader = none := by
      have hoffset : Index.offset readers.finished.length reader = reader :=
        if_neg (Int.not_lt.mpr (Int.natCast_nonneg reader))
      simp [Index.place?, hoffset, hreader]
    refine ⟨Nat.le_of_not_lt hreader, ⟨.read, reader⟩, ?_⟩
    simp [perform, next, hplace]

/-- The end is met where nothing is left, or by a reader that has finished. -/
theorem ended_cases {readers : Readers} {request : Request}
    (h : (readers.perform request).2 = .delivered .ended) :
    readers.cursor.left = [] ∨
      ∃ reader, request = .next reader ∧ readers.finished[reader]? = some true := by
  cases request with
  | advance => exact Or.inl (Cursor.left_eq_nil_of_ended (Answer.delivered.inj h))
  | next reader =>
      rcases readers.next_cases reader with ⟨-, fault, hperform⟩ | ⟨hdone, -⟩ | ⟨-, hperform⟩
      · rw [hperform] at h
        exact absurd h (by simp)
      · exact Or.inr ⟨reader, rfl, hdone⟩
      · rw [hperform] at h
        exact Or.inl (Cursor.left_eq_nil_of_ended (Answer.delivered.inj h))
  | hasMore => exact absurd h (by simp [perform])
  | restart => exact absurd h (by simp [perform])
  | add => exact absurd h (by simp [perform])

/-- A reader that has finished meets the end and changes nothing. -/
theorem perform_next_of_finished {readers : Readers} {reader : Nat}
    (h : readers.finished[reader]? = some true) :
    readers.perform (.next reader) = (readers, .delivered .ended) := by
  rcases readers.next_cases reader with ⟨hreader, -⟩ | ⟨-, hperform⟩ | ⟨hlive, -⟩
  · rw [List.getElem?_eq_none hreader] at h
    exact absurd h (by simp)
  · exact hperform
  · rw [hlive] at h
    exact absurd h (by simp)

/-- A reader that was made is given a delivery. -/
theorem exists_delivery {readers : Readers} {reader : Nat}
    (h : reader < readers.finished.length) :
    ∃ delivery, (readers.perform (.next reader)).2 = .delivered delivery := by
  rcases readers.next_cases reader with ⟨hreader, -⟩ | ⟨-, hperform⟩ | ⟨-, hperform⟩
  · exact absurd h (Nat.not_lt.mpr hreader)
  · exact ⟨_, congrArg Prod.snd hperform⟩
  · exact ⟨_, congrArg Prod.snd hperform⟩

/-- What a history of requests says about the state it led to. -/
structure Tracks (source : String) (lines : List String) (readers : Readers)
    (log : List (Request × Answer)) : Prop where
  cursor : ∃ taken, readers.cursor.Tracks source lines (handedOut log) taken
  finished : ∀ reader, readers.finished[reader]? = some true ↔ HasEnded log reader
  made : readers.finished.length = (log.map Prod.fst).count .add

variable {source : String} {lines : List String} {readers : Readers}
  {log : List (Request × Answer)}

theorem Tracks.next (h : readers.Tracks source lines log) (reader : Nat) :
    (readers.perform (.next reader)).1.Tracks source lines
      (log ++ [(.next reader, (readers.perform (.next reader)).2)]) := by
  obtain ⟨taken, htaken⟩ := h.cursor
  rcases readers.next_cases reader with ⟨-, fault, hperform⟩ | ⟨hdone, hperform⟩ | ⟨hlive, hperform⟩
  · rw [hperform]
    refine ⟨⟨taken, ?_⟩, fun other => ?_, ?_⟩
    · simpa [handedOut_concat, Answer.outcome?] using htaken
    · simpa [hasEnded_concat, Answer.isLast] using h.finished other
    · simpa using h.made
  · rw [hperform]
    refine ⟨⟨taken, ?_⟩, fun other => ?_, ?_⟩
    · simpa [handedOut_concat, Answer.outcome?, Delivery.outcome?] using htaken
    · -- The reader had ended before, so the new entry says nothing new.
      rw [hasEnded_concat_next, h.finished]
      refine (or_iff_left_of_imp ?_).symm
      rintro ⟨rfl, -⟩
      exact (h.finished reader).mp hdone
    · simpa using h.made
  · rw [hperform]
    refine ⟨?_, fun other => ?_, ?_⟩
    · obtain ⟨more, hmore⟩ := htaken.step readers.cursor.steps_advance
      refine ⟨more, ?_⟩
      simpa [handedOut_concat, Answer.outcome?] using hmore
    · -- The flag is set exactly by the deliveries after which the log says so too.
      rw [hasEnded_concat_next, ← h.finished]
      have hreader : reader < readers.finished.length := (List.getElem?_eq_some_iff.mp hlive).1
      cases hlast : readers.cursor.advance.2.isLast with
      | false => simp
      | true =>
          by_cases hother : reader = other
          · subst hother
            simp [hreader]
          · simp [hother]
    · have hlength : ∀ last : Bool, (if last then readers.finished.set reader true
          else readers.finished).length = readers.finished.length := by
        intro last
        cases last <;> simp
      simpa [hlength] using h.made

/-- A request keeps what the history says of the state. -/
theorem Tracks.perform (h : readers.Tracks source lines log) (request : Request) :
    (readers.perform request).1.Tracks source lines
      (log ++ [(request, (readers.perform request).2)]) := by
  obtain ⟨taken, htaken⟩ := h.cursor
  cases request with
  | advance =>
      refine ⟨?_, fun other => ?_, ?_⟩
      · obtain ⟨more, hmore⟩ := htaken.step readers.cursor.steps_advance
        exact ⟨more, by simpa [Readers.perform, handedOut_concat, Answer.outcome?] using hmore⟩
      · simpa [Readers.perform, hasEnded_concat] using h.finished other
      · simpa [Readers.perform] using h.made
  | hasMore =>
      refine ⟨⟨taken, ?_⟩, fun other => ?_, ?_⟩
      · simpa [Readers.perform, Cursor.hasMore_eq, handedOut_concat, Answer.outcome?]
          using htaken.skip
      · simpa [Readers.perform, hasEnded_concat] using h.finished other
      · simpa [Readers.perform] using h.made
  | restart =>
      refine ⟨⟨[], ?_⟩, fun other => ?_, ?_⟩
      · simpa [Readers.perform, handedOut_concat] using htaken.restart
      · simpa [Readers.perform, hasEnded_concat] using h.finished other
      · simpa [Readers.perform] using h.made
  | add =>
      refine ⟨⟨taken, ?_⟩, fun other => ?_, ?_⟩
      · simpa [Readers.perform, Readers.add, handedOut_concat, Answer.outcome?] using htaken
      · have hnew : (readers.finished ++ [false])[other]? = some true ↔
            readers.finished[other]? = some true := by
          rw [List.getElem?_append]
          split
          · rfl
          · next hlength =>
            rw [List.getElem?_eq_none (Nat.le_of_not_lt hlength)]
            cases other - readers.finished.length <;> simp
        simpa [Readers.perform, Readers.add, hasEnded_concat, hnew] using h.finished other
      · simpa [Readers.perform, Readers.add] using h.made
  | next reader => exact h.next reader

theorem Tracks.after (h : readers.Tracks source lines log) (requests : List Request) :
    (readers.after requests).Tracks source lines (log ++ readers.log requests) := by
  induction requests generalizing readers log with
  | nil => simpa [Readers.after, Readers.log] using h
  | cons request rest ih =>
      have hrest := ih (h.perform request)
      rwa [List.append_assoc, List.singleton_append] at hrest

theorem tracks_ofLines (source : String) (lines : List String) :
    (ofCursor (.ofLines source lines)).Tracks source lines [] :=
  ⟨⟨[], Cursor.tracks_ofLines source lines⟩, fun reader => by simp [ofCursor, HasEnded], rfl⟩

/-! ## Looking for more -/

/-- States that differ only in the insignificant lines passed. -/
structure Alike (first second : Readers) : Prop where
  cursor : first.cursor.skip = second.cursor.skip
  finished : first.finished = second.finished

private theorem alike_of_eq {first second : Readers × Answer} (h : first = second) :
    first.2 = second.2 ∧ first.1.Alike second.1 := by
  subst h
  exact ⟨rfl, rfl, rfl⟩

theorem Alike.perform {first second : Readers} (h : first.Alike second) (request : Request) :
    (first.perform request).2 = (second.perform request).2 ∧
      (first.perform request).1.Alike (second.perform request).1 := by
  obtain ⟨cursor, finished⟩ := first
  obtain ⟨other, _⟩ := second
  obtain ⟨hskip, rfl⟩ := h
  dsimp only at hskip
  -- Only a finished reader answers without the cursor; every other answer begins with skipping.
  have hadvance : cursor.advance = other.advance := by rw [Cursor.advance, Cursor.advance, hskip]
  cases request with
  | advance => exact alike_of_eq (by simp only [Readers.perform, hadvance])
  | hasMore =>
      have hmore : cursor.hasMore = other.hasMore := by rw [Cursor.hasMore, Cursor.hasMore, hskip]
      exact alike_of_eq (by simp only [Readers.perform, hmore])
  | restart =>
      have hrestart : cursor.restart = other.restart := by
        rw [← cursor.restart_skip, hskip, other.restart_skip]
      exact alike_of_eq (by simp only [Readers.perform, hrestart])
  | add => exact ⟨rfl, hskip, rfl⟩
  | next reader =>
      cases hplace : Index.place? finished.length reader with
      | none =>
          simp only [Readers.perform, Readers.next, hplace]
          exact ⟨trivial, hskip, rfl⟩
      | some place =>
          cases hfinished : finished[place] with
          | true =>
              simp only [Readers.perform, Readers.next, hplace, hfinished, if_true]
              exact ⟨trivial, hskip, rfl⟩
          | false =>
              refine alike_of_eq ?_
              simp only [Readers.perform, Readers.next, hplace, hfinished, hadvance,
                Bool.false_eq_true, if_false]

theorem Alike.log_eq {first second : Readers} (h : first.Alike second) (requests : List Request) :
    first.log requests = second.log requests := by
  induction requests generalizing first second with
  | nil => rfl
  | cons request rest ih =>
      obtain ⟨hanswer, hafter⟩ := h.perform request
      rw [Readers.log, Readers.log, hanswer, ih hafter]

theorem alike_hasMore (readers : Readers) : (readers.perform .hasMore).1.Alike readers :=
  ⟨readers.cursor.skip_skip, rfl⟩

end Readers

/-! ## All requests -/

theorem Readers.map_fst_log (readers : Readers) (requests : List Request) :
    (readers.log requests).map Prod.fst = requests := by
  induction requests generalizing readers with
  | nil => rfl
  | cons request rest ih => rw [Readers.log, List.map_cons, ih]

/-- Whatever the requests before were: what was handed out since the last restart are the outcomes
of the first significant lines, in order and each once; the current command is the last of them;
the end is met only where no significant line is left, or by a reader that has met the end or a
fault, which then meets nothing else; whether there is more is whether a significant line is left,
and asking for it changes no later answer. -/
theorem deliveries_follow_lines (source : String) (lines : List String)
    (requests : List Request) :
    let start := Readers.ofCursor (.ofLines source lines)
    let readers := start.after requests
    let log := start.log requests
    let handed := handedOut log
    let all := outcomes source 1 lines
    handed.map (Except.map some) = (all.take handed.length).map (·.2) ∧
    readers.cursor.current = (lastCommand (all.take handed.length)).map (·.1) ∧
    readers.cursor.lineNumber = ((lastCommand (all.take handed.length)).map (·.2)).getD 0 ∧
    (∀ request, (readers.perform request).2 = .delivered .ended →
      handed.length = all.length ∨ ∃ reader, request = .next reader ∧ HasEnded log reader) ∧
    (∀ reader, HasEnded log reader →
      readers.perform (.next reader) = (readers, .delivered .ended)) ∧
    (∀ reader < requests.count .add,
      ∃ delivery, (readers.perform (.next reader)).2 = .delivered delivery) ∧
    (readers.perform .hasMore).2 = .more (decide (handed.length < all.length)) ∧
    ∀ later, (readers.perform .hasMore).1.log later = readers.log later := by
  intro start readers log handed all
  have htracks : readers.Tracks source lines log :=
    (Readers.tracks_ofLines source lines).after requests
  obtain ⟨taken, htaken⟩ := htracks.cursor
  have hsplit : all = taken ++ readers.cursor.left := htaken.split
  have hlength : handed.length = taken.length := htaken.length_eq.symm
  have htake : all.take handed.length = taken := by rw [hsplit, hlength, List.take_left]
  have hcount : all.length = handed.length + readers.cursor.left.length := by
    rw [hsplit, hlength, List.length_append]
  have hmade : readers.finished.length = requests.count .add := by
    rw [htracks.made, start.map_fst_log]
  rw [htake]
  refine ⟨htaken.handed_eq, htaken.current_eq, htaken.lineNumber_eq, ?_, ?_, ?_, ?_, ?_⟩
  · intro request hended
    rcases Readers.ended_cases hended with hnone | ⟨reader, hreader, hdone⟩
    · exact Or.inl (by rw [hcount, hnone, List.length_nil, Nat.add_zero])
    · exact Or.inr ⟨reader, hreader, (htracks.finished reader).mp hdone⟩
  · intro reader hended
    exact Readers.perform_next_of_finished ((htracks.finished reader).mpr hended)
  · intro reader hreader
    exact Readers.exists_delivery (hmade ▸ hreader)
  · rw [hcount, Readers.perform, Cursor.hasMore_eq]
    cases readers.cursor.left <;> simp
  · exact readers.alike_hasMore.log_eq

theorem deliveries_follow_lines_sample :
    let requests := [.add, .next 0, .next 0, .restart, .advance]
    let start := Readers.ofCursor (.ofLines "Main" ["// text", "add", "jump", "neg"])
    let readers := start.after requests
    handedOut (start.log requests) = [.ok (.arithmetic "add")] ∧
      (∃ delivery, (readers.perform (.next 0)).2 = .delivered delivery) ∧
      readers.perform (.next 0) = (readers, .delivered .ended) ∧
      ∃ reader, Request.next 0 = .next reader ∧ HasEnded (start.log requests) reader := by
  intro requests start readers
  obtain ⟨-, -, -, honly, hstays, hmade, -⟩ :=
    deliveries_follow_lines "Main" ["// text", "add", "jump", "neg"] requests
  have hended : readers.perform (.next 0) = (readers, .delivered .ended) :=
    hstays 0 (by decide +kernel)
  refine ⟨by decide +kernel, hmade 0 (by decide), hended, ?_⟩
  exact (honly (.next 0) (congrArg Prod.snd hended)).resolve_left (by decide +kernel)

end HackVm
