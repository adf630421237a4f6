import HackVm.Proofs.Logging.Sinks
import HackVm.Proofs.Text.Decoding
import Mathlib.Data.List.Forall2
import Mathlib.Data.List.TakeWhile

/-!
# Log files read back

A log file is read line by line, and lines without the five columns are passed over.  Of a record
there is one line with columns, and then there may be others:

```text
time | LEVEL | logger | site | message     the first line of the message
                               message     its further lines, if it has any
details                                    as many lines as there are
```

`Record.inLog` tells what a reader finds of one record.  The columns are taken off its line one by
one (`ofText?_columns`), and what a reader finds in the whole file is what he finds of each record,
in the order of writing (`allOfText_logText`).
-/

namespace HackVm

/-! ## Lines between line feeds -/

namespace Text

theorem feedLinesFrom_append_feed (begun front rest : List Char) :
    feedLinesFrom begun (front ++ '\n' :: rest) =
      feedLinesFrom begun front ++ feedLines rest := by
  induction front generalizing begun with
  | nil => rfl
  | cons c front ih =>
      rw [List.cons_append, feedLinesFrom, feedLinesFrom]
      split
      · rw [ih, List.cons_append]
      · exact ih _

/-- A line that was begun goes on to the first line feed. -/
theorem feedLinesFrom_eq (begun text : List Char) :
    feedLinesFrom begun text =
      (begun.reverse ++ text.takeWhile (· != '\n')) :: (feedLines text).tail := by
  induction text generalizing begun with
  | nil => simp [feedLinesFrom, feedLines]
  | cons c text ih =>
      by_cases hfeed : c = '\n'
      · simp [feedLines, feedLinesFrom, hfeed]
      · have hopen : ∀ begun,
            feedLinesFrom begun (c :: text) = feedLinesFrom (c :: begun) text := by
          intro begun
          rw [feedLinesFrom, if_neg (by simpa using hfeed)]
        have htail : (feedLines (c :: text)).tail = (feedLines text).tail := by
          rw [feedLines, hopen, ih, List.tail_cons]
        rw [hopen, ih, htail, List.takeWhile_cons, if_pos (by simpa using hfeed)]
        simp

/-- What stands before the first line feed begins the first line. -/
theorem feedLines_append {front : List Char} (hfront : '\n' ∉ front) (text : List Char) :
    feedLines (front ++ text) =
      (front ++ text.takeWhile (· != '\n')) :: (feedLines text).tail := by
  have hbegun : ∀ begun, feedLinesFrom begun (front ++ text) =
      feedLinesFrom (front.reverse ++ begun) text := by
    induction front with
    | nil => exact fun begun => rfl
    | cons c front ih =>
        rw [List.mem_cons, not_or] at hfront
        obtain ⟨hc, hfront⟩ := hfront
        intro begun
        rw [List.cons_append, feedLinesFrom, if_neg (by simpa using Ne.symm hc), ih hfront]
        simp
  rw [feedLines, hbegun, feedLinesFrom_eq]
  simp

end Text

namespace Log

/-! ## Columns -/

theorem after?_append (start rest : List Char) : after? start (start ++ rest) = some rest := by
  rw [after?, if_pos (by simp), List.drop_left]

/-- A text that has the shape of a time. -/
def IsTime (time : String) : Prop :=
  List.Forall₂ (fun shape c => fitsShape shape c = true) timeShape time.toList

instance (time : String) : Decidable (IsTime time) :=
  inferInstanceAs (Decidable (List.Forall₂ _ _ _))

namespace IsTime

variable {time : String} (h : IsTime time)
include h

theorem feed_not_mem : '\n' ∉ time.toList := by
  have hnever : ∀ shape ∈ timeShape, fitsShape shape '\n' = false := by
    have hall : timeShape.all (!fitsShape · '\n') = true := by decide
    simpa using hall
  unfold IsTime at h
  generalize timeShape = shape, time.toList = chars at h hnever
  induction h with
  | nil => simp
  | cons hfirst _ ih =>
      obtain ⟨hfeed, hrest⟩ := List.forall_mem_cons.mp hnever
      rw [List.mem_cons, not_or]
      refine ⟨?_, ih hrest⟩
      rintro rfl
      rw [hfeed] at hfirst
      exact absurd hfirst (by simp)

theorem afterTime?_append (rest : List Char) :
    afterTime? (time.toList ++ (columnMark ++ rest)) = some rest := by
  have hfits : (List.zipWith fitsShape timeShape
      (time.toList ++ (columnMark ++ rest))).all id = true := by
    generalize columnMark ++ rest = after
    unfold IsTime at h
    generalize timeShape = shape, time.toList = chars at h
    induction h with
    | nil => rfl
    | cons hfirst _ ih => simpa [hfirst] using ih
  rw [afterTime?, if_pos hfits, List.Forall₂.length_eq h, List.drop_left, after?_append]

end IsTime

theorem takeLevel?_append {level : List Char} {width : Nat} (hwidth : level.length = width)
    (rest : List Char) : takeLevel? (level ++ (columnMark ++ rest)) width = some (level, rest) := by
  subst hwidth
  rw [takeLevel?, List.drop_left, List.take_left, after?_append]
  rfl

theorem takeColumn?_append {column : List Char} (hne : column ≠ [])
    (hcolumn : column.all (!Text.isBlank ·) = true) (rest : List Char) :
    takeColumn? (column ++ (columnMark ++ rest)) = some (column, rest) := by
  have htaken : (column ++ (columnMark ++ rest)).takeWhile (!Text.isBlank ·) = column := by
    rw [List.takeWhile_append_of_pos (List.all_eq_true.mp hcolumn)]
    simp [columnMark, show Text.isBlank ' ' = true by decide]
  rw [takeColumn?, htaken]
  simp [hne, after?_append]

/-! ## Records -/

namespace Record

/-- The columns of a record before its message. -/
def columns (time : String) (record : Record) : List Char :=
  time.toList ++ (columnMark ++ ((padRight levelWidth (levelName record.level)).toList ++
    (columnMark ++ (record.logger.toList ++ (columnMark ++ (record.site.text.toList ++
      columnMark))))))

theorem toList_text (time : String) (record : Record) :
    (record.text time).toList = record.columns time ++ record.body.toList ++ ['\n'] := by
  simp [text, columns]

/-- What a reader finds of a record in a log file: the line of it, with the message up to the first
line feed, and any further lines that look like log lines themselves. -/
def inLog (record : Record) : List LogLine :=
  ⟨levelName record.level, record.logger,
      String.ofList (record.message.toList.takeWhile (· != '\n'))⟩ ::
    (Text.feedLines record.body.toList).tail.filterMap LogLine.ofText?

/-- A record of one line is read back as it is. -/
theorem inLog_of_singleLine {record : Record} (hmessage : '\n' ∉ record.message.toList)
    (hdetails : record.details = none) : record.inLog = [record.toLogLine] := by
  have hlines := Text.feedLines_append hmessage []
  have hfirst : record.message.toList.takeWhile (· != '\n') = record.message.toList := by
    rw [List.takeWhile_eq_self_iff]
    intro c hc
    exact bne_iff_ne.mpr fun hfeed => hmessage (hfeed ▸ hc)
  rw [List.append_nil] at hlines
  rw [inLog, body, hdetails, hlines, hfirst, String.ofList_toList]
  rfl

variable {time : String} {record : Record} (htime : IsTime time) (hrecord : record.OfProgram)
include htime hrecord

theorem feed_not_mem_columns : '\n' ∉ record.columns time := by
  have hlevels : ∀ level ∈ programLevels,
      '\n' ∉ (padRight levelWidth (levelName level)).toList := by decide
  have hloggers : ∀ logger ∈ programLoggers, '\n' ∉ logger.toList := by decide
  have hsites : ∀ site ∈ programSites, '\n' ∉ site.text.toList := by decide
  have hmark : '\n' ∉ columnMark := by decide
  simp only [columns, List.mem_append, not_or]
  exact ⟨htime.feed_not_mem, hmark, hlevels _ hrecord.level, hmark, hloggers _ hrecord.logger,
    hmark, hsites _ hrecord.site, hmark⟩

/-- The columns are read back, and what follows them is the message. -/
theorem ofText?_columns (message : List Char) :
    LogLine.ofText? (record.columns time ++ message) =
      some ⟨levelName record.level, record.logger, String.ofList message⟩ := by
  have hlevels : ∀ level ∈ programLevels,
      (padRight levelWidth (levelName level)).toList.length = levelWidth ∧
        Text.trim (padRight levelWidth (levelName level)).toList =
          (levelName level).toList := by decide
  have hloggers : ∀ logger ∈ programLoggers,
      logger.toList ≠ [] ∧ logger.toList.all (!Text.isBlank ·) = true := by decide
  have hsites : ∀ site ∈ programSites, (site.text.toList ≠ [] ∧
      site.text.toList.all (!Text.isBlank ·) = true) ∧
        isSiteColumn site.text.toList = true := by decide
  obtain ⟨hwidth, htrim⟩ := hlevels _ hrecord.level
  obtain ⟨hlogger, hplain⟩ := hloggers _ hrecord.logger
  obtain ⟨⟨hsite, hplain'⟩, hcolumn⟩ := hsites _ hrecord.site
  simp only [columns, List.append_assoc, LogLine.ofText?, htime.afterTime?_append, levelWidths,
    List.findSome?_cons, takeLevel?_append hwidth, takeColumn?_append hlogger hplain,
    takeColumn?_append hsite hplain', Option.bind_eq_bind, Option.bind_some, hcolumn, if_true,
    htrim, String.ofList_toList]

/-- In a log file, the lines of a record are read as what is to be found of it. -/
theorem filterMap_feedLines :
    (Text.feedLines (record.columns time ++ record.body.toList)).filterMap LogLine.ofText? =
      record.inLog := by
  have hfirst : record.body.toList.takeWhile (· != '\n') =
      record.message.toList.takeWhile (· != '\n') := by
    unfold body
    cases record.details with
    | none => rfl
    | some details =>
        -- Both are the first of the lines, for the details stand on lines of their own.
        have hlines := Text.feedLinesFrom_append_feed [] record.message.toList details.toList
        rw [Text.feedLinesFrom_eq, Text.feedLinesFrom_eq] at hlines
        simpa using (List.cons.inj hlines).1
  rw [Text.feedLines_append (feed_not_mem_columns htime hrecord), List.filterMap_cons_some
    (ofText?_columns htime hrecord _), hfirst, inLog]

end Record

/-! ## Log files -/

/-- The text of records in a log file. -/
def logText (time : String) (records : List Record) : String :=
  String.ofList (records.flatMap fun record => (record.text time).toList)

theorem logLines_eq_encode (time : String) (records : List Record) :
    logLines time records = Text.encode (logText time records) := by
  simp [logLines, logText, Text.encode, List.flatMap_assoc]

/-- What is read of a log file is what is to be found of each of its records. -/
theorem allOfText_logText {time : String} (htime : IsTime time) {records : List Record}
    (hrecords : ∀ record ∈ records, record.OfProgram) :
    LogLine.allOfText (logText time records) = records.flatMap Record.inLog := by
  unfold LogLine.allOfText logText
  rw [String.toList_ofList]
  induction records with
  | nil =>
      change List.filterMap LogLine.ofText? [[]] = []
      decide
  | cons record rest ih =>
      obtain ⟨hrecord, hrest⟩ := List.forall_mem_cons.mp hrecords
      rw [List.flatMap_cons, List.flatMap_cons, Record.toList_text, List.append_assoc,
        List.singleton_append, Text.feedLines, Text.feedLinesFrom_append_feed,
        List.filterMap_append, ih hrest]
      exact congrArg (· ++ _) (Record.filterMap_feedLines htime hrecord)

end Log

end HackVm
