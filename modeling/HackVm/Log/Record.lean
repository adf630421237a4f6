import HackVm.Text.LineBreak
import HackVm.Text.Numeral

/-!
# Log records

A record has a level, the name of the logger it was given to, the site that gave it and a message.
In a log file a record is a line of five columns: the time of writing, the level, the logger, the
site and the message, which may hold anything.  The details of a record, if it has any, follow
on lines of their own, without columns.  `LogLine.ofText?` reads a line back, as far as it does not
depend on where and when it was written.
-/

namespace HackVm.Log

/-- Where a record comes from: an operation, and the number of a place in it. -/
structure Site where
  operation : String
  number : Nat
  deriving DecidableEq, Repr

namespace Site

/-- The text of a site in a log file. -/
def text (site : Site) : String :=
  site.operation ++ ":" ++ Text.natural site.number

/-- A log file was opened. -/
def logFileOpened : Site := ⟨"setup_logging", 64⟩

/-- A command was read. -/
def commandRead : Site := ⟨"advance", 153⟩

/-- A source was opened. -/
def sourceOpened : Site := ⟨"source_name", 133⟩

/-- The start-up code is begun. -/
def bootstrapBegun : Site := ⟨"run", 89⟩

/-- A source was compiled. -/
def sourceCompiled : Site := ⟨"run", 99⟩

/-- An input was found. -/
def inputFound : Site := ⟨"translate_path", 124⟩

/-- An output was written. -/
def outputWritten : Site := ⟨"translate_path", 131⟩

/-- The command line was given a stack base that is no number. -/
def stackBaseRefused : Site := ⟨"main", 91⟩

/-- The input of the command line has no sources. -/
def inputRefused : Site := ⟨"main", 108⟩

/-- A line of a source is malformed. -/
def lineRefused : Site := ⟨"main", 111⟩

/-- A command was refused. -/
def commandRefused : Site := ⟨"main", 114⟩

/-- The system refused a file. -/
def fileRefused : Site := ⟨"main", 117⟩

/-- Anything else went wrong. -/
def broken : Site := ⟨"main", 120⟩

/-- What went wrong is told in full. -/
def brokenInFull : Site := ⟨"main", 122⟩

end Site

/-- One log record. -/
structure Record where
  level : Int
  logger : String
  site : Site
  message : String
  /-- What is told beyond the message. -/
  details : Option String := none
  deriving DecidableEq, Repr

/-- The level of details. -/
def debugLevel : Int := 10

/-- The level of progress. -/
def infoLevel : Int := 20

/-- The level of warnings. -/
def warningLevel : Int := 30

/-- The level of errors. -/
def errorLevel : Int := 40

/-- The level of breakdowns. -/
def criticalLevel : Int := 50

/-- The name of a level. -/
def levelName (level : Int) : String :=
  if level = debugLevel then "DEBUG"
  else if level = infoLevel then "INFO"
  else if level = warningLevel then "WARNING"
  else if level = errorLevel then "ERROR"
  else if level = criticalLevel then "CRITICAL"
  else if level = 0 then "NOTSET"
  else "Level " ++ Text.decimal level

/-- The logger above all others of the program. -/
def rootLogger : String := "vm_translator"

/-- A logger below the root logger. -/
def loggerBelow (name : String) : String :=
  rootLogger ++ "." ++ name

/-- The logger of commands that are read. -/
def readingLogger : String := loggerBelow "parser"

/-- The logger of code that is emitted. -/
def emissionLogger : String := loggerBelow "codegen"

/-- The logger of programs that are compiled. -/
def compilationLogger : String := loggerBelow "translation"

/-- The logger of the command line. -/
def commandLineLogger : String := loggerBelow "cli"

/-- The least width of the level column. -/
def levelWidth : Nat := 7

/-- The widths of a level column that is read back.  One level name is longer than the column. -/
def levelWidths : List Nat := [levelWidth, levelWidth + 1]

/-- The shape of the time column, where a zero stands for any digit. -/
def timeShape : List Char := "0000-00-00 00:00:00".toList

/-- The mark between columns. -/
def columnMark : List Char := [' ', '|', ' ']

/-- A text filled up with spaces to a width. -/
def padRight (width : Nat) (text : String) : String :=
  text ++ String.ofList (List.replicate (width - text.length) ' ')

/-- The columns of a log line that do not depend on where and when it was written. -/
structure LogLine where
  level : String
  logger : String
  message : String
  deriving DecidableEq, Repr

/-- What a log line tells about a record. -/
def Record.toLogLine (record : Record) : LogLine :=
  ⟨levelName record.level, record.logger, record.message⟩

/-- The message of a record with the details under it. -/
def Record.body (record : Record) : String :=
  match record.details with
  | none => record.message
  | some details => record.message ++ "\n" ++ details

/-- The line of a record in a log file and those of its details, with the last line feed. -/
def Record.text (time : String) (record : Record) : String :=
  let mark := String.ofList columnMark
  time ++ mark ++ padRight levelWidth (levelName record.level) ++ mark ++ record.logger ++ mark ++
    record.site.text ++ mark ++ record.body ++ "\n"

/-! ## Reading log files -/

/-- What follows a text at the start of another. -/
def after? (start text : List Char) : Option (List Char) :=
  if start.isPrefixOf text then some (text.drop start.length) else none

/-- A character of a shape: a zero stands for any digit, all else for itself. -/
def fitsShape (shape c : Char) : Bool :=
  if shape == '0' then Text.isDecimalDigit c else c == shape

/-- Takes the time column off a line. -/
def afterTime? (line : List Char) : Option (List Char) :=
  if (List.zipWith fitsShape timeShape line).all id then
    after? columnMark (line.drop timeShape.length)
  else
    none

/-- Takes a level column of the given width off a text. -/
def takeLevel? (text : List Char) (width : Nat) : Option (List Char × List Char) :=
  (after? columnMark (text.drop width)).map fun rest => (text.take width, rest)

/-- Takes a column without blanks off a text. -/
def takeColumn? (text : List Char) : Option (List Char × List Char) :=
  let column := text.takeWhile (!Text.isBlank ·)
  if column.isEmpty then none
  else (after? columnMark (text.drop column.length)).map fun rest => (column, rest)

/-- A column that shows a site: an operation, a colon and a number. -/
def isSiteColumn (column : List Char) : Bool :=
  let number := column.reverse.takeWhile Text.isDecimalDigit
  match column.reverse.drop number.length with
  | ':' :: operation => !number.isEmpty && !operation.isEmpty
  | _ => false

namespace LogLine

/-- Reads a log line.  Text that does not have the five columns is none. -/
def ofText? (line : List Char) : Option LogLine := do
  let afterTime ← afterTime? line
  let (level, afterLevel) ← levelWidths.findSome? (takeLevel? afterTime)
  let (logger, afterLogger) ← takeColumn? afterLevel
  let (site, message) ← takeColumn? afterLogger
  if isSiteColumn site then
    some ⟨String.ofList (Text.trim level), String.ofList logger, String.ofList message⟩
  else
    none

/-- The log lines in the text of a log file.  Other lines are passed over. -/
def allOfText (text : String) : List LogLine :=
  (Text.feedLines text.toList).filterMap ofText?

end LogLine

end HackVm.Log
