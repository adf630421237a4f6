import HackVm.Files.Tree
import HackVm.Log.Record

/-!
# Loggers

Loggers form a hierarchy by their dotted names.  A record is taken if its level is positive and
reaches the effective level of its logger, which is the nearest level set on the way up.  Then it
goes to the handlers of the logger and of all loggers above it, as far as its level reaches theirs.

The way up from a name leads to the nearest known logger among the shorter names that end before a
dot.  Of two dots in a row the first is passed over.  From there it leads to the top logger, which
is above all others whatever their names are.  Only the top logger has a level before it is set up,
and it has two names, one of them empty.
-/

namespace HackVm.Log

/-- Where records go. -/
inductive Handler where
  /-- The console shows records from a level on. -/
  | console (level : Int)
  /-- A file takes records from a level on. -/
  | file (level : Int) (location : Files.Location)
  deriving DecidableEq, Repr

/-- The level from which a handler takes records. -/
def Handler.level : Handler → Int
  | .console level => level
  | .file level _ => level

/-- A logger: its level, zero when it is not set, and its handlers. -/
structure Logger where
  level : Int
  handlers : List Handler
  deriving DecidableEq, Repr

/-- The known loggers. -/
structure Registry where
  loggers : Table String Logger
  deriving DecidableEq, Repr

/-- The logger above all loggers. -/
def topLogger : String := "root"

/-- The name that a logger goes by: a logger without a name is the top logger. -/
def knownAs (name : String) : String :=
  if name.isEmpty then topLogger else name

/-- A logger before it is set up. -/
def Logger.unset (name : String) : Logger :=
  ⟨if name = topLogger then warningLevel else 0, []⟩

@[simp] theorem knownAs_knownAs (name : String) : knownAs (knownAs name) = knownAs name := by
  unfold knownAs
  split <;> simp_all

@[simp] theorem Logger.handlers_unset (name : String) : (Logger.unset name).handlers = [] := rfl

/-- The shorter names above a name that is given last character first.  `pass` says that the next
character is passed over. -/
def namesAboveFrom (pass : Bool) : List Char → List String
  | [] => []
  | c :: rest =>
    if !pass && c == '.' then
      if rest.isEmpty then [] else String.ofList rest.reverse :: namesAboveFrom true rest
    else
      namesAboveFrom false rest

/-- The shorter names above a name, nearest first. -/
def namesAbove (name : String) : List String :=
  namesAboveFrom false name.toList.reverse

namespace Registry

/-- The loggers that the program's parts use, before any was set up. -/
def initial : Registry :=
  ⟨[readingLogger, emissionLogger, compilationLogger, commandLineLogger].map
    fun name => (name, .unset name)⟩

/-- The logger of a name, which is not set up when it is not known. -/
def get (registry : Registry) (name : String) : Logger :=
  (registry.loggers.lookup (knownAs name)).getD (.unset (knownAs name))

/-- Sets the logger of a name. -/
def set (registry : Registry) (name : String) (logger : Logger) : Registry :=
  ⟨registry.loggers.put (knownAs name) logger⟩

/-- The two names of one logger. -/
theorem get_congr (registry : Registry) {name other : String} (h : knownAs other = knownAs name) :
    registry.get other = registry.get name := by
  rw [get, get, h]

/-- A name has the logger that was set. -/
theorem get_set_self (registry : Registry) (name : String) (logger : Logger) :
    (registry.set name logger).get name = logger := by
  rw [get, set, Table.lookup_put_self, Option.getD_some]

/-- Every other logger stays as it is. -/
theorem get_set_of_ne (registry : Registry) {name other : String}
    (hother : knownAs other ≠ knownAs name) (logger : Logger) :
    (registry.set name logger).get other = registry.get other := by
  rw [get, get, set, Table.lookup_put_of_ne registry.loggers hother logger]

/-- Makes a name known. -/
def touch (registry : Registry) (name : String) : Registry :=
  registry.set name (registry.get name)

/-- Takes away what every logger was set up with. -/
def clear (registry : Registry) : Registry :=
  ⟨registry.loggers.map fun (name, _) => (name, .unset name)⟩

/-- No logger is set up after `clear`. -/
theorem get_clear (registry : Registry) (name : String) :
    registry.clear.get name = .unset (knownAs name) := by
  obtain ⟨loggers⟩ := registry
  simp only [get, clear]
  induction loggers with
  | nil => rfl
  | cons entry rest ih =>
    rw [List.map_cons, List.lookup_cons]
    cases hname : knownAs name == entry.1 with
    | true => rw [Option.getD_some, eq_of_beq hname]
    | false => exact ih

/-- The nearest known logger above a name, the top logger apart. -/
def above? (registry : Registry) (name : String) : Option String :=
  (namesAbove name).find? fun above =>
    above != topLogger && (registry.loggers.lookup above).isSome

/-- The names of the loggers from a name on upward, at most `height` steps and short of the top
logger. -/
def lineageWithin (registry : Registry) : Nat → String → List String
  | 0, name => [name]
  | height + 1, name =>
    name ::
      match registry.above? name with
      | some above => registry.lineageWithin height above
      | none => []

/-- The names of the loggers from a name on upward.  Each step shortens the name, and the last one
leads to the top logger. -/
def lineage (registry : Registry) (name : String) : List String :=
  if knownAs name = topLogger then [topLogger]
  else registry.lineageWithin name.length name ++ [topLogger]

/-- The effective level of a logger. -/
def effectiveLevel (registry : Registry) (name : String) : Int :=
  (((registry.lineage name).map fun owner => (registry.get owner).level).find? (· != 0)).getD 0

/-- A record of the level is taken by the logger. -/
def takes (registry : Registry) (name : String) (level : Int) : Bool :=
  0 < level && registry.effectiveLevel name ≤ level

/-- The handlers of one logger that take records of a level, with the logger's name. -/
def handlersFor (registry : Registry) (level : Int) (owner : String) : List (String × Handler) :=
  ((registry.get owner).handlers.filter (·.level ≤ level)).map fun handler => (owner, handler)

/-- The handlers that a record goes to, each with the name of its logger. -/
def targets (registry : Registry) (record : Record) : List (String × Handler) :=
  if registry.takes record.logger record.level then
    (registry.lineage record.logger).flatMap (registry.handlersFor record.level)
  else
    []

end Registry

end HackVm.Log
