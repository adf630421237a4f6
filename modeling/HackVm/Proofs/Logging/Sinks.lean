import HackVm.Proofs.Logging.Delivery

/-!
# Where records go

Handlers stay with their loggers from one run to the next, and a record reaches the handlers of all
loggers above its own.  So what becomes of a record depends on everything that was set up before.
It is simple when the root logger alone is set up, `Registry.Wired`:

```text
console     takes the records from its level on
log file    takes every record of the program, if there is a log file
```

`Logs sinks watched before records after` says of two worlds that just these records were logged
between them.  It tells what the console has shown, and follows the content of one file, be it the
log file or another.  It holds of one list of records (`Ready.logs_logAll`) and passes through any
number of them (`Logs.trans`).
-/

namespace HackVm

open Files Log World

/-! ## Sinks -/

namespace Log

/-- The loggers that the program gives its records to. -/
def programLoggers : List String :=
  [rootLogger, readingLogger, emissionLogger, compilationLogger, commandLineLogger]

/-- The root logger goes by its name. -/
@[simp] theorem knownAs_rootLogger : knownAs rootLogger = rootLogger := by decide

/-- The levels of the program's records. -/
def programLevels : List Int :=
  [debugLevel, infoLevel, errorLevel]

/-- The sites of the program's records. -/
def programSites : List Site :=
  [.logFileOpened, .commandRead, .sourceOpened, .bootstrapBegun, .sourceCompiled, .inputFound,
    .outputWritten, .stackBaseRefused, .inputRefused, .lineRefused, .commandRefused, .fileRefused,
    .broken, .brokenInFull]

/-- A record of the program. -/
structure Record.OfProgram (record : Record) : Prop where
  logger : record.logger ∈ programLoggers
  level : record.level ∈ programLevels
  site : record.site ∈ programSites

/-- The level of details is the lowest. -/
theorem Record.OfProgram.debugLevel_le {record : Record} (h : record.OfProgram) :
    debugLevel ≤ record.level := by
  have hlevels : ∀ level ∈ programLevels, debugLevel ≤ level := by decide
  exact hlevels _ h.level

theorem Record.ofProgram_mk {level : Int} {logger : String} {site : Site}
    (hlogger : logger ∈ programLoggers) (hlevel : level ∈ programLevels)
    (hsite : site ∈ programSites) (message : String) (details : Option String) :
    (⟨level, logger, site, message, details⟩ : Record).OfProgram :=
  ⟨hlogger, hlevel, hsite⟩

/-- The lines of records in a log file. -/
def logLines (time : String) (records : List Record) : Text.Bytes :=
  records.flatMap fun record => Text.encode (record.text time)

theorem logLines_append (time : String) (first second : List Record) :
    logLines time (first ++ second) = logLines time first ++ logLines time second :=
  List.flatMap_append

/-- What the root logger is set up with: the level of its console handler, and its log file. -/
structure Sinks where
  level : Int
  logFile : Option Location
  deriving DecidableEq, Repr

namespace Sinks

def handlers (sinks : Sinks) : List Handler :=
  .console sinks.level :: sinks.logFile.toList.map (.file debugLevel)

/-- What the console shows of records. -/
def shown (sinks : Sinks) (records : List Record) : List Shown :=
  (records.filter fun record => sinks.level ≤ record.level).map fun record => ⟨rootLogger, record⟩

theorem shown_append (sinks : Sinks) (first second : List Record) :
    sinks.shown (first ++ second) = sinks.shown first ++ sinks.shown second := by
  simp [shown]

/-- The postings of a record: one for the console, if its level is reached, and one for the log
file. -/
def postings (sinks : Sinks) (record : Record) : List Posting :=
  (if sinks.level ≤ record.level then [⟨record, rootLogger, .console sinks.level⟩] else []) ++
    sinks.logFile.toList.map fun location => ⟨record, rootLogger, .file debugLevel location⟩

theorem postings_eq (sinks : Sinks) {record : Record} (hrecord : record.OfProgram) :
    sinks.postings record = (sinks.handlers.filter (·.level ≤ record.level)).map
      fun handler => ⟨record, rootLogger, handler⟩ := by
  have hlevel := hrecord.debugLevel_le
  unfold postings handlers
  by_cases hconsole : sinks.level ≤ record.level <;> cases sinks.logFile <;>
    simp [Handler.level, hlevel, hconsole]

theorem shown_postings (sinks : Sinks) (records : List Record) :
    (records.flatMap sinks.postings).filterMap Posting.shown? = sinks.shown records := by
  induction records with
  | nil => rfl
  | cons record rest ih =>
      have hone : (sinks.postings record).filterMap Posting.shown? = sinks.shown [record] := by
        unfold postings shown
        by_cases hconsole : sinks.level ≤ record.level <;> cases sinks.logFile <;>
          simp [Posting.shown?, List.filterMap_cons, hconsole]
      rw [List.flatMap_cons, List.filterMap_append, hone, ih, ← shown_append]
      rfl

/-- However many records there are, they go to one file at most. -/
theorem locations_postings (sinks : Sinks) (records : List Record) :
    ((records.flatMap sinks.postings).filterMap Posting.location?).eraseDups =
      if records = [] then [] else sinks.logFile.toList := by
  have hall : ∀ records : List Record, (records.flatMap sinks.postings).filterMap
      Posting.location? = records.flatMap fun _ => sinks.logFile.toList := by
    intro records
    rw [List.filterMap_flatMap]
    congr 1
    funext record
    unfold postings
    by_cases hconsole : sinks.level ≤ record.level <;> cases sinks.logFile <;>
      simp [Posting.location?, List.filterMap_cons, hconsole]
  rw [hall]
  cases records with
  | nil => rfl
  | cons record rest =>
      rw [if_neg (List.cons_ne_nil _ _)]
      cases sinks.logFile with
      | none =>
          have hnone :
              ((record :: rest).flatMap fun _ => (none : Option Location).toList) = [] := by
            simp
          rw [hnone]
          rfl
      | some location =>
          have hrest : (rest.flatMap fun _ => (some location).toList).filter
              (fun other => !other == location) = [] := by
            simp [List.filter_eq_nil_iff]
          rw [List.flatMap_cons, Option.toList_some, List.singleton_append, List.eraseDups_cons,
            ← Option.toList_some, hrest]
          rfl

theorem linesAt_postings {sinks : Sinks} {location : Location}
    (hfile : sinks.logFile = some location) (time : String) (records : List Record) :
    linesAt time (records.flatMap sinks.postings) location = logLines time records := by
  induction records with
  | nil => rfl
  | cons record rest ih =>
      have hone : (sinks.postings record).filter (·.location? == some location) =
          [⟨record, rootLogger, .file debugLevel location⟩] := by
        unfold postings
        by_cases hconsole : sinks.level ≤ record.level <;>
          simp [Posting.location?, hfile, hconsole]
      unfold linesAt at ih ⊢
      rw [List.flatMap_cons, List.filter_append, hone, List.flatMap_append, ih,
        List.flatMap_singleton, logLines, logLines, List.flatMap_cons]

end Sinks

/-! ## From a record to the handlers -/

namespace Registry

/-- The root logger is set up, and no other logger. -/
structure Wired (registry : Registry) (sinks : Sinks) : Prop where
  root : registry.get rootLogger = ⟨debugLevel, sinks.handlers⟩
  others : ∀ name, knownAs name ≠ rootLogger → registry.get name = .unset (knownAs name)

theorem lineageWithin_rootLogger (registry : Registry) (height : Nat) :
    registry.lineageWithin height rootLogger = [rootLogger] := by
  have hnone : registry.above? rootLogger = none := by
    rw [above?, show namesAbove rootLogger = [] by decide]
    rfl
  cases height with
  | zero => rfl
  | succ height => rw [lineageWithin, hnone]

theorem lineage_rootLogger (registry : Registry) :
    registry.lineage rootLogger = [rootLogger, topLogger] := by
  rw [lineage, if_neg (by decide), lineageWithin_rootLogger]
  rfl

namespace Wired

variable {registry : Registry} {sinks : Sinks} (h : registry.Wired sinks)
include h

/-- The way up from a logger of the program leads to the root logger at once. -/
theorem lineage_eq {name : String} (hname : name ∈ programLoggers) (hne : name ≠ rootLogger) :
    registry.lineage name = [name, rootLogger, topLogger] := by
  have hnames : ∀ name ∈ programLoggers, name ≠ rootLogger →
      namesAbove name = [rootLogger] ∧ name.length ≠ 0 ∧ knownAs name ≠ topLogger := by decide
  obtain ⟨habove, hlength, htop⟩ := hnames name hname hne
  -- A logger with handlers is known, so the way up stops there.
  have hknown : (registry.loggers.lookup rootLogger).isSome = true := by
    cases hlookup : registry.loggers.lookup rootLogger with
    | some logger => rfl
    | none =>
        have hroot := h.root
        rw [get, knownAs_rootLogger, hlookup] at hroot
        exact absurd (congrArg Logger.handlers hroot) (List.cons_ne_nil _ _).symm
  have hfound : registry.above? name = some rootLogger := by
    rw [above?, habove]
    exact List.find?_cons_of_pos (by simp [hknown, show rootLogger ≠ topLogger by decide])
  obtain ⟨height, hheight⟩ := Nat.exists_eq_succ_of_ne_zero hlength
  rw [lineage, if_neg htop, hheight, lineageWithin, hfound]
  dsimp only
  rw [lineageWithin_rootLogger]
  rfl

/-- Loggers that are not set up have no handlers. -/
theorem handlersFor_eq_nil {name : String} (hname : knownAs name ≠ rootLogger) (level : Int) :
    registry.handlersFor level name = [] := by
  rw [handlersFor, h.others name hname]
  rfl

/-- A record of the program goes to the handlers of the root logger. -/
theorem targets_eq {record : Record} (hrecord : record.OfProgram) :
    registry.targets record =
      (sinks.handlers.filter (·.level ≤ record.level)).map
        fun handler => (rootLogger, handler) := by
  have hlevel : 10 ≤ record.level := hrecord.debugLevel_le
  have hhandlers : registry.handlersFor record.level rootLogger =
      (sinks.handlers.filter (·.level ≤ record.level)).map
        fun handler => (rootLogger, handler) := by
    rw [handlersFor, h.root]
  have htop : registry.handlersFor record.level topLogger = [] :=
    h.handlersFor_eq_nil (by decide) record.level
  have htakes : registry.effectiveLevel record.logger = debugLevel →
      registry.takes record.logger record.level = true := by
    intro heffective
    simp only [takes, heffective, debugLevel, Bool.and_eq_true, decide_eq_true_eq]
    omega
  by_cases hname : record.logger = rootLogger
  · have hlineage : registry.lineage record.logger = [rootLogger, topLogger] := by
      rw [hname, lineage_rootLogger]
    have heffective : registry.effectiveLevel record.logger = debugLevel := by
      simp [effectiveLevel, hlineage, h.root, debugLevel]
    rw [targets, if_pos (htakes heffective), hlineage, List.flatMap_cons, List.flatMap_singleton,
      hhandlers, htop, List.append_nil]
  · have hlineage := h.lineage_eq hrecord.logger hname
    have hnames : ∀ name ∈ programLoggers, name ≠ rootLogger →
        knownAs name ≠ rootLogger ∧ Logger.unset (knownAs name) = ⟨0, []⟩ := by decide
    obtain ⟨hother, hunset⟩ := hnames _ hrecord.logger hname
    have hnothing : registry.get record.logger = ⟨0, []⟩ := (h.others _ hother).trans hunset
    have heffective : registry.effectiveLevel record.logger = debugLevel := by
      simp [effectiveLevel, hlineage, h.root, hnothing, debugLevel]
    rw [targets, if_pos (htakes heffective), hlineage, List.flatMap_cons, List.flatMap_cons,
      List.flatMap_singleton, hhandlers, htop, h.handlersFor_eq_nil hother, List.append_nil,
      List.nil_append]

theorem of_get {other : Registry} (hget : ∀ name, other.get name = registry.get name) :
    other.Wired sinks :=
  ⟨(hget _).trans h.root, fun name hname => (hget name).trans (h.others name hname)⟩

theorem postings_eq {records : List Record} (hrecords : ∀ record ∈ records, record.OfProgram) :
    World.postings registry records = records.flatMap sinks.postings := by
  induction records with
  | nil => rfl
  | cons record rest ih =>
      obtain ⟨hrecord, hrest⟩ := List.forall_mem_cons.mp hrecords
      rw [World.postings, List.flatMap_cons, List.flatMap_cons, h.targets_eq hrecord, List.map_map,
        sinks.postings_eq hrecord, ← ih hrest]
      rfl

end Wired

end Registry

end Log

/-! ## From world to world -/

namespace World

/-- The root logger alone is set up, and its log file is there. -/
structure Ready (world : World) (sinks : Sinks) : Prop where
  wired : world.registry.Wired sinks
  file : ∀ location ∈ sinks.logFile, (world.tree.content? location).isSome = true

/-- Between two worlds just these records were logged.  The content of one file is watched, which
may be the log file or another one. -/
structure Logs (sinks : Sinks) (watched : Location) (before : World) (records : List Record)
    (after : World) : Prop where
  ofProgram : ∀ record ∈ records, record.OfProgram
  ready : after.Ready sinks
  time : after.time = before.time
  host : after.host = before.host
  console : after.console = before.console ++ sinks.shown records
  content : after.tree.content? watched =
    if sinks.logFile = some watched then
      (before.tree.content? watched).map (· ++ logLines before.time records)
    else before.tree.content? watched

namespace Logs

variable {sinks : Sinks} {watched : Location}

theorem refl {world : World} (h : world.Ready sinks) : Logs sinks watched world [] world where
  ofProgram := by simp
  ready := h
  time := rfl
  host := rfl
  console := (List.append_nil _).symm
  content := by simp [logLines]

theorem trans {before between after : World} {first second : List Record}
    (h₁ : Logs sinks watched before first between) (h₂ : Logs sinks watched between second after) :
    Logs sinks watched before (first ++ second) after where
  ofProgram := by
    intro record hrecord
    rcases List.mem_append.mp hrecord with hmem | hmem
    · exact h₁.ofProgram record hmem
    · exact h₂.ofProgram record hmem
  ready := h₂.ready
  time := h₂.time.trans h₁.time
  host := h₂.host.trans h₁.host
  console := by rw [h₂.console, h₁.console, List.append_assoc, Sinks.shown_append]
  content := by
    rw [h₂.content, h₁.content, h₁.time, logLines_append]
    split
    · simp [Option.map_map, Function.comp_def]
    · rfl

end Logs

namespace Ready

variable {world : World} {sinks : Sinks} (h : world.Ready sinks) {records : List Record}
  (hrecords : ∀ record ∈ records, record.OfProgram)
include h hrecords

private theorem postings_logAll :
    postings (world.logAll records).registry records = records.flatMap sinks.postings :=
  (h.wired.of_get (world.onlyLogged_logAll records).loggers).postings_eq hrecords

/-- The log file takes the lines of the records at once. -/
private theorem tree_logAll :
    (world.logAll records).tree =
      match sinks.logFile with
      | none => world.tree
      | some location =>
        if records = [] then world.tree
        else world.tree.append location (logLines world.time records) := by
  have htree : (world.logAll records).tree =
      let posted := postings (world.logAll records).registry records
      (posted.filterMap Posting.location?).eraseDups.foldl
        (fun tree location => tree.append location (linesAt world.time posted location))
        world.tree := rfl
  rw [htree, h.postings_logAll hrecords]
  dsimp only
  rw [sinks.locations_postings]
  cases hfile : sinks.logFile with
  | none => split <;> rfl
  | some location =>
      dsimp only
      split
      · rfl
      · rw [Option.toList_some, List.foldl_cons, List.foldl_nil, Sinks.linesAt_postings hfile]

private theorem content?_logAll (watched : Location) :
    (world.logAll records).tree.content? watched =
      if sinks.logFile = some watched then
        (world.tree.content? watched).map (· ++ logLines world.time records)
      else world.tree.content? watched := by
  rw [h.tree_logAll hrecords]
  cases hfile : sinks.logFile with
  | none => simp
  | some location =>
      obtain ⟨content, hcontent⟩ := Option.isSome_iff_exists.mp (h.file location hfile)
      dsimp only
      by_cases hempty : records = []
      · simp [hempty, logLines]
      · rw [if_neg hempty, Tree.append]
        by_cases hwatched : location = watched
        · subst hwatched
          rw [if_pos rfl, Tree.content?_put_file _ (Tree.ne_nil_of_content? hcontent), hcontent]
          rfl
        · rw [if_neg (fun hsome => hwatched (Option.some.inj hsome)),
            Tree.content?_put_of_ne _ (Ne.symm hwatched)]

/-- The step that everything rests on: records of the program are logged. -/
theorem logs_logAll (watched : Location) :
    Logs sinks watched world records (world.logAll records) where
  ofProgram := hrecords
  ready.wired := h.wired.of_get (world.onlyLogged_logAll records).loggers
  ready.file := by
    intro location hlocation
    rw [h.content?_logAll hrecords, if_pos (Option.mem_def.mp hlocation), Option.isSome_map]
    exact h.file location hlocation
  time := rfl
  host := rfl
  console := by
    have hconsole : (world.logAll records).console = world.console ++
        (postings (world.logAll records).registry records).filterMap Posting.shown? := rfl
    rw [hconsole, h.postings_logAll hrecords, sinks.shown_postings]
  content := h.content?_logAll hrecords watched

end Ready

end World

end HackVm
