import HackVm.Proofs.Files.Overwriting
import HackVm.Proofs.Logging.SetUp

/-!
# Log files grow in place

A handler opens its file when the logger is set up, so from then on every log file exists.  This is
`World.LogsExist`.  It holds where no file is logged to (`Quiet.logsExist`) and is kept by every
call that sets up a logger, whether that succeeds or not (`LogsExist.setUp`), and by everything that
only writes files (`LogsExist.of_overwritten`).  So it holds whatever a program that begins has set
up (`logsExist_initial`).

To log is then to write over files that are there: no name is new in any directory
(`Logged.overwritten`).  So a path to a source leads where it led, and a source that is no log file
is read as it is now, however much is logged (`LogsExist.steady`).
-/

namespace HackVm

open Files Log

theorem Files.Tree.overwritten_append {tree : Tree} {location : Location}
    (hfile : (tree.content? location).isSome = true) (content : Text.Bytes) :
    tree.Overwritten (tree.append location content) (· = location) [] := by
  obtain ⟨hsome, hdirectory⟩ := Tree.isSome_content?_iff.mp hfile
  have hput := Tree.overwritten_put_file hdirectory ((tree.content? location).getD [] ++ content)
  rwa [if_pos hsome] at hput

namespace World

/-- Every file that a logger writes to is there. -/
def LogsExist (world : World) : Prop :=
  ∀ location, world.registry.LogsTo location → (world.tree.content? location).isSome = true

theorem Quiet.logsExist {world : World} (h : world.Quiet) : world.LogsExist :=
  fun location hlogs => absurd hlogs (h location)

/-- Files that are written do not go away. -/
theorem LogsExist.of_overwritten {before after : World} (h : before.LogsExist)
    {changed : Location → Prop} {added : List Location}
    (htree : before.tree.Overwritten after.tree changed added)
    (hlogs : ∀ location, after.registry.LogsTo location → before.registry.LogsTo location) :
    after.LogsExist :=
  fun location hlocation => htree.isSome_content? (h location (hlogs location hlocation))

/-! ## Logging -/

private theorem overwritten_appends {locations : List Location} {changed : Location → Prop}
    (hlocations : ∀ location ∈ locations, changed location) (lines : Location → Text.Bytes)
    {tree : Tree} (hfiles : ∀ location ∈ locations, (tree.content? location).isSome = true) :
    tree.Overwritten
      (locations.foldl (fun tree location => tree.append location (lines location)) tree)
      changed [] := by
  induction locations generalizing tree with
  | nil => exact .refl tree changed
  | cons location rest ih =>
      obtain ⟨hchanged, hlocations⟩ := List.forall_mem_cons.mp hlocations
      obtain ⟨hfile, hfiles⟩ := List.forall_mem_cons.mp hfiles
      have hfirst := (Tree.overwritten_append hfile (lines location)).mono
        fun other hother => hother ▸ hchanged
      exact hfirst.trans (ih hlocations fun other hother =>
        hfirst.isSome_content? (hfiles other hother))

private theorem overwritten_logAll {world : World} (h : world.LogsExist) (records : List Record) :
    world.tree.Overwritten (world.logAll records).tree world.registry.LogsTo [] := by
  have hlogs : ∀ location, (world.logAll records).registry.LogsTo location →
      world.registry.LogsTo location :=
    fun location => (world.onlyLogged_logAll records).logsTo_iff.mp
  have hreached : ∀ location ∈ ((postings (world.logAll records).registry records).filterMap
      Posting.location?).eraseDups, world.registry.LogsTo location := by
    intro location hlocation
    obtain ⟨posting, hposting, hfound⟩ :=
      List.mem_filterMap.mp (List.mem_eraseDups.mp hlocation)
    exact hlogs location (logsTo_of_mem_postings hposting hfound)
  exact overwritten_appends hreached _ fun location hlocation =>
    h location (hreached location hlocation)

namespace Logged

variable {before after : World}

/-- To log is to write log files over. -/
theorem overwritten (hlogged : before.Logged after) (h : before.LogsExist) :
    before.tree.Overwritten after.tree before.registry.LogsTo [] := by
  induction hlogged with
  | refl world => exact .refl world.tree _
  | @step world after records _ ih =>
      have hlogs := world.onlyLogged_logAll records
      have hfirst := overwritten_logAll h records
      have hrest := ih (h.of_overwritten hfirst fun _ => hlogs.logsTo_iff.mp)
      exact hfirst.trans (hrest.mono fun _ => hlogs.logsTo_iff.mp)

theorem logsExist (hlogged : before.Logged after) (h : before.LogsExist) : after.LogsExist :=
  h.of_overwritten (hlogged.overwritten h) fun _ => hlogged.onlyLogged.logsTo_iff.mp

end Logged

/-- Sources that are no log files stay as they are while records are logged. -/
theorem LogsExist.steady {world : World} (h : world.LogsExist) {paths : List Path}
    (hsources : ∀ path ∈ paths, ∀ location, world.tree.locate path = .ok location →
      ¬ world.registry.LogsTo location) : world.Steady paths :=
  fun _ hlogged path hpath => (hlogged.overwritten h).readSource_eq (hsources path hpath)

/-! ## Setting up -/

section SetUp

variable {world : World} {name : String} {level consoleLevel : Int}

private theorem LogsExist.withConsole (h : world.LogsExist) :
    (world.withConsole name level consoleLevel).LogsExist := by
  intro location hlogs
  obtain ⟨other, -, hother⟩ := logsTo_of_withConsole hlogs
  exact h location ⟨other, hother⟩

/-- A tree with the same files has the same log files. -/
private theorem LogsExist.withTree (h : world.LogsExist) {tree : Tree}
    (hfiles : ∀ location, tree.content? location = world.tree.content? location) :
    ({ world with tree } : World).LogsExist := by
  intro location hlogs
  rw [show tree.content? location = world.tree.content? location from hfiles location]
  exact h location hlogs

private theorem LogsExist.withLogFile (h : world.LogsExist) {tree : Tree} {path : Path}
    {opened : Location} (hfiles : ∀ location, tree.content? location = world.tree.content? location)
    (hopen : tree.openNew path = .ok opened) :
    (world.withLogFile name tree opened).LogsExist := by
  have hfile : tree.isDirectoryAt opened = false := (Tree.openNew_eq_ok hopen).2
  intro location hlogs
  rcases logsTo_of_withLogFile hlogs with hold | rfl
  · exact (Tree.overwritten_put_file hfile _).isSome_content? (h.withTree hfiles location hold)
  · -- Opening the file makes it, if it is not there yet.
    rw [World.withLogFile, Tree.append,
      Tree.content?_put_file tree (Tree.ne_nil_of_not_isDirectoryAt hfile)]
    rfl

/-- However a call ends, the log files that there are then exist. -/
theorem LogsExist.setUp (h : world.LogsExist) (call : SetUpCall) :
    (world.setUp call).1.LogsExist := by
  have hends := world.setUp_ends call
  generalize (world.setUp call).1 = after, (world.setUp call).2 = result at hends
  cases hends with
  | kept =>
      intro location hlogs
      simp only [Registry.LogsTo, Registry.get_touch] at hlogs
      exact h location hlogs
  | console => exact h.withConsole
  | refused _ _ hrefuses => exact h.withConsole.withTree hrefuses.content?_eq
  | @opened path tree opened _ _ _ hmade hopen =>
      have hfiles : ∀ location, tree.content? location = world.tree.content? location := by
        intro location
        have hkept := world.tree.content?_makeDirectories path.parent location
        rwa [hmade] at hkept
      exact (Logged.logAll _ _).logsExist (h.withConsole.withLogFile hfiles hopen)

theorem LogsExist.setUpAll (h : world.LogsExist) (calls : List SetUpCall) :
    (world.setUpAll calls).LogsExist := by
  induction calls generalizing world with
  | nil => exact h
  | cons call rest ih => exact ih (h.setUp call)

/-- The world in which a program begins. -/
def initial (tree : Tree) : World :=
  ⟨tree, .initial, [], "", {}⟩

private theorem quiet_initial (tree : Tree) : (initial tree).Quiet := by
  rintro location hlogs
  obtain ⟨name, hname, handler, hmem, -⟩ := Registry.logsTo_iff.mp hlogs
  have hnone : ∀ name ∈ Registry.initial.loggers.map Prod.fst,
      (Registry.initial.get name).handlers = [] := by decide
  rw [initial, hnone name hname] at hmem
  exact absurd hmem (by simp)

theorem logsExist_initial (tree : Tree) (calls : List SetUpCall) :
    ((initial tree).setUpAll calls).LogsExist :=
  (quiet_initial tree).logsExist.setUpAll calls

end SetUp

end World

end HackVm
