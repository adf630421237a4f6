import HackVm.Proofs.Simulation.Commands

/-!
# Whole runs

The machine follows the stack machine step by step.  `Represents` says that a state of the machine
stands at the address of the next command and holds the same memory; what the address and data
registers hold does not matter between commands.  `reaches_step` is the step lemma, and
`runs_simulated` follows by induction on the number of steps.
-/

namespace HackVm

open Emit Hack Text

variable {settings : Settings} {sources : List Source} {image : Image}

/-! ## One command -/

/-- A return goes to the address that its frame held. -/
theorem reaches_leave (h : Builds settings sources image) (hnames : SingleLineNames sources)
    (hclean : CleanLabels sources) {i : Nat} {source : String}
    (hentry : (listing sources)[i]? = some ⟨source, .ret⟩) {core : Core} {back : Word} {left : Ram}
    (hleave : core.ram.leave = some (back, left)) (steps : Nat) :
    ∃ last : Core, last.ram = left ∧
      Reaches image.rom (core.state (address settings sources i) steps)
        (last.state back.toNat steps) := by
  obtain ⟨session, next, body, -, hblock, hlaid, -, -⟩ := h.block hnames hentry
  cases block_eq_ok_iff.mp hblock
  exact reaches_return (meaning_register h hnames hclean) meaning_distance hlaid hleave steps

/-- A call goes to the command that declares the function, with the address of its next command in
the frame. -/
theorem reaches_enter (h : Builds settings sources image) (hnames : SingleLineNames sources)
    (hclean : CleanLabels sources) {i : Nat} {source function : String} {arguments : Int}
    (hentry : (listing sources)[i]? = some ⟨source, .call function arguments⟩) {target : Nat}
    (htarget : (Program.ofImage settings sources image).target? function = some target)
    {core : Core} {entered : Ram}
    (henter : core.ram.enter (BitVec.ofNat 16 (address settings sources (i + 1))) arguments =
      some entered) (steps : Nat) :
    ∃ last : Core, last.ram = entered ∧
      Reaches image.rom (core.state (address settings sources i) steps)
        (last.state (address settings sources target) steps) := by
  obtain ⟨session, next, body, -, hblock, hlaid, hnext, hbody⟩ := h.block hnames hentry
  cases block_eq_ok_iff.mp hblock
  have hback := meaning_back h hnames hlaid (hbody _ (by simp [callBlock])).1
  have hsize : isWritable (frameSize + arguments) = true :=
    (hbody (.load (.number (frameSize + arguments))) (by simp [callBlock, atNumber])).2
  have hplain := (isPlain_of_mem_listing (List.mem_of_getElem? hentry)).1
  have hpositive : 0 ≤ frameSize + arguments :=
    Int.add_nonneg (by decide) (hplain.number arguments rfl)
  rw [hnext, ← hback] at henter
  exact reaches_call (meaning_register h hnames hclean) hlaid
    (ofNat_meaning_number hpositive hsize) (meaning_target h hnames hclean htarget) henter steps

/-- From the address of a command the machine comes to the address of the next one. -/
theorem reaches_execute (h : Builds settings sources image) (hnames : SingleLineNames sources)
    (hmarks : UnmarkedNames sources) (hclean : CleanLabels sources) {i : Nat} {entry : Entry}
    (hentry : (listing sources)[i]? = some entry) {core : Core} {after : Configuration}
    (hexecute : (Program.ofImage settings sources image).execute i entry core.ram = some after)
    (steps : Nat) :
    ∃ last : Core, last.ram = after.ram ∧
      Reaches image.rom (core.state (address settings sources i) steps)
        (last.state ((Program.ofImage settings sources image).place after.next) steps) := by
  have hregister := meaning_register h hnames hclean
  obtain ⟨source, command⟩ := entry
  obtain ⟨session, next, body, hsource, hblock, hlaid, hnext, hbody⟩ := h.block hnames hentry
  obtain ⟨hplain, origin, horigin, hname⟩ := isPlain_of_mem_listing (List.mem_of_getElem? hentry)
  have hmark : ¬ commentMark <:+: source.toList := by
    rw [show source = origin.name from hname.symm]
    exact hmarks origin horigin
  have hwritable : ∀ symbol, .load symbol ∈ body → symbol.isWritable = true :=
    fun symbol hload => (hbody _ hload).2
  -- Most blocks run into the next one.
  have hplace : ∀ ram, (Program.ofImage settings sources image).place
      (Configuration.mk (.command (i + 1)) ram).next =
        address settings sources i + codeSize body := fun _ => hnext
  have hblock := block_eq_ok_iff.mp hblock
  -- A rule of the stack machine meets the one rule of emission for the same command.
  cases Program.execute_eq_some_iff.mp hexecute with
  | operate hoperator hresult =>
      cases hblock with
      | operate hfound =>
          obtain rfl := Option.some.inj (hoperator.symm.trans hfound)
          rw [hplace]
          exact reaches_operate hregister hlaid hresult steps
  | push hsegment hvalue hresult =>
      cases hblock with
      | push hfound hlocates =>
          obtain rfl := Option.some.inj (hsegment.symm.trans hfound)
          rw [hplace]
          refine reaches_straight hlaid ?_ steps
          rw [exec_push hregister hsource hmark (hplain.number _ rfl) hlocates hwritable hvalue]
          exact hresult
  | pop hsegment hcell hresult =>
      cases hblock with
      | pop hfound hlocates hpop =>
          obtain rfl := Option.some.inj (hsegment.symm.trans hfound)
          rw [hplace]
          refine reaches_straight hlaid ?_ steps
          rw [exec_pop hregister hsource hmark (hplain.number _ rfl) hlocates hpop hwritable hcell]
          exact hresult
  | label name =>
      cases hblock
      rw [hplace]
      exact ⟨core, rfl, .refl _⟩
  | goto htarget =>
      cases hblock
      have hmeaning := meaning_target h hnames hclean htarget
      exact ⟨⟨_, core.d, core.ram⟩, rfl,
        reaches_jumpTo hlaid hmeaning core.a core.d core.ram steps⟩
  | stay name hpop =>
      cases hblock
      rw [hplace]
      exact @reaches_ifGoto _ hregister _ _ 0 hlaid _ _ _ hpop (absurd rfl) steps
  | jump hpop hword htarget =>
      cases hblock
      have hmeaning := meaning_target h hnames hclean htarget
      have hreach := reaches_ifGoto hregister hlaid hpop (fun _ => hmeaning) steps
      rw [if_neg hword] at hreach
      exact hreach
  | function name hresult =>
      cases hblock
      rw [hplace]
      refine reaches_straight hlaid ?_ steps
      rw [exec_functionBlock hregister]
      exact hresult
  | call htarget henter => exact reaches_enter h hnames hclean hentry htarget henter steps
  | ret hleave htarget =>
      rw [Program.place, (Program.address_of_returnPoint? htarget).2]
      exact reaches_leave h hnames hclean hentry hleave steps

/-! ## The start -/

private theorem address_zero (settings : Settings) (sources : List Source) :
    address settings sources 0 = codeSize settings.startup := by
  rw [address, List.take_zero, List.flatten_nil, List.append_nil]

/-- From address zero the machine comes to the first command, or with start-up code to the entry
function. -/
theorem reaches_start (h : Builds settings sources image) (hnames : SingleLineNames sources)
    (hclean : CleanLabels sources) (hbase : 0 ≤ settings.stackBase) {core : Core}
    {after : Configuration}
    (hstep : (Program.ofImage settings sources image).step ⟨.start, core.ram⟩ = some after)
    (steps : Nat) :
    ∃ last : Core, last.ram = after.ram ∧ Reaches image.rom (core.state 0 steps)
      (last.state ((Program.ofImage settings sources image).place after.next) steps) := by
  have hregister := meaning_register h hnames hclean
  have hstartup : image.LaysOut 0 settings.startup := (laysOut_append.mp (h.laysOut hnames).1).1
  obtain ⟨text, hcompile, hload⟩ := h
  obtain ⟨hstart, -, -⟩ := compile_eq_ok hcompile
  have h : Builds settings sources image := ⟨text, hcompile, hload⟩
  rcases startup_cases hstart with ⟨hboot, hempty, -⟩ | ⟨hboot, hwritable, hcode, -⟩
  · have hafter : some ⟨.command 0, core.ram⟩ = some after := by
      simpa [Program.step, Program.ofImage, hboot] using hstep
    obtain rfl := Option.some.inj hafter
    have hzero : address settings sources 0 = 0 := by
      rw [address_zero, hempty]
      rfl
    refine ⟨core, rfl, ?_⟩
    rw [Program.place, show (Program.ofImage settings sources image).address 0 = 0 from hzero]
    exact .refl _
  · have hcall : (Program.ofImage settings sources image).call 0 entryFunction 0
        (core.ram.setRegister .sp (BitVec.ofInt 16 settings.stackBase)) = some after := by
      simpa [Program.step, Program.ofImage, hboot] using hstep
    obtain ⟨target, htarget, hcall⟩ := Option.bind_eq_some_iff.mp hcall
    obtain ⟨entered, hentered, hafter⟩ := Option.bind_eq_some_iff.mp hcall
    obtain rfl := Option.some.inj hafter
    have hmem : .declare settings.session.nextReturn ∈ programCode settings sources := by
      refine List.mem_append_left _ ?_
      rw [hcode]
      simp [bootstrapBlock, callBlock]
    rw [hcode] at hstartup
    have hlaid := (laysOut_append.mp hstartup).2
    rw [codeSize_annotation_eq_zero] at hlaid
    have hback : image.meaning settings.session.nextReturn = address settings sources 0 := by
      rw [meaning_back h hnames (laysOut_append.mp hlaid).2 hmem, address_zero, hcode,
        bootstrapBlock]
      simp only [codeSize_append, codeSize_annotation_eq_zero, Nat.zero_add]
    have hsize : isWritable (frameSize + 0) = true := isWritable_of_lt (by decide)
    refine reaches_bootstrap hregister hlaid (ofNat_meaning_number hbase hwritable)
      (ofNat_meaning_number (by decide) hsize) (meaning_target h hnames hclean htarget) ?_ steps
    rw [hback]
    exact hentered

/-! ## Runs -/

/-- A state of the machine stands at the address of the next command, with the same memory. -/
structure Represents (program : Program) (configuration : Configuration) (state : State) :
    Prop where
  pc : state.pc = program.place configuration.next
  memory : state.memory = configuration.ram.cells

theorem Represents.exists_core {program : Program} {configuration : Configuration} {state : State}
    (h : Represents program configuration state) :
    ∃ core : Core, core.ram = configuration.ram ∧
      state = core.state (program.place configuration.next) state.steps := by
  obtain ⟨a, d, pc, memory, steps⟩ := state
  refine ⟨⟨a, d, configuration.ram⟩, rfl, ?_⟩
  rw [Core.state, ← h.pc, ← h.memory]

/-- The machine follows one command of the stack machine. -/
theorem reaches_command (h : Builds settings sources image) (hnames : SingleLineNames sources)
    (hmarks : UnmarkedNames sources) (hclean : CleanLabels sources) {i : Nat} {entry : Entry}
    (hentry : (listing sources)[i]? = some entry) {ram : Ram} {after : Configuration}
    (hexecute : (Program.ofImage settings sources image).execute i entry ram = some after)
    {state : State}
    (hstate : Represents (Program.ofImage settings sources image) ⟨.command i, ram⟩ state) :
    ∃ final, Reaches image.rom state final ∧
      Represents (Program.ofImage settings sources image) after final := by
  obtain ⟨core, rfl, hcore⟩ := hstate.exists_core
  obtain ⟨last, hram, hreach⟩ :=
    reaches_execute h hnames hmarks hclean hentry hexecute state.steps
  rw [hcore]
  exact ⟨_, hreach, rfl, by rw [← hram]; rfl⟩

/-- The machine follows one step of the stack machine. -/
theorem reaches_step (h : Builds settings sources image) (hnames : SingleLineNames sources)
    (hmarks : UnmarkedNames sources) (hclean : CleanLabels sources)
    (hbase : 0 ≤ settings.stackBase) {before after : Configuration}
    (hstep : (Program.ofImage settings sources image).step before = some after) {state : State}
    (hstate : Represents (Program.ofImage settings sources image) before state) :
    ∃ final, Reaches image.rom state final ∧
      Represents (Program.ofImage settings sources image) after final := by
  obtain ⟨point, ram⟩ := before
  cases point with
  | start =>
      obtain ⟨core, rfl, hcore⟩ := hstate.exists_core
      obtain ⟨last, hram, hreach⟩ := reaches_start h hnames hclean hbase hstep state.steps
      rw [hcore]
      exact ⟨_, hreach, rfl, by rw [← hram]; rfl⟩
  | command i =>
      obtain ⟨entry, hentry, hexecute⟩ := Option.bind_eq_some_iff.mp hstep
      exact reaches_command h hnames hmarks hclean hentry hexecute hstate

/-! ## Counted runs -/

/-- The number of steps made so far has no influence on a step. -/
private theorem step_counted (rom : Array Instruction) (state : State) (steps : Nat) :
    State.step rom { state with steps } =
      ({ (State.step rom state).1 with steps }, (State.step rom state).2) := by
  have hcompute : ∀ destination computation jump x,
      State.compute { state with steps } destination computation jump x =
        ({ (state.compute destination computation jump x).1 with steps },
          (state.compute destination computation jump x).2) := by
    intro destination computation jump x
    unfold State.compute State.settle
    dsimp only
    split
    · split <;> rfl
    · rfl
  unfold State.step
  dsimp only
  split
  · rfl
  · rfl
  · split
    · split
      · exact hcompute _ _ _ _
      · rfl
    · exact hcompute _ _ _ _

/-- A run without a fault that comes to the end of the program finishes there. -/
theorem runFor_eq_finish {rom : Array Instruction} {count : Nat} {state final : State}
    (hsteps : State.stepTimes rom count state = (final, none)) (hend : rom.size ≤ final.pc)
    {budget : Nat} (hbudget : count < budget) (steps : Nat) :
    State.runFor rom none budget { state with steps } =
      ({ final with steps := steps + count }, .ok .finish) := by
  induction count generalizing state budget steps with
  | zero =>
      obtain ⟨rfl, -⟩ := Prod.mk.inj hsteps
      obtain ⟨budget, rfl⟩ := Nat.exists_eq_succ_of_ne_zero (Nat.ne_of_gt hbudget)
      rw [State.runFor, if_neg (by simp), if_pos hend]
      rfl
  | succ count ih =>
      obtain ⟨budget, rfl⟩ :=
        Nat.exists_eq_succ_of_ne_zero (Nat.ne_of_gt (Nat.zero_lt_of_lt hbudget))
      rw [State.stepTimes] at hsteps
      split at hsteps
      · next next hstep =>
        -- Past the end of the program the step would have been a fault.
        have hinside : ¬ rom.size ≤ state.pc := by
          intro hpast
          have hnone : rom[state.pc]? = none := Array.getElem?_eq_none hpast
          rw [State.step, hnone] at hstep
          exact absurd (Prod.mk.inj hstep).2 (by simp)
        rw [State.runFor, if_neg (by simp), if_neg hinside, step_counted, hstep]
        dsimp only
        rw [ih hsteps (by omega) (steps + 1)]
        rw [show steps + 1 + count = steps + (count + 1) by omega]
      · exact absurd (Prod.mk.inj hsteps).2 (by simp)

/-! ## Whole runs -/

/-- Whatever number of steps the stack machine makes, the machine makes as well: it comes without a
fault to a state that represents the last configuration.  If that is the end of the program, a run
of the machine finishes in that state. -/
theorem runs_simulated (h : Builds settings sources image) (hnames : SingleLineNames sources)
    (hmarks : UnmarkedNames sources) (hclean : CleanLabels sources)
    (hbase : 0 ≤ settings.stackBase) {count : Nat} {first last : Configuration}
    (hrun : (Program.ofImage settings sources image).stepTimes count first = some last)
    {state : State} (hstate : Represents (Program.ofImage settings sources image) first state) :
    ∃ (made : Nat) (final : State),
      State.stepTimes image.rom made state = (final, none) ∧
      Represents (Program.ofImage settings sources image) last final ∧
      (last.next = .command (listing sources).length →
        ∀ maxSteps, state.steps + made < maxSteps → State.run image.rom none maxSteps state =
          ({ final with steps := state.steps + made }, .ok .finish)) := by
  have hreach : ∃ final, Reaches image.rom state final ∧
      Represents (Program.ofImage settings sources image) last final := by
    induction count generalizing first state with
    | zero =>
        obtain rfl := Option.some.inj hrun
        exact ⟨state, .refl state, hstate⟩
    | succ count ih =>
        obtain ⟨next, hstep, hrest⟩ := Option.bind_eq_some_iff.mp hrun
        obtain ⟨middle, hfirst, hmiddle⟩ :=
          reaches_step h hnames hmarks hclean hbase hstep hstate
        obtain ⟨final, hsecond, hfinal⟩ := ih hrest hmiddle
        exact ⟨final, hfirst.trans hsecond, hfinal⟩
  obtain ⟨final, ⟨made, hmade⟩, hfinal⟩ := hreach
  refine ⟨made, final, hmade, hfinal, ?_⟩
  intro hlast maxSteps hsteps
  have hend : image.rom.size ≤ final.pc := by
    rw [hfinal.pc, hlast, (h.laysOut hnames).2.1]
    exact Nat.le_refl _
  exact runFor_eq_finish hmade hend (by omega) state.steps

/-- A program with start-up code, a call with an argument, a static variable and jumps. -/
def doublingSample : List Source :=
  [⟨"Sys", ["function Sys.init 0", "push constant 6", "call Sys.double 1", "pop static 0",
    "goto END", "function Sys.double 0", "push argument 0", "push argument 0", "add", "return",
    "label END"]⟩]

theorem runs_simulated_sample :
    ∃ (image : Image) (last : Configuration) (made : Nat) (final : State),
      Builds ⟨true, false, 256⟩ doublingSample image ∧
      (Program.ofImage ⟨true, false, 256⟩ doublingSample image).stepTimes 12
        ⟨.start, Vector.replicate memorySize 0⟩ = some last ∧
      last.next = .command 11 ∧ last.ram.read? 16 = some 12 ∧
      State.stepTimes image.rom made .initial = (final, none) ∧
      Represents (Program.ofImage ⟨true, false, 256⟩ doublingSample image) last final ∧
      ∀ maxSteps, made < maxSteps → State.run image.rom none maxSteps .initial =
        ({ final with steps := made }, .ok .finish) := by
  have hevaluated : ((build? ⟨true, false, 256⟩ doublingSample).bind fun image =>
      ((Program.ofImage ⟨true, false, 256⟩ doublingSample image).stepTimes 12
        ⟨.start, Vector.replicate memorySize 0⟩).map fun last => (last.next, last.ram.read? 16)) =
      some (.command 11, some 12) := by decide +kernel
  obtain ⟨image, himage, hmapped⟩ := Option.bind_eq_some_iff.mp hevaluated
  obtain ⟨last, hrun, hpair⟩ := Option.map_eq_some_iff.mp hmapped
  obtain ⟨hnext, hcell⟩ := Prod.mk.inj hpair
  have hbuilds := builds_of_build? (by decide) himage
  have hinitial : Represents (Program.ofImage ⟨true, false, 256⟩ doublingSample image)
      ⟨.start, Vector.replicate memorySize 0⟩ .initial := by
    refine ⟨rfl, ?_⟩
    rw [Ram.cells_replicate]
    rfl
  obtain ⟨made, final, hmade, hfinal, hfinish⟩ := runs_simulated hbuilds (by decide) (by decide)
    (by decide +kernel) (by decide) hrun hinitial
  have hlength : (listing doublingSample).length = 11 := by decide +kernel
  rw [hlength] at hfinish
  refine ⟨image, last, made, final, hbuilds, hrun, hnext, hcell, hmade, hfinal, ?_⟩
  intro maxSteps hless
  have hzero : State.initial.steps + made = made := Nat.zero_add made
  rw [hzero] at hfinish
  exact hfinish hnext maxSteps hless

end HackVm
