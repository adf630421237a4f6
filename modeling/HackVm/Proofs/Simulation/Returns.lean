import HackVm.Proofs.Reference.Calls
import HackVm.Proofs.Simulation.Run

/-!
# Calls in the machine

The machine knows nothing of functions: a return jumps to whatever address the frame holds.  In a
tame execution that is the address after the call, at every depth, so the machine follows the
execution (`reaches_execution`).  `call_restores_caller` puts this together with what the caller
finds in memory afterwards.
-/

namespace HackVm

open Emit Hack Text

variable {settings : Settings} {sources : List Source} {image : Image}

theorem address_le_size (h : Builds settings sources image) (hnames : SingleLineNames sources)
    (i : Nat) : address settings sources i ≤ image.rom.size := by
  rw [(h.laysOut hnames).2.1]
  obtain ⟨text, hcompile, -⟩ := h
  obtain ⟨-, -, final, hemission⟩ := compile_eq_ok hcompile
  rw [← hemission.length_eq, address_length]
  generalize hblocks : programBlocks settings sources = blocks
  calc address settings sources i
      = codeSize (settings.startup ++ (blocks.take i).flatten) := by rw [address, hblocks]
    _ ≤ codeSize (settings.startup ++ (blocks.take i ++ blocks.drop i).flatten) := by
        rw [List.flatten_append, codeSize_append, codeSize_append, codeSize_append]
        omega
    _ = codeSize (programCode settings sources) := by
        rw [List.take_append_drop, programCode, hblocks]

/-- A return that finds the address of a command in its frame goes to that command. -/
theorem reaches_back (h : Builds settings sources image) (hnames : SingleLineNames sources)
    (hclean : CleanLabels sources) (hrom : image.rom.size ≤ 32768) {j : Nat} {origin : String}
    (hreturn : (listing sources)[j]? = some ⟨origin, .ret⟩) {final left : Ram} {back : Nat}
    (hleave : final.leave = some (BitVec.ofNat 16 (address settings sources back), left))
    {state : State}
    (hstate : Represents (Program.ofImage settings sources image) ⟨.command j, final⟩ state) :
    ∃ last, Reaches image.rom state last ∧
      Represents (Program.ofImage settings sources image) ⟨.command back, left⟩ last := by
  obtain ⟨core, rfl, hcore⟩ := hstate.exists_core
  obtain ⟨last, hram, hreach⟩ := reaches_leave h hnames hclean hreturn hleave state.steps
  have haddress := address_le_size h hnames back
  have hback : (BitVec.ofNat 16 (address settings sources back)).toNat =
      address settings sources back := by
    rw [BitVec.toNat_ofNat]
    omega
  rw [hback] at hreach
  rw [hcore]
  exact ⟨_, hreach, rfl, by rw [← hram]; rfl⟩

theorem isPlain_entries (settings : Settings) (sources : List Source) (image : Image) :
    ∀ entry ∈ (Program.ofImage settings sources image).entries, entry.command.IsPlain :=
  fun _ hentry => (isPlain_of_mem_listing hentry).1

/-- The machine follows a tame execution. -/
theorem reaches_execution (h : Builds settings sources image) (hnames : SingleLineNames sources)
    (hmarks : UnmarkedNames sources) (hclean : CleanLabels sources)
    (hrom : image.rom.size ≤ 32768) {frames : List Nat} {first last : Configuration}
    {visits : List Visit}
    (hexecution : Execution (Program.ofImage settings sources image) frames first visits last)
    (htame : ∀ visit ∈ visits, visit.Tame (Program.ofImage settings sources image))
    (hbase : 21 ≤ first.ram.pointer .lcl) {state : State}
    (hstate : Represents (Program.ofImage settings sources image) first state) :
    ∃ final, Reaches image.rom state final ∧
      Represents (Program.ofImage settings sources image) last final := by
  induction hexecution generalizing state with
  | done frames configuration => exact ⟨state, .refl state, hstate⟩
  | @command frames i ram entry next last visits hentry hlocal hstep hrest ih =>
      have hkeeps := keeps_of_execute hentry hlocal hstep rfl hbase
        (htame _ (List.mem_cons_self ..)) (htame _ (List.mem_cons_of_mem _ hrest.first_mem))
      have hnext : next.ram.pointer .lcl = ram.pointer .lcl := congrArg BitVec.toNat hkeeps.lcl
      obtain ⟨middle, hfirst, hmiddle⟩ :=
        reaches_command h hnames hmarks hclean hentry hstep hstate
      obtain ⟨final, hsecond, hfinal⟩ :=
        ih (fun visit hvisit => htame visit (List.mem_cons_of_mem _ hvisit))
          (hnext ▸ hbase) hmiddle
      exact ⟨final, hfirst.trans hsecond, hfinal⟩
  | @call frames i j ram final left source origin function arguments entered last back inner visits
      hentry hcall hbody hreturn hleave hrest ihBody ihRest =>
      have hplain := isPlain_entries settings sources image
      have hinner : ∀ visit ∈ inner, visit.Tame (Program.ofImage settings sources image) :=
        fun visit hvisit => htame visit (List.mem_cons_of_mem _ (List.mem_append_left _ hvisit))
      have hlater : ∀ visit ∈ visits, visit.Tame (Program.ofImage settings sources image) :=
        fun visit hvisit => htame visit (List.mem_cons_of_mem _ (List.mem_append_right _ hvisit))
      obtain ⟨count, rfl, hcount⟩ := (htame _ (List.mem_cons_self ..)).exists_count hplain hentry
      dsimp only at hbase
      obtain ⟨rfl, hreturned⟩ := returned_of_call (by omega) hcall hbody hinner
        (fun base => hbody.keeps hplain hinner) hleave
      have hentered : entered.ram.pointer .lcl = ram.pointer .sp + 5 :=
        pointer_of_call (by omega) hcall
      obtain ⟨called, hfirst, hcalled⟩ := reaches_command h hnames hmarks hclean hentry hcall hstate
      obtain ⟨returning, hsecond, hreturning⟩ := ihBody hinner (by omega) hcalled
      obtain ⟨returned, hthird, hrepresents⟩ :=
        reaches_back h hnames hclean hrom hreturn hleave hreturning
      have hleft : left.pointer .lcl = ram.pointer .lcl := congrArg BitVec.toNat hreturned.lcl
      obtain ⟨final, hfourth, hfinal⟩ := ihRest hlater (hleft ▸ hbase) hrepresents
      exact ⟨final, (hfirst.trans hsecond).trans (hthird.trans hfourth), hfinal⟩

/-- The machine follows a call up to the matching return and comes back to the command after it. -/
theorem reaches_callRun (h : Builds settings sources image) (hnames : SingleLineNames sources)
    (hmarks : UnmarkedNames sources) (hclean : CleanLabels sources)
    (hrom : image.rom.size ≤ 32768) {i arguments : Nat} {ram final left : Ram}
    {visits : List Visit}
    (hrun : CallRun (Program.ofImage settings sources image) i arguments ram visits final left)
    (hstack : 16 + arguments ≤ ram.pointer .sp)
    (htame : ∀ visit ∈ visits, visit.Tame (Program.ofImage settings sources image)) {state : State}
    (hstate : Represents (Program.ofImage settings sources image) ⟨.command i, ram⟩ state) :
    ∃ last, Reaches image.rom state last ∧
      Represents (Program.ofImage settings sources image) ⟨.command (i + 1), left⟩ last := by
  obtain ⟨hentry, hcall, hbody, hreturn, hleave⟩ := hrun
  obtain ⟨rfl, -⟩ := returned_of_call hstack hcall hbody htame
    (fun base => hbody.keeps (isPlain_entries settings sources image) htame) hleave
  obtain ⟨called, hfirst, hcalled⟩ := reaches_command h hnames hmarks hclean hentry hcall hstate
  have hbase := pointer_of_call (by omega) hcall
  obtain ⟨returning, hsecond, hreturning⟩ :=
    reaches_execution h hnames hmarks hclean hrom hbody htame (by omega) hcalled
  obtain ⟨last, hthird, hlast⟩ := reaches_back h hnames hclean hrom hreturn hleave hreturning
  exact ⟨last, (hfirst.trans hsecond).trans hthird, hlast⟩

/-- A call that is carried out up to the matching return, with everything in between tame, comes
back to the command after it and leaves the caller as it was, whatever the function called on the
way. -/
theorem call_restores_caller (h : Builds settings sources image) (hnames : SingleLineNames sources)
    (hmarks : UnmarkedNames sources) (hclean : CleanLabels sources)
    (hrom : image.rom.size ≤ 32768) {i arguments : Nat} {ram final left : Ram}
    {visits : List Visit}
    (hrun : CallRun (Program.ofImage settings sources image) i arguments ram visits final left)
    (hstack : 16 + arguments ≤ ram.pointer .sp)
    (htame : ∀ visit ∈ visits, visit.Tame (Program.ofImage settings sources image)) {state : State}
    (hstate : Represents (Program.ofImage settings sources image) ⟨.command i, ram⟩ state) :
    (∃ (made : Nat) (last : State), State.stepTimes image.rom made state = (last, none) ∧
      Represents (Program.ofImage settings sources image) ⟨.command (i + 1), left⟩ last) ∧
      Returned (Program.ofImage settings sources image) ram arguments visits final left := by
  obtain ⟨last, ⟨made, hmade⟩, hlast⟩ :=
    reaches_callRun h hnames hmarks hclean hrom hrun hstack htame hstate
  obtain ⟨-, hcall, hbody, -, hleave⟩ := hrun
  obtain ⟨-, hreturned⟩ := returned_of_call hstack hcall hbody htame
    (fun base => hbody.keeps (isPlain_entries settings sources image) htame) hleave
  exact ⟨⟨made, last, hmade, hlast⟩, hreturned⟩

/-- A function with an argument that calls itself. -/
def recursionSample : List Source :=
  [⟨"Main", ["call down 1", "label END", "goto END", "function down 0", "push argument 0",
    "if-goto MORE", "push constant 7", "return", "label MORE", "push constant 0", "call down 1",
    "return"]⟩]

/-- A caller with a one on its stack. -/
def callerSample : Ram :=
  ((((Ram.setRegister ((Vector.replicate memorySize 0).set 256 1 (by decide)) .sp 257).setRegister
    .lcl 250).setRegister .arg 240).setRegister .this 3000).setRegister .that 3010

private theorem pointer_callerSample : callerSample.pointer .sp = 257 := by decide +kernel

private theorem that_callerSample : callerSample.register .that = 3010 := by decide +kernel

theorem call_restores_caller_sample :
    ∃ (image : Image) (visits : List Visit) (final left : Ram) (made : Nat) (last : State),
      Builds ⟨false, false, 256⟩ recursionSample image ∧
      CallRun (Program.ofImage ⟨false, false, 256⟩ recursionSample image) 0 1 callerSample visits
        final left ∧
      (∀ visit ∈ visits,
        visit.Tame (Program.ofImage ⟨false, false, 256⟩ recursionSample image)) ∧
      State.stepTimes image.rom made ⟨0, 0, 0, callerSample.cells, 0⟩ = (last, none) ∧
      Represents (Program.ofImage ⟨false, false, 256⟩ recursionSample image) ⟨.command 1, left⟩
        last ∧
      left.pointer .sp = 257 ∧ left.read? 256 = some 7 ∧ left.register .that = 3010 := by
  have hevaluated : ((build? ⟨false, false, 256⟩ recursionSample).bind fun image =>
      ((Program.ofImage ⟨false, false, 256⟩ recursionSample image).callRun? 12 0 callerSample).map
        fun run => decide (run.1 = 1 ∧ image.rom.size ≤ 32768 ∧ (∀ visit ∈ run.2.1, visit.Tame
          (Program.ofImage ⟨false, false, 256⟩ recursionSample image)) ∧
          run.2.2.1.read? run.2.2.1.top.toNat = some 7 ∧ ∀ visit ∈ run.2.1,
            (Program.ofImage ⟨false, false, 256⟩ recursionSample image).computed?
              visit.configuration ≠ some 261)) = some true := by decide +kernel
  obtain ⟨image, himage, hmapped⟩ := Option.bind_eq_some_iff.mp hevaluated
  obtain ⟨⟨arguments, visits, final, left⟩, hcomputed, hvalues⟩ :=
    Option.map_eq_some_iff.mp hmapped
  obtain ⟨rfl, hrom, htame, hresult, hspared⟩ := of_decide_eq_true hvalues
  have hbuilds := builds_of_build? (by decide) himage
  have hrun := callRun_of_callRun? (isPlain_entries _ _ image) hcomputed
  have hstate : Represents (Program.ofImage ⟨false, false, 256⟩ recursionSample image)
      ⟨.command 0, callerSample⟩ ⟨0, 0, 0, callerSample.cells, 0⟩ :=
    ⟨show 0 = address ⟨false, false, 256⟩ recursionSample 0 by decide +kernel, rfl⟩
  obtain ⟨⟨made, last, hmade, hlast⟩, hreturned⟩ := call_restores_caller hbuilds (by decide)
    (by decide) (by decide +kernel) hrom hrun (by rw [pointer_callerSample]; decide) htame hstate
  have hstack := hreturned.stack
  have hcell := hreturned.result
  have hrestored := hreturned.that
  rw [pointer_callerSample] at hstack hcell hrestored
  rw [that_callerSample] at hrestored
  exact ⟨image, visits, final, left, made, last, hbuilds, hrun, htame, hmade, hlast, hstack,
    hcell.trans hresult, hrestored hspared⟩

/-- A function that negates the top of its stack while the stack is empty. -/
def underflowSample : List Source :=
  [⟨"Main", ["call f 0", "label END", "goto END", "function f 0", "neg", "push constant 0",
    "return"]⟩]

/-- The one cell of a frame that a tame execution does not keep: the caller's `THAT` is lost. -/
theorem that_lost_on_empty_stack :
    ∃ (image : Image) (visits : List Visit) (final left : Ram) (last : State),
      Builds ⟨false, false, 256⟩ underflowSample image ∧ SingleLineNames underflowSample ∧
      UnmarkedNames underflowSample ∧ CleanLabels underflowSample ∧ image.rom.size ≤ 32768 ∧
      CallRun (Program.ofImage ⟨false, false, 256⟩ underflowSample image) 0 0 callerSample visits
        final left ∧
      16 + 0 ≤ callerSample.pointer .sp ∧
      (∀ visit ∈ visits,
        visit.Tame (Program.ofImage ⟨false, false, 256⟩ underflowSample image)) ∧
      Reaches image.rom ⟨0, 0, 0, callerSample.cells, 0⟩ last ∧
      Represents (Program.ofImage ⟨false, false, 256⟩ underflowSample image) ⟨.command 1, left⟩
        last ∧
      callerSample.register .that = 3010 ∧ left.register .that = -3010 := by
  have hevaluated : ((build? ⟨false, false, 256⟩ underflowSample).bind fun image =>
      ((Program.ofImage ⟨false, false, 256⟩ underflowSample image).callRun? 12 0 callerSample).map
        fun run => decide (run.1 = 0 ∧ image.rom.size ≤ 32768 ∧ (∀ visit ∈ run.2.1, visit.Tame
          (Program.ofImage ⟨false, false, 256⟩ underflowSample image)) ∧
          run.2.2.2.register .that = -3010)) = some true := by decide +kernel
  obtain ⟨image, himage, hmapped⟩ := Option.bind_eq_some_iff.mp hevaluated
  obtain ⟨⟨arguments, visits, final, left⟩, hcomputed, hvalues⟩ :=
    Option.map_eq_some_iff.mp hmapped
  obtain ⟨rfl, hrom, htame, hthat⟩ := of_decide_eq_true hvalues
  have hnames : SingleLineNames underflowSample := by decide
  have hmarks : UnmarkedNames underflowSample := by decide
  have hclean : CleanLabels underflowSample := by decide +kernel
  have hbuilds := builds_of_build? hnames himage
  have hrun := callRun_of_callRun? (isPlain_entries _ _ image) hcomputed
  have hstack : 16 + 0 ≤ callerSample.pointer .sp := by
    rw [pointer_callerSample]
    decide
  have hstate : Represents (Program.ofImage ⟨false, false, 256⟩ underflowSample image)
      ⟨.command 0, callerSample⟩ ⟨0, 0, 0, callerSample.cells, 0⟩ :=
    ⟨show 0 = address ⟨false, false, 256⟩ underflowSample 0 by decide +kernel, rfl⟩
  obtain ⟨last, hreach, hlast⟩ :=
    reaches_callRun hbuilds hnames hmarks hclean hrom hrun hstack htame hstate
  exact ⟨image, visits, final, left, last, hbuilds, hnames, hmarks, hclean, hrom, hrun, hstack,
    htame, hreach, hlast, that_callerSample, hthat⟩

end HackVm
