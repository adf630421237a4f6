import HackVm.Proofs.Reference.Stores

/-!
# Calls and returns

A function that is called runs until the return that matches the call, and may call other functions,
or itself, on the way.  `Execution` is such a run: calls and returns are bracketed, to any depth.

The code does not guard its frames.  An execution is tame (`Visit.Tame`) if it stays on the stack
of the running function and no pop overwrites a register that holds the stack together, a scratch
register, or a frame.  `Execution.keeps` says what a tame execution leaves alone, and `Returned`
what the caller finds after it: everything is as it was, except that the cell below a frame is
within reach of an operator on an empty stack.
-/

namespace HackVm

open Emit Hack

/-! ## Executions -/

/-- A point of an execution, with the ends of the frames that are on the stack. -/
structure Visit where
  frames : List Nat
  configuration : Configuration

/-- What is asked of an execution at each of its commands: the stack of the running function is not
exhausted, a call takes its arguments from it, and a pop spares the registers that hold the stack
together, the scratch registers and the frames. -/
structure Visit.Tame (program : Program) (visit : Visit) : Prop where
  stack : visit.configuration.ram.pointer .lcl ≤ visit.configuration.ram.pointer .sp
  arguments : ∀ arguments ∈ program.passed? visit.configuration,
    visit.configuration.ram.pointer .lcl + arguments ≤ visit.configuration.ram.pointer .sp
  pops : ∀ address ∈ program.popped? visit.configuration,
    address ∉ [0, 1, 2, 13, 14] ∧ ∀ frame ∈ visit.frames, address + 5 < frame ∨ frame ≤ address

instance (program : Program) (visit : Visit) : Decidable (visit.Tame program) :=
  decidable_of_iff
    (visit.configuration.ram.pointer .lcl ≤ visit.configuration.ram.pointer .sp ∧
      (∀ arguments ∈ program.passed? visit.configuration,
        visit.configuration.ram.pointer .lcl + arguments ≤ visit.configuration.ram.pointer .sp) ∧
      ∀ address ∈ program.popped? visit.configuration, address ∉ [0, 1, 2, 13, 14] ∧
        ∀ frame ∈ visit.frames, address + 5 < frame ∨ frame ≤ address)
    ⟨fun ⟨hstack, harguments, hpops⟩ => ⟨hstack, harguments, hpops⟩,
      fun ⟨hstack, harguments, hpops⟩ => ⟨hstack, harguments, hpops⟩⟩

/-- A run of commands in which every function that is called returns. -/
inductive Execution (program : Program) :
    List Nat → Configuration → List Visit → Configuration → Prop
  | done (frames : List Nat) (configuration : Configuration) :
      Execution program frames configuration [⟨frames, configuration⟩] configuration
  | command {frames : List Nat} {i : Nat} {ram : Ram} {entry : Entry} {next last : Configuration}
      {visits : List Visit} (hentry : program.entries[i]? = some entry)
      (hlocal : entry.command.isLocal = true) (hstep : program.execute i entry ram = some next)
      (hrest : Execution program frames next visits last) :
      Execution program frames ⟨.command i, ram⟩ (⟨frames, ⟨.command i, ram⟩⟩ :: visits) last
  | call {frames : List Nat} {i j : Nat} {ram final left : Ram} {source origin function : String}
      {arguments : Int} {entered last : Configuration} {back : Word} {inner visits : List Visit}
      (hentry : program.entries[i]? = some ⟨source, .call function arguments⟩)
      (hcall : program.call (i + 1) function arguments ram = some entered)
      (hbody : Execution program (entered.ram.pointer .lcl :: frames) entered inner
        ⟨.command j, final⟩)
      (hreturn : program.entries[j]? = some ⟨origin, .ret⟩)
      (hleave : final.leave = some (back, left))
      (hrest : Execution program frames ⟨.command (i + 1), left⟩ visits last) :
      Execution program frames ⟨.command i, ram⟩
        (⟨frames, ⟨.command i, ram⟩⟩ :: (inner ++ visits)) last

/-- A call of the program's command `i` from the first to the last: the function is entered, runs as
long as it is the outermost one, and returns. -/
inductive CallRun (program : Program) (i : Nat) (arguments : Nat) (ram : Ram) :
    List Visit → Ram → Ram → Prop
  | intro {source origin function : String} {entered : Configuration} {j : Nat} {final left : Ram}
      {back : Word} {visits : List Visit}
      (hentry : program.entries[i]? = some ⟨source, .call function arguments⟩)
      (hcall : program.call (i + 1) function arguments ram = some entered)
      (hbody : Execution program [entered.ram.pointer .lcl] entered visits ⟨.command j, final⟩)
      (hreturn : program.entries[j]? = some ⟨origin, .ret⟩)
      (hleave : final.leave = some (back, left)) :
      CallRun program i arguments ram visits final left

/-- Runs a function up to its return, with a bound on the number of commands in a row. -/
def Program.trace? (program : Program) :
    Nat → List Nat → Configuration → Option (List Visit × Nat × Ram)
  | fuel + 1, frames, ⟨.command i, ram⟩ =>
    match program.entries[i]? with
    | none => none
    | some ⟨_, .ret⟩ => some ([⟨frames, ⟨.command i, ram⟩⟩], i, ram)
    | some ⟨_, .call function arguments⟩ => do
      let entered ← program.call (i + 1) function arguments ram
      let (inner, _, final) ← program.trace? fuel (entered.ram.pointer .lcl :: frames) entered
      let (_, left) ← final.leave
      let (visits, j, last) ← program.trace? fuel frames ⟨.command (i + 1), left⟩
      some (⟨frames, ⟨.command i, ram⟩⟩ :: (inner ++ visits), j, last)
    | some entry => do
      let next ← program.execute i entry ram
      let (visits, j, last) ← program.trace? fuel frames next
      some (⟨frames, ⟨.command i, ram⟩⟩ :: visits, j, last)
  | _, _, _ => none

/-- Runs a call up to the matching return. -/
def Program.callRun? (program : Program) (fuel i : Nat) (ram : Ram) :
    Option (Nat × List Visit × Ram × Ram) :=
  match program.entries[i]? with
  | some ⟨_, .call function arguments⟩ => do
    let entered ← program.call (i + 1) function arguments ram
    let (visits, _, final) ← program.trace? fuel [entered.ram.pointer .lcl] entered
    let (_, left) ← final.leave
    some (arguments.toNat, visits, final, left)
  | _ => none

theorem execution_of_trace? {program : Program} {fuel : Nat} {frames : List Nat}
    {configuration : Configuration} {visits : List Visit} {j : Nat} {last : Ram}
    (h : program.trace? fuel frames configuration = some (visits, j, last)) :
    Execution program frames configuration visits ⟨.command j, last⟩ ∧
      ∃ origin, program.entries[j]? = some ⟨origin, .ret⟩ := by
  induction fuel generalizing frames configuration visits j last with
  | zero => exact absurd h (by simp [Program.trace?])
  | succ fuel ih =>
      obtain ⟨point, ram⟩ := configuration
      cases point with
      | start => exact absurd h (by simp [Program.trace?])
      | command i =>
          unfold Program.trace? at h
          split at h
          · exact absurd h (by simp)
          · next origin hentry =>
            obtain ⟨rfl, hpair⟩ := Prod.mk.inj (Option.some.inj h)
            obtain ⟨rfl, rfl⟩ := Prod.mk.inj hpair
            exact ⟨.done frames _, origin, hentry⟩
          · next source function arguments hentry =>
            obtain ⟨entered, hcall, h⟩ := Option.bind_eq_some_iff.mp h
            obtain ⟨⟨inner, k, final⟩, hinner, h⟩ := Option.bind_eq_some_iff.mp h
            obtain ⟨⟨back, left⟩, hleave, h⟩ := Option.bind_eq_some_iff.mp h
            obtain ⟨⟨later, k', last'⟩, hlater, h⟩ := Option.bind_eq_some_iff.mp h
            obtain ⟨rfl, hpair⟩ := Prod.mk.inj (Option.some.inj h)
            obtain ⟨rfl, rfl⟩ := Prod.mk.inj hpair
            obtain ⟨hbody, origin, hreturn⟩ := ih hinner
            obtain ⟨hrest, hlast⟩ := ih hlater
            exact ⟨.call hentry hcall hbody hreturn hleave hrest, hlast⟩
          · next entry hret hcalls hentry =>
            obtain ⟨next, hstep, h⟩ := Option.bind_eq_some_iff.mp h
            obtain ⟨⟨later, k, last'⟩, hlater, h⟩ := Option.bind_eq_some_iff.mp h
            obtain ⟨rfl, hpair⟩ := Prod.mk.inj (Option.some.inj h)
            obtain ⟨rfl, rfl⟩ := Prod.mk.inj hpair
            obtain ⟨hrest, hlast⟩ := ih hlater
            have hlocal : entry.command.isLocal = true := by
              obtain ⟨source, command⟩ := entry
              cases command with
              | call function arguments => exact absurd rfl (hcalls source function arguments)
              | ret => exact absurd rfl (hret source)
              | _ => rfl
            exact ⟨.command hentry hlocal hstep hrest, hlast⟩

theorem callRun_of_callRun? {program : Program}
    (hplain : ∀ entry ∈ program.entries, entry.command.IsPlain) {fuel i arguments : Nat}
    {ram final left : Ram} {visits : List Visit}
    (h : program.callRun? fuel i ram = some (arguments, visits, final, left)) :
    CallRun program i arguments ram visits final left := by
  unfold Program.callRun? at h
  split at h
  · next source function count hentry =>
    obtain ⟨entered, hcall, h⟩ := Option.bind_eq_some_iff.mp h
    obtain ⟨⟨body, j, last⟩, hbody, h⟩ := Option.bind_eq_some_iff.mp h
    obtain ⟨⟨back, after⟩, hleave, h⟩ := Option.bind_eq_some_iff.mp h
    obtain ⟨harguments, hrest⟩ := Prod.mk.inj (Option.some.inj h)
    obtain ⟨rfl, hpair⟩ := Prod.mk.inj hrest
    obtain ⟨rfl, rfl⟩ := Prod.mk.inj hpair
    obtain ⟨hexecution, origin, hreturn⟩ := execution_of_trace? hbody
    have hcount : (arguments : Int) = count := by
      rw [← harguments]
      exact Int.toNat_of_nonneg ((hplain _ (List.mem_of_getElem? hentry)).number count rfl)
    rw [← hcount] at hentry hcall
    exact .intro hentry hcall hexecution hreturn hleave
  · exact absurd h (by simp)

namespace Execution

variable {program : Program} {frames : List Nat} {first last : Configuration} {visits : List Visit}

theorem frames_subset (h : Execution program frames first visits last) :
    ∀ visit ∈ visits, frames ⊆ visit.frames := by
  induction h with
  | done frames configuration =>
      intro visit hvisit
      rw [List.mem_singleton.mp hvisit]
      exact List.Subset.refl _
  | command hentry hlocal hstep hrest ih =>
      intro visit hvisit
      rcases List.mem_cons.mp hvisit with rfl | hlater
      · exact List.Subset.refl _
      · exact ih visit hlater
  | call hentry hcall hbody hreturn hleave hrest ihBody ihRest =>
      intro visit hvisit
      rcases List.mem_cons.mp hvisit with rfl | hlater
      · exact List.Subset.refl _
      · rcases List.mem_append.mp hlater with hinner | hlater
        · exact fun frame hframe => ihBody visit hinner (List.mem_cons_of_mem _ hframe)
        · exact ihRest visit hlater

theorem first_mem (h : Execution program frames first visits last) : ⟨frames, first⟩ ∈ visits := by
  cases h with
  | done => exact List.mem_cons_self ..
  | command => exact List.mem_cons_self ..
  | call => exact List.mem_cons_self ..

theorem last_mem (h : Execution program frames first visits last) : ⟨frames, last⟩ ∈ visits := by
  induction h with
  | done => exact List.mem_cons_self ..
  | command hentry hlocal hstep hrest ih => exact List.mem_cons_of_mem _ ih
  | call hentry hcall hbody hreturn hleave hrest ihBody ihRest =>
      exact List.mem_cons_of_mem _ (List.mem_append_right _ ihRest)

end Execution

/-! ## What an execution leaves alone -/

/-- The registers of the running function and the memory below its stack are as before, apart from
what was popped into and from the cell right below the stack. -/
structure Keeps (program : Program) (base : Nat) (visits : List Visit) (before after : Ram) :
    Prop where
  lcl : after.register .lcl = before.register .lcl
  arg : after.register .arg = before.register .arg
  cell : ∀ address, 5 ≤ address → address ≠ 13 → address ≠ 14 → address < base →
    (∀ visit ∈ visits, program.popped? visit.configuration ≠ some address) →
    (address + 1 < base ∨
      ∀ visit ∈ visits, program.computed? visit.configuration ≠ some address) →
    after.read? address = before.read? address

theorem Keeps.trans {program : Program} {base : Nat} {earlier later : List Visit}
    {before middle after : Ram} (hfirst : Keeps program base earlier before middle)
    (hsecond : Keeps program base later middle after) :
    Keeps program base (earlier ++ later) before after := by
  refine ⟨hsecond.lcl.trans hfirst.lcl, hsecond.arg.trans hfirst.arg, ?_⟩
  intro address hlow hscratch hframe hbase hpopped hcomputed
  have hsecondCell : after.read? address = middle.read? address := by
    refine hsecond.cell address hlow hscratch hframe hbase ?_ ?_
    · exact fun visit hvisit => hpopped visit (List.mem_append_right _ hvisit)
    · exact hcomputed.imp_right fun h visit hvisit => h visit (List.mem_append_right _ hvisit)
  have hfirstCell : middle.read? address = before.read? address := by
    refine hfirst.cell address hlow hscratch hframe hbase ?_ ?_
    · exact fun visit hvisit => hpopped visit (List.mem_append_left _ hvisit)
    · exact hcomputed.imp_right fun h visit hvisit => h visit (List.mem_append_left _ hvisit)
  rw [hsecondCell, hfirstCell]

/-- One command of the running function. -/
theorem keeps_of_execute {program : Program} {frames : List Nat} {i : Nat} {entry : Entry}
    {ram : Ram} {next : Configuration} (hentry : program.entries[i]? = some entry)
    (hlocal : entry.command.isLocal = true) (h : program.execute i entry ram = some next)
    {base : Nat} (hbase : ram.pointer .lcl = base) (hlow : 21 ≤ base)
    (htame : Visit.Tame program ⟨frames, ⟨.command i, ram⟩⟩)
    (hnext : Visit.Tame program ⟨frames, next⟩) :
    Keeps program base [⟨frames, ⟨.command i, ram⟩⟩] ram next.ram := by
  have hstack : base ≤ ram.pointer .sp := hbase ▸ htame.stack
  have hspared : ∀ address ∈ [0, 1, 2, 13, 14],
      program.popped? ⟨.command i, ram⟩ ≠ some address :=
    fun address hmem hpopped => (htame.pops address hpopped).1 hmem
  -- A result is above the registers in any case.  That it is not below the base either is known
  -- only when the base is known to be kept.
  have hcomputedRegister : ∀ address, address < 5 →
      program.computed? ⟨.command i, ram⟩ ≠ some address := by
    intro address hregister hcomputed
    obtain ⟨operator, -, rfl⟩ := exists_operator hentry h hcomputed
    have hresult := operator.sub_two_le_resultAddress (show 2 ≤ ram.pointer .sp by omega)
    omega
  have hlcl : next.ram.register .lcl = ram.register .lcl :=
    Ram.register_eq_of_read? (read?_of_execute hentry hlocal h (by decide) (by decide)
      (show (1 : Nat) < _ by omega) (hspared 1 (by decide)) (hcomputedRegister 1 (by decide)))
  have harg : next.ram.register .arg = ram.register .arg :=
    Ram.register_eq_of_read? (read?_of_execute hentry hlocal h (by decide) (by decide)
      (show (2 : Nat) < _ by omega) (hspared 2 (by decide)) (hcomputedRegister 2 (by decide)))
  refine ⟨hlcl, harg, ?_⟩
  intro address hfive hscratch hframe hbelow hpopped hcomputed
  refine read?_of_execute hentry hlocal h (by omega) hscratch (by omega)
    (hpopped _ (List.mem_cons_self ..)) ?_
  rcases hcomputed with hfar | hcomputed
  · intro hcomputed
    obtain ⟨operator, happly, rfl⟩ := exists_operator hentry h hcomputed
    have hnextBase : next.ram.pointer .lcl = base := (congrArg BitVec.toNat hlcl).trans hbase
    have hnextStack : base ≤ next.ram.pointer .sp := hnextBase ▸ hnext.stack
    have hresult := le_resultAddress happly (by omega) hstack hnextStack
    omega
  · exact hcomputed _ (List.mem_cons_self ..)

/-- What a caller finds after a call: the result on its stack in place of the arguments, and
everything else as before, apart from what was popped into.  The saved `THAT` is the one cell of the
frame that an operator on an empty stack can reach. -/
structure Returned (program : Program) (before : Ram) (arguments : Nat) (visits : List Visit)
    (final after : Ram) : Prop where
  stack : after.pointer .sp = before.pointer .sp - arguments + 1
  result : after.read? (before.pointer .sp - arguments) = final.read? final.top.toNat
  lcl : after.register .lcl = before.register .lcl
  arg : after.register .arg = before.register .arg
  this : after.register .this = before.register .this
  that : (∀ visit ∈ visits,
      program.computed? visit.configuration ≠ some (before.pointer .sp + 4)) →
    after.register .that = before.register .that
  cell : ∀ address, 5 ≤ address → address ≠ 13 → address ≠ 14 →
    address < before.pointer .sp - arguments →
    (∀ visit ∈ visits, program.popped? visit.configuration ≠ some address) →
    after.read? address = before.read? address

/-- A function that keeps its frame returns to where it was called from. -/
theorem returned_of_keeps {program : Program} {before entered final after : Ram}
    {pushed back : Word} {arguments : Nat} {visits : List Visit}
    (hstack : 16 + arguments ≤ before.pointer .sp)
    (henter : before.enter pushed arguments = some entered)
    (hkeeps : Keeps program (before.pointer .sp + 5) visits entered final)
    (hframe : ∀ visit ∈ visits, ∀ address, before.pointer .sp ≤ address →
      address < before.pointer .sp + 5 → program.popped? visit.configuration ≠ some address)
    (hfinal : before.pointer .sp + 5 ≤ final.pointer .sp)
    (hleave : final.leave = some (back, after)) :
    back = pushed ∧ Returned program before arguments visits final after := by
  have hentered := Ram.entered_of_enter (by omega) (by omega) henter
  have hbase : final.pointer .lcl = before.pointer .sp + 5 :=
    (congrArg BitVec.toNat hkeeps.lcl).trans hentered.base
  have harg : final.pointer .arg = before.pointer .sp - arguments :=
    (congrArg BitVec.toNat hkeeps.arg).trans hentered.argument
  have hleft := Ram.left_of_leave (by omega) (by omega) (by omega) (by omega) hleave
  -- The first four cells of the frame hold what the call put there.
  have hsaved : ∀ j, j < 4 → ∀ word, [pushed, before.register .lcl, before.register .arg,
      before.register .this, before.register .that][j]? = some word →
      final.read? (before.pointer .sp + j) = some word := by
    intro j hj word hword
    rw [← hentered.saved j word hword]
    refine hkeeps.cell _ (by omega) (by omega) (by omega) (by omega) ?_ (Or.inl (by omega))
    exact fun visit hvisit => hframe visit hvisit _ (by omega) (by omega)
  have hplace : ∀ j, j < 5 → final.pointer .lcl - (5 - j) = before.pointer .sp + j := by
    intro j hj
    omega
  have hback := hleft.back
  have hlcl := hleft.lcl
  have hargument := hleft.arg
  have hthis := hleft.this
  have hthat := hleft.that
  rw [hplace 0 (by decide), hsaved 0 (by decide) _ rfl] at hback
  rw [hplace 1 (by decide), hsaved 1 (by decide) _ rfl] at hlcl
  rw [hplace 2 (by decide), hsaved 2 (by decide) _ rfl] at hargument
  rw [hplace 3 (by decide), hsaved 3 (by decide) _ rfl] at hthis
  rw [hplace 4 (by decide)] at hthat
  refine ⟨(Option.some.inj hback).symm, ?_⟩
  constructor
  · rw [hleft.stack, harg]
  · rw [← harg]
    exact hleft.result
  · exact (Option.some.inj hlcl).symm
  · exact (Option.some.inj hargument).symm
  · exact (Option.some.inj hthis).symm
  · intro hcomputed
    have hcell : final.read? (before.pointer .sp + 4) = entered.read? (before.pointer .sp + 4) := by
      refine hkeeps.cell _ (by omega) (by omega) (by omega) (by omega) ?_ (Or.inr hcomputed)
      exact fun visit hvisit => hframe visit hvisit _ (by omega) (by omega)
    rw [hcell, hentered.saved 4 _ rfl] at hthat
    exact (Option.some.inj hthat).symm
  · intro address hlow hscratch hframeCell hbelow hpopped
    rw [hleft.other address hlow hscratch hframeCell (by omega),
      hkeeps.cell address hlow hscratch hframeCell (by omega) hpopped (Or.inl (by omega))]
    exact hentered.other address (by omega) (Or.inl (by omega))

theorem Visit.Tame.popped?_ne {program : Program} {visit : Visit} (h : visit.Tame program)
    {frame : Nat} (hframe : frame ∈ visit.frames) {address : Nat} (hlow : frame ≤ address + 5)
    (hhigh : address < frame) : program.popped? visit.configuration ≠ some address := by
  intro hpopped
  rcases (h.pops address hpopped).2 frame hframe with hbelow | habove
  · omega
  · omega

/-- A call of a tame execution passes arguments of the running function. -/
theorem Visit.Tame.exists_count {program : Program}
    (hplain : ∀ entry ∈ program.entries, entry.command.IsPlain) {frames : List Nat} {i : Nat}
    {ram : Ram} {source function : String} {arguments : Int}
    (hentry : program.entries[i]? = some ⟨source, .call function arguments⟩)
    (h : Visit.Tame program ⟨frames, ⟨.command i, ram⟩⟩) :
    ∃ count : Nat, arguments = count ∧ ram.pointer .lcl + count ≤ ram.pointer .sp := by
  obtain ⟨count, rfl⟩ := Int.eq_ofNat_of_zero_le
    ((hplain _ (List.mem_of_getElem? hentry)).number arguments rfl)
  have hpassed : program.passed? ⟨.command i, ram⟩ = some (count : Int) := by
    simp [Program.passed?, show program.entry? (.command i) = _ from hentry]
  have hbound := h.arguments _ hpassed
  dsimp only at hbound
  exact ⟨count, rfl, by omega⟩

theorem pointer_of_call {program : Program} {back arguments : Nat} {function : String} {ram : Ram}
    {entered : Configuration} (hstack : 16 + arguments ≤ ram.pointer .sp)
    (h : program.call back function arguments ram = some entered) :
    entered.ram.pointer .lcl = ram.pointer .sp + 5 := by
  obtain ⟨target, -, h⟩ := Option.bind_eq_some_iff.mp h
  obtain ⟨ramEntered, henter, hentered⟩ := Option.bind_eq_some_iff.mp h
  obtain rfl := Option.some.inj hentered
  exact (Ram.entered_of_enter (by omega) (by omega) henter).base

/-- A call whose function keeps its frame. -/
theorem returned_of_call {program : Program} {frames : List Nat} {back arguments j : Nat}
    {function : String} {ram final left : Ram} {entered : Configuration} {word : Word}
    {inner : List Visit} (hstack : 16 + arguments ≤ ram.pointer .sp)
    (hcall : program.call back function arguments ram = some entered)
    (hbody : Execution program (entered.ram.pointer .lcl :: frames) entered inner
      ⟨.command j, final⟩)
    (htame : ∀ visit ∈ inner, visit.Tame program)
    (hkeeps : ∀ base, entered.ram.pointer .lcl = base → 21 ≤ base →
      Keeps program base inner entered.ram final)
    (hleave : final.leave = some (word, left)) :
    word = BitVec.ofNat 16 (program.address back) ∧
      Returned program ram arguments inner final left := by
  have hbase := pointer_of_call hstack hcall
  obtain ⟨target, -, hcall⟩ := Option.bind_eq_some_iff.mp hcall
  obtain ⟨ramEntered, henter, hentered⟩ := Option.bind_eq_some_iff.mp hcall
  obtain rfl := Option.some.inj hentered
  dsimp only at hbase
  have hkept := hkeeps _ hbase (by omega)
  refine returned_of_keeps hstack henter hkept ?_ ?_ hleave
  · intro visit hvisit address hlow hhigh
    have hframe : ramEntered.pointer .lcl ∈ visit.frames :=
      hbody.frames_subset visit hvisit (List.mem_cons_self ..)
    exact (htame visit hvisit).popped?_ne hframe (by omega) (by omega)
  · have hfinal : final.pointer .lcl = ram.pointer .sp + 5 :=
      (congrArg BitVec.toNat hkept.lcl).trans hbase
    rw [← hfinal]
    exact (htame _ hbody.last_mem).stack

/-- A tame execution keeps the base and the arguments of its function, and what lies below. -/
theorem Execution.keeps {program : Program}
    (hplain : ∀ entry ∈ program.entries, entry.command.IsPlain)
    {frames : List Nat} {first last : Configuration} {visits : List Visit}
    (h : Execution program frames first visits last)
    (htame : ∀ visit ∈ visits, visit.Tame program) {base : Nat}
    (hbase : first.ram.pointer .lcl = base) (hlow : 21 ≤ base) :
    Keeps program base visits first.ram last.ram := by
  induction h generalizing base with
  | done frames configuration => exact ⟨rfl, rfl, fun _ _ _ _ _ _ _ => rfl⟩
  | @command frames i ram entry next last visits hentry hlocal hstep hrest ih =>
      have hkeeps := keeps_of_execute hentry hlocal hstep hbase hlow
        (htame _ (List.mem_cons_self ..)) (htame _ (List.mem_cons_of_mem _ hrest.first_mem))
      have hnext : next.ram.pointer .lcl = base := (congrArg BitVec.toNat hkeeps.lcl).trans hbase
      exact hkeeps.trans (ih (fun visit hvisit => htame visit (List.mem_cons_of_mem _ hvisit))
        hnext hlow)
  | @call frames i j ram final left source origin function arguments entered last back inner visits
      hentry hcall hbody hreturn hleave hrest ihBody ihRest =>
      have hinner : ∀ visit ∈ inner, visit.Tame program :=
        fun visit hvisit => htame visit (List.mem_cons_of_mem _ (List.mem_append_left _ hvisit))
      have hlater : ∀ visit ∈ visits, visit.Tame program :=
        fun visit hvisit => htame visit (List.mem_cons_of_mem _ (List.mem_append_right _ hvisit))
      obtain ⟨count, rfl, hcount⟩ := (htame _ (List.mem_cons_self ..)).exists_count hplain hentry
      dsimp only at hbase
      obtain ⟨-, hreturned⟩ := returned_of_call (by omega) hcall hbody hinner
        (fun base => ihBody hinner) hleave
      have hkeeps : Keeps program base (⟨frames, ⟨.command i, ram⟩⟩ :: inner) ram left := by
        refine ⟨hreturned.lcl, hreturned.arg, ?_⟩
        intro address hfive hscratch hframe hbelow hpopped _
        exact hreturned.cell address hfive hscratch hframe (by omega)
          fun visit hvisit => hpopped visit (List.mem_cons_of_mem _ hvisit)
      have hleft : left.pointer .lcl = base := (congrArg BitVec.toNat hreturned.lcl).trans hbase
      exact hkeeps.trans (ihRest hlater hleft hlow)

end HackVm
