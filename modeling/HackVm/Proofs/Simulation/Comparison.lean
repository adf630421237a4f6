import HackVm.Proofs.Simulation.Blocks

/-!
# Comparisons

The code of a comparison jumps to labels that were made up for it.  It first leaves a word in `D`
whose sign tells how the operands compare, and then replaces the top of the stack by the truth value
(`reaches_verdict`).

For equality that word is the difference, which is zero only for equal operands even if it wraps
around.  For the order the code takes the difference only where the operands have the same sign
(`orderWord`), so that its sign is that of the true difference (`toInt_orderWord`).
-/

namespace HackVm

open Emit Hack

/-! ## Jumps -/

section Jumps

variable {image : Image} {symbol : Symbol} {address target : Nat}

theorem reaches_jumpTo (hlaid : image.LaysOut address (jumpTo symbol))
    (hmeaning : image.meaning symbol = target) (a : Nat) (d : Word) (ram : Ram) (steps : Nat) :
    Reaches image.rom (Core.state ⟨a, d, ram⟩ address steps)
      (Core.state ⟨target, d, ram⟩ target steps) := by
  obtain ⟨hload, hjump, -⟩ := hlaid
  rw [hmeaning] at hload
  exact .step (step_load hload) (.step (step_jump hjump rfl) (.refl _))

theorem reaches_jumpWhen {jump : Jump} (hlaid : image.LaysOut address (jumpWhen jump symbol))
    (hmeaning : image.meaning symbol = target) {d : Word} (htaken : jump.isTaken d = true) (a : Nat)
    (ram : Ram) (steps : Nat) :
    Reaches image.rom (Core.state ⟨a, d, ram⟩ address steps)
      (Core.state ⟨target, d, ram⟩ target steps) := by
  obtain ⟨hload, hjump, -⟩ := hlaid
  rw [hmeaning] at hload
  have hstep := @step_jump _ ⟨target, d, ram⟩ _ steps _ _ _ hjump rfl
  rw [if_pos (show jump.isTaken (Computation.d.eval d _) = true from htaken)] at hstep
  exact .step (step_load hload) (.step hstep (.refl _))

theorem reaches_of_not_jumpWhen {jump : Jump}
    (hlaid : image.LaysOut address (jumpWhen jump symbol)) {d : Word}
    (htaken : jump.isTaken d = false) (a : Nat) (ram : Ram) (steps : Nat) :
    Reaches image.rom (Core.state ⟨a, d, ram⟩ address steps)
      (Core.state ⟨image.meaning symbol, d, ram⟩ (address + 2) steps) := by
  obtain ⟨hload, hjump, -⟩ := hlaid
  have hstep := @step_jump _ ⟨image.meaning symbol, d, ram⟩ _ steps _ _ _ hjump rfl
  rw [show jump.isTaken (Computation.d.eval d _) = false from htaken] at hstep
  exact .step (step_load hload) (.step hstep (.refl _))

end Jumps

/-- A place inside a comparison means the address at which it is declared. -/
theorem meaning_comparison {image : Image} {place : Place} {comparison : Comparison} {serial : Nat}
    {address : Nat}
    (hlookup :
      image.labels.lookup (Symbol.comparison place comparison serial).text = some address) :
    image.meaning (.comparison place comparison serial) = address :=
  meaning_label (isWord_comparison place comparison serial) (isNumberText_of_isMadeUp rfl) hlookup

/-! ## The verdict -/

/-- The code that decides by the sign of `D`. -/
def verdictBlock (jump : Jump) (holds done : Symbol) : List Statement :=
  jumpWhen jump holds ++ ((atTop ++ [assign intoM .zero]) ++ (jumpTo done ++
    (.declare holds :: ((atTop ++ [assign intoM .minusOne]) ++ [.declare done]))))

theorem codeSize_verdictBlock (jump : Jump) (holds done : Symbol) :
    codeSize (verdictBlock jump holds done) = 10 := rfl

private theorem exec_putTop {meaning : Symbol → Nat}
    (hregister : ∀ r, meaning (.register r) = r.cell) (computation : Computation) {value : Word}
    (hreads : computation.readsMemory = false) (hvalue : ∀ d x, computation.eval d x = value)
    {before after : Ram} (hwrite : before.write? before.top.toNat value = some after) (a : Nat)
    (d : Word) :
    exec meaning (atTop ++ [assign intoM computation]) ⟨a, d, before⟩ =
      some ⟨before.top.toNat, d, after⟩ := by
  refine exec_trans (exec_atTop hregister _) ?_
  rw [exec_assign, compute_intoM, operand?_of_not_readsMemory hreads]
  simp [hvalue, hwrite]

theorem reaches_verdict {image : Image} (hregister : ∀ r, image.meaning (.register r) = r.cell)
    {jump : Jump} {comparison : Comparison} {serial address : Nat}
    (hlaid : image.LaysOut address (verdictBlock jump (.comparison .holds comparison serial)
      (.comparison .done comparison serial)))
    {a : Nat} {d : Word} {before after : Ram}
    (hwrite : before.write? before.top.toNat (truth (jump.isTaken d)) = some after) (steps : Nat) :
    ∃ last : Core, last.ram = after ∧ Reaches image.rom (Core.state ⟨a, d, before⟩ address steps)
      (last.state (address + 10) steps) := by
  obtain ⟨hjump, hlaid⟩ := laysOut_append.mp hlaid
  obtain ⟨hzero, hlaid⟩ := laysOut_append.mp hlaid
  obtain ⟨hskip, hholds, hlaid⟩ := laysOut_append.mp hlaid
  obtain ⟨hminusOne, hdone, -⟩ := laysOut_append.mp hlaid
  cases htaken : jump.isTaken d with
  | true =>
      rw [htaken] at hwrite
      have hput := exec_putTop hregister .minusOne rfl (fun _ _ => rfl) hwrite
      have hstart := reaches_jumpWhen hjump (meaning_comparison hholds) htaken a before steps
      exact ⟨_, rfl, hstart.trans (reaches_of_exec hminusOne (hput _ _))⟩
  | false =>
      rw [htaken] at hwrite
      have hput := exec_putTop hregister .zero rfl (fun _ _ => rfl) hwrite
      have hstart := reaches_of_not_jumpWhen hjump htaken a before steps
      have hend := reaches_jumpTo hskip (meaning_comparison hdone) before.top.toNat d after steps
      exact ⟨_, rfl, hstart.trans ((reaches_of_exec hzero (hput _ _)).trans hend)⟩

/-! ## Equality -/

private theorem isTaken_eq_sub (x y : Word) : Jump.eq.isTaken (x - y) = decide (x = y) := by
  have hzero : (x - y).toInt = 0 ↔ x = y := by
    rw [← @BitVec.toInt_zero 16, BitVec.toInt_inj, BitVec.sub_eq_iff_eq_add, BitVec.zero_add]
  rw [Jump.isTaken, Bool.eq_iff_iff, beq_iff_eq, hzero, decide_eq_true_iff]

/-- The code that leaves the difference in `D`. -/
private theorem exec_difference {meaning : Symbol → Nat}
    (hregister : ∀ r, meaning (.register r) = r.cell) {core : Core} {x y : Word} {rest : Ram}
    (hpop : core.ram.pop = some (y, rest)) (hread : rest.read? rest.top.toNat = some x) :
    exec meaning difference core = some ⟨rest.top.toNat, x - y, rest⟩ := by
  have htaken : exec meaning popD core = some ⟨core.ram.top.toNat, y, rest⟩ := by
    rw [exec_popD hregister, hpop, Option.map_some]
  refine exec_trans htaken ?_
  simp [Computation.eval, top_of_pop hpop, hread, -BitVec.toNat_sub]

theorem reaches_equal {image : Image} (hregister : ∀ r, image.meaning (.register r) = r.cell)
    {serial address : Nat} (hlaid : image.LaysOut address (comparisonBlock .eq serial))
    {core : Core} {result : Ram} (happly : Operator.eq.apply core.ram = some result) (steps : Nat) :
    ∃ last : Core, last.ram = result ∧ Reaches image.rom (core.state address steps)
      (last.state (address + codeSize (comparisonBlock .eq serial)) steps) := by
  obtain ⟨⟨y, rest⟩, hpop, hreplace⟩ := Option.bind_eq_some_iff.mp happly
  obtain ⟨x, hread, hwrite⟩ := Option.bind_eq_some_iff.mp hreplace
  have hblock : comparisonBlock .eq serial = difference ++ verdictBlock .eq
      (.comparison .holds .eq serial) (.comparison .done .eq serial) := by
    simp [comparisonBlock, verdictBlock, Comparison.jump]
  rw [hblock] at hlaid ⊢
  obtain ⟨hdifference, hverdict⟩ := laysOut_append.mp hlaid
  rw [show (fun x y : Word => truth (x = y)) = fun x y => truth (Jump.eq.isTaken (x - y)) by
    simp only [isTaken_eq_sub]] at hwrite
  obtain ⟨last, hlast, hreach⟩ := reaches_verdict hregister hverdict hwrite steps
  refine ⟨last, hlast, ?_⟩
  rw [codeSize_append, codeSize_verdictBlock, ← Nat.add_assoc]
  exact (reaches_of_exec hdifference (exec_difference hregister hpop hread)).trans hreach

/-! ## Order -/

/-- A word with the sign of the true difference of two words: their difference if they have the same
sign, and otherwise the sign of the first. -/
def orderWord (x y : Word) : Word :=
  if x.toInt < 0 then
    if y.toInt < 0 then x - y else -1
  else
    if 0 ≤ y.toInt then x - y else 1

private theorem toInt_sub_of_same_sign {x y : Word} (h : x.toInt < 0 ↔ y.toInt < 0) :
    (x - y).toInt = x.toInt - y.toInt := by
  have hx := x.le_toInt
  have hx' := @BitVec.toInt_lt 16 x
  have hy := y.le_toInt
  have hy' := @BitVec.toInt_lt 16 y
  rw [BitVec.toInt_sub]
  apply Int.bmod_eq_of_le <;> omega

/-- The sign of the word tells which operand is the greater one. -/
theorem toInt_orderWord (x y : Word) :
    (0 < (orderWord x y).toInt ↔ y.toInt < x.toInt) ∧
      ((orderWord x y).toInt < 0 ↔ x.toInt < y.toInt) := by
  have hone : (1 : Word).toInt = 1 := by decide
  have hminus : (-1 : Word).toInt = -1 := by decide
  unfold orderWord
  split
  · next hx =>
    split
    · next hy =>
      rw [toInt_sub_of_same_sign (iff_of_true hx hy)]
      omega
    · next hy =>
      rw [hminus]
      omega
  · next hx =>
    split
    · next hy =>
      rw [toInt_sub_of_same_sign (iff_of_false hx (Int.not_lt.mpr hy))]
      omega
    · next hy =>
      rw [hone]
      omega

/-- The code that takes the top off the stack into the scratch register and copies the word
below. -/
def operandsBlock : List Statement :=
  popD ++ store (.register .scratch) ++ atTop ++ [assign intoD (.operand .m)]

/-- The code that subtracts the scratch register from the top of the stack. -/
def subtractBlock : List Statement :=
  fetch (.register .scratch) ++ atTop ++ [assign intoD (.minusD .m)]

/-- The code for one sign of the first operand: goes on to the subtraction if the second operand has
that sign too, and otherwise leaves a constant in `D`. -/
def signBlock (jump : Jump) (constant : Computation) (sameSign test : Symbol) : List Statement :=
  fetch (.register .scratch) ++ (jumpWhen jump sameSign ++
    ([assign intoD constant] ++ jumpTo test))

/-- The code before the verdict, for the two comparisons of order. -/
def orderBlock (comparison : Comparison) (serial : Nat) : List Statement :=
  let place (place : Place) : Symbol := .comparison place comparison serial
  operandsBlock ++ (jumpWhen .lt (place .negative) ++
    (signBlock .ge .one (place .sameSign) (place .test) ++ (.declare (place .negative) ::
    (signBlock .lt .minusOne (place .sameSign) (place .test) ++ (.declare (place .sameSign) ::
    (subtractBlock ++ [.declare (place .test)]))))))

theorem codeSize_orderBlock (comparison : Comparison) (serial : Nat) :
    codeSize (orderBlock comparison serial) = 29 := rfl

private theorem signedDifference_eq (comparison : Comparison) (serial : Nat) :
    signedDifference comparison serial = orderBlock comparison serial := by
  unfold signedDifference orderBlock operandsBlock subtractBlock signBlock
  simp only [List.append_assoc, List.cons_append, List.nil_append]

section Order

variable {image : Image} (hregister : ∀ r, image.meaning (.register r) = r.cell)

include hregister

private theorem exec_operandsBlock {core : Core} {x y : Word} {rest : Ram}
    (hpop : core.ram.pop = some (y, rest))
    (hread : (rest.setRegister .scratch y).read? (rest.setRegister .scratch y).top.toNat = some x) :
    exec image.meaning operandsBlock core =
      some ⟨(rest.setRegister .scratch y).top.toNat, x, rest.setRegister .scratch y⟩ := by
  have htaken : exec image.meaning popD core = some ⟨core.ram.top.toNat, y, rest⟩ := by
    rw [exec_popD hregister, hpop, Option.map_some]
  have hcopy : ∀ d, exec image.meaning [assign intoD (.operand .m)]
      ⟨(rest.setRegister .scratch y).top.toNat, d, rest.setRegister .scratch y⟩ =
      some ⟨(rest.setRegister .scratch y).top.toNat, x, rest.setRegister .scratch y⟩ := by
    intro d
    simp [Computation.eval, hread]
  exact exec_trans (exec_trans (exec_trans htaken (exec_store_register hregister .scratch _))
    (exec_atTop hregister _)) (hcopy _)

private theorem exec_subtractBlock {ram : Ram} {x : Word}
    (hread : ram.read? ram.top.toNat = some x) (a : Nat) (d : Word) :
    exec image.meaning subtractBlock ⟨a, d, ram⟩ =
      some ⟨ram.top.toNat, x - ram.register .scratch, ram⟩ := by
  have hminus : exec image.meaning [assign intoD (.minusD .m)]
      ⟨ram.top.toNat, ram.register .scratch, ram⟩ =
      some ⟨ram.top.toNat, x - ram.register .scratch, ram⟩ := by
    simp [Computation.eval, hread]
  exact exec_trans (exec_trans (exec_fetch_register hregister .scratch _)
    (exec_atTop hregister _)) hminus

private theorem reaches_signBlock {jump : Jump} {constant : Computation} {sameSign test : Symbol}
    {address joint final : Nat}
    (hlaid : image.LaysOut address (signBlock jump constant sameSign test))
    (hjoint : image.meaning sameSign = joint) (hfinal : image.meaning test = final)
    (hreads : constant.readsMemory = false) {value : Word}
    (hvalue : ∀ d x, constant.eval d x = value) {ram : Ram} {word : Word} {steps : Nat}
    (hjoin : ∀ a d, Reaches image.rom (Core.state ⟨a, d, ram⟩ joint steps)
      (Core.state ⟨ram.top.toNat, word, ram⟩ final steps)) (a : Nat) (d : Word) :
    ∃ a', Reaches image.rom (Core.state ⟨a, d, ram⟩ address steps)
      (Core.state ⟨a', if jump.isTaken (ram.register .scratch) then word else value, ram⟩ final
        steps) := by
  obtain ⟨hfetch, hlaid⟩ := laysOut_append.mp hlaid
  obtain ⟨hjump, hlaid⟩ := laysOut_append.mp hlaid
  obtain ⟨hconstant, hskip⟩ := laysOut_append.mp hlaid
  have hstart := @reaches_of_exec _ _ _ steps _ _ hfetch
    (exec_fetch_register hregister .scratch ⟨a, d, ram⟩)
  cases htaken : jump.isTaken (ram.register .scratch) with
  | true =>
      have hjumped := reaches_jumpWhen hjump hjoint htaken Register.scratch.cell ram steps
      exact ⟨_, hstart.trans (hjumped.trans (hjoin _ _))⟩
  | false =>
      have hpassed := reaches_of_not_jumpWhen hjump htaken Register.scratch.cell ram steps
      have hexec : exec image.meaning [assign intoD constant]
          ⟨image.meaning sameSign, ram.register .scratch, ram⟩ =
          some ⟨image.meaning sameSign, value, ram⟩ := by
        simp [hreads, hvalue]
      have hset := @reaches_of_exec _ _ _ steps _ _ hconstant hexec
      have hend := reaches_jumpTo hskip hfinal (image.meaning sameSign) value ram steps
      exact ⟨_, hstart.trans (hpassed.trans (hset.trans hend))⟩

/-- The code before the verdict leaves the order word in `D`. -/
private theorem reaches_orderBlock {comparison : Comparison} {serial address : Nat}
    (hlaid : image.LaysOut address (orderBlock comparison serial)) {core : Core} {x y : Word}
    {rest : Ram} (hpop : core.ram.pop = some (y, rest))
    (hread : (rest.setRegister .scratch y).read? (rest.setRegister .scratch y).top.toNat = some x)
    (steps : Nat) :
    ∃ a, Reaches image.rom (core.state address steps)
      (Core.state ⟨a, orderWord x y, rest.setRegister .scratch y⟩ (address + 29) steps) := by
  obtain ⟨hoperands, hlaid⟩ := laysOut_append.mp hlaid
  obtain ⟨hjump, hlaid⟩ := laysOut_append.mp hlaid
  obtain ⟨hpositive, hnegative, hlaid⟩ := laysOut_append.mp hlaid
  obtain ⟨hbelow, hsame, hlaid⟩ := laysOut_append.mp hlaid
  obtain ⟨hsubtract, htest, -⟩ := laysOut_append.mp hlaid
  have hloaded := @reaches_of_exec _ _ _ steps _ _ hoperands
    (exec_operandsBlock hregister hpop hread)
  generalize hram : rest.setRegister .scratch y = ram at hread hloaded ⊢
  have hscratch : ram.register .scratch = y := by rw [← hram, Ram.register_setRegister_self]
  -- Both ways to equal signs come together at the subtraction.
  have hjoin := fun a d => @reaches_of_exec _ _ _ steps _ _ hsubtract
    (exec_subtractBlock hregister hread a d)
  rw [hscratch] at hjoin
  by_cases hx : x.toInt < 0
  · have hfirst := reaches_jumpWhen hjump (meaning_comparison hnegative) (decide_eq_true hx)
      ram.top.toNat ram steps
    obtain ⟨a, hlast⟩ := reaches_signBlock hregister hbelow (meaning_comparison hsame)
      (meaning_comparison htest) rfl (fun _ _ => rfl) hjoin _ x
    have hword : (if Jump.lt.isTaken (ram.register .scratch) then x - y else -1) =
        orderWord x y := by
      simp [orderWord, Jump.isTaken, hx, hscratch]
    have hlast := hword ▸ hlast
    exact ⟨a, (hloaded.trans hfirst).trans hlast⟩
  · have hfirst := reaches_of_not_jumpWhen hjump (decide_eq_false hx) ram.top.toNat ram steps
    obtain ⟨a, hlast⟩ := reaches_signBlock hregister hpositive (meaning_comparison hsame)
      (meaning_comparison htest) rfl (fun _ _ => rfl) hjoin _ x
    have hword : (if Jump.ge.isTaken (ram.register .scratch) then x - y else 1) =
        orderWord x y := by
      simp [orderWord, Jump.isTaken, hx, hscratch]
    have hlast := hword ▸ hlast
    exact ⟨a, (hloaded.trans hfirst).trans hlast⟩

/-- The two comparisons of order share their code up to the last condition. -/
theorem reaches_ordered {comparison : Comparison} {serial address : Nat} (hne : comparison ≠ .eq)
    {holds : Word → Word → Bool}
    (hholds : ∀ x y, comparison.jump.isTaken (orderWord x y) = holds x y)
    (hlaid : image.LaysOut address (comparisonBlock comparison serial)) {core : Core} {result : Ram}
    (happly : core.ram.combineOrdered (fun x y => truth (holds x y)) = some result) (steps : Nat) :
    ∃ last : Core, last.ram = result ∧ Reaches image.rom (core.state address steps)
      (last.state (address + codeSize (comparisonBlock comparison serial)) steps) := by
  obtain ⟨⟨y, rest⟩, hpop, hreplace⟩ := Option.bind_eq_some_iff.mp happly
  obtain ⟨x, hread, hwrite⟩ := Option.bind_eq_some_iff.mp hreplace
  have hblock : comparisonBlock comparison serial = orderBlock comparison serial ++
      verdictBlock comparison.jump (.comparison .holds comparison serial)
        (.comparison .done comparison serial) := by
    unfold comparisonBlock verdictBlock
    rw [if_neg hne, signedDifference_eq]
    simp only [List.append_assoc, List.cons_append, List.nil_append]
  rw [hblock] at hlaid ⊢
  obtain ⟨horder, hverdict⟩ := laysOut_append.mp hlaid
  obtain ⟨a, hfirst⟩ := reaches_orderBlock hregister horder hpop hread steps
  rw [codeSize_orderBlock] at hverdict
  rw [codeSize_append, codeSize_orderBlock, codeSize_verdictBlock, ← Nat.add_assoc]
  dsimp only at hwrite
  rw [← hholds] at hwrite
  obtain ⟨last, hlast, hreach⟩ := reaches_verdict hregister hverdict hwrite steps
  exact ⟨last, hlast, hfirst.trans hreach⟩

end Order

end HackVm
