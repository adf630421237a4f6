import HackVm.Proofs.Assembly.Layout
import Mathlib.Data.List.Nodup

/-!
# Cells of variables

A symbol that is neither a label nor predefined becomes a variable, and variables get the cells
from 16 on in the order of their first use.  So, whatever text was loaded, a cell determines its
variable (`IsAllocation.injective`), no variable lies among the registers
(`IsAllocation.variableBase_le`), and every symbol that an instruction loads has an address in the
end (`symbol?_isSome_of_load`).
-/

namespace HackVm.Hack

/-- The variables have the cells from `variableBase` on, in order. -/
def IsAllocation (allocated : Symbols) : Prop :=
  allocated.map Prod.snd = List.range' variableBase allocated.length

theorem isAllocation_nil : IsAllocation [] := rfl

private theorem resolve_isAllocation {labels allocated after : Symbols} {name : String}
    {address : Nat} (hallocated : IsAllocation allocated)
    (hresolve : resolve labels allocated name = (address, after)) : IsAllocation after := by
  unfold resolve at hresolve
  split at hresolve
  · obtain ⟨-, rfl⟩ := Prod.mk.inj hresolve
    exact hallocated
  · obtain ⟨-, rfl⟩ := Prod.mk.inj hresolve
    unfold IsAllocation at hallocated ⊢
    simp [hallocated, List.range'_concat]

/-- The address of a symbol, for given labels and variables. -/
private def found (labels allocated : Symbols) (operand : List Char) : Option Nat :=
  (labels.lookup (String.ofList operand)).or
    ((predefined.lookup (String.ofList operand)).or (allocated.lookup (String.ofList operand)))

/-- One line leaves the variables in order, only appends to them, and leaves an address for the
symbol that it loads. -/
private theorem readInstruction_variables {labels allocated after : Symbols} {line : List Char}
    {instruction : Instruction} (hallocated : IsAllocation allocated)
    (hread : readInstruction labels allocated line = .ok (instruction, after)) :
    IsAllocation after ∧ allocated <+: after ∧
      ∀ operand, line = '@' :: operand → isNumberText operand = false →
        ∀ final, after <+: final → (found labels final operand).isSome = true := by
  unfold readInstruction at hread
  split at hread
  · next operand =>
    split at hread
    · next hnumber =>
      split at hread
      · obtain ⟨-, rfl⟩ := Prod.mk.inj (Except.ok.inj hread)
        refine ⟨hallocated, List.prefix_rfl, fun other hother hname => ?_⟩
        rw [← (List.cons.inj hother).2, hnumber] at hname
        exact absurd hname (by decide)
      · exact absurd hread (by simp)
    · obtain ⟨-, hafter⟩ := Prod.mk.inj (Except.ok.inj hread)
      have hresolve : resolve labels allocated (String.ofList operand) = (_, after) :=
        Prod.ext_iff.mpr ⟨rfl, hafter⟩
      obtain ⟨hgrown, hfinal⟩ := resolve_final hresolve
      refine ⟨resolve_isAllocation hallocated hresolve, hgrown, ?_⟩
      intro other hother _ final hlater
      rw [← (List.cons.inj hother).2, found, hfinal final hlater]
      rfl
  · next hload =>
    cases hcompute : readCompute line with
    | error error => simp [hcompute, Except.map] at hread
    | ok computed =>
        rw [hcompute] at hread
        obtain ⟨-, rfl⟩ := Prod.mk.inj (Except.ok.inj hread)
        exact ⟨hallocated, List.prefix_rfl, fun operand hline => absurd hline (hload operand)⟩

/-- The same for the whole second pass. -/
private theorem assemble_variables {labels allocated final : Symbols}
    {rom result : Array Instruction} {lines : List (List Char)}
    (hallocated : IsAllocation allocated)
    (hassemble : assemble labels allocated rom lines = .ok (result, final)) :
    IsAllocation final ∧ allocated <+: final ∧
      ∀ operand, '@' :: operand ∈ lines → isNumberText operand = false →
        (found labels final operand).isSome = true := by
  induction lines generalizing allocated rom with
  | nil =>
      obtain ⟨-, rfl⟩ := Prod.mk.inj (Except.ok.inj hassemble)
      exact ⟨hallocated, List.prefix_rfl, fun operand hmem => absurd hmem (by simp)⟩
  | cons line rest ih =>
      unfold assemble at hassemble
      split at hassemble
      · next hlabel =>
        obtain ⟨hfinal, hgrown, hrest⟩ := ih hallocated hassemble
        refine ⟨hfinal, hgrown, fun operand hmem hname => ?_⟩
        rcases List.mem_cons.mp hmem with rfl | hlater
        · exact absurd hlabel (by simp [labelOf?])
        · exact hrest operand hlater hname
      · split at hassemble
        · exact absurd hassemble (by simp)
        · next instruction after hread =>
          obtain ⟨hafter, hfirst, hresolved⟩ := readInstruction_variables hallocated hread
          obtain ⟨hfinal, hgrown, hrest⟩ := ih hafter hassemble
          refine ⟨hfinal, hfirst.trans hgrown, fun operand hmem hname => ?_⟩
          rcases List.mem_cons.mp hmem with hline | hlater
          · exact hresolved operand hline.symm hname final hgrown
          · exact hrest operand hlater hname

/-- The variables of a loaded text have the cells from `variableBase` on. -/
theorem isAllocation_of_load {text : String} {image : Image}
    (hload : Image.load text = .ok image) : IsAllocation image.allocated :=
  (assemble_variables isAllocation_nil (load_eq_ok hload).2).1

/-- Every symbol that is loaded has an address. -/
theorem symbol?_isSome_of_load {text : String} {image : Image}
    (hload : Image.load text = .ok image) {operand : List Char}
    (hline : '@' :: operand ∈ significantLines text) (hname : isNumberText operand = false) :
    (image.symbol? (String.ofList operand)).isSome = true :=
  (assemble_variables isAllocation_nil (load_eq_ok hload).2).2.2 operand hline hname

/-- No variable lies below the first cell for variables. -/
theorem IsAllocation.variableBase_le {allocated : Symbols} (hallocated : IsAllocation allocated)
    {name : String} {address : Nat} (h : allocated.lookup name = some address) :
    variableBase ≤ address := by
  have hmem : address ∈ allocated.map Prod.snd := List.mem_map.mpr ⟨_, mem_of_lookup h, rfl⟩
  rw [show allocated.map Prod.snd = _ from hallocated] at hmem
  exact (List.mem_range'_1.mp hmem).1

/-- Different variables have different cells. -/
theorem IsAllocation.injective {allocated : Symbols} (hallocated : IsAllocation allocated)
    {first second : String} {address : Nat} (hfirst : allocated.lookup first = some address)
    (hsecond : allocated.lookup second = some address) : first = second := by
  have hnodup : (allocated.map Prod.snd).Nodup := by
    rw [show allocated.map Prod.snd = _ from hallocated]
    exact List.nodup_range'
  have hsame := List.inj_on_of_nodup_map hnodup (mem_of_lookup hfirst) (mem_of_lookup hsecond) rfl
  exact (Prod.mk.inj hsame).1

end HackVm.Hack
