import HackVm.Emit.Session

/-!
# Rules of emission

A session decides by cases which block a command has, if any.  What it decides is said here once,
as rules: `Session.Locates` for the cells of segments and `Session.HasBlock` for commands.  The
functions follow the rules exactly (`locate_eq_ok_iff`, `block_eq_ok_iff`), and what other modules
say about blocks they show rule by rule.
-/

namespace HackVm.Emit

/-- Where the cells of segments are: at a distance from a base register, at a fixed place, or under
the name of the current source. -/
inductive Session.Locates (session : Session) : Segment → Int → Location → Prop
  | constant (index : Int) : Locates session .constant index (.constant index)
  | locals (index : Int) : Locates session .locals index (.indirect .lcl index)
  | argument (index : Int) : Locates session .argument index (.indirect .arg index)
  | this (index : Int) : Locates session .this index (.indirect .this index)
  | that (index : Int) : Locates session .that index (.indirect .that index)
  | temp (index : Int) : Locates session .temp index (.direct (.number (tempBase + index)))
  | pointerThis : Locates session .pointer 0 (.direct (.register .this))
  | pointerThat : Locates session .pointer 1 (.direct (.register .that))
  | static {source : String} (index : Int) (hsource : session.source = some source)
      (hname : source ≠ "") : Locates session .static index (.direct (.static source index))

/-- The rules by which a command has a block and leaves a session. -/
inductive Session.HasBlock (session : Session) : Command → Session → List Statement → Prop
  | operate {word : String} {operator : Operator}
      (hoperator : Operator.ofWord? word = some operator) :
      HasBlock session (.arithmetic word) (session.operate operator).1 (session.operate operator).2
  | push {word : String} {segment : Segment} {index : Int} {location : Location}
      (hsegment : Segment.ofWord? word = some segment)
      (hlocates : session.Locates segment index location) :
      HasBlock session (.push word index) session (pushBlock location)
  | pop {word : String} {segment : Segment} {index : Int} {location : Location}
      {body : List Statement} (hsegment : Segment.ofWord? word = some segment)
      (hlocates : session.Locates segment index location) (hbody : popBlock? location = some body) :
      HasBlock session (.pop word index) session body
  | label (name : String) : HasBlock session (.label name) session (labelBlock name)
  | goto (name : String) : HasBlock session (.goto name) session (gotoBlock name)
  | ifGoto (name : String) : HasBlock session (.ifGoto name) session (ifGotoBlock name)
  | function (name : String) (locals : Int) :
      HasBlock session (.function name locals) { session with function := some name }
        (functionBlock name locals)
  | call (name : String) (arguments : Int) :
      HasBlock session (.call name arguments) { session with calls := session.calls + 1 }
        (callBlock name arguments session.nextReturn)
  | ret : HasBlock session .ret session returnBlock

variable {session next : Session} {segment : Segment} {word : String} {index : Int}
  {location : Location} {command : Command} {body : List Statement}

theorem locate_eq_ok_iff :
    session.locate segment index = .ok location ↔ session.Locates segment index location := by
  constructor
  · intro h
    unfold Session.locate at h
    cases segment with
    | constant => exact Except.ok.inj h ▸ .constant index
    | locals => exact Except.ok.inj h ▸ .locals index
    | argument => exact Except.ok.inj h ▸ .argument index
    | this => exact Except.ok.inj h ▸ .this index
    | that => exact Except.ok.inj h ▸ .that index
    | temp => exact Except.ok.inj h ▸ .temp index
    | pointer =>
        dsimp only at h
        split at h
        · next hzero => exact Except.ok.inj h ▸ hzero ▸ .pointerThis
        · split at h
          · next hone => exact Except.ok.inj h ▸ hone ▸ .pointerThat
          · exact absurd h (by simp)
    | static =>
        dsimp only at h
        split at h
        · next source hfound =>
          obtain ⟨hsource, hname⟩ := Option.filter_eq_some_iff.mp hfound
          exact Except.ok.inj h ▸ .static index hsource (by simpa using hname)
        · exact absurd h (by simp)
  · intro h
    cases h with
    | static index hsource hname =>
        have hfound : session.source.filter (!·.isEmpty) = some _ :=
          Option.filter_eq_some_iff.mpr ⟨hsource, by simpa using hname⟩
        simp only [Session.locate, hfound]
    | _ => rfl

theorem locateWord_eq_ok_iff :
    session.locateWord word index = .ok location ↔
      ∃ segment, Segment.ofWord? word = some segment ∧ session.Locates segment index location := by
  unfold Session.locateWord
  cases Segment.ofWord? word with
  | none => simp
  | some segment => simp [locate_eq_ok_iff]

/-- A session gives a command the block that the rules give it. -/
theorem block_eq_ok_iff :
    session.block command = .ok (next, body) ↔ session.HasBlock command next body := by
  constructor
  · intro h
    unfold Session.block at h
    cases command with
    | arithmetic word =>
        dsimp only at h
        split at h
        · next operator hoperator =>
          obtain ⟨rfl, rfl⟩ := Prod.ext_iff.mp (Except.ok.inj h)
          exact .operate hoperator
        · exact absurd h (by simp)
    | push word index =>
        dsimp only at h
        split at h
        · next location hlocate =>
          obtain ⟨segment, hsegment, hlocates⟩ := locateWord_eq_ok_iff.mp hlocate
          obtain ⟨rfl, rfl⟩ := Prod.mk.inj (Except.ok.inj h)
          exact .push hsegment hlocates
        · exact absurd h (by simp)
    | pop word index =>
        dsimp only at h
        split at h
        · next location hlocate =>
          obtain ⟨segment, hsegment, hlocates⟩ := locateWord_eq_ok_iff.mp hlocate
          split at h
          · next statements hpop =>
            obtain ⟨rfl, rfl⟩ := Prod.mk.inj (Except.ok.inj h)
            exact .pop hsegment hlocates hpop
          · exact absurd h (by simp)
        · exact absurd h (by simp)
    | label name =>
        obtain ⟨rfl, rfl⟩ := Prod.mk.inj (Except.ok.inj h)
        exact .label name
    | goto name =>
        obtain ⟨rfl, rfl⟩ := Prod.mk.inj (Except.ok.inj h)
        exact .goto name
    | ifGoto name =>
        obtain ⟨rfl, rfl⟩ := Prod.mk.inj (Except.ok.inj h)
        exact .ifGoto name
    | function name locals =>
        obtain ⟨rfl, rfl⟩ := Prod.mk.inj (Except.ok.inj h)
        exact .function name locals
    | call name arguments =>
        obtain ⟨rfl, rfl⟩ := Prod.mk.inj (Except.ok.inj h)
        exact .call name arguments
    | ret =>
        obtain ⟨rfl, rfl⟩ := Prod.mk.inj (Except.ok.inj h)
        exact .ret
  · intro h
    cases h with
    | operate hoperator => simp [Session.block, hoperator]
    | push hsegment hlocates =>
        have hlocate := locateWord_eq_ok_iff.mpr ⟨_, hsegment, hlocates⟩
        simp [Session.block, hlocate]
    | pop hsegment hlocates hbody =>
        have hlocate := locateWord_eq_ok_iff.mpr ⟨_, hsegment, hlocates⟩
        simp [Session.block, hlocate, hbody]
    | _ => rfl

end HackVm.Emit
