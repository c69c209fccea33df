import LuaGlue.Call.Wrapper
import LuaGlue.Proofs.Emission.Symbols
import LuaGlue.Proofs.Emission.Types
import LuaGlue.Proofs.Lua.Calls
import LuaGlue.Proofs.Retrieval.Parts

/-!
What the statements that push a native value do when they run.

Whatever the type is, they leave one value more on the stack. From that the two counts of the generated
code follow: a wrapper returns as many results as it has pushed, and the lambda around a Lua function
calls it with as many arguments as it has pushed above it.

    object of a class     allot              userdata, ..
                          put                depth, userdata, ..
                          setUserValue       userdata, ..
                          findMetatable      metatable, userdata, ..
                          setMetatable       userdata, ..

What native code computes is left open: `NativeValues` says which value a call with an argument pushes.
-/

namespace LuaGlue

/-- The value that a function of the Lua API pushes for a native argument. -/
abbrev NativeValues := String → String → LuaValue

/-- The functions of the Lua API that push one value for a native argument. -/
def pushingCalls : List String :=
  ["lua_pushboolean", "lua_pushinteger", "lua_pushlightuserdata", "lua_pushnumber", "lua_pushstring"]

/-- The object with its first user value set, if it has one. -/
def LuaObject.setUserValue (o : LuaObject) (v : LuaValue) : LuaObject :=
  if o.userValues = 0 then o else { o with userValue := v }

variable (values : NativeValues)

/-- What a statement does. The qualifier names a variable of the same Lua state. -/
def PushStep.exec (step : PushStep) (s : LuaState) : Option LuaState :=
  match step, s.stack with
  | .put function _ argument, _ =>
    if function ∈ pushingCalls then some (s.push (values function argument)) else none
  | .allot _ _ _ userValues, _ =>
    some { s.push (.userdata s.objects.count) with objects := s.objects.allot ⟨userValues, .nil, none⟩ }
  | .setUserValue _, v :: .userdata u :: rest =>
    some { s with stack := .userdata u :: rest
                  objects := s.objects.write u ((s.objects.cell u).setUserValue v) }
  | .findMetatable _ name, _ => some (s.push ((s.named name).elim .nil .table))
  | .setMetatable _, v :: .userdata u :: rest =>
    (LuaState.metatable? v).map fun metatable =>
      { s with stack := .userdata u :: rest
               objects := s.objects.write u { s.objects.cell u with metatable } }
  | .box _ _, _ | .native _, _ => some s
  | _, _ => none

/-- What statements do, one after another. -/
def PushStep.execAll (steps : List PushStep) (s : LuaState) : Option LuaState :=
  steps.foldlM (fun s step => step.exec values s) s

/-- The second state has so many values more on the stack, and everything that was there before. -/
structure LuaState.HasMore (count : Nat) (s s' : LuaState) : Prop where
  stack : ∃ pushed, pushed.length = count ∧ s'.stack = pushed ++ s.stack
  tables : s'.tables = s.tables
  globals : s'.globals = s.globals
  named : s'.named = s.named
  allotted : s.objects.count ≤ s'.objects.count
  objects : ∀ u < s.objects.count, s'.objects.cell u = s.objects.cell u

/-- From every state the statements end with so many values more on the stack. -/
def Pushes (steps : List PushStep) (count : Nat) : Prop :=
  ∀ s : LuaState, ∃ s', PushStep.execAll values steps s = some s' ∧ s.HasMore count s'

namespace PushStep

variable {values}

@[simp] theorem execAll_nil (s : LuaState) : execAll values [] s = some s := rfl

@[simp] theorem execAll_cons (step : PushStep) (rest : List PushStep) (s : LuaState) :
    execAll values (step :: rest) s = (step.exec values s).bind (execAll values rest) := by
  rw [execAll, List.foldlM_cons]
  rfl

theorem execAll_append (first rest : List PushStep) (s : LuaState) :
    execAll values (first ++ rest) s = (execAll values first s).bind (execAll values rest) := by
  rw [execAll, List.foldlM_append]
  rfl

end PushStep

namespace LuaState.HasMore

theorem refl (s : LuaState) : s.HasMore 0 s := ⟨⟨[], rfl, rfl⟩, rfl, rfl, rfl, Nat.le_refl _, fun _ _ => rfl⟩

theorem trans {m n : Nat} {a b c : LuaState} (h : a.HasMore m b) (h' : b.HasMore n c) : a.HasMore (m + n) c := by
  obtain ⟨first, hfirst, hab⟩ := h.stack
  obtain ⟨rest, hrest, hbc⟩ := h'.stack
  refine ⟨⟨rest ++ first, ?_, ?_⟩, h'.tables.trans h.tables, h'.globals.trans h.globals, h'.named.trans h.named,
    Nat.le_trans h.allotted h'.allotted, ?_⟩
  · rw [List.length_append, hfirst, hrest, Nat.add_comm]
  · rw [hbc, hab, List.append_assoc]
  · intro u hu
    rw [h'.objects u (Nat.lt_of_lt_of_le hu h.allotted), h.objects u hu]

/-- One value is pushed, and at most one object is made. -/
theorem push (s : LuaState) (v : LuaValue) : s.HasMore 1 (s.push v) :=
  ⟨⟨[v], rfl, rfl⟩, rfl, rfl, rfl, Nat.le_refl _, fun _ _ => rfl⟩

theorem pushObject (s : LuaState) (o : LuaObject) :
    s.HasMore 1 { s.push (.userdata s.objects.count) with objects := s.objects.allot o } :=
  ⟨⟨[_], rfl, rfl⟩, rfl, rfl, rfl, Nat.le_succ _, fun _ hu => s.objects.cell_allot_of_lt o hu⟩

end LuaState.HasMore

namespace Pushes

variable {values}

theorem nil : Pushes values [] 0 := fun s => ⟨s, rfl, .refl s⟩

theorem append {first rest : List PushStep} {m n : Nat} (h : Pushes values first m) (h' : Pushes values rest n) :
    Pushes values (first ++ rest) (m + n) := by
  intro s
  obtain ⟨a, ha, hsa⟩ := h s
  obtain ⟨b, hb, hab⟩ := h' a
  refine ⟨b, ?_, hsa.trans hab⟩
  rw [PushStep.execAll_append, ha]
  exact hb

theorem afterNative {steps : List PushStep} {count : Nat} (text : String) (h : Pushes values steps count) :
    Pushes values (.native text :: steps) count := h

/-- Code by code, each pushing one value. -/
theorem flatten {codes : List PushCode} (h : ∀ code ∈ codes, Pushes values code.steps 1) :
    Pushes values (codes.flatMap (·.steps)) codes.length := by
  induction codes with
  | nil => exact nil
  | cons code rest ih =>
    have hrest := ih fun c hc => h c (List.mem_cons_of_mem _ hc)
    have hboth := (h code List.mem_cons_self).append hrest
    rw [Nat.add_comm] at hboth
    exact hboth

/-! ### The kinds of values -/

theorem single {function qualifier argument : String} (h : function ∈ pushingCalls) :
    Pushes values (PushCode.single function qualifier argument).steps 1 := by
  intro s
  refine ⟨_, ?_, .push s (values function argument)⟩
  simp [PushCode.single, PushStep.exec, h]

/-- The metatable of this name, as a value. -/
theorem metatable?_named (id : Option Nat) : LuaState.metatable? (id.elim .nil .table) = some id := by
  cases id <;> rfl

/-- New userdata that gets a depth as its user value, and a metatable. -/
theorem userdata (type : Option String) (qualifier size text name : String) (depth : String) :
    Pushes values [.allot qualifier type size 1, .put "lua_pushinteger" qualifier depth, .setUserValue qualifier,
      .native text, .findMetatable qualifier name, .setMetatable qualifier] 1 := by
  intro s
  have hput : "lua_pushinteger" ∈ pushingCalls := by decide
  refine ⟨_, ?_, .pushObject s ⟨1, values "lua_pushinteger" depth, s.named name⟩⟩
  simp [PushStep.exec, hput, LuaState.push, metatable?_named, LuaObject.setUserValue]

theorem functionPointer (value wrapper : String) :
    Pushes values (PushCode.functionPointer value wrapper).steps 1 := by
  intro s
  refine ⟨_, ?_, .pushObject s ⟨0, .nil, s.named "FunctionProtoMetatable"⟩⟩
  simp [PushCode.functionPointer, PushStep.exec, LuaState.push, metatable?_named]

theorem object (r : ClassRef) (m : Modifiers) (value qualifier : String) (owner : BoundClass) :
    Pushes values (PushCode.object r m value qualifier owner).steps 1 :=
  userdata _ _ _ _ _ _

theorem arrayWrapper (names : ArrayNames) (element : String) (elementIsPointer : Bool) (m : Modifiers)
    (value qualifier : String) :
    Pushes values (PushCode.arrayWrapper names element elementIsPointer m value qualifier).steps 1 :=
  -- the wrapper struct is made before anything is pushed
  afterNative _ (userdata _ _ _ _ _ _)

end Pushes

/-- The code that pushes a value of a type leaves one value more on the stack. -/
theorem CxxType.pushes_one {t : CxxType} {value qualifier : String} {registry : Registry} {code : PushCode}
    (h : t.push value qualifier registry = .ok code) : Pushes values code.steps 1 := by
  cases t with
  | void m =>
    rw [push] at h
    split at h
    · cases h
      exact .single (by decide)
    · cases h
  | numeric kind m =>
    rw [push] at h
    cases h
    split
    · exact .single (by decide)
    · cases kind.isFloating <;> exact .single (by decide)
  | bool m => cases h; exact .single (by decide)
  | text kind m =>
    cases kind <;> cases h <;> exact .single (by decide)
  | «enum» name m => cases h; exact .single (by decide)
  | record r m =>
    rw [push] at h
    split at h
    · cases h
      exact .object _ _ _ _ _
    · cases h
  | function params result hasStorage m =>
    obtain ⟨wrapper, -, hcode⟩ := bind_eq_ok.1 h
    cases hcode
    exact .functionPointer _ _
  | array names element m =>
    obtain ⟨name, -, hcode⟩ := bind_eq_ok.1 h
    cases hcode
    exact .arrayWrapper _ _ _ _ _ _

/-! ### Wrappers -/

namespace WrapperBody

/-- The text of the body up to the native call, and with it. -/
def renderCall (b : WrapperBody) : String :=
  Text.lines 4 ["try", "\x7b"] ++ (b.self.map renderSelf).getD "" ++ Text.line 8 "// Native call" ++ b.call.render

/-- The statements behind the native call. -/
def pushSteps (b : WrapperBody) : List PushStep := (b.push.map (·.steps)).getD []

/-- Their text. -/
def renderPush (b : WrapperBody) : String := (b.push.map (·.render ++ ";\n")).getD ""

/-- The block calls, pushes, and ends in returning this number of results. -/
def Returns (b : WrapperBody) (count : Nat) : Prop :=
  b.render = b.renderCall ++ b.renderPush ++ Text.openLines 8 [s!"return {count};"] ++ "\n" ++ renderCatch

theorem returns_length (b : WrapperBody) : b.Returns b.push.toList.length := by
  rw [Returns, render, renderCall, renderPush]
  cases b.push with
  | none =>
    simp [renderReturn, String.append_assoc]
    rfl
  | some code =>
    simp [renderReturn, String.append_assoc]
    rfl

/-- What the body of a wrapper pushes behind the native call is what it returns. -/
theorem pushes_of {f : BoundFunction} {registry : Registry} {b : WrapperBody} (h : of f registry = .ok b) :
    ∃ count, b.Returns count ∧ Pushes values b.pushSteps count ∧ count ≤ 1
      ∧ (count = 0 ↔ f.result.isVoidValue) := by
  obtain ⟨call, -, hrest⟩ := bind_eq_ok.1 h
  obtain ⟨push?, hpush, hbody⟩ := bind_eq_ok.1 hrest
  cases hbody
  refine ⟨_, returns_length _, ?_⟩
  rw [BoundFunction.pushResult] at hpush
  split at hpush
  · next hvoid =>
    cases hpush
    exact ⟨.nil, by simp, by simp [hvoid]⟩
  · next hvoid =>
    obtain ⟨code, hcode, rfl⟩ := map_eq_ok.1 hpush
    exact ⟨CxxType.pushes_one values hcode, by simp, by simp [hvoid]⟩

end WrapperBody

/-! ### Lambdas around Lua functions -/

namespace Closure

/-- The statements that push the arguments, in order. -/
def argumentSteps (c : Closure) : List PushStep := c.arguments.flatMap (·.steps)

/-- The line that calls the Lua function with so many arguments, and asks for so many results. -/
def callLine (c : Closure) (arguments results : Nat) : String :=
  s!"if (int status = lua_pcall({qualifier c.slot c.hasStorage}lua_state, {arguments}, {results}, 0); status != LUA_OK)"

/-- Right behind the pushes of the arguments, the lambda calls the Lua function with these numbers. -/
def Calls (c : Closure) (arguments results : Nat) : Prop :=
  Occurs (String.join (c.arguments.map renderArgument) ++ Text.line 8 "" ++ Text.line 12 (c.callLine arguments results))
    c.renderLambda

theorem calls_length (c : Closure) : c.Calls c.arguments.length c.resultCount := by
  have hmiddle : ∀ a b c d e : String, Occurs (b ++ c ++ d) (a ++ b ++ c ++ (d ++ e)) := fun a b c d e =>
    ⟨a, e, by simp only [String.append_assoc]⟩
  unfold Calls renderLambda
  iterate 3 refine Occurs.left ?_ _
  rw [Text.lines_cons 12 (s!"if (int status = lua_pcall({qualifier c.slot c.hasStorage}lua_state, {c.arguments.length}, {c.resultCount}, 0); status != LUA_OK)")]
  exact hmiddle ..

/-- The lambda pushes as many values above the function as it calls it with. -/
theorem pushes_of {s : Signature} {slot : Nat} {registry : Registry} {c : Closure}
    (h : ofSignature s slot registry = .ok c) :
    ∃ arguments results, c.Calls arguments results ∧ Pushes values c.argumentSteps arguments
      ∧ arguments = s.params.length ∧ (results = 0 ↔ s.result.isVoidValue) := by
  have hmade := madeOf h
  have harguments := hmade.arguments
  refine ⟨_, _, calls_length c, .flatten ?_, ?_, ?_⟩
  · intro code hcode
    obtain ⟨⟨t, i⟩, -, hpush⟩ := exists_of_mem_mapM_ok harguments code hcode
    exact CxxType.pushes_one values hpush
  · rw [length_of_mapM_ok harguments, List.length_zipIdx]
  · rw [resultCount]
    rcases hmade.outcome with ⟨hvoid, hnone⟩ | ⟨hvoid, value, fallback, -, hsome⟩
    · simp [hvoid, hnone]
    · simp [hvoid, hsome]

end Closure

/-- Every push leaves exactly one value and nothing else changed. So the body of a wrapper returns the
number of values it has pushed, one unless the result is `void`, and a lambda calls its Lua function with
the number of arguments it has pushed, and with no result exactly for `void`. -/
theorem pushes_are_counted (registry : Registry) :
    (∀ (t : CxxType) (value qualifier : String) (code : PushCode),
      t.push value qualifier registry = .ok code → Pushes values code.steps 1)
    ∧ (∀ (f : BoundFunction) (b : WrapperBody), WrapperBody.of f registry = .ok b →
      ∃ count, b.Returns count ∧ Pushes values b.pushSteps count ∧ count ≤ 1
        ∧ (count = 0 ↔ f.result.isVoidValue))
    ∧ ∀ (s : Signature) (slot : Nat) (c : Closure), Closure.ofSignature s slot registry = .ok c →
      ∃ arguments results, c.Calls arguments results ∧ Pushes values c.argumentSteps arguments
        ∧ arguments = s.params.length ∧ (results = 0 ↔ s.result.isVoidValue) := by
  refine ⟨?_, ?_, ?_⟩
  · intro t value qualifier code h
    exact CxxType.pushes_one values h
  · intro f b h
    exact WrapperBody.pushes_of values h
  · intro s slot c h
    exact Closure.pushes_of values h

/-- A callback that gets a number and a text. -/
def visitSignature : Signature where
  params := [.numeric .int32 {}, .text .narrow {}]
  result := .void {}
  hasStorage := true

theorem visit_calls_two : ∃ c, Closure.ofSignature visitSignature 1 {} = .ok c
    ∧ ∃ arguments results, c.Calls arguments results ∧ Pushes (fun _ _ => .nil) c.argumentSteps arguments
      ∧ arguments = 2 ∧ (results = 0 ↔ visitSignature.result.isVoidValue) := by
  have hok : (Closure.ofSignature visitSignature 1 {}).isOk := by decide +kernel
  obtain ⟨c, hc⟩ := isOk_iff.1 hok
  exact ⟨c, hc, (pushes_are_counted (fun _ _ => .nil) {}).2.2 visitSignature 1 c hc⟩

end LuaGlue
