import LuaGlue.Proofs.Signatures.Uses

/-!
What the lambda of a function pointer reaches Lua through.

A function pointer may be called when the call that has made it is long over, so its lambda must not use the variables
of that call. The Lua state and the function have been saved; the lambda takes them from there where it is told to, by
what is written in front of them. The code that reads its result is not told:

    lua_pcall(lambda_params_1.lua_state, ..)              saved
    lua_pushinteger(lambda_params_1.lua_state, ..)        saved: arguments
    if (lua_isboolean(lua_state, -1)) return ..           of the call: the check of the result, and its value
-/

namespace LuaGlue

section Steps

variable {slot : Nat}

/-! ### Code that pushes a value -/

/-- The parts of a statement that are not the same in all statements of its kind. -/
def PushStep.parts : PushStep → List String
  | .put function qualifier argument => [function, qualifier ++ "lua_state", argument]
  | .allot qualifier (some type) size _ => [type, qualifier ++ "lua_state", size]
  | .allot qualifier none size _ => [qualifier ++ "lua_state", size]
  | .setUserValue qualifier | .setMetatable qualifier => [qualifier ++ "lua_state"]
  | .findMetatable qualifier name => [qualifier ++ "lua_state", name]
  | .box value wrapper => [value, wrapper]
  | .native text => [text]

theorem PushStep.reachesSaved_iff (step : PushStep) :
    ReachesSaved slot step.render ↔ ∀ part ∈ step.parts, ReachesSaved slot part := by
  have hcut : ∀ more whole rest : String, "lua_state" ++ more = whole → whole ++ rest = "lua_state" ++ (more ++ rest) :=
    fun more whole rest h => by rw [← h, String.append_assoc]
  match step with
  | .put function qualifier argument =>
    have htext : (PushStep.put function qualifier argument).render
        = function ++ ("(" ++ ((qualifier ++ "lua_state") ++ (", " ++ (argument ++ ")")))) := by
      unfold render
      simp only [toString, String.append_assoc, hcut ", " "lua_state, " _ rfl]
    rw [htext, reachesSaved_between "(" (by decide), reachesSaved_between ", " (by decide),
      reachesSaved_closed ")" (by decide)]
    simp [parts]
  | .allot qualifier (some type) size userValues =>
    have htext : (PushStep.allot qualifier (some type) size userValues).render = "auto* userdata = static_cast<"
        ++ (type ++ ("*>(lua_newuserdatauv(" ++ ((qualifier ++ "lua_state")
          ++ (", sizeof(" ++ (size ++ ("), " ++ (toString userValues ++ "))"))))))) := by
      unfold render
      simp only [toString, String.append_assoc, hcut ", sizeof(" "lua_state, sizeof(" _ rfl]
    rw [htext, reachesSaved_opened "auto* userdata = static_cast<" (by decide),
      reachesSaved_between "*>(lua_newuserdatauv(" (by decide),
      reachesSaved_between ", sizeof(" (by decide), reachesSaved_between "), " (by decide),
      reachesSaved_closed "))" (by decide)]
    simp only [parts, List.forall_mem_cons, List.not_mem_nil, false_implies, implies_true, reachesSaved_toString userValues, and_true]
  | .allot qualifier none size userValues =>
    have htext : (PushStep.allot qualifier none size userValues).render = "auto userdata = lua_newuserdatauv("
        ++ ((qualifier ++ "lua_state") ++ (", sizeof(" ++ (size ++ ("), " ++ (toString userValues ++ ")"))))) := by
      unfold render
      simp only [toString, String.append_assoc, hcut ", sizeof(" "lua_state, sizeof(" _ rfl]
    rw [htext, reachesSaved_opened "auto userdata = lua_newuserdatauv(" (by decide),
      reachesSaved_between ", sizeof(" (by decide), reachesSaved_between "), " (by decide),
      reachesSaved_closed ")" (by decide)]
    simp only [parts, List.forall_mem_cons, List.not_mem_nil, false_implies, implies_true, reachesSaved_toString userValues, and_true]
  | .setUserValue qualifier =>
    have htext : (PushStep.setUserValue qualifier).render
        = "lua_setiuservalue(" ++ ((qualifier ++ "lua_state") ++ ", -2, 1)") := by
      unfold render
      simp only [toString, String.append_assoc]
      rfl
    rw [htext, reachesSaved_opened "lua_setiuservalue(" (by decide), reachesSaved_closed ", -2, 1)" (by decide)]
    simp [parts]
  | .findMetatable qualifier name =>
    have htext : (PushStep.findMetatable qualifier name).render
        = "luaL_getmetatable(" ++ ((qualifier ++ "lua_state") ++ (", \"" ++ (name ++ "\")"))) := by
      unfold render
      simp only [toString, String.append_assoc, hcut ", \"" "lua_state, \"" _ rfl]
    rw [htext, reachesSaved_opened "luaL_getmetatable(" (by decide), reachesSaved_between ", \"" (by decide),
      reachesSaved_closed "\")" (by decide)]
    simp [parts]
  | .setMetatable qualifier =>
    have htext : (PushStep.setMetatable qualifier).render
        = "lua_setmetatable(" ++ ((qualifier ++ "lua_state") ++ ", -2)") := by
      unfold render
      simp only [toString, String.append_assoc]
      rfl
    rw [htext, reachesSaved_opened "lua_setmetatable(" (by decide), reachesSaved_closed ", -2)" (by decide)]
    simp [parts]
  | .box value wrapper =>
    have htext : (PushStep.box value wrapper).render = "new(userdata) FunctionProto\x7bstd::bit_cast<void*>("
        ++ (value ++ ("), &" ++ (wrapper ++ "\x7d"))) := by
      unfold render
      simp only [toString, String.append_assoc]
    rw [htext, reachesSaved_opened "new(userdata) FunctionProto\x7bstd::bit_cast<void*>(" (by decide),
      reachesSaved_between "), &" (by decide), reachesSaved_closed "\x7d" (by decide)]
    simp [parts]
  | .native text =>
    change ReachesSaved slot text ↔ _
    simp [parts]

/-- The code uses what its steps use. -/
theorem PushCode.reachesSaved_iff (code : PushCode) :
    ReachesSaved slot code.render ↔ ∀ step ∈ code.steps, ∀ part ∈ step.parts, ReachesSaved slot part := by
  have hend : ∀ text, ReachesSaved slot (text ++ if code.isClosed then ";\n" else "") ↔ ReachesSaved slot text := by
    intro text
    cases code.isClosed with
    | true => exact reachesSaved_closed ";\n" (by decide)
    | false => simp
  rw [render, hend, reachesSaved_separated (by decide), List.forall_mem_map]
  refine forall₂_congr fun step _ => ?_
  rw [reachesSaved_opened (Text.blanks 8) (by decide), step.reachesSaved_iff]

end Steps

/-! ### Arguments of the lambda -/

namespace PushCode

variable {slot : Nat} {value : String}

theorem reachesSaved_single {function argument : String} (hfunction : isHarmlessText function = true)
    (hargument : ReachesSaved slot argument) :
    ReachesSaved slot (single function (Closure.qualifier slot false) argument).render := by
  rw [reachesSaved_iff, single, List.forall_mem_singleton]
  simp only [PushStep.parts, List.forall_mem_cons, List.not_mem_nil, false_implies, implies_true, and_true]
  exact ⟨reachesSaved_of_isHarmlessText hfunction, reachesSaved_qualified List.mem_cons_self, hargument⟩

theorem reachesSaved_object (r : ClassRef) (m : Modifiers) (owner : BoundClass) (hvalue : ReachesSaved slot value) :
    ReachesSaved slot (object r m value (Closure.qualifier slot false) owner).render
      ↔ ReachesSaved slot owner.qualified ∧ ReachesSaved slot (Scope.tag r.scope owner.name ++ "Metatable") := by
  have hstate : ReachesSaved slot (Closure.qualifier slot false ++ "lua_state") :=
    reachesSaved_qualified List.mem_cons_self
  have hpush : ReachesSaved slot "lua_pushinteger" := reachesSaved_of_isHarmlessText (by decide)
  have hdepth : ReachesSaved slot (if m.isPointer then "1" else "0") := by
    cases m.isPointer <;> exact reachesSaved_of_isHarmlessText (by decide)
  have hstar : ∀ text, ReachesSaved slot (text ++ if m.isPointer then "*" else "") ↔ ReachesSaved slot text := by
    intro text
    cases m.isPointer with
    | true => exact reachesSaved_closed "*" (by decide)
    | false => simp
  have hconst : ∀ text, ReachesSaved slot ((if m.isConst then "const " else "") ++ text) ↔ ReachesSaved slot text := by
    intro text
    cases m.isConst with
    | true => exact reachesSaved_opened "const " (by decide)
    | false => simp
  have hsource : ReachesSaved slot (if r.moved then s!"std::move({value})" else value) := by
    cases r.moved with
    | true => exact (reachesSaved_closed ")" (by decide)).2 ((reachesSaved_opened "std::move(" (by decide)).2 hvalue)
    | false => exact hvalue
  have hconstruct : ∀ constness star source : String, s!"new(userdata) {constness}{owner.qualified}{star}\x7b{source}\x7d"
      = "new(userdata) " ++ (constness ++ ((owner.qualified ++ star) ++ ("\x7b" ++ (source ++ "\x7d")))) := by
    intro constness star source
    simp only [toString, String.append_assoc]
  rw [reachesSaved_iff]
  simp only [object, PushStep.parts, List.forall_mem_cons, List.not_mem_nil, false_implies, implies_true, and_true,
    hstate, hpush, hdepth, hstar, true_and, hconstruct, reachesSaved_opened "new(userdata) " (by decide), hconst,
    reachesSaved_between "\x7b" (by decide), reachesSaved_closed "\x7d" (by decide), hsource]
  simp

/-- Where an array is taken from. -/
theorem reachesSaved_storage (names : ArrayNames) (m : Modifiers) (hvalue : ReachesSaved slot value) :
    ReachesSaved slot (if m.isPointer then s!"std::bit_cast<{names.raw}*>({value})"
      else if m.isReference then s!"std::bit_cast<{names.raw}*>(&{value})"
      else s!"std::move(*std::bit_cast<{names.raw}*>(&{value}))") ↔ ReachesSaved slot names.raw := by
  cases m.isPointer with
  | true => exact (reachesSaved_framed_two (by decide) (by decide) (by decide)).trans (and_iff_left hvalue)
  | false =>
    cases m.isReference <;>
      exact (reachesSaved_framed_two (by decide) (by decide) (by decide)).trans (and_iff_left hvalue)

/-- The wrapper struct of an array. -/
theorem reachesSaved_wrapping (names : ArrayNames) (element storage : String) (elementIsPointer : Bool) :
    ReachesSaved slot
      s!"auto array_wrapper = {names.wrapper}\x7b{storage}, sizeof({element}), alignof({element}), \"{element}\", {elementIsPointer}\x7d"
      ↔ ReachesSaved slot names.wrapper ∧ ReachesSaved slot storage ∧ ReachesSaved slot element := by
  have htext :
      s!"auto array_wrapper = {names.wrapper}\x7b{storage}, sizeof({element}), alignof({element}), \"{element}\", {elementIsPointer}\x7d"
      = "auto array_wrapper = " ++ (names.wrapper ++ ("\x7b" ++ (storage ++ (", sizeof(" ++ (element ++ ("), alignof("
        ++ (element ++ ("), \"" ++ (element ++ ("\", " ++ (toString elementIsPointer ++ "\x7d"))))))))))) := by
    simp only [toString, String.append_assoc]
  have hflag : ReachesSaved slot (toString elementIsPointer) := by
    cases elementIsPointer <;> exact reachesSaved_of_isHarmlessText (by decide)
  rw [htext, reachesSaved_opened "auto array_wrapper = " (by decide), reachesSaved_between "\x7b" (by decide),
    reachesSaved_between ", sizeof(" (by decide), reachesSaved_between "), alignof(" (by decide),
    reachesSaved_between "), \"" (by decide), reachesSaved_between "\", " (by decide),
    reachesSaved_closed "\x7d" (by decide), and_iff_left hflag, and_self_left, and_self]

/-- An array is wrapped and boxed by names of its own. -/
theorem reachesSaved_arrayWrapper (names : ArrayNames) (element : String) (elementIsPointer : Bool) (m : Modifiers)
    (hvalue : ReachesSaved slot value) :
    ReachesSaved slot (arrayWrapper names element elementIsPointer m value (Closure.qualifier slot false)).render
      ↔ ReachesSaved slot names.wrapper ∧ ReachesSaved slot names.raw ∧ ReachesSaved slot names.wrapperMetatable
        ∧ ReachesSaved slot element := by
  have hstate : ReachesSaved slot (Closure.qualifier slot false ++ "lua_state") :=
    reachesSaved_qualified List.mem_cons_self
  have hpush : ReachesSaved slot "lua_pushinteger" := reachesSaved_of_isHarmlessText (by decide)
  have hdepth : ReachesSaved slot "0" := reachesSaved_of_isHarmlessText (by decide)
  have hsource : ReachesSaved slot (if m.isPointer then "array_wrapper" else "std::move(array_wrapper)") := by
    cases m.isPointer <;> exact reachesSaved_of_isHarmlessText (by decide)
  have hconstruct : ∀ source : String, s!"new(userdata) {names.wrapper}\x7b{source}\x7d"
      = "new(userdata) " ++ (names.wrapper ++ ("\x7b" ++ (source ++ "\x7d"))) := fun source => by
    simp only [toString, String.append_assoc]
  rw [reachesSaved_iff, arrayWrapper]
  simp only [PushStep.parts, List.forall_mem_cons, List.not_mem_nil, false_implies, implies_true,
    and_true, hstate, hpush, hdepth, true_and, reachesSaved_wrapping, reachesSaved_storage names m hvalue,
    hconstruct, reachesSaved_opened "new(userdata) " (by decide), reachesSaved_between "\x7b" (by decide),
    reachesSaved_closed "\x7d" (by decide), hsource]
  exact ⟨fun ⟨⟨hwrapper, hraw, helement⟩, _, _, hmetatable⟩ => ⟨hwrapper, hraw, hmetatable, helement⟩,
    fun ⟨hwrapper, hraw, hmetatable, helement⟩ => ⟨⟨hwrapper, hraw, helement⟩, ⟨hwrapper, hwrapper⟩, hwrapper, hmetatable⟩⟩

end PushCode

namespace CxxType

/-- The names of types that the code writes which pushes a value of this type, but for those of the language. -/
def pushedNames (registry : Registry) : CxxType → List String
  | .record r _ =>
    match registry.find? r.scope r.name with
    | some owner => [owner.qualified, Scope.tag r.scope owner.name ++ "Metatable"]
    | none => []
  | .array names element _ =>
    names.wrapper :: names.raw :: names.wrapperMetatable :: element.elementName.toOption.toList
  | _ => []

variable {registry : Registry} {slot i : Nat} {code : PushCode}

/-- An argument is pushed through the saved parameters. It is no function: the head of a lambda cannot spell one. -/
theorem reachesSaved_push {t : CxxType} {spelled : SpelledType} (hspelled : t.spelled = .ok spelled)
    (h : t.push (Closure.argumentName i) (Closure.qualifier slot false) registry = .ok code) :
    ReachesSaved slot code.render ↔ ∀ name ∈ t.pushedNames registry, ReachesSaved slot name := by
  have hvalue : ReachesSaved slot (Closure.argumentName i) := reachesSaved_argumentName i
  have hsingle : ∀ {function argument : String}, isHarmlessText function = true → ReachesSaved slot argument →
      (ReachesSaved slot (PushCode.single function (Closure.qualifier slot false) argument).render
        ↔ ∀ name ∈ ([] : List String), ReachesSaved slot name) := fun hfunction hargument =>
    iff_of_true (PushCode.reachesSaved_single hfunction hargument) nofun
  have hcast : ∀ type : String, isHarmlessText type = true →
      ReachesSaved slot s!"static_cast<{type}>({Closure.argumentName i})" := by
    intro type htype
    have htext : s!"static_cast<{type}>({Closure.argumentName i})"
        = "static_cast<" ++ (type ++ (">(" ++ (Closure.argumentName i ++ ")"))) := by
      simp only [toString, String.append_assoc]
    rw [htext, reachesSaved_opened "static_cast<" (by decide), reachesSaved_between ">(" (by decide),
      reachesSaved_closed ")" (by decide)]
    exact ⟨reachesSaved_of_isHarmlessText htype, hvalue⟩
  cases t with
  | void m =>
    rw [push] at h
    split at h
    · cases h
      exact hsingle (by decide) hvalue
    · cases h
  | numeric kind m =>
    rw [push] at h
    cases h
    split
    · exact hsingle (by decide) hvalue
    · refine hsingle ?_ (hcast _ ?_)
      · cases kind.isFloating <;> decide
      · cases kind <;> decide
  | bool m =>
    cases h
    exact hsingle (by decide) hvalue
  | text kind m =>
    have hwide : ReachesSaved slot s!"::RC::to_string({Closure.argumentName i}).c_str()" :=
      (reachesSaved_closed ").c_str()" (by decide)).2 ((reachesSaved_opened "::RC::to_string(" (by decide)).2 hvalue)
    cases kind with
    | narrowPointer =>
      cases h
      exact hsingle (by decide) hvalue
    | narrow =>
      cases h
      exact hsingle (by decide) (reachesSaved_characters i)
    | _ =>
      cases h
      exact hsingle (by decide) hwide
  | enum name m =>
    cases h
    exact hsingle (by decide) (hcast "lua_Integer" (by decide))
  | record r m =>
    rw [push] at h
    rw [pushedNames]
    cases hfind : registry.find? r.scope r.name with
    | none =>
      rw [hfind] at h
      cases h
    | some owner =>
      rw [hfind] at h
      cases h
      rw [PushCode.reachesSaved_object r m owner hvalue]
      simp
  | function params result hasStorage m =>
    obtain ⟨name, hname, -⟩ := bind_eq_ok.1 hspelled
    cases hname
  | array names element m =>
    obtain ⟨name, hname, h⟩ := bind_eq_ok.1 h
    cases h
    rw [PushCode.reachesSaved_arrayWrapper names name element.isPointer m hvalue, pushedNames, hname]
    simp [Except.toOption]

/-- Every check names the Lua state of the call. -/
theorem state_mem_validate (t : CxxType) : "lua_state".toList ∈ Text.words (t.validate (-1)) := by
  have hfront : ∀ front rest : String, (Text.endsInMark front && (Text.words front).contains "lua_state".toList) = true →
      "lua_state".toList ∈ Text.words (front ++ rest) := by
    intro front rest h
    obtain ⟨hends, hmem⟩ := Bool.and_eq_true_iff.1 h
    exact (Text.words_append_of_ends hends (by decide)).2 (.inl (List.contains_iff_mem.1 hmem))
  have huserdata : "lua_state".toList ∈ Text.words (userdataCheck (-1)) := by
    unfold userdataCheck
    simp only [String.append_assoc]
    exact hfront _ _ (by decide)
  have hnullable : "lua_state".toList ∈ Text.words (nullableCheck (-1)) := by
    unfold nullableCheck
    simp only [String.append_assoc]
    exact hfront _ _ (by decide)
  unfold validate
  cases t <;> dsimp only
  case void m =>
    split
    · exact huserdata
    · split
      · exact hnullable
      · decide
  case numeric kind m =>
    split
    · exact hnullable
    · split
      · exact huserdata
      · decide
  case record r m =>
    split
    · simp only [String.append_assoc]
      exact hfront _ _ (by decide)
    · decide
  case function =>
    simp only [String.append_assoc]
    exact hfront _ _ (by decide)
  all_goals decide

end CxxType

/-! ### The lambda -/

namespace Closure

/-- The Lua state, as the lambda names it. -/
def state (c : Closure) : String := qualifier c.slot c.hasStorage ++ "lua_state"

/-- The reference to the Lua function, as the lambda names it. -/
def reference (c : Closure) : String := qualifier c.slot c.hasStorage ++ ("param_inter_" ++ toString c.slot)

/-- What the lambda does, from its head to the line that closes it. -/
def bodyText (c : Closure) : String :=
  Text.lines 12
      [s!"if (lua_rawgeti({c.state}, LUA_REGISTRYINDEX, {c.reference}) != LUA_TFUNCTION)",
       "\x7b",
       s!"    luaL_error({c.state}, std::format(\"Expected 'function' got '\x7b\x7d'\", lua_typename({c.state}, -1)).c_str());",
       "\x7d",
       ""]
    ++ (String.join (c.arguments.map renderArgument)
    ++ (Text.line 8 ""
    ++ (Text.lines 12
      [s!"if (int status = lua_pcall({c.state}, {c.arguments.length}, {c.resultCount}, 0); status != LUA_OK)",
       "\x7b",
       s!"    throw std::runtime_error(std::format(\"lua_pcall returned \x7b\x7d\", resolve_status_message({c.state}, status)));",
       "\x7d"]
    ++ (Text.line 8 "" ++ (c.outcome.map renderOutcome).getD ""))))

theorem renderLambda_eq (c : Closure) : c.renderLambda = c.renderHead ++ c.bodyText ++ Text.line 8 "\x7d;" := by
  have hstate : ∀ front q back : String, front ++ (q ++ "lua_state") ++ back = front ++ q ++ ("lua_state" ++ back) := by
    intro front q back
    simp only [String.append_assoc]
  have hreference : ∀ front q n back : String,
      front ++ (q ++ ("param_inter_" ++ n)) ++ back = front ++ q ++ "param_inter_" ++ n ++ back := by
    intro front q n back
    simp only [String.append_assoc]
  simp only [renderLambda, bodyText, state, reference, toString, hstate, hreference, String.reduceAppend,
    String.append_assoc]

section Body

variable {c : Closure} {slot : Nat}

theorem reachesSaved_renderArgument (code : PushCode) :
    ReachesSaved slot (renderArgument code) ↔ ReachesSaved slot code.render := by
  have htext : renderArgument code
      = Text.line 12 "\x7b" ++ (code.render ++ (";\n" ++ Text.line 12 "\x7d" ++ "\n")) := by
    simp only [renderArgument, String.append_assoc]
  rw [htext, reachesSaved_opened _ (by decide), reachesSaved_closed _ (by decide)]

theorem endsInMark_renderArgument (code : PushCode) : Text.endsInMark (renderArgument code) = true := by
  rw [renderArgument, Text.endsInMark, String.toList_append, List.getLast?_append_of_ne_nil _ (by decide)]
  decide

/-- The result is checked and read through the Lua state of the call. -/
theorem not_reachesSaved_renderOutcome {t : CxxType} {value fallback : String} :
    ¬ ReachesSaved slot (renderOutcome ⟨t.validate (-1), value, fallback⟩) := by
  intro hreaches
  rw [renderOutcome, ← String.append_empty (s := Text.lines _ _), reachesSaved_lines_append] at hreaches
  have hif := hreaches.1 s!"if ({t.validate (-1)})" List.mem_cons_self
  exact not_reachesSaved_of_mem t.state_mem_validate
    ((reachesSaved_opened "if (" (by decide)).1 ((reachesSaved_closed ")" (by decide)).1 hif))

/-- Arguments and result apart, the lambda takes what it needs from the saved parameters. -/
theorem reachesSaved_bodyText (hstorage : c.hasStorage = false) : ReachesSaved c.slot c.bodyText
    ↔ (∀ code ∈ c.arguments, ReachesSaved c.slot code.render)
      ∧ ReachesSaved c.slot ((c.outcome.map renderOutcome).getD "") := by
  have hstate : ReachesSaved c.slot c.state := by
    rw [state, hstorage]
    exact reachesSaved_qualified List.mem_cons_self
  have hreference : ReachesSaved c.slot c.reference := by
    rw [reference, hstorage]
    exact reachesSaved_qualified (List.mem_cons_of_mem _ List.mem_cons_self)
  have hload : ReachesSaved c.slot
      s!"if (lua_rawgeti({c.state}, LUA_REGISTRYINDEX, {c.reference}) != LUA_TFUNCTION)" :=
    (reachesSaved_framed_two (by decide) (by decide) (by decide)).2 ⟨hstate, hreference⟩
  have hraise : ReachesSaved c.slot
      s!"    luaL_error({c.state}, std::format(\"Expected 'function' got '\x7b\x7d'\", lua_typename({c.state}, -1)).c_str());" :=
    (reachesSaved_framed_two (by decide) (by decide) (by decide)).2 ⟨hstate, hstate⟩
  have hcall : ReachesSaved c.slot
      s!"if (int status = lua_pcall({c.state}, {c.arguments.length}, {c.resultCount}, 0); status != LUA_OK)" := by
    refine (reachesSaved_closed _ (by decide)).2 ?_
    rw [String.append_assoc, reachesSaved_between _ (by decide), String.append_assoc,
      reachesSaved_between _ (by decide), reachesSaved_opened _ (by decide)]
    exact ⟨⟨hstate, reachesSaved_toString _⟩, reachesSaved_toString _⟩
  have hthrow : ReachesSaved c.slot
      s!"    throw std::runtime_error(std::format(\"lua_pcall returned \x7b\x7d\", resolve_status_message({c.state}, status)));" :=
    (reachesSaved_framed (by decide) (by decide)).2 hstate
  have hplain : ReachesSaved c.slot "\x7b" ∧ ReachesSaved c.slot "\x7d" ∧ ReachesSaved c.slot "" :=
    ⟨reachesSaved_of_isHarmlessText (by decide), reachesSaved_of_isHarmlessText (by decide),
      reachesSaved_of_isHarmlessText (by decide)⟩
  rw [bodyText, reachesSaved_lines_append,
    reachesSaved_join_append (List.forall_mem_map.2 fun code _ => endsInMark_renderArgument code),
    reachesSaved_opened (Text.line 8 "") (by decide), reachesSaved_lines_append,
    reachesSaved_opened (Text.line 8 "") (by decide), List.forall_mem_map]
  simp only [List.forall_mem_cons, List.not_mem_nil, false_implies, implies_true, reachesSaved_renderArgument, hload,
    hraise, hcall, hthrow, hplain, and_true, true_and]

end Body

section Made

variable {s : Signature} {slot : Nat} {registry : Registry} {c : Closure}

/-- The code of the arguments takes what it needs from the saved parameters, unless a type of them is called like it. -/
theorem reachesSaved_arguments_iff (hstorage : s.hasStorage = false) (hmade : MadeOf s slot registry c) :
    (∀ code ∈ c.arguments, ReachesSaved slot code.render)
      ↔ ∀ t ∈ s.params, ∀ name ∈ t.pushedNames registry, ReachesSaved slot name := by
  have hpush := hmade.arguments
  rw [hstorage] at hpush
  constructor
  · intro hall t ht
    obtain ⟨i, hi⟩ := List.mem_iff_getElem?.1 ht
    obtain ⟨code, hcode, hof⟩ := exists_mem_of_mapM_ok hpush (t, i) (List.mem_zipIdx_iff_getElem?.2 hi)
    obtain ⟨spelled, -, hspelled⟩ := exists_mem_of_mapM_ok hmade.params t ht
    exact (CxxType.reachesSaved_push hspelled hof).1 (hall code hcode)
  · intro hall code hcode
    obtain ⟨⟨t, i⟩, hmem, hof⟩ := exists_of_mem_mapM_ok hpush code hcode
    have ht := List.fst_mem_of_mem_zipIdx hmem
    obtain ⟨spelled, -, hspelled⟩ := exists_mem_of_mapM_ok hmade.params t ht
    exact (CxxType.reachesSaved_push hspelled hof).2 (hall t ht)

/-- A result is read with what the call captured. -/
theorem reachesSaved_outcome_iff (hmade : MadeOf s slot registry c) :
    ReachesSaved slot ((c.outcome.map renderOutcome).getD "") ↔ s.result.isVoidValue = true := by
  rcases hmade.outcome with ⟨hvoid, hnone⟩ | ⟨hvalue, value, fallback, -, hsome⟩
  · rw [hnone]
    exact iff_of_true (reachesSaved_of_isHarmlessText (by decide : isHarmlessText "" = true)) hvoid
  · rw [hsome, hvalue]
    exact iff_of_false not_reachesSaved_renderOutcome Bool.false_ne_true

end Made

end Closure

/-- CORRECT: behind its head the lambda of a function pointer takes the Lua state and the function from the parameters
saved for its slot, wherever it uses them, if and only if the function has no result and no type that is named to push
an argument is called like what the lambda needs. -/
theorem lambda_reaches_saved_iff (s : Signature) (slot : Nat) (registry : Registry) (c : Closure)
    (hstorage : s.hasStorage = false) (h : Closure.ofSignature s slot registry = .ok c) :
    c.renderLambda = c.renderHead ++ c.bodyText ++ Text.line 8 "\x7d;"
      ∧ (ReachesSaved slot c.bodyText ↔ s.result.isVoidValue = true
        ∧ ∀ t ∈ s.params, ∀ name ∈ t.pushedNames registry, ReachesSaved slot name) := by
  have hmade := Closure.madeOf h
  have hargument := Closure.reachesSaved_arguments_iff hstorage hmade
  have houtcome := Closure.reachesSaved_outcome_iff hmade
  refine ⟨c.renderLambda_eq, ?_⟩
  rw [← hmade.slot_eq] at hargument houtcome ⊢
  rw [Closure.reachesSaved_bodyText (hmade.hasStorage_eq.trans hstorage), hargument, houtcome, and_comm]

/-- `void(*)(int, const std::string&, Texture*)`. -/
def reportSignature : Signature :=
  ⟨[.numeric .int32 {}, .text .narrow { isConst := true, isReference := true },
    .record { scope := "::Gfx", name := "Texture" } { isPointer := true }], CxxType.plainVoid, false⟩

/-- One class in one scope. -/
def textures : Registry := { classes := [{ id := 0, name := "Texture", scope := "::Gfx", source := "" }] }

theorem report_reaches_saved : ∃ c, Closure.ofSignature reportSignature 1 textures = .ok c
    ∧ ReachesSaved 1 c.bodyText := by
  obtain ⟨-, hreaches⟩ := lambda_reaches_saved_iff reportSignature 1 textures _ rfl rfl
  exact ⟨_, rfl, hreaches.2 (by decide +kernel)⟩

/-- `bool(*)(int)`. -/
def filterSignature : Signature := ⟨[.numeric .int32 {}], .bool {}, false⟩

/-- The result is read with what the call captured. -/
theorem filter_uses_captured : ∃ c, Closure.ofSignature filterSignature 1 {} = .ok c ∧ ¬ ReachesSaved 1 c.bodyText := by
  have hmakes : (Closure.ofSignature filterSignature 1 {}).toOption.any (fun _ => true) = true := by decide +kernel
  obtain ⟨c, hc, -⟩ := exists_ok_of_any hmakes
  have hmade := Closure.madeOf hc
  refine ⟨c, hc, fun hreaches => ?_⟩
  have hbody := Closure.reachesSaved_bodyText hmade.hasStorage_eq
  rw [hmade.slot_eq] at hbody
  exact absurd ((Closure.reachesSaved_outcome_iff hmade).1 (hbody.1 hreaches).2) (by decide)

end LuaGlue
