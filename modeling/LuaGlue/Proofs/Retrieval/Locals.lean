import LuaGlue.Proofs.Overload.Dispatch
import LuaGlue.Proofs.Retrieval.Layouts
import LuaGlue.Proofs.Selection.Recorded
import LuaGlue.Proofs.Signatures.Captured
import Mathlib.Data.List.DropRight

/-!
The locals of a call.

All arguments of an overload are read in one scope, so what is declared to read one of them must not be declared for
another one. Each kind of type has locals of its own, and all their names end in the number of the slot; but a function
is read through an alias of its type, and the name of that has no number.

    Watch(const std::wstring&, void(*)(int), void(*)(bool))

    slot 1   param_inter_1   param_ansi_1   param_1
    slot 2   param_inter_2   LambdaParams_2 ..   param_function_ref_2   CXXFuncSignature   param_2
    slot 3   param_inter_3   LambdaParams_3 ..   param_function_ref_3   CXXFuncSignature   param_3
                                                                        └ declared twice ┘

The code is taken apart into its statements (`Extraction.textAll_statements`), and each statement says what it declares
(`Extraction.declared_statements`).
-/

namespace LuaGlue

/-! ### Names -/

/-- What the name of a local of a slot begins with. -/
inductive LocalStem where
  | parameter
  | intermediate
  | ansi
  | wide
  | platform
  | lambda
  | savedType
  | savedStack
  | saved
  deriving DecidableEq, Repr

/-- The stem as it is written. -/
def LocalStem.text : LocalStem → String
  | .parameter => "param_"
  | .intermediate => "param_inter_"
  | .ansi => "param_ansi_"
  | .wide => "param_wide_"
  | .platform => "param_unknown_"
  | .lambda => "param_function_ref_"
  | .savedType => "LambdaParams_"
  | .savedStack => "static_lambda_params_"
  | .saved => "lambda_params_"

/-- The name of a local. -/
inductive LocalName where
  /-- The name of a local of a slot. -/
  | numbered (stem : LocalStem) (slot : Nat)
  /-- The alias of a function type. -/
  | signature
  deriving DecidableEq, Repr

namespace LocalName

/-- The name as it is written. -/
def text : LocalName → String
  | numbered stem slot => stem.text ++ toString slot
  | signature => "CXXFuncSignature"

/-- The number behind a stem is read off the end of the name. -/
theorem rtakeWhile_text (stem : LocalStem) (slot : Nat) :
    (text (numbered stem slot)).toList.rtakeWhile Char.isDigit = (toString slot).toList := by
  have hdigits : ∀ c ∈ (toString slot).toList.reverse, c.isDigit = true :=
    fun c hc => isDigit_of_mem_toString (List.mem_reverse.1 hc)
  have hstem : stem.text.toList.reverse.takeWhile Char.isDigit = [] := by
    cases stem <;> decide
  rw [text, List.rtakeWhile, String.toList_append, List.reverse_append, List.takeWhile_append_of_pos hdigits, hstem,
    List.append_nil, List.reverse_reverse]

theorem rtakeWhile_signature : (text signature).toList.rtakeWhile Char.isDigit = [] := by decide

/-- Locals that are written alike are the same. -/
theorem text_injective : Function.Injective text := by
  intro a b h
  have hdigits := congrArg (fun name : String => name.toList.rtakeWhile Char.isDigit) h
  have hne : ∀ slot : Nat, (toString slot).toList ≠ [] := fun slot => by
    rw [Nat.toString_eq_repr, Nat.toList_repr]
    exact Nat.toDigits_ne_nil
  cases a with
  | signature =>
    cases b with
    | signature => rfl
    | numbered stem slot =>
      rw [rtakeWhile_text, rtakeWhile_signature] at hdigits
      exact absurd hdigits.symm (hne slot)
  | numbered stem slot =>
    cases b with
    | signature =>
      rw [rtakeWhile_text, rtakeWhile_signature] at hdigits
      exact absurd hdigits (hne slot)
    | numbered stem' slot' =>
      rw [rtakeWhile_text, rtakeWhile_text, Nat.toString_eq_repr, Nat.toString_eq_repr, Nat.toList_repr,
        Nat.toList_repr] at hdigits
      obtain rfl : slot = slot' :=
        calc slot = Nat.ofDigitChars 10 (Nat.toDigits 10 slot) 0 := Nat.ofDigitChars_ten_toDigits.symm
          _ = Nat.ofDigitChars 10 (Nat.toDigits 10 slot') 0 := by rw [hdigits]
          _ = slot' := Nat.ofDigitChars_ten_toDigits
      have hstem : stem.text = stem'.text := (String.append_left_inj _).1 h
      cases stem <;> cases stem' <;> first | rfl | exact absurd hstem (by decide)

end LocalName

/-! ### Statements -/

/-- What a declaration begins with. -/
inductive Keyword where
  | auto (byReference : Bool)
  | struct
  | using
  /-- A type that is written out. -/
  | type (name : String)
  deriving DecidableEq, Repr

/-- The beginning as it is written. -/
def Keyword.text : Keyword → String
  | .auto byReference => if byReference then "auto& " else "auto "
  | .struct => "struct "
  | .using => "using "
  | .type name => name ++ " "

/-- A statement of the code that reads an argument. -/
inductive Statement where
  /-- A local is declared: a variable, a type or the alias of one. -/
  | declare (indent : Nat) (keyword : Keyword) (name : LocalName) (rest : String)
  /-- Nothing is declared. -/
  | perform (text : String)
  deriving DecidableEq, Repr

namespace Statement

/-- The statement as it is written. -/
def text : Statement → String
  | declare indent keyword name rest => Text.blanks indent ++ keyword.text ++ name.text ++ rest
  | perform text => text

/-- Statements one after another. -/
def textAll (statements : List Statement) : String := String.join (statements.map text)

/-- The local that a statement declares. -/
def declared? : Statement → Option LocalName
  | declare _ _ name _ => some name
  | perform _ => none

/-- The locals that statements declare. -/
def declared (statements : List Statement) : List LocalName := statements.filterMap declared?

theorem textAll_nil : textAll [] = "" := rfl

theorem textAll_cons (s : Statement) (rest : List Statement) : textAll (s :: rest) = s.text ++ textAll rest := by
  rw [textAll, List.map_cons, String.join_cons, ← textAll]

theorem textAll_append (ss ts : List Statement) : textAll (ss ++ ts) = textAll ss ++ textAll ts := by
  rw [textAll, List.map_append, String.join_append, ← textAll, ← textAll]

end Statement

/-- The statements that save what a function pointer needs. -/
def Closure.savingStatements (indent slot : Nat) : List Statement :=
  [.declare indent .struct (.numbered .savedType slot) ("\n" ++ Text.lines 8
     ["\x7b",
      "    lua_State* lua_state;",
      s!"    int param_inter_{slot};",
      "\x7d;"]),
   .declare 8 (.type s!"static std::vector<LambdaParams_{slot}>") (.numbered .savedStack slot) "\x7b\x7d;\n",
   .declare 8 (.type s!"static LambdaParams_{slot}") (.numbered .saved slot) "\x7b\x7d;\n",
   .perform (Text.line 8
     s!"lambda_params_{slot} = static_lambda_params_{slot}.emplace_back(LambdaParams_{slot}\x7blua_state, param_inter_{slot}\x7d);")]

/-- The lambda, behind its name. -/
def Closure.lambdaText (c : Closure) : String :=
  let capture := if c.hasStorage then "=" else "&"
  s!" = [{capture}](" ++ Text.separated ", " (c.params.zipIdx.map fun (t, i) => t.render ++ " " ++ argumentName i)
    ++ ") -> " ++ c.result.render ++ " \x7b\n" ++ c.bodyText ++ Text.line 8 "\x7d;"

/-- The type that the alias stands for. -/
def Closure.aliased (c : Closure) : String :=
  if c.hasStorage then s!"std::function<{c.plainText}>" else c.pointerText

/-- The lines that give the parameter its value. -/
def Closure.assignments (c : Closure) : List String :=
  [s!"if (lua_isuserdata(lua_state, {c.slot}))",
   "\x7b",
   s!"    auto function_proto = static_cast<FunctionProto*>(luaL_checkudata(lua_state, {c.slot}, \"FunctionProtoMetatable\"));",
   s!"    param_{c.slot} = std::bit_cast<{c.pointerText}>(function_proto->function_pointer);",
   "\x7d",
   s!"else if (lua_isinteger(lua_state, {c.slot}))",
   "\x7b",
   s!"    param_{c.slot} = std::bit_cast<{c.pointerText}>(lua_tointeger(lua_state, {c.slot}));",
   "\x7d",
   s!"else if (lua_isnil(lua_state, {c.slot}))",
   "\x7b",
   s!"    param_{c.slot} = std::bit_cast<{c.pointerText}>(nullptr);",
   "\x7d",
   "else",
   "\x7b",
   if c.hasStorage then s!"        param_{c.slot} = param_function_ref_{c.slot};"
   else s!"            param_{c.slot} = fnptr<{c.plainText}>(param_function_ref_{c.slot});",
   "\x7d"]

/-- The statements that make the native parameter of a Lua function. -/
def Closure.statements (indent : Nat) (c : Closure) : List Statement :=
  (if c.hasStorage then [] else savingStatements indent c.slot) ++
    [.declare (if c.hasStorage then indent else 0) (.auto false) (.numbered .lambda c.slot) c.lambdaText,
     .declare 4 .using .signature s!" = {c.aliased};\n",
     .declare 4 (.type "CXXFuncSignature") (.numbered .parameter c.slot) ";\n",
     .perform (Text.lines 4 c.assignments ++ ";\n")]

/-- The statements of a conversion. -/
def Conversion.statements (indent : Nat) : Conversion → List Statement
  | .widen .widePointer p =>
    [.declare indent (.auto false) (.numbered .ansi p) s!" = std::string\x7bparam_inter_{p}\x7d;\n",
     .declare 16 (.auto false) (.numbered .wide p)
       s!" = std::wstring\x7bparam_ansi_{p}.begin(), param_ansi_{p}.end()\x7d;\n",
     .declare 16 (.auto false) (.numbered .parameter p) s!" = param_wide_{p}.c_str();\n"]
  | .widen .platform p =>
    [.declare indent (.auto false) (.numbered .platform p) s!" = std::string\x7bparam_inter_{p}\x7d;\n",
     .declare 16 (.auto false) (.numbered .parameter p)
       s!" = RC::File::StringType\x7bparam_unknown_{p}.begin(), param_unknown_{p}.end()\x7d;\n"]
  | .widen _ p =>
    [.declare indent (.auto false) (.numbered .ansi p) s!" = std::string\x7bparam_inter_{p}\x7d;\n",
     .declare 16 (.auto false) (.numbered .parameter p)
       s!" = std::wstring\x7bparam_ansi_{p}.begin(), param_ansi_{p}.end()\x7d;\n"]
  | .closure c => c.statements indent
  | .array type p =>
    [.declare indent (.auto true) (.numbered .parameter p) s!" = *std::bit_cast<{type}*>(param_inter_{p});\n"]

/-- The statements that read a slot. -/
def Extraction.statements (indent : Nat) : Extraction → List Statement
  | .object fetch =>
    [.declare 8 (.auto fetch.byReference) (.numbered .parameter fetch.slot.toNat)
      s!" = lua_util_userdata_Get<\"{fetch.tag}Metatable\", {fetch.type}, convertible_to_{fetch.tag}>(lua_state, {fetch.slot});\n"]
  | .checked slot check (.direct byReference value) =>
    [.perform (renderCheck indent slot check),
     .declare indent (.auto byReference) (.numbered .parameter slot) s!" = {value};\n"]
  | .checked slot check (.converted value conversion) =>
    .perform (renderCheck indent slot check)
      :: .declare indent (.auto false) (.numbered .intermediate slot) s!" = {value};\n"
      :: conversion.statements indent

/-! ### Their text -/

theorem Closure.renderSaved_eq (indent slot : Nat) :
    Text.blanks indent ++ renderSaved slot = Statement.textAll (savingStatements indent slot) := by
  unfold renderSaved savingStatements
  apply String.toList_inj.1
  simp only [Statement.textAll_cons, Statement.textAll_nil, Statement.text, Keyword.text, LocalName.text,
    LocalStem.text, Text.lines_cons, Text.lines_nil, Text.line, toString]
  simp

theorem Closure.renderHead_eq (c : Closure) : c.renderHead ++ c.bodyText ++ Text.line 8 "\x7d;"
    = "auto " ++ LocalName.text (.numbered .lambda c.slot) ++ c.lambdaText := by
  unfold renderHead lambdaText LocalName.text LocalStem.text
  apply String.toList_inj.1
  simp only [toString]
  simp

theorem Closure.renderParam_eq (c : Closure) : c.renderParam
    = Text.line 4 s!"using CXXFuncSignature = {c.aliased};"
      ++ (Text.line 4 s!"CXXFuncSignature param_{c.slot};" ++ Text.lines 4 c.assignments) := by
  unfold renderParam assignments aliased
  rw [Text.lines_cons, Text.lines_cons]

/-- The statements of a closure are what is written for it. -/
theorem Closure.textAll_statements (indent : Nat) (c : Closure) :
    Statement.textAll (c.statements indent) = Text.line indent s!"{c.render};" := by
  have hlambda := c.renderLambda_eq.trans c.renderHead_eq
  have halias : ∀ type : String, Text.line 4 s!"using CXXFuncSignature = {type};"
      = Statement.text (.declare 4 .using .signature s!" = {type};\n") := by
    intro type
    apply String.toList_inj.1
    simp only [Text.line, Statement.text, Keyword.text, LocalName.text, toString]
    simp
  have hparam : Text.line 4 s!"CXXFuncSignature param_{c.slot};"
      = Statement.text (.declare 4 (.type "CXXFuncSignature") (.numbered .parameter c.slot) ";\n") := by
    apply String.toList_inj.1
    simp only [Text.line, Statement.text, Keyword.text, LocalName.text, LocalStem.text, toString]
    simp
  have hblanks : Text.blanks 0 = "" := rfl
  rw [render, hlambda, renderParam_eq, halias, hparam, statements, Statement.textAll_append]
  cases c.hasStorage with
  | true =>
    simp only [↓reduceIte, Statement.textAll_cons, Statement.textAll_nil, Statement.text, Text.line, toString,
      String.append_assoc, String.append_empty, String.empty_append, Keyword.text, Bool.false_eq_true,
      String.reduceAppend]
  | false =>
    simp only [← renderSaved_eq, Bool.false_eq_true, ↓reduceIte, Statement.textAll_cons, Statement.textAll_nil,
      Statement.text, Text.line, toString, String.append_assoc, String.append_empty, String.empty_append, Keyword.text,
      hblanks, String.reduceAppend]

set_option maxRecDepth 2000 in
/-- The statements of a conversion are what is written for it. -/
theorem Conversion.textAll_statements (indent : Nat) (c : Conversion) :
    Statement.textAll (c.statements indent) = Text.line indent s!"{c.render};" := by
  match c with
  | .closure c => exact c.textAll_statements indent
  | .array type p =>
    apply String.toList_inj.1
    unfold statements render
    simp only [Statement.textAll_cons, Statement.textAll_nil, Statement.text, Keyword.text, LocalName.text,
      LocalStem.text, Text.line, toString]
    simp
  | .widen kind p =>
    apply String.toList_inj.1
    unfold statements render
    cases kind <;>
    · simp only [Statement.textAll_cons, Statement.textAll_nil, Statement.text, Keyword.text, LocalName.text,
        LocalStem.text, Text.line, Text.openLines, toString]
      simp

/-- The statements that read a slot are what is written for it. -/
theorem Extraction.textAll_statements {layout : Layout} {registry : Registry} {t : CxxType} {slot : Nat} {e : Extraction}
    (h : ofType layout registry t slot = .ok e) (indent : Nat) :
    Statement.textAll (e.statements indent) = e.render indent := by
  apply String.toList_inj.1
  cases madeOf h with
  | object ref m htype =>
    have hslot : (slot : Int).repr = slot.repr := rfl
    simp only [render, UserdataFetch.render, statements, Statement.textAll_cons, Statement.textAll_nil, Statement.text,
      Keyword.text, LocalName.text, LocalStem.text, Text.line, toString, hslot, Int.toNat_natCast]
    cases m.isReference <;> simp
  | direct value =>
    simp only [render, statements, Statement.textAll_cons, Statement.textAll_nil, Statement.text, Keyword.text,
      LocalName.text, LocalStem.text, Text.line, toString]
    cases bindsReference layout t <;> simp
  | converted value conversion =>
    simp only [render, statements, Statement.textAll_cons, Conversion.textAll_statements, Statement.text, Keyword.text,
      LocalName.text, LocalStem.text, Text.line, toString]
    simp

/-! ### What is declared -/

/-- The locals that are declared to read a slot as a type. -/
def CxxType.locals (slot : Nat) : CxxType → List LocalName
  | .text .widePointer _ =>
    [.numbered .intermediate slot, .numbered .ansi slot, .numbered .wide slot, .numbered .parameter slot]
  | .text .platform _ => [.numbered .intermediate slot, .numbered .platform slot, .numbered .parameter slot]
  | .text .wide _ => [.numbered .intermediate slot, .numbered .ansi slot, .numbered .parameter slot]
  | .function _ _ hasStorage _ =>
    .numbered .intermediate slot ::
      (if hasStorage then []
        else [.numbered .savedType slot, .numbered .savedStack slot, .numbered .saved slot]) ++
      [.numbered .lambda slot, .signature, .numbered .parameter slot]
  | .array _ _ _ => [.numbered .intermediate slot, .numbered .parameter slot]
  | _ => [.numbered .parameter slot]

/-- Is it a function type? -/
def CxxType.isFunction (t : CxxType) : Bool := t.signature?.isSome

section Types

variable {t : CxxType} {slot : Nat}

theorem Closure.declared_statements (indent : Nat) (c : Closure) : Statement.declared (c.statements indent)
    = (if c.hasStorage then []
        else [.numbered .savedType c.slot, .numbered .savedStack c.slot, .numbered .saved c.slot])
      ++ [.numbered .lambda c.slot, .signature, .numbered .parameter c.slot] := by
  unfold statements savingStatements
  cases c.hasStorage <;> rfl

/-- What is declared to read a slot depends on the type and the slot only. -/
theorem Extraction.declared_statements {layout : Layout} {registry : Registry} {e : Extraction}
    (h : ofType layout registry t slot = .ok e) (indent : Nat) :
    Statement.declared (e.statements indent) = t.locals slot := by
  cases madeOf h with
  | object ref m htype =>
    rw [htype]
    rfl
  | direct value hobject hneeds _ =>
    cases t with
    | text kind m =>
      cases kind with
      | narrowPointer | narrow => rfl
      | widePointer | wide | platform => cases hneeds
    | record ref m => cases hobject
    | function params result hasStorage m => cases hneeds
    | array names element m => cases hneeds
    | void | numeric | bool | enum => rfl
  | converted value conversion _ _ hconversion =>
    cases Conversion.madeOf hconversion with
    | widen kind m =>
      cases kind with
      | narrowPointer | narrow => cases hconversion
      | widePointer | wide | platform => rfl
    | closure m hclosure =>
      have hmade := Closure.madeOf hclosure
      have hclosed := Closure.declared_statements indent _ |>.trans (by rw [hmade.slot_eq, hmade.hasStorage_eq])
      exact congrArg (LocalName.numbered .intermediate slot :: ·) hclosed
    | array names element m type => rfl

/-- The alias of a function type apart, the locals of a slot are numbered by it. -/
theorem CxxType.eq_of_mem_locals {name : LocalName} (h : name ∈ t.locals slot) :
    (name = .signature ∧ t.isFunction = true) ∨ ∃ stem, name = .numbered stem slot := by
  cases t with
  | function params result hasStorage m =>
    by_cases hname : name = .signature
    · exact .inl ⟨hname, rfl⟩
    · cases hasStorage <;> simp [locals, hname] at h <;> grind
  | text kind m => cases kind <;> simp [locals] at h <;> grind
  | _ =>
    simp [locals] at h
    grind

theorem CxxType.signature_mem_locals : .signature ∈ t.locals slot ↔ t.isFunction = true := by
  cases t with
  | text kind m => cases kind <;> simp [locals, isFunction, signature?]
  | _ => simp [locals, isFunction, signature?]

/-- The parameter of the slot is declared, once, and that of no other slot. -/
theorem CxxType.count_parameter_locals (n : Nat) :
    (t.locals slot).count (.numbered .parameter n) = if slot = n then 1 else 0 := by
  cases t with
  | text kind m => cases kind <;> simp [locals, List.count_cons]
  | function params result hasStorage m => cases hasStorage <;> simp [locals, List.count_cons]
  | _ => simp [locals, List.count_cons]

end Types

/-! ### The arguments of an overload -/

/-- Of the locals of parameters, from this slot on, each parameter is one. -/
theorem Overload.count_parameter_locals (o : Overload) (start n : Nat) :
    ((o.zipIdx start).flatMap fun (param, i) => param.type.locals (i + 1)).count (.numbered .parameter n)
      = if start < n ∧ n ≤ start + o.length then 1 else 0 := by
  induction o generalizing start with
  | nil => simp
  | cons param rest ih =>
    rw [List.zipIdx_cons, List.flatMap_cons, List.count_append, CxxType.count_parameter_locals, ih, List.length_cons]
    grind

/-- The locals of two slots are the same in the alias of a function type, and nowhere else. -/
theorem CxxType.disjoint_locals {t u : CxxType} {i j : Nat} (hij : i ≠ j) :
    (t.locals i).Disjoint (u.locals j) ↔ ¬ (t.isFunction = true ∧ u.isFunction = true) := by
  constructor
  · rintro h ⟨ht, hu⟩
    exact h (signature_mem_locals.2 ht) (signature_mem_locals.2 hu)
  · intro h name ht hu
    rcases eq_of_mem_locals ht with ⟨rfl, hfunction⟩ | ⟨stem, rfl⟩
    · exact h ⟨hfunction, signature_mem_locals.1 hu⟩
    · rcases eq_of_mem_locals hu with ⟨hsignature, -⟩ | ⟨stem', hname⟩
      · cases hsignature
      · cases hname
        exact hij rfl

theorem Overload.pairwise_locals (o : Overload) :
    (o.zipIdx.map fun (param, i) => param.type.locals (i + 1)).Pairwise List.Disjoint
      ↔ o.Pairwise fun p q => ¬ (p.type.isFunction = true ∧ q.type.isFunction = true) := by
  have hlt : o.zipIdx.Pairwise fun p q => p.2 < q.2 := by
    refine List.pairwise_map.1 ?_
    rw [List.zipIdx_map_snd]
    exact List.pairwise_lt_range'
  have hfst : o.zipIdx.map Prod.fst = o := List.zipIdx_map_fst ..
  conv_rhs => rw [← hfst]
  rw [List.pairwise_map, List.pairwise_map]
  constructor
  · exact fun h => (hlt.and h).imp fun ⟨hij, hdisjoint⟩ => (CxxType.disjoint_locals (by omega)).1 hdisjoint
  · exact fun h => (hlt.and h).imp fun ⟨hij, hfunctions⟩ => (CxxType.disjoint_locals (by omega)).2 hfunctions

namespace Statement

/-- The names that statements declare, as they are written. -/
def names (statements : List Statement) : List String := (declared statements).map LocalName.text

theorem count_names (statements : List Statement) (name : LocalName) :
    (names statements).count name.text = (declared statements).count name :=
  List.count_map_of_injective _ _ LocalName.text_injective _

theorem disjoint_names {ss ts : List Statement} :
    (names ss).Disjoint (names ts) ↔ (declared ss).Disjoint (declared ts) :=
  ⟨fun h _ hs ht => h (List.mem_map_of_mem hs) (List.mem_map_of_mem ht), List.disjoint_map LocalName.text_injective⟩

end Statement

namespace CallCode

/-- The statements that read the arguments of an overload, for each of its parameters. -/
def statements (code : CallCode) (k : Nat) : List (List Statement) :=
  ((code.extractions[k]?).getD []).map (Extraction.statements code.layout.indent)

/-- What is written in front of the arguments of an overload: the beginning of its branch, unless it is the only one. -/
def opening (code : CallCode) (k : Nat) : String :=
  match code.layout with
  | .body => ""
  | .branch => (Piece.enter k).text .branch

variable {f : BoundFunction} {registry : Registry} {code : CallCode} {k : Nat} {o : Overload}

theorem statements_eq (h : CallCode.of f registry true = .ok code) (ho : f.overloads[k]? = some o) :
    ∃ extractions, code.extractions[k]? = some extractions
      ∧ Extraction.ofOverload code.layout registry o = .ok extractions
      ∧ code.statements k = extractions.map (Extraction.statements code.layout.indent) := by
  obtain ⟨extractions, hk, hreads⟩ := exists_getElem?_of_forall₂ (overloads_read h) ho
  exact ⟨extractions, hk, hreads, by rw [statements, hk, Option.getD_some]⟩

theorem declared_statements (h : CallCode.of f registry true = .ok code) (ho : f.overloads[k]? = some o) :
    (code.statements k).map Statement.declared = o.zipIdx.map fun (param, i) => param.type.locals (i + 1) := by
  obtain ⟨extractions, -, hreads, hstatements⟩ := statements_eq h ho
  rw [hstatements, List.map_map, ← List.forall₂_eq_eq_eq, List.forall₂_map_left_iff, List.forall₂_map_right_iff]
  exact (forall₂_of_mapM_ok hreads).flip.imp fun e p he => Extraction.declared_statements he code.layout.indent

theorem declared_flatten (h : CallCode.of f registry true = .ok code) (ho : f.overloads[k]? = some o) :
    Statement.declared (code.statements k).flatten = o.zipIdx.flatMap fun (param, i) => param.type.locals (i + 1) := by
  rw [Statement.declared, List.filterMap_flatten, List.flatMap_def, ← declared_statements h ho]
  rfl

/-- The statements of the arguments are what is written for them; in a body a blank line follows each. -/
theorem renderAll_eq {layout : Layout} {extractions : List Extraction}
    (h : Extraction.ofOverload layout registry o = .ok extractions) : Extraction.renderAll layout extractions
      = String.join ((extractions.map (Extraction.statements layout.indent)).map
        fun statements => Statement.textAll statements ++ Piece.gap.text layout) := by
  unfold Extraction.renderAll
  rw [List.map_map]
  refine congrArg String.join (List.map_congr_left fun e he => ?_)
  obtain ⟨⟨param, i⟩, -, hmade⟩ := exists_of_mem_mapM_ok h e he
  rw [Function.comp_apply, Extraction.textAll_statements hmade]
  cases layout <;> rfl

/-- The branch for an overload, from its beginning to its call. -/
theorem exists_render_branch {b : Branch} (hserves : b.Serves f registry o) :
    ∃ after, b.render = (Piece.enter b.index).text .branch ++ Extraction.renderAll .branch b.extractions
      ++ (NativeCall.ofOverload f o).render .branch ++ after := by
  obtain ⟨dropped, htail⟩ := hserves.calls
  unfold Branch.render Piece.text
  simp only [htail, Option.map_some, Option.getD_some, CallTail.render, ← String.append_assoc]
  exact ⟨_, String.append_assoc⟩

/-- The arguments of an overload are read in front of its call, in its branch. -/
theorem exists_render (h : CallCode.of f registry true = .ok code) (ho : f.overloads[k]? = some o) :
    ∃ before after, code.render = before ++ code.opening k
      ++ String.join ((code.statements k).map
        fun statements => Statement.textAll statements ++ Piece.gap.text code.layout)
      ++ (NativeCall.ofOverload f o).render code.layout ++ after := by
  obtain ⟨found, hk, hreads, hstatements⟩ := statements_eq h ho
  rw [hstatements, ← renderAll_eq hreads]
  obtain ⟨only, extractions, hone, -, rfl⟩ | ⟨branches, -, hbranches, rfl⟩ := of_cases h
  · obtain ⟨rfl, rfl⟩ : k = 0 ∧ only = o := by simpa [hone, List.getElem?_singleton] using ho
    obtain rfl : extractions = found := Option.some.inj hk
    refine ⟨"", String.join ((extractions.flatMap (·.savedSlots)).map Closure.resetSaved), ?_⟩
    simp only [render, layout, opening, ↓reduceIte, Option.map_some, Option.getD_some, CallTail.render,
      String.empty_append, String.append_assoc]
  · obtain ⟨hindices, hserves⟩ := branchesFrom_eq_ok hbranches
    obtain ⟨b, hb, hserves⟩ := Branch.exists_serves hserves ho
    obtain rfl : b.extractions = found := by simpa [extractions, hb] using hk
    obtain rfl : b.index = k := by
      have hindex := congrArg (·[k]?) hindices
      have hlt := (List.getElem?_eq_some_iff.1 hb).1
      simpa only [List.getElem?_map, hb, List.getElem?_range' hlt, Option.map_some, Option.some.injEq, Nat.zero_add,
        Nat.one_mul] using hindex
    obtain ⟨before, after, hpieces⟩ := infix_flatMap_of_mem (List.mem_of_getElem? hb) Branch.pieces
    obtain ⟨rest, hbranch⟩ := exists_render_branch hserves
    have hrender := fun candidates => textAll_pieces (.overloaded f.name candidates (NativeCall.marksOf f.result) branches)
    simp only [pieces, layout, ← hpieces, Piece.textAll_cons, Piece.textAll_append, Branch.textAll_pieces,
      hbranch] at hrender
    rw [← hrender]
    have hassoc (start before enter reads call rest after close : String) :
        start ++ (before ++ (enter ++ reads ++ call ++ rest) ++ after ++ close)
          = start ++ before ++ enter ++ reads ++ call ++ (rest ++ after ++ close) := by
      simp only [String.append_assoc]
    exact ⟨_, _, hassoc _ _ _ _ _ _ _ _⟩

end CallCode

/-- CORRECT: an overload is called right behind the statements that read its arguments, in the same branch, and these
declare each parameter of the call exactly once. No name is declared for two arguments if and only if no two parameters
are functions. -/
theorem locals_of_one_slot_iff (f : BoundFunction) (registry : Registry) (code : CallCode)
    (h : CallCode.of f registry true = .ok code) (k : Nat) (o : Overload) (ho : f.overloads[k]? = some o) :
    (∃ before after, code.render = before ++ code.opening k
        ++ String.join ((code.statements k).map
          fun statements => Statement.textAll statements ++ Piece.gap.text code.layout)
        ++ (NativeCall.ofOverload f o).render code.layout ++ after)
      ∧ (code.statements k).length = o.length
      ∧ (∀ i < (NativeCall.ofOverload f o).arity,
        (Statement.names (code.statements k).flatten).count s!"param_{i + 1}" = 1)
      ∧ ((code.statements k).Pairwise (fun a b => (Statement.names a).Disjoint (Statement.names b))
        ↔ o.Pairwise fun p q => ¬ (p.type.isFunction = true ∧ q.type.isFunction = true)) := by
  have hdeclared := CallCode.declared_statements h ho
  refine ⟨CallCode.exists_render h ho, ?_, fun i hi => ?_, ?_⟩
  · simpa using congrArg List.length hdeclared
  · have hcount := Statement.count_names (code.statements k).flatten (.numbered .parameter (i + 1))
    rw [CallCode.declared_flatten h ho, Overload.count_parameter_locals] at hcount
    have hi : i < o.length := hi
    exact hcount.trans (if_pos (by omega))
  · simp only [Statement.disjoint_names]
    rw [← List.pairwise_map, hdeclared, Overload.pairwise_locals]

/-- `void(*)(int)` as a parameter. -/
def callback : Param := ⟨"each", .function [.numeric .int32 {}] CxxType.plainVoid false {}⟩

/-- `Watch(const std::wstring&, void(*)(int), int)` and `Watch(void(*)(int), void(*)(bool))`. -/
def watchPairs : BoundFunction :=
  { BoundFunction.new "Watch" "" CxxType.plainVoid with
    overloads := [[⟨"name", .text .wide { isConst := true, isReference := true }⟩, callback, ⟨"count", .numeric .int32 {}⟩],
      [callback, ⟨"done", .function [.bool {}] CxxType.plainVoid false {}⟩]] }

theorem watch_first_apart : ∃ code, CallCode.of watchPairs {} true = .ok code
    ∧ (code.statements 0).Pairwise fun a b => (Statement.names a).Disjoint (Statement.names b) := by
  obtain ⟨-, -, -, hapart⟩ := locals_of_one_slot_iff watchPairs {} _ rfl 0 _ rfl
  exact ⟨_, rfl, hapart.2 (by decide)⟩

/-- The alias of the function type is declared for both arguments. -/
theorem watch_second_clashes : ∃ code first second, CallCode.of watchPairs {} true = .ok code
    ∧ code.statements 1 = [first, second]
    ∧ "CXXFuncSignature" ∈ Statement.names first ∧ "CXXFuncSignature" ∈ Statement.names second :=
  ⟨_, _, _, rfl, rfl, by decide +kernel, by decide +kernel⟩

end LuaGlue
