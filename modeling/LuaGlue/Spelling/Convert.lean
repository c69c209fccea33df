import LuaGlue.Spelling.Names
import LuaGlue.Spelling.Pieces
import LuaGlue.Text.Search

/-!
From the spelling of a type in C++ to the type.

    "const Texture*"  --marks-->  "Texture", pointer and const  --shape-->  a class

`stripMarks` takes the modifiers off the end of a spelling, `shape` says what kind of type the rest
spells and which parts of it are spellings again, and `convert` puts the types of the parts together.
Each part is shorter than the spelling it comes from (`length_lt_of_shape`), so the conversion ends.
-/

namespace LuaGlue.Spelling

/-- What spellings are read against. -/
structure Context where
  known : KnownNames
  /-- Templates that stand for other templates. -/
  templates : NameMap String
  patches : Patches

/-- The context that a registry and the known names make. -/
def Context.of (registry : Registry) (known : KnownNames) : Context :=
  { known, templates := registry.templates, patches := registry.patches }

/-! ### Marks -/

theorem length_of_stripMark {pattern rest : List Char} (text : List Char)
    (h : Text.stripBack? pattern (Text.trimEnd text) = some rest) :
    rest.length + pattern.length = (Text.trimEnd text).length := by
  have := congrArg List.length (Text.stripBack?_eq_some h)
  simpa using this.symm

/-- Takes `*`, `&` and `const` off the end of a text, the last one first. A pointer to a pointer, a
reference to a reference and a pointer to a reference are refused. -/
def stripMarks (whole : String) (m : Modifiers) (text : List Char) :
    Except SkipReason (List Char × Modifiers) :=
  let text' := Text.trimEnd text
  match _h₁ : Text.stripBack? ['&'] text' with
  | some rest =>
    if m.isReference || m.isPointer then .error (.unhandledType whole)
    else stripMarks whole { m with isReference := true } rest
  | none =>
    match _h₂ : Text.stripBack? " const".toList text' with
    | some rest => stripMarks whole { m with isConst := true } rest
    | none =>
      match _h₃ : Text.stripBack? ['*'] text' with
      | some rest =>
        if m.isPointer then .error (.multiLevelPointer whole)
        else stripMarks whole { m with isPointer := true } rest
      | none => .ok (text', m)
termination_by text.length
decreasing_by
  all_goals
    have hlen := Text.length_trimEnd_le text
    first
      | have := length_of_stripMark text _h₁
      | have := length_of_stripMark text _h₂
      | have := length_of_stripMark text _h₃
    simp at this
    omega

theorem length_of_stripMarks {whole : String} {m : Modifiers} {text : List Char}
    {r : List Char × Modifiers} (h : stripMarks whole m text = .ok r) :
    r.1.length ≤ text.length := by
  fun_induction stripMarks whole m text with
  | case1 => simp at h
  | case2 m text text' rest hrest _ ih =>
    have hlen := Text.length_trimEnd_le text
    have hmark := length_of_stripMark text hrest
    have hbase := ih h
    simp at hmark
    omega
  | case3 m text text' _ rest hrest ih =>
    have hlen := Text.length_trimEnd_le text
    have hmark := length_of_stripMark text hrest
    have hbase := ih h
    simp at hmark
    omega
  | case4 => simp at h
  | case5 m text text' _ _ rest hrest _ ih =>
    have hlen := Text.length_trimEnd_le text
    have hmark := length_of_stripMark text hrest
    have hbase := ih h
    simp at hmark
    omega
  | case6 m text text' =>
    simp only [Except.ok.injEq] at h
    rw [← h]
    exact Text.length_trimEnd_le text

/-- A spelling with its modifiers taken off both ends. -/
def splitMarks (whole : List Char) : Except SkipReason (List Char × Modifiers) := do
  let (m, rest) := match Text.stripFront? "const ".toList whole with
    | some rest => (({ isConst := true } : Modifiers), Text.trimStart rest)
    | none => ({}, whole)
  let (base, m) ← stripMarks (String.ofList whole) m rest
  return (Text.trim base, m)

theorem length_of_splitMarks {whole base : List Char} {m : Modifiers}
    (h : splitMarks whole = .ok (base, m)) : base.length ≤ whole.length := by
  unfold splitMarks at h
  cases hc : Text.stripFront? "const ".toList whole with
  | some rest =>
    rw [hc] at h
    cases hs : stripMarks (String.ofList whole) { isConst := true } (Text.trimStart rest) with
    | error e => simp [hs, bind, Except.bind] at h
    | ok r =>
      simp only [hs, bind, Except.bind, pure, Except.pure, Except.ok.injEq, Prod.mk.injEq] at h
      have h1 := length_of_stripMarks hs
      have h2 := Text.length_trimStart_le rest
      have h3 := congrArg List.length (Text.stripFront?_eq_some hc)
      have h4 := Text.length_trim_le r.1
      rw [← h.1]
      simp at h3
      omega
  | none =>
    rw [hc] at h
    cases hs : stripMarks (String.ofList whole) {} whole with
    | error e => simp [hs, bind, Except.bind] at h
    | ok r =>
      simp only [hs, bind, Except.bind, pure, Except.pure, Except.ok.injEq, Prod.mk.injEq] at h
      have h1 := length_of_stripMarks hs
      have h4 := Text.length_trim_le r.1
      rw [← h.1]
      omega

/-! ### Shapes -/

/-- What a spelling without modifiers spells. -/
inductive Shape where
  /-- A type without parts. -/
  | leaf (type : CxxType)
  /-- A function type; its result and parameters are spellings. -/
  | function (result : List Char) (params : List (List Char)) (hasStorage : Bool)
  /-- An instance of the configured container template; its element is a spelling. -/
  | array (names : ArrayNames) (element : List Char)

/-- The shape of `R(A, B)`. -/
def functionShape (text : List Char) (whole : String) (hasStorage : Bool) :
    Except SkipReason Shape :=
  match Text.breakAt? (· = '(') text with
  | none => .error (.unhandledType whole)
  | some (result, rest) =>
    match Text.breakAtLast? (· = ')') rest with
    | none => .error (.unhandledType whole)
    | some (inside, _) =>
      let inside := Text.trim inside
      let params :=
        if inside.isEmpty || inside = "void".toList then [] else splitTopLevel inside
      .ok (.function result params hasStorage)

/-- The shape of an instance of a template. -/
def templateShape (ctx : Context) (base : List Char) (whole : String) :
    Except SkipReason Shape :=
  match Text.stripBack? ['>'] base with
  | none => .error (.unhandledType whole)
  | some front =>
    match Text.breakAt? (· = '<') front with
    | none => .error (.unhandledType whole)
    | some (template, arguments) =>
      let name := Scope.fromGlobal (String.ofList (Text.trim template))
      let mapped := (ctx.templates.get? name).getD name
      match ctx.patches.array, splitTopLevel arguments with
      | some array, element :: _ =>
        if mapped = array.names.template then .ok (.array array.names element)
        else .error (.templatedType whole)
      | _, _ => .error (.templatedType whole)

/-- The shape of a name. -/
def nameShape (ctx : Context) (base : List Char) (whole scope : String) :
    Except SkipReason Shape :=
  if !isIdentifier base then .error (.unhandledType whole)
  else
    let name := String.ofList base
    match resolve ctx.known.enums name scope with
    | some qualified => .ok (.leaf (.enum qualified {}))
    | none =>
      let qualified := (resolve ctx.known.classes name scope).getD (Scope.fromGlobal name)
      .ok (.leaf (.record (classRef qualified none) {}))

/-- The shape of a name behind the keyword of an enum. -/
def enumShape (ctx : Context) (text : List Char) (scope : String) : Shape :=
  let name := String.ofList (Text.trim text)
  .leaf (.enum ((resolve ctx.known.enums name scope).getD (assume name scope)) {})

/-- The shape of a name behind the keyword of a class. -/
def forwardShape (ctx : Context) (text : List Char) (scope : String) (keyword : ForwardKeyword) :
    Shape :=
  let name := String.ofList (Text.trim text)
  let qualified := (resolve ctx.known.classes name scope).getD (assume name scope)
  .leaf (.record (classRef qualified (some keyword)) {})

/-- The text between the brackets of `std::function<...>`. -/
def closure? (base : List Char) : Option (List Char) := do
  Text.stripBack? ['>'] (← Text.stripFront? "std::function<".toList base)

/-- The text of a function pointer without its `(*)`. -/
def functionPointer? (base : List Char) : Option (List Char) := do
  let (before, after) ← Text.breakFirst? "(*)".toList base
  return before ++ after

/-- What a spelling without modifiers spells. -/
def shape (ctx : Context) (base : List Char) (whole scope : String) (isPointer : Bool) :
    Except SkipReason Shape :=
  if let some text := closure? base then functionShape text whole true
  else if let some text := functionPointer? base then functionShape text whole false
  else if let some builtin := builtin? (String.ofList (Scope.dropSeparators base)) isPointer then
    builtin.map .leaf
  else if let some text := Text.stripFront? "enum ".toList base then .ok (enumShape ctx text scope)
  else if let some text := Text.stripFront? "struct ".toList base then
    .ok (forwardShape ctx text scope .structWord)
  else if let some text := Text.stripFront? "class ".toList base then
    .ok (forwardShape ctx text scope .classWord)
  else if base.contains '<' then templateShape ctx base whole
  else nameShape ctx base whole scope

/-- The spellings a shape is made of. -/
def Shape.parts : Shape → List (List Char)
  | .leaf _ => []
  | .function result params _ => result :: params
  | .array _ element => [element]

theorem length_lt_of_functionShape {text part : List Char} {whole : String} {hasStorage : Bool}
    {s : Shape} (h : functionShape text whole hasStorage = .ok s) (hpart : part ∈ s.parts) :
    part.length < text.length := by
  unfold functionShape at h
  split at h
  · simp at h
  · next result rest hb =>
    split at h
    · simp at h
    · next inside tail hl =>
      obtain ⟨_, -, rfl⟩ := Text.breakAt?_eq_some hb
      obtain ⟨_, -, rfl⟩ := Text.breakAtLast?_eq_some hl
      simp only [Except.ok.injEq] at h
      subst h
      rcases List.mem_cons.1 hpart with rfl | hpart
      · simp
      · split at hpart
        · simp at hpart
        · have h1 := length_le_of_mem_splitTopLevel hpart
          have h2 := Text.length_trim_le inside
          simp
          omega

theorem length_lt_of_templateShape {ctx : Context} {base part : List Char} {whole : String}
    {s : Shape} (h : templateShape ctx base whole = .ok s) (hpart : part ∈ s.parts) :
    part.length < base.length := by
  unfold templateShape at h
  split at h
  · simp at h
  · next front hfront =>
    split at h
    · simp at h
    · next template arguments hb =>
      have hlen := congrArg List.length (Text.stripBack?_eq_some hfront)
      obtain ⟨_, -, rfl⟩ := Text.breakAt?_eq_some hb
      dsimp only at h
      split at h
      · next array element others harray hsplit =>
        split at h
        · simp only [Except.ok.injEq] at h
          subst h
          simp only [Shape.parts, List.mem_singleton] at hpart
          subst hpart
          have h1 : part ∈ splitTopLevel arguments := by rw [hsplit]; exact List.mem_cons_self
          have h2 := length_le_of_mem_splitTopLevel h1
          simp at hlen
          omega
        · simp at h
      · simp at h

theorem length_le_of_closure? {base text : List Char} (h : closure? base = some text) :
    text.length ≤ base.length := by
  simp only [closure?, Option.bind_eq_bind, Option.bind_eq_some_iff] at h
  obtain ⟨front, hfront, htext⟩ := h
  have h1 := congrArg List.length (Text.stripFront?_eq_some hfront)
  have h2 := congrArg List.length (Text.stripBack?_eq_some htext)
  simp at h1 h2
  omega

theorem length_le_of_functionPointer? {base text : List Char} (h : functionPointer? base = some text) :
    text.length ≤ base.length := by
  simp only [functionPointer?, Option.bind_eq_bind, Option.bind_eq_some_iff] at h
  obtain ⟨⟨before, after⟩, hb, htext⟩ := h
  have h1 := congrArg List.length (Text.breakFirst?_eq_some hb)
  simp only [Option.pure_def, Option.some.injEq] at htext
  subst htext
  simp at h1 ⊢
  omega

theorem length_lt_of_shape {ctx : Context} {base part : List Char} {whole scope : String}
    {isPointer : Bool} {s : Shape} (h : shape ctx base whole scope isPointer = .ok s)
    (hpart : part ∈ s.parts) : part.length < base.length := by
  unfold shape at h
  split at h
  · next text htext =>
    exact Nat.lt_of_lt_of_le (length_lt_of_functionShape h hpart) (length_le_of_closure? htext)
  split at h
  · next text htext =>
    exact Nat.lt_of_lt_of_le (length_lt_of_functionShape h hpart) (length_le_of_functionPointer? htext)
  split at h
  · next b _ =>
    cases b with
    | error e => simp [Except.map] at h
    | ok t =>
      simp only [Except.map, Except.ok.injEq] at h
      subst h
      simp [Shape.parts] at hpart
  split at h
  · simp only [Except.ok.injEq] at h
    subst h
    simp [enumShape, Shape.parts] at hpart
  split at h
  · simp only [Except.ok.injEq] at h
    subst h
    simp [forwardShape, Shape.parts] at hpart
  split at h
  · simp only [Except.ok.injEq] at h
    subst h
    simp [forwardShape, Shape.parts] at hpart
  split at h
  · exact length_lt_of_templateShape h hpart
  · unfold nameShape at h
    split at h
    · simp at h
    · dsimp only at h
      split at h <;>
      · simp only [Except.ok.injEq] at h
        subst h
        simp [Shape.parts] at hpart

/-! ### Conversion -/

/-- The type that a spelling written in a scope stands for. -/
def convertChars (ctx : Context) (scope : String) (spelling : List Char) :
    Except SkipReason CxxType :=
  let whole := Text.trim spelling
  match _hm : splitMarks whole with
  | .error reason => .error reason
  | .ok (base, m) =>
    match _hs : shape ctx base (String.ofList whole) scope m.isPointer with
    | .error reason => .error reason
    | .ok (.leaf type) => .ok (ctx.patches.adjust (type.withMods m))
    | .ok (.function result params hasStorage) => do
      let resultType ← convertChars ctx scope result
      let paramTypes ← params.attach.mapM fun ⟨param, _hp⟩ => convertChars ctx scope param
      return .function paramTypes resultType hasStorage m
    | .ok (.array names element) => do
      return .array names (← convertChars ctx scope element) m
termination_by spelling.length
decreasing_by
  all_goals
    have h1 := Text.length_trim_le spelling
    have h2 : base.length ≤ (Text.trim spelling).length := length_of_splitMarks _hm
  · have h3 : result.length < base.length := length_lt_of_shape _hs (by simp [Shape.parts])
    omega
  · have h3 : param.length < base.length := length_lt_of_shape _hs (by simp [Shape.parts, _hp])
    omega
  · have h3 : element.length < base.length := length_lt_of_shape _hs (by simp [Shape.parts])
    omega

/-- The type that a spelling written in a scope stands for. -/
def convert (ctx : Context) (spelling scope : String) : Except SkipReason CxxType :=
  convertChars ctx scope spelling.toList

end LuaGlue.Spelling
