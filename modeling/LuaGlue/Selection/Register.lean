import LuaGlue.Selection.Basic

/-!
The second pass: every declaration that was asked for is registered.

    class       exposed if a state is named for it, else thin; bases and nesting are recorded
    member      added to the class before it, if that class is exposed
    function    a native wrapper waits for its class; others are bound under each requested name
    enum        registered if a state is named for it

What cannot be bound is skipped with a notice; only a cycle of bases ends the run.
-/

namespace LuaGlue.Selection

/-! ### Classes -/

/-- The state that a class is bound in, and its scope in Lua if one is given. -/
def classTarget? (s : Selection) (c : DeclaredClass) : Option (String × Option String) :=
  match s.requests.classes.get? c.qualified with
  | some request => some (request.state, request.scope)
  | none => (inlineState? c.comment).map (·, none)

/-- A class that a declaration exposes, with what the declaration says. -/
def describe (c : DeclaredClass) (luaScope : Option String) (bound : BoundClass) : BoundClass :=
  { bound with
    scopeOverride := luaScope.filter (· ≠ c.scope)
    hasDefaultConstructor := bound.hasDefaultConstructor || c.hasDefaultConstructor }

/-- The header of a class. -/
def sourceOf (r : Registry) (id : ClassId) : String :=
  match r.class? id with
  | some c => c.source
  | none => ""

/-- The notice about a class that cannot be exposed. -/
def refusal (s : Selection) (c : DeclaredClass) (reason : SkipReason) : Notice :=
  let existing := match reason with
    | .duplicateClass _ id => sourceOf s.registry id
    | _ => ""
  .duplicateClass c.qualified c.source existing reason

/-- The state after a class has been exposed or found to be thin, and its id; no id if it is skipped. -/
def placeClass (s : Selection) (c : DeclaredClass) : Selection × Option ClassId :=
  let s := { s with current := none }
  match s.classTarget? c with
  | none =>
    let (registry, id) := s.registry.addThinClass c.name c.scope c.source
    ((s.withRegistry registry).note (.thinClass c.qualified), some id)
  | some (state, luaScope) =>
    match s.registry.addClass c.name c.scope c.source state with
    | .error reason => (s.skip (s.refusal c reason), none)
    | .ok (registry, id) =>
      let s := (s.withRegistry registry).modifyClass id (describe c luaScope)
      let s := (s.note (.exposingClass c.qualified state c.line)).bindIn state
      ({ s with exposed := s.exposed ++ [id], current := some id }, some id)

/-- The registry with one more base of a class, by its qualified name. -/
def addBaseNamed (r : Registry) (id : ClassId) (base : String) : Registry × Option Abort :=
  let (scope, name) := Scope.splitQualified base
  let (r, baseId) := r.addThinClass name scope ""
  match r.addBase id baseId with
  | .ok r => (r, none)
  | .error abort => (r, some abort)

/-- The registry with these bases of a class, up to the first that closes a cycle. -/
def addBasesNamed (r : Registry) (id : ClassId) : List String → Registry × Option Abort
  | [] => (r, none)
  | base :: rest =>
    match addBaseNamed r id base with
    | (r, none) => addBasesNamed r id rest
    | (r, some abort) => (r, some abort)

/-- A class with one more class inside it. -/
def enclose (inner : ClassId) (outer : BoundClass) : BoundClass :=
  if outer.nested.contains inner then outer else { outer with nested := outer.nested ++ [inner] }

/-- The registry with a class recorded as nested, if its scope is a class. -/
def nestClass (r : Registry) (scope : String) (id : ClassId) : Registry :=
  if scope.isEmpty then r
  else
    let (outerScope, outerName) := Scope.splitQualified scope
    match r.classId? outerScope outerName with
    | some outer => r.modifyClass outer (enclose id)
    | none => r

/-- The state after a class. -/
def registerClass (s : Selection) (c : DeclaredClass) : Selection × Option Abort :=
  match s.placeClass c with
  | (s, none) => (s, none)
  | (s, some id) =>
    match addBasesNamed s.registry id c.bases with
    | (registry, some abort) => (s.withRegistry registry, some abort)
    | (registry, none) => (s.withRegistry (nestClass registry c.scope id), none)

/-! ### Members -/

/-- The kind of a declared member. -/
def kindOf (f : DeclaredFunction) : MemberKind :=
  if f.isConstructor then .constructor else if f.isStatic then .static else .function

/-- A member without overloads, as its first declaration has it. -/
def newMember (c : BoundClass) (f : DeclaredFunction) (result : CxxType) : BoundFunction :=
  { BoundFunction.new f.name f.scope result with
    owner := some c.id
    isStatic := f.isStatic || f.isConstructor
    isConstructor := f.isConstructor
    source := f.source
    sharesHeader := f.source == c.source }

/-- The state after one more overload of a member. -/
def addMember (s : Selection) (id : ClassId) (f : DeclaredFunction) (overload : Overload)
    (result : CxxType) : Selection :=
  match s.registry.class? id with
  | none => s
  | some c =>
    let members := c.members (kindOf f)
    let member := (members.get? f.name).getD (newMember c f result)
    match member.addOverload overload with
    | .ok member =>
      (s.modifyClass id fun c => c.withMembers (kindOf f) (members.insert f.name member)).wrapAll
        overload result
    | .error reason => s.note (.duplicateMember f.qualified reason)

/-- The state after a function whose types are read, or after it is skipped. -/
def withSignature (s : Selection) (f : DeclaredFunction)
    (bind : Overload → CxxType → Selection) : Selection :=
  match s.signature f with
  | .error (param, reason) => s.skip (.skippedFunction f.qualified param reason)
  | .ok (overload, result) => bind overload result

/-- The state after a member of the current class. -/
def registerMember (s : Selection) (f : DeclaredFunction) : Selection :=
  match s.current with
  | none => s.note (.unexposedMember f.qualified)
  | some id =>
    if f.isConstructor && f.params.isEmpty then
      s.modifyClass id fun c => { c with hasDefaultConstructor := true }
    else if isOperatorName f.name then s.note (.operatorOverload f.qualified)
    else if s.requests.isRedirected f.scope f.name then s.note (.redirected f.qualified)
    else s.withSignature f (s.addMember id f)

/-! ### Free functions -/

/-- A free function without overloads, under a Lua name. -/
def newFunction (f : DeclaredFunction) (request : FunctionRequest) (index : Nat) (luaName : String)
    (result : CxxType) : BoundFunction :=
  { BoundFunction.new f.name f.scope result with
    luaName
    scopeOverride := if request.scope = f.scope then none else some request.scope
    isAlias := 0 < index
    source := f.source
    state := some request.state }

/-- The state after one more overload under each Lua name from an index on, and whether any name has
taken it. -/
def addNames (s : Selection) (f : DeclaredFunction) (request : FunctionRequest) (overload : Overload)
    (result : CxxType) (index : Nat) (taken : Bool) : List String → Selection × Bool
  | [] => (s, taken)
  | luaName :: rest =>
    let key := Scope.qualify request.scope luaName
    let function := (s.registry.functions.get? key).getD (newFunction f request index luaName result)
    match function.addOverload overload with
    | .ok function =>
      let functions := s.registry.functions.insert key function
      (s.withRegistry { s.registry with functions }).addNames f request overload result (index + 1)
        true rest
    | .error reason =>
      (s.note (.duplicateFunction f.qualified luaName reason)).addNames f request overload result
        (index + 1) taken rest

/-- The state after a free function. -/
def addFunction (s : Selection) (f : DeclaredFunction) (request : FunctionRequest) : Selection :=
  s.withSignature f fun overload result =>
    match s.addNames f request overload result 0 false request.names with
    | (s, true) => (s.wrapAll overload result).bindIn request.state
    | (s, false) => s

/-- A function that a native wrapper stands for; no signature is read. -/
def newCustomFunction (f : DeclaredFunction) (request : FunctionRequest) (index : Nat)
    (luaName : String) : BoundFunction :=
  { BoundFunction.new luaName request.scope CxxType.plainVoid with
    wrapperName := some f.qualified
    isAlias := 0 < index
    source := f.source
    state := some request.state }

/-- The functions with one more that a native wrapper stands for, unless its name is taken. -/
def addCustomName (f : DeclaredFunction) (request : FunctionRequest) (functions : Functions)
    (name : String × Nat) : Functions :=
  let key := Scope.qualify request.scope name.1
  if functions.contains key then functions
  else functions.insert key (newCustomFunction f request name.2 name.1)

/-- The state after a native wrapper that stands for functions. -/
def addCustomFunction (s : Selection) (f : DeclaredFunction) (request : FunctionRequest) : Selection :=
  let functions := request.names.zipIdx.foldl (addCustomName f request) s.registry.functions
  (s.withRegistry { s.registry with functions }).bindIn request.state

/-- The request for a function that names its state itself. -/
def inlineRequest? (f : DeclaredFunction) : Option FunctionRequest :=
  (inlineState? f.comment).map fun state => ⟨state, f.scope, [f.name]⟩

/-- The state after a free function or a native wrapper. -/
def registerFunction (s : Selection) (f : DeclaredFunction) : Selection :=
  let name := f.qualified
  if let some request := s.requests.metamethods.get? name then
    { s with metamethods := s.metamethods ++ [⟨request, name, f.source⟩] }
  else if let some request := s.requests.redirectors.get? name then
    { s with redirectors := s.redirectors ++ [⟨request, name, f.source⟩] }
  else if let some request := s.requests.customFunctions.get? name then s.addCustomFunction f request
  else if let some request := s.requests.functions.get? name then s.addFunction f request
  else if let some request := inlineRequest? f then s.addFunction f request
  else s.note (.unrequestedFunction name)

/-! ### Enums -/

/-- The state and the scope in Lua that an enum is bound in. -/
def enumTarget? (s : Selection) (e : DeclaredEnum) : Option (String × String) :=
  match s.requests.enums.get? e.qualified with
  | some request => some (request.state, request.scope.getD e.scope)
  | none => (inlineState? e.comment).map (·, e.scope)

/-- The state after an enum. -/
def registerEnum (s : Selection) (e : DeclaredEnum) : Selection :=
  match s.enumTarget? e with
  | none => s.note (.unrequestedEnum e.qualified)
  | some (state, scope) =>
    match s.registry.addEnum { name := e.name, scope, state, values := e.values } with
    | .ok registry => (s.withRegistry registry).bindIn state
    | .error reason => s.skip (.duplicateEnum e.qualified e.source reason)

/-! ### The second pass -/

/-- The state after the second pass has met a declaration. -/
def register (s : Selection) : Declaration → Selection × Option Abort
  | .remark _ => (s, none)
  | .record c => s.registerClass c
  | .function f => (if f.owner.isSome then s.registerMember f else s.registerFunction f, none)
  | .enum e => (s.registerEnum e, none)

end LuaGlue.Selection
