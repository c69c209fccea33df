import LuaGlue.Proofs.Attachment.Requested
import LuaGlue.Proofs.Naming.Spellings

/-!
How requests write the names they are about.

A request takes its qualified names from fixed parameters of one annotation, and holds each of them in its canonical
form, whatever it is written like (`names_eq_canonical`). The first pass keeps a request by one of these names, so a
table has an entry at the text of a qualified name if some comment asks for it in any spelling
(`mem_keys_learnAll_iff`), and of the requests for one class the last one counts (`get?_classes_learnAll_iff`).

    LuaLate(Class, Gfx::::Mesh)                  record ::Gfx::Mesh       key ::Gfx::Mesh
    LuaAddBaseToClass(::Gfx::Mesh, Gfx::Node)    base ::Gfx::Mesh ::Gfx::Node
-/

namespace LuaGlue

/-- The tables that requests are kept in. -/
inductive RequestTable where
  | classes
  | functions
  | customFunctions
  | enums
  | metamethods
  | redirectors
  deriving DecidableEq, Repr

namespace Request

/-! ### The names of a request -/

/-- The qualified names that a request is about, in the order of their parameters. -/
def names : Request → List String
  | .record target _ | .function target _ _ _ | .enum target _ | .unknown _ target => [target]
  | .customFunction wrapper _ _ _ => [wrapper]
  | .metamethod wrapper request => [request.className, wrapper]
  | .redirector wrapper request => [request.className, wrapper]
  | .template source target => [source, target]
  | .base derived parent => [derived, parent]

/-- The annotation that a request is read from. -/
def annotationName : Request → String
  | .record _ _ | .function _ _ _ _ | .customFunction _ _ _ _ | .enum _ _ | .unknown _ _ => "LuaLate"
  | .metamethod _ _ => "LuaAddMetamethod"
  | .redirector _ request =>
    if request.isStatic then "LuaStaticMemberFunctionRedirector" else "LuaMemberFunctionRedirector"
  | .template _ _ => "LuaMapTemplateClass"
  | .base _ _ => "LuaAddBaseToClass"

/-- Which of its parameters are the names. -/
def places : Request → List Nat
  | .record _ _ | .function _ _ _ _ | .enum _ _ | .unknown _ _ => [1]
  | .customFunction _ _ _ _ => [2]
  | .metamethod _ _ | .redirector _ _ => [0, 2]
  | .template _ _ | .base _ _ => [0, 1]

/-- Are these the texts that annotations give for the names of a request? -/
def IsWritten (request : Request) (annotations : Annotations) (texts : List String) : Prop :=
  ∃ a, annotations.get? request.annotationName = some a ∧ request.places.map (a.params[·]?) = texts.map some

/-- A request is written in just one way. -/
theorem IsWritten.unique {request : Request} {annotations : Annotations} {texts texts' : List String}
    (h : request.IsWritten annotations texts) (h' : request.IsWritten annotations texts') : texts = texts' := by
  obtain ⟨a, ha, htexts⟩ := h
  obtain ⟨a', ha', htexts'⟩ := h'
  obtain rfl : a = a' := Option.some.inj (ha.symm.trans ha')
  exact List.map_injective_iff.2 (fun _ _ heq => Option.some.inj heq) (htexts.symm.trans htexts')

theorem names_of_late {annotations : Annotations} {state : String} {a : Annotation} {request : Request}
    (ha : annotations.get? "LuaLate" = some a) (h : Request.late state a = .ok request) :
    ∃ texts, request.IsWritten annotations texts ∧ request.names = texts.map Scope.canonical := by
  obtain ⟨target, htarget, h⟩ := bind_eq_ok.1 h
  obtain ⟨kind, -, h⟩ := bind_eq_ok.1 h
  have hplace := Annotation.getElem?_of_param htarget
  split at h
  · cases h
    exact ⟨[target], ⟨a, ha, by simp [places, hplace]⟩, rfl⟩
  · cases h
    exact ⟨[target], ⟨a, ha, by simp [places, hplace]⟩, rfl⟩
  · cases h
    exact ⟨[target], ⟨a, ha, by simp [places, hplace]⟩, rfl⟩
  · obtain ⟨wrapper, hwrapper, h⟩ := bind_eq_ok.1 h
    cases h
    exact ⟨[wrapper], ⟨a, ha, by simp [places, Annotation.getElem?_of_param hwrapper]⟩, rfl⟩
  · cases h
    exact ⟨[target], ⟨a, ha, by simp [places, hplace]⟩, rfl⟩

/-- A request that is read holds the canonical forms of its names. -/
theorem names_eq_canonical {annotations : Annotations} {request : Request}
    (h : Request.of annotations = .ok (some request)) :
    ∃ texts, request.IsWritten annotations texts ∧ request.names = texts.map Scope.canonical := by
  unfold Request.of at h
  split at h
  · cases h
  obtain ⟨state, -, h⟩ := bind_eq_ok.1 h
  split at h
  · next a hwith =>
    obtain ⟨found, hlate, heq⟩ := map_eq_ok.1 h
    cases heq
    exact names_of_late (Annotations.withParams?_eq_some.1 hwith).1 hlate
  split at h
  · next a hwith =>
    obtain ⟨found, hadd, heq⟩ := map_eq_ok.1 h
    cases heq
    obtain ⟨wrapper, hwrapper, hadd⟩ := bind_eq_ok.1 hadd
    obtain ⟨className, hclass, hadd⟩ := bind_eq_ok.1 hadd
    obtain ⟨metamethod, -, hadd⟩ := bind_eq_ok.1 hadd
    cases hadd
    exact ⟨[className, wrapper], ⟨a, (Annotations.withParams?_eq_some.1 hwith).1, by
      simp [places, Annotation.getElem?_of_param hclass, Annotation.getElem?_of_param hwrapper]⟩, rfl⟩
  split at h
  · next a hwith =>
    obtain ⟨source, hsource, h⟩ := bind_eq_ok.1 h
    obtain ⟨target, htarget, h⟩ := bind_eq_ok.1 h
    cases h
    exact ⟨[source, target], ⟨a, (Annotations.withParams?_eq_some.1 hwith).1, by
      simp [places, Annotation.getElem?_of_param hsource, Annotation.getElem?_of_param htarget]⟩, rfl⟩
  split at h
  · next a hwith =>
    obtain ⟨derived, hderived, h⟩ := bind_eq_ok.1 h
    obtain ⟨base, hbase, h⟩ := bind_eq_ok.1 h
    cases h
    exact ⟨[derived, base], ⟨a, (Annotations.withParams?_eq_some.1 hwith).1, by
      simp [places, Annotation.getElem?_of_param hderived, Annotation.getElem?_of_param hbase]⟩, rfl⟩
  split at h
  · next isStatic a hredirection =>
    obtain ⟨found, hredirect, heq⟩ := map_eq_ok.1 h
    cases heq
    obtain ⟨wrapper, hwrapper, hredirect⟩ := bind_eq_ok.1 hredirect
    obtain ⟨className, hclass, hredirect⟩ := bind_eq_ok.1 hredirect
    obtain ⟨function, -, hredirect⟩ := bind_eq_ok.1 hredirect
    cases hredirect
    have hget : annotations.get?
        (if isStatic then "LuaStaticMemberFunctionRedirector" else "LuaMemberFunctionRedirector") = some a := by
      have hnamed := (Annotations.redirection?_eq_some.1 hredirection).1
      cases isStatic <;> exact hnamed
    exact ⟨[className, wrapper], ⟨a, hget, by
      simp [places, Annotation.getElem?_of_param hclass, Annotation.getElem?_of_param hwrapper]⟩, rfl⟩
  · cases h

/-! ### Requests in any spelling -/

/-- Does the comment of a declaration ask for this, with names that are spellings of these ones? -/
def IsAsked (request : Request) (item : Except DeclarationError Declaration) (names : List QualifiedName) : Prop :=
  read? item = some request ∧ ∃ d texts, item = .ok d ∧ request.IsWritten (Annotations.parse d.comment) texts
    ∧ List.Forall₂ QualifiedName.IsSpelled names texts

theorem map_canonical_eq_iff {names : List QualifiedName} {texts : List String} :
    texts.map Scope.canonical = names.map QualifiedName.text ↔ List.Forall₂ QualifiedName.IsSpelled names texts := by
  induction names generalizing texts with
  | nil => simp
  | cons name rest ih =>
    cases texts with
    | nil => simp
    | cons text texts => simp [QualifiedName.canonical_eq_iff, ih]

/-- What is asked for in some spelling is what is read, with the names in their one spelling. -/
theorem isAsked_iff {request : Request} {item : Except DeclarationError Declaration} {names : List QualifiedName} :
    request.IsAsked item names ↔ read? item = some request ∧ request.names = names.map QualifiedName.text := by
  refine and_congr_right fun hread => ?_
  cases item with
  | error e => cases hread
  | ok d =>
    obtain ⟨texts, hwritten, hnames⟩ := names_eq_canonical (Annotations.of_read? hread)
    rw [hnames, map_canonical_eq_iff]
    constructor
    · rintro ⟨other, texts', heq, hwritten', hspelled⟩
      cases heq
      rwa [hwritten.unique hwritten']
    · exact fun hspelled => ⟨d, texts, rfl, hwritten, hspelled⟩

/-! ### Tables -/

/-- The table that a request is kept in, if it is in any. -/
def keptIn? : Request → Option RequestTable
  | .record _ _ => some .classes
  | .function _ _ _ _ => some .functions
  | .customFunction _ _ _ _ => some .customFunctions
  | .enum _ _ => some .enums
  | .metamethod _ _ => some .metamethods
  | .redirector _ _ => some .redirectors
  | .template _ _ | .base _ _ | .unknown _ _ => none

/-- The name that this table has a request at: the last one. -/
def key? (table : RequestTable) (request : Request) : Option String :=
  if request.keptIn? = some table then request.names.getLast? else none

/-- What a request asks for a class of this name. -/
def record? (name : String) : Request → Option TypeRequest
  | .record target request => if name = target then some request else none
  | _ => none

theorem record?_eq_some_iff {name : String} {request : Request} {found : TypeRequest} :
    request.record? name = some found ↔ request = .record name found := by
  cases request <;> simp [record?, eq_comm]

/-- Does a declaration ask for something that this table keeps by the name, in some spelling? -/
def IsKeyed (item : Except DeclarationError Declaration) (table : RequestTable) (q : QualifiedName) : Prop :=
  ∃ d request texts text, item = .ok d ∧ read? item = some request ∧ request.keptIn? = some table
    ∧ request.IsWritten (Annotations.parse d.comment) (texts ++ [text]) ∧ q.IsSpelled text

theorem isKeyed_iff {item : Except DeclarationError Declaration} {table : RequestTable} {q : QualifiedName} :
    IsKeyed item table q ↔ ∃ request, read? item = some request ∧ request.key? table = some q.text := by
  constructor
  · rintro ⟨d, request, texts, text, rfl, hread, htable, hwritten, hspelled⟩
    obtain ⟨texts', hwritten', hnames⟩ := names_eq_canonical (Annotations.of_read? hread)
    refine ⟨request, hread, ?_⟩
    rw [key?, if_pos htable, hnames, ← hwritten.unique hwritten', List.map_append, List.map_singleton,
      List.getLast?_concat, QualifiedName.canonical_eq_iff.2 hspelled]
  · rintro ⟨request, hread, hkey⟩
    cases item with
    | error e => cases hread
    | ok d =>
      obtain ⟨texts, hwritten, hnames⟩ := names_eq_canonical (Annotations.of_read? hread)
      rw [key?] at hkey
      split at hkey
      · next htable =>
        rw [hnames, List.getLast?_map, Option.map_eq_some_iff] at hkey
        obtain ⟨text, hlast, hcanonical⟩ := hkey
        obtain ⟨front, rfl⟩ := List.getLast?_eq_some_iff.1 hlast
        exact ⟨d, request, front, text, rfl, hread, htable, hwritten, QualifiedName.canonical_eq_iff.1 hcanonical⟩
      · cases hkey

/-- The derived class and the base that a request is about. -/
def base? : Request → Option (String × String)
  | .base derived parent => some (derived, parent)
  | _ => none

theorem base?_eq_some_iff {request : Request} {derived parent : String} :
    request.base? = some (derived, parent) ↔ request = .base derived parent := by
  cases request <;> simp [base?]

/-- An attachment names its class and its wrapper. -/
theorem names_of_attachment? {request : Request} {a : Attachment} (h : request.attachment? = some a) :
    request.names = [a.className, a.wrapper] := by
  cases request with
  | metamethod | redirector =>
    cases h
    rfl
  | _ => cases h

end Request

/-- Does the comment of a declaration ask for the attachment, with a spelling of this class? -/
def Attachment.IsAsked (a : Attachment) (item : Except DeclarationError Declaration) (q : QualifiedName) : Prop :=
  ∃ d request text texts, item = .ok d ∧ Request.read? item = some request ∧ request.attachment? = some a
    ∧ request.IsWritten (Annotations.parse d.comment) (text :: texts) ∧ q.IsSpelled text

/-- The class of an attachment that is read is canonical. -/
theorem Attachment.exists_className {item : Except DeclarationError Declaration} {a : Attachment}
    (h : Attachment.read? item = some a) : ∃ d request text texts, item = .ok d ∧ Request.read? item = some request
      ∧ request.attachment? = some a ∧ request.IsWritten (Annotations.parse d.comment) (text :: texts)
      ∧ a.className = Scope.canonical text := by
  obtain ⟨request, hread, ha⟩ := Option.bind_eq_some_iff.1 h
  cases item with
  | error e => cases hread
  | ok d =>
    obtain ⟨texts, hwritten, hnames⟩ := Request.names_eq_canonical (Annotations.of_read? hread)
    rw [Request.names_of_attachment? ha] at hnames
    cases texts with
    | nil => cases hnames
    | cons text texts => exact ⟨d, request, text, texts, rfl, hread, ha, hwritten, (List.cons.inj hnames).1⟩

theorem Attachment.isAsked_iff {item : Except DeclarationError Declaration} {a : Attachment} {q : QualifiedName} :
    a.IsAsked item q ↔ Attachment.read? item = some a ∧ Scope.canonical a.className = q.text := by
  constructor
  · rintro ⟨d, request, text, texts, rfl, hread, ha, hwritten, hspelled⟩
    have hattachment : Attachment.read? (.ok d) = some a := Option.bind_eq_some_iff.2 ⟨request, hread, ha⟩
    obtain ⟨_, _, text', texts', heq, hread', -, hwritten', hname⟩ := Attachment.exists_className hattachment
    cases heq
    obtain rfl : request = _ := Option.some.inj (hread.symm.trans hread')
    obtain ⟨rfl, -⟩ := List.cons.inj (hwritten.unique hwritten')
    refine ⟨hattachment, ?_⟩
    rw [hname, QualifiedName.canonical_canonical_eq_iff, QualifiedName.canonical_eq_iff]
    exact hspelled
  · rintro ⟨hattachment, hname⟩
    obtain ⟨d, request, text, texts, heq, hread, ha, hwritten, hclass⟩ := Attachment.exists_className hattachment
    refine ⟨d, request, text, texts, heq, hread, ha, hwritten, ?_⟩
    rw [← QualifiedName.canonical_eq_iff, ← QualifiedName.canonical_canonical_eq_iff, ← hclass, hname]

namespace Requests

/-- The names at which a table has an entry. -/
def keys (rs : Requests) : RequestTable → List String
  | .classes => rs.classes.keys
  | .functions => rs.functions.keys
  | .customFunctions => rs.customFunctions.keys
  | .enums => rs.enums.keys
  | .metamethods => rs.metamethods.keys
  | .redirectors => rs.redirectors.keys

theorem mem_keys_add {rs : Requests} {request : Request} {table : RequestTable} {name : String} :
    name ∈ (rs.add request).keys table ↔ request.key? table = some name ∨ name ∈ rs.keys table := by
  cases request with
  | template | base | unknown => cases table <;> simp [add, keys, Request.key?, Request.keptIn?]
  | record | function | customFunction | enum | metamethod | redirector =>
    cases table <;> simp [add, keys, Request.key?, Request.keptIn?, Request.names, NameMap.alter,
      NameMap.mem_keys_iff, NameMap.contains_insert, eq_comm (a := name)]

theorem mem_keys_foldl {rs : Requests} {requests : List Request} {table : RequestTable} {name : String} :
    name ∈ (requests.foldl add rs).keys table
      ↔ (∃ request ∈ requests, request.key? table = some name) ∨ name ∈ rs.keys table := by
  induction requests generalizing rs with
  | nil => simp
  | cons request rest ih =>
    rw [List.foldl_cons, ih, mem_keys_add, List.exists_mem_cons_iff, ← or_assoc]
    exact or_congr_left or_comm

theorem get?_classes_add (rs : Requests) (request : Request) (name : String) :
    (rs.add request).classes.get? name = (request.record? name).or (rs.classes.get? name) := by
  cases request with
  | record target found =>
    rw [add, NameMap.get?_insert, Request.record?]
    split <;> rfl
  | _ => rfl

/-- Of the requests for a class the last one stays. -/
theorem get?_classes_foldl (rs : Requests) (requests : List Request) (name : String) :
    (requests.foldl add rs).classes.get? name
      = ((requests.filterMap (Request.record? name)).getLast?).or (rs.classes.get? name) := by
  induction requests generalizing rs with
  | nil => rfl
  | cons request rest ih =>
    rw [List.foldl_cons, ih, get?_classes_add, List.filterMap_cons]
    cases request.record? name with
    | none => rfl
    | some found =>
      rw [List.getLast?_cons]
      cases List.getLast? _ <;> rfl

theorem bases_foldl (rs : Requests) (requests : List Request) :
    (requests.foldl add rs).bases = rs.bases ++ requests.filterMap Request.base? := by
  induction requests generalizing rs with
  | nil => exact (List.append_nil _).symm
  | cons request rest ih =>
    rw [List.foldl_cons, ih]
    cases request with
    | base derived parent => simp [add, Request.base?]
    | _ => rfl

end Requests

/-- Is this what declarations ask for last for the class of a name, in any of its spellings? -/
def QualifiedName.LastAsked (q : QualifiedName) (stream : List (Except DeclarationError Declaration))
    (request : TypeRequest) : Prop :=
  ∃ pre item post, stream = pre ++ item :: post ∧ (∃ target, (Request.record target request).IsAsked item [q])
    ∧ ∀ later ∈ post, ∀ target other, ¬ (Request.record target other).IsAsked later [q]

namespace Selection

variable {registry : Registry} {stream : List (Except DeclarationError Declaration)}

/-- The tables have entries at the names that comments ask for in some spelling. -/
theorem mem_keys_learnAll_iff (hends : ((start registry).learnAll stream).2 = none) {table : RequestTable}
    {q : QualifiedName} : q.text ∈ ((start registry).learnAll stream).1.requests.keys table
      ↔ ∃ item ∈ stream, Request.IsKeyed item table q := by
  have hnone : q.text ∉ (start registry).requests.keys table := by
    cases table <;> exact List.not_mem_nil
  rw [requests_learnAll _ hends, Requests.mem_keys_foldl, or_iff_left hnone]
  constructor
  · rintro ⟨request, hrequest, hkey⟩
    obtain ⟨item, hitem, hread⟩ := List.mem_filterMap.1 hrequest
    exact ⟨item, hitem, Request.isKeyed_iff.2 ⟨request, hread, hkey⟩⟩
  · rintro ⟨item, hitem, hkeyed⟩
    obtain ⟨request, hread, hkey⟩ := Request.isKeyed_iff.1 hkeyed
    exact ⟨request, List.mem_filterMap.2 ⟨item, hitem, hread⟩, hkey⟩

theorem isAsked_record_iff {item : Except DeclarationError Declaration} {q : QualifiedName} {request : TypeRequest} :
    (∃ target, (Request.record target request).IsAsked item [q])
      ↔ (Request.read? item).bind (Request.record? q.text) = some request := by
  simp only [Request.isAsked_iff, Option.bind_eq_some_iff, Request.record?_eq_some_iff]
  constructor
  · rintro ⟨target, hread, hnames⟩
    obtain rfl : target = q.text := List.singleton_inj.1 hnames
    exact ⟨_, hread, rfl⟩
  · rintro ⟨_, hread, rfl⟩
    exact ⟨q.text, hread, rfl⟩

/-- Of all requests for a class, in whatever spelling, the last one counts. -/
theorem get?_classes_learnAll_iff (hends : ((start registry).learnAll stream).2 = none) {q : QualifiedName}
    {request : TypeRequest} :
    ((start registry).learnAll stream).1.requests.classes.get? q.text = some request ↔ q.LastAsked stream request := by
  have hnone : (start registry).requests.classes.get? q.text = none := rfl
  have hlater : ∀ item : Except DeclarationError Declaration, (Request.read? item).bind (Request.record? q.text) = none
      ↔ ∀ target other, ¬ (Request.record target other).IsAsked item [q] := by
    intro item
    rw [Option.eq_none_iff_forall_ne_some]
    simp only [ne_eq, ← isAsked_record_iff, not_exists]
    exact forall_comm
  rw [requests_learnAll _ hends, Requests.get?_classes_foldl, hnone, Option.or_none, List.filterMap_filterMap,
    List.getLast?_filterMap, List.findSome?_eq_some_iff]
  simp only [← isAsked_record_iff, hlater]
  constructor
  · rintro ⟨post, item, pre, hstream, hasked, hlast⟩
    refine ⟨pre.reverse, item, post.reverse, ?_, hasked, fun later hpost => hlast later (List.mem_reverse.1 hpost)⟩
    rw [List.reverse_eq_append_iff] at hstream
    simpa using hstream
  · rintro ⟨pre, item, post, rfl, hasked, hlast⟩
    exact ⟨post.reverse, item, pre.reverse, by simp, hasked, fun later hpost => hlast later (List.mem_reverse.1 hpost)⟩

/-- The bases that are asked for in some spelling. -/
theorem exists_base_learnAll_iff (hends : ((start registry).learnAll stream).2 = none) {q q' : QualifiedName} :
    (∃ pair ∈ ((start registry).learnAll stream).1.requests.bases,
        Scope.canonical pair.1 = q.text ∧ Scope.canonical pair.2 = q'.text)
      ↔ ∃ item ∈ stream, ∃ derived parent, (Request.base derived parent).IsAsked item [q, q'] := by
  have hnone : (start registry).requests.bases = [] := rfl
  have hread : ∀ {item : Except DeclarationError Declaration} {derived parent : String},
      Request.read? item = some (.base derived parent) →
      (Scope.canonical derived = q.text ∧ Scope.canonical parent = q'.text ↔ derived = q.text ∧ parent = q'.text) := by
    intro item derived parent hread
    cases item with
    | error e => cases hread
    | ok d =>
      obtain ⟨texts, -, hnames⟩ := Request.names_eq_canonical (Annotations.of_read? hread)
      obtain ⟨first, second, rfl⟩ : ∃ first second, texts = [first, second] :=
        List.length_eq_two.1 (by rw [← List.length_map, ← hnames]; rfl)
      obtain ⟨rfl, rfl⟩ : derived = Scope.canonical first ∧ parent = Scope.canonical second := by
        simpa [Request.names] using hnames
      exact and_congr QualifiedName.canonical_canonical_eq_iff QualifiedName.canonical_canonical_eq_iff
  rw [requests_learnAll _ hends, Requests.bases_foldl, hnone, List.nil_append, List.filterMap_filterMap]
  simp only [Request.isAsked_iff, List.mem_filterMap, Option.bind_eq_some_iff]
  constructor
  · rintro ⟨⟨derived, parent⟩, ⟨item, hitem, request, hrequest, hbase⟩, hnames⟩
    obtain rfl := Request.base?_eq_some_iff.1 hbase
    obtain ⟨hderived, hparent⟩ := (hread hrequest).1 hnames
    exact ⟨item, hitem, derived, parent, hrequest, by rw [hderived, hparent]; rfl⟩
  · rintro ⟨item, hitem, derived, parent, hrequest, hnames⟩
    have hsame : derived = q.text ∧ parent = q'.text := by simpa [Request.names] using hnames
    exact ⟨(derived, parent), ⟨item, hitem, _, hrequest, rfl⟩, (hread hrequest).2 hsame⟩

end Selection

end LuaGlue
