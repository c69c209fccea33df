import LuaGlue.Proofs.Selection.Learned

/-!
What native wrappers are requested for.

A comment asks for at most one `Attachment`: a native wrapper that is to be a metamethod of a class, or to take
the place of a member. The first pass keeps these requests in two tables, one for metamethods and one for
redirections, and each of them by the wrapper. So of two requests for one wrapper in one table the later one
counts (`table?_learnAll`), and a wrapper that is in both tables is a metamethod (`attachment?`).

    comments         (w, C, __add)   (w, C, __sub)   (w, D, f)   (v, D, g)
    metamethods                      w ↦ C.__sub
    redirections                                     w ↦ D.f     v ↦ D.g
    served                           w ↦ C.__sub                 v ↦ D.g
-/

namespace LuaGlue

/-- A native wrapper that is asked for at a place of a class. -/
structure Attachment where
  wrapper : String
  className : String
  kind : MemberKind
  name : String
  deriving DecidableEq, Repr

/-- Is the wrapper to be a metamethod? -/
def Attachment.isMetamethod (a : Attachment) : Bool := a.kind == .metamethod

/-- What is asked for with a native wrapper that is to be a metamethod. -/
def MetamethodRequest.attachment (request : MetamethodRequest) (wrapper : String) : Attachment :=
  ⟨wrapper, request.className, .metamethod, request.metamethod⟩

/-- The kind of a member that is redirected. -/
def redirectedKind (isStatic : Bool) : MemberKind := if isStatic then .static else .function

/-- What is asked for with a native wrapper that is to take the place of a member. -/
def RedirectorRequest.attachment (request : RedirectorRequest) (wrapper : String) : Attachment :=
  ⟨wrapper, request.className, redirectedKind request.isStatic, request.function⟩

theorem RedirectorRequest.isMetamethod_attachment (request : RedirectorRequest) (wrapper : String) :
    (request.attachment wrapper).isMetamethod = false := by
  rw [attachment]
  cases request.isStatic <;> rfl

namespace Request

/-- The attachment that a request is for, if it is for one. -/
def attachment? : Request → Option Attachment
  | .metamethod wrapper request => some (request.attachment wrapper)
  | .redirector wrapper request => some (request.attachment wrapper)
  | _ => none

/-- The request that is read from the comment of a declaration. -/
def read? : Except DeclarationError Declaration → Option Request
  | .ok d => (Request.of (Annotations.parse d.comment)).toOption.join
  | .error _ => none

end Request

/-- The attachment that a declaration asks for. -/
def Attachment.read? (item : Except DeclarationError Declaration) : Option Attachment :=
  (Request.read? item).bind Request.attachment?

/-- The attachments that declarations ask for, in order. -/
def attachments (stream : List (Except DeclarationError Declaration)) : List Attachment :=
  stream.filterMap Attachment.read?

theorem attachments_split (pre post : List (Except DeclarationError Declaration))
    (item : Except DeclarationError Declaration) :
    attachments (pre ++ item :: post) = attachments pre ++ (Attachment.read? item).toList ++ attachments post := by
  rw [attachments, List.filterMap_append, List.filterMap_cons, List.append_assoc]
  cases Attachment.read? item <;> rfl

/-! ### Comments -/

theorem Annotation.getElem?_of_param {a : Annotation} {index : Nat} {text : String} (h : a.param index = .ok text) :
    a.params[index]? = some text := by
  rw [param] at h
  split at h
  · next heq =>
    cases h
    exact heq
  · cases h

namespace Annotations

/-- The annotation that asks for an attachment of a kind. -/
def attachmentName? : MemberKind → Option String
  | .metamethod => some "LuaAddMetamethod"
  | .function => some "LuaMemberFunctionRedirector"
  | .static => some "LuaStaticMemberFunctionRedirector"
  | .constructor => none

/-- What an annotation with a class, a name and a wrapper asks for. -/
def attachmentOf? (kind : MemberKind) (a : Annotation) : Option Attachment :=
  match a.params with
  | className :: name :: wrapper :: _ => some ⟨Scope.canonical wrapper, Scope.canonical className, kind, name⟩
  | _ => none

/-- The attachment of a kind that annotations name, whether it is read or not. -/
def attachment? (annotations : Annotations) (kind : MemberKind) : Option Attachment :=
  ((attachmentName? kind).bind annotations.get?).bind (attachmentOf? kind)

/-- Do annotations name a Lua state? -/
def nameState (annotations : Annotations) : Bool :=
  (annotations.get? "LuaStateTypes").any fun a => !a.params.isEmpty

/-- Is the annotation for an attachment of this kind the one that is read? Of several requests in one comment
only the first kind counts. -/
def reads (annotations : Annotations) : MemberKind → Bool
  | .metamethod => true
  | .constructor => false
  | kind => (Request.withParams? annotations "LuaAddMetamethod" 3).isNone
    && (Request.withParams? annotations "LuaMapTemplateClass" 2).isNone
    && (Request.withParams? annotations "LuaAddBaseToClass" 2).isNone
    && (kind == .function || (annotations.get? "LuaMemberFunctionRedirector").isNone)

/-- A redirection is read if nothing is that comes before it. -/
theorem reads_redirectedKind_iff {annotations : Annotations} {isStatic : Bool} :
    annotations.reads (redirectedKind isStatic) = true
      ↔ Request.withParams? annotations "LuaAddMetamethod" 3 = none
        ∧ Request.withParams? annotations "LuaMapTemplateClass" 2 = none
        ∧ Request.withParams? annotations "LuaAddBaseToClass" 2 = none
        ∧ (isStatic = true → annotations.get? "LuaMemberFunctionRedirector" = none) := by
  cases isStatic <;> simp [redirectedKind, reads, and_assoc]

theorem withParams?_of_missing {annotations : Annotations} {name : String} (h : annotations.get? name = none)
    (count : Nat) : Request.withParams? annotations name count = none := by
  rw [Request.withParams?, h]
  rfl

theorem attachmentOf?_eq_some {kind : MemberKind} {x : Annotation} {a : Attachment}
    (h : attachmentOf? kind x = some a) :
    ∃ className name wrapper rest, x.params = className :: name :: wrapper :: rest
      ∧ a = ⟨Scope.canonical wrapper, Scope.canonical className, kind, name⟩ := by
  unfold attachmentOf? at h
  split at h
  · next className name wrapper rest hparams =>
    cases h
    exact ⟨className, name, wrapper, rest, hparams, rfl⟩
  · cases h

theorem addMetamethod_eq {x : Annotation} {a : Attachment} (h : attachmentOf? .metamethod x = some a) :
    Request.addMetamethod x = .ok (.metamethod a.wrapper ⟨a.className, a.name⟩) := by
  obtain ⟨className, name, wrapper, rest, hparams, rfl⟩ := attachmentOf?_eq_some h
  simp [Request.addMetamethod, Annotation.param, hparams]
  rfl

theorem redirect_eq {x : Annotation} {a : Attachment} {kind : MemberKind} (isStatic : Bool)
    (h : attachmentOf? kind x = some a) :
    Request.redirect isStatic x = .ok (.redirector a.wrapper ⟨a.className, a.name, isStatic⟩) := by
  obtain ⟨className, name, wrapper, rest, hparams, rfl⟩ := attachmentOf?_eq_some h
  simp [Request.redirect, Annotation.param, hparams]
  rfl

theorem exists_attachmentOf? {x : Annotation} (kind : MemberKind) (h : 3 ≤ x.params.length) :
    ∃ a, attachmentOf? kind x = some a := by
  unfold attachmentOf?
  split
  · exact ⟨_, rfl⟩
  · next hshort =>
    match hparams : x.params, h with
    | className :: name :: wrapper :: rest, _ => exact absurd hparams (hshort className name wrapper rest)

theorem length_of_attachmentOf? {kind : MemberKind} {x : Annotation} {a : Attachment}
    (h : attachmentOf? kind x = some a) : 3 ≤ x.params.length := by
  obtain ⟨className, name, wrapper, rest, hparams, -⟩ := attachmentOf?_eq_some h
  rw [hparams]
  exact Nat.le_add_left 3 rest.length

theorem attachment?_of_late {state : String} {x : Annotation} {request : Request}
    (h : Request.late state x = .ok request) : request.attachment? = none := by
  obtain ⟨target, -, h⟩ := bind_eq_ok.1 h
  obtain ⟨kind, -, h⟩ := bind_eq_ok.1 h
  split at h
  · cases h
    rfl
  · cases h
    rfl
  · cases h
    rfl
  · obtain ⟨wrapper, -, h⟩ := bind_eq_ok.1 h
    cases h
    rfl
  · cases h
    rfl

/-- A request that is read is one of the comment. -/
theorem of_read? {d : Declaration} {request : Request} (h : Request.read? (.ok d) = some request) :
    Request.of (Annotations.parse d.comment) = .ok (some request) := by
  rw [Request.read?] at h
  cases hof : Request.of (Annotations.parse d.comment) with
  | error e =>
    rw [hof] at h
    cases h
  | ok request? =>
    rw [hof] at h
    exact congrArg Except.ok h

theorem withParams?_eq_some {annotations : Annotations} {name : String} {count : Nat} {x : Annotation} :
    Request.withParams? annotations name count = some x ↔ annotations.get? name = some x ∧ count ≤ x.params.length := by
  rw [Request.withParams?, Option.filter_eq_some_iff, decide_eq_true_eq]

/-- A redirection of a static member is read unless there is one of a member. -/
theorem redirection?_eq_some {annotations : Annotations} {isStatic : Bool} {x : Annotation} :
    Request.redirection? annotations = some (isStatic, x)
      ↔ (attachmentName? (redirectedKind isStatic)).bind annotations.get? = some x ∧ 3 ≤ x.params.length
        ∧ (isStatic = true → annotations.get? "LuaMemberFunctionRedirector" = none) := by
  rw [Request.redirection?]
  simp only
  cases hmember : annotations.get? "LuaMemberFunctionRedirector" with
  | some y =>
    cases isStatic with
    | true => simp [Option.filter_eq_some_iff]
    | false =>
      change _ ↔ annotations.get? "LuaMemberFunctionRedirector" = some x ∧ _
      simp only [hmember, Option.filter_eq_some_iff, Option.some.injEq, Prod.mk.injEq, true_and, decide_eq_true_eq,
        Bool.false_eq_true, false_implies, and_true]
  | none =>
    cases isStatic with
    | true =>
      change _ ↔ annotations.get? "LuaStaticMemberFunctionRedirector" = some x ∧ _
      simp [Option.filter_eq_some_iff]
    | false =>
      change _ ↔ annotations.get? "LuaMemberFunctionRedirector" = some x ∧ _
      simp [Option.filter_eq_some_iff, hmember]

/-- What is read is named, and nothing that is read before it. -/
theorem attachment?_of_read {annotations : Annotations} {request : Request} {a : Attachment}
    (h : Request.of annotations = .ok (some request)) (ha : request.attachment? = some a) :
    annotations.attachment? a.kind = some a ∧ annotations.reads a.kind = true := by
  unfold Request.of at h
  split at h
  · cases h
  obtain ⟨state, -, h⟩ := bind_eq_ok.1 h
  split at h
  · obtain ⟨found, hlate, heq⟩ := map_eq_ok.1 h
    cases heq
    rw [attachment?_of_late hlate] at ha
    cases ha
  split at h
  · next x hmetamethod =>
    obtain ⟨found, hadd, heq⟩ := map_eq_ok.1 h
    cases heq
    obtain ⟨hget, hlength⟩ := withParams?_eq_some.1 hmetamethod
    obtain ⟨b, hb⟩ := exists_attachmentOf? .metamethod hlength
    rw [addMetamethod_eq hb] at hadd
    cases hadd
    obtain ⟨className, name, wrapper, rest, -, rfl⟩ := attachmentOf?_eq_some hb
    cases ha
    refine ⟨?_, rfl⟩
    change ((some "LuaAddMetamethod").bind annotations.get?).bind (attachmentOf? .metamethod) = _
    rw [Option.bind_some, hget, Option.bind_some, hb]
    rfl
  next hmetamethod =>
  split at h
  · obtain ⟨source, -, h⟩ := bind_eq_ok.1 h
    obtain ⟨target, -, h⟩ := bind_eq_ok.1 h
    cases h
    cases ha
  next htemplate =>
  split at h
  · obtain ⟨derived, -, h⟩ := bind_eq_ok.1 h
    obtain ⟨base, -, h⟩ := bind_eq_ok.1 h
    cases h
    cases ha
  next hbase =>
  split at h
  · next isStatic x hredirection =>
    obtain ⟨found, hredirect, heq⟩ := map_eq_ok.1 h
    cases heq
    obtain ⟨hget, hlength, hfirst⟩ := redirection?_eq_some.1 hredirection
    obtain ⟨b, hb⟩ := exists_attachmentOf? (redirectedKind isStatic) hlength
    rw [redirect_eq isStatic hb] at hredirect
    cases hredirect
    obtain ⟨className, name, wrapper, rest, -, rfl⟩ := attachmentOf?_eq_some hb
    cases ha
    change annotations.attachment? (redirectedKind isStatic) = _ ∧ annotations.reads (redirectedKind isStatic) = true
    refine ⟨?_, ?_⟩
    · rw [attachment?, hget, Option.bind_some, hb]
      rfl
    · exact reads_redirectedKind_iff.2 ⟨Option.eq_none_iff_forall_ne_some.2 hmetamethod,
        Option.eq_none_iff_forall_ne_some.2 htemplate, Option.eq_none_iff_forall_ne_some.2 hbase, hfirst⟩
  · cases h

theorem exists_state {annotations : Annotations} (h : annotations.nameState = true) :
    ∃ x state, annotations.get? "LuaStateTypes" = some x ∧ x.param 0 = .ok state := by
  obtain ⟨x, hx, hparams⟩ := (Option.any_eq_true ..).1 h
  cases hlist : x.params with
  | nil => simp [hlist] at hparams
  | cons state rest => exact ⟨x, state, hx, by simp [hlist, Annotation.param]⟩

/-- What is named is read, if nothing is read before it. -/
theorem read_of_attachment? {annotations : Annotations} {a : Attachment} (hstate : annotations.nameState = true)
    (hlate : annotations.get? "LuaLate" = none) (hnamed : annotations.attachment? a.kind = some a)
    (hreads : annotations.reads a.kind = true) :
    ∃ request, Request.of annotations = .ok (some request) ∧ request.attachment? = some a := by
  obtain ⟨x, state, hx, hparam⟩ := exists_state hstate
  obtain ⟨y, hy, hof⟩ := Option.bind_eq_some_iff.1 hnamed
  have hlength := length_of_attachmentOf? hof
  have hredirect : ∀ isStatic, a.kind = redirectedKind isStatic →
      ∃ request, Request.of annotations = .ok (some request) ∧ request.attachment? = some a := by
    intro isStatic hkind
    rw [hkind] at hy hreads
    obtain ⟨hmetamethod, htemplate, hbase, hfirst⟩ := reads_redirectedKind_iff.1 hreads
    have hredirection : Request.redirection? annotations = some (isStatic, y) :=
      redirection?_eq_some.2 ⟨hy, hlength, hfirst⟩
    refine ⟨.redirector a.wrapper ⟨a.className, a.name, isStatic⟩, ?_, ?_⟩
    · rw [Request.of, hx]
      simp only [hparam, withParams?_of_missing hlate, hmetamethod, htemplate, hbase, hredirection,
        redirect_eq isStatic hof]
      rfl
    · rw [Request.attachment?, RedirectorRequest.attachment, ← hkind]
  cases hkind : a.kind with
  | metamethod =>
    rw [hkind] at hy hof
    have hfound : Request.withParams? annotations "LuaAddMetamethod" 3 = some y :=
      withParams?_eq_some.2 ⟨hy, hlength⟩
    refine ⟨.metamethod a.wrapper ⟨a.className, a.name⟩, ?_, ?_⟩
    · rw [Request.of, hx]
      simp only [hparam, withParams?_of_missing hlate, hfound, addMetamethod_eq hof]
      rfl
    · rw [Request.attachment?, MetamethodRequest.attachment, ← hkind]
  | constructor =>
    rw [hkind] at hreads
    cases hreads
  | function => exact hredirect false hkind
  | static => exact hredirect true hkind

/-- The attachment that a comment names is the one it asks for, if nothing is read before it. -/
theorem read?_eq_some_iff {d : Declaration} {a : Attachment}
    (hstate : (Annotations.parse d.comment).nameState = true)
    (hlate : (Annotations.parse d.comment).get? "LuaLate" = none)
    (hnamed : (Annotations.parse d.comment).attachment? a.kind = some a) :
    Attachment.read? (.ok d) = some a ↔ (Annotations.parse d.comment).reads a.kind = true := by
  constructor
  · intro hread
    obtain ⟨request, hrequest, ha⟩ := Option.bind_eq_some_iff.1 hread
    exact (attachment?_of_read (of_read? hrequest) ha).2
  · intro hreads
    obtain ⟨request, hrequest, ha⟩ := read_of_attachment? hstate hlate hnamed hreads
    rw [Attachment.read?, Request.read?, hrequest]
    exact ha

end Annotations

/-! ### Tables -/

namespace Requests

/-- What a wrapper stands for in one of the two tables. -/
def table? (rs : Requests) (isMetamethod : Bool) (wrapper : String) : Option Attachment :=
  if isMetamethod then (rs.metamethods.get? wrapper).map (·.attachment wrapper)
  else (rs.redirectors.get? wrapper).map (·.attachment wrapper)

/-- What a wrapper is used for. -/
def attachment? (rs : Requests) (wrapper : String) : Option Attachment :=
  (rs.table? true wrapper).or (rs.table? false wrapper)

/-- Is the attachment kept in this table, by this wrapper? -/
def isKept (isMetamethod : Bool) (wrapper : String) (a : Attachment) : Bool :=
  a.wrapper == wrapper && a.isMetamethod == isMetamethod

theorem isKept_iff {isMetamethod : Bool} {wrapper : String} {a : Attachment} :
    isKept isMetamethod wrapper a = true ↔ a.wrapper = wrapper ∧ a.isMetamethod = isMetamethod := by
  rw [isKept, Bool.and_eq_true, beq_iff_eq, beq_iff_eq]

theorem table?_add (rs : Requests) (request : Request) (isMetamethod : Bool) (wrapper : String) :
    (rs.add request).table? isMetamethod wrapper
      = (request.attachment?.filter (isKept isMetamethod wrapper)).or (rs.table? isMetamethod wrapper) := by
  cases request with
  | metamethod w request =>
    rw [table?, table?, add, Request.attachment?, Option.filter_some, NameMap.get?_insert]
    cases isMetamethod with
    | true =>
      by_cases h : wrapper = w
      · subst h
        simp [isKept, MetamethodRequest.attachment, Attachment.isMetamethod]
      · simp [isKept, MetamethodRequest.attachment, h, Ne.symm h]
    | false => simp [isKept, MetamethodRequest.attachment, Attachment.isMetamethod]
  | redirector w request =>
    have hkind := request.isMetamethod_attachment w
    have hwrapper : (request.attachment w).wrapper = w := rfl
    rw [table?, table?, add, Request.attachment?, Option.filter_some, NameMap.get?_insert]
    cases isMetamethod with
    | true => simp [isKept, hkind]
    | false =>
      by_cases h : wrapper = w
      · subst h
        simp [isKept, hkind, hwrapper]
      · simp [isKept, hwrapper, h, Ne.symm h]
  | _ => rfl

/-- Of the requests that are kept in one place of a table the last one stays. -/
theorem table?_foldl (rs : Requests) (requests : List Request) (isMetamethod : Bool) (wrapper : String) :
    (requests.foldl add rs).table? isMetamethod wrapper
      = (((requests.filterMap Request.attachment?).filter (isKept isMetamethod wrapper)).getLast?).or
        (rs.table? isMetamethod wrapper) := by
  induction requests generalizing rs with
  | nil => rfl
  | cons request rest ih =>
    rw [List.foldl_cons, ih, table?_add, List.filterMap_cons]
    cases request.attachment? with
    | none => rfl
    | some a =>
      rw [Option.filter_some, List.filter_cons]
      split
      · rw [List.getLast?_cons]
        cases List.getLast? _ <;> rfl
      · rfl

theorem wrapper_of_attachment? {rs : Requests} {wrapper : String} {a : Attachment}
    (h : rs.attachment? wrapper = some a) : a.wrapper = wrapper := by
  rcases Option.or_eq_some_iff.1 h with htable | ⟨-, htable⟩
  all_goals
    obtain ⟨request, -, rfl⟩ := Option.map_eq_some_iff.1 htable
    rfl

/-- A wrapper that is used for something is so by one of the tables, and by that of the metamethods first. -/
theorem attachment?_eq_some_iff {rs : Requests} {wrapper : String} {a : Attachment} :
    rs.attachment? wrapper = some a
      ↔ rs.table? a.isMetamethod wrapper = some a ∧ (a.isMetamethod = false → rs.table? true wrapper = none) := by
  have hkind : ∀ isMetamethod, rs.table? isMetamethod wrapper = some a → a.isMetamethod = isMetamethod := by
    intro isMetamethod htable
    cases isMetamethod with
    | true =>
      obtain ⟨request, -, rfl⟩ := Option.map_eq_some_iff.1 htable
      rfl
    | false =>
      obtain ⟨request, -, rfl⟩ := Option.map_eq_some_iff.1 htable
      exact request.isMetamethod_attachment wrapper
  rw [attachment?, Option.or_eq_some_iff]
  constructor
  · rintro (htable | ⟨hnone, htable⟩)
    · rw [hkind true htable]
      exact ⟨htable, nofun⟩
    · rw [hkind false htable]
      exact ⟨htable, fun _ => hnone⟩
  · rintro ⟨htable, hnone⟩
    cases hmeta : a.isMetamethod with
    | true => exact .inl (hmeta ▸ htable)
    | false => exact .inr ⟨hnone hmeta, hmeta ▸ htable⟩

/-- A member that a wrapper is used for is redirected. -/
theorem isRedirected_of_attachment? {rs : Requests} {a : Attachment} (h : rs.attachment? a.wrapper = some a)
    (hmember : a.isMetamethod = false) : rs.isRedirected a.className a.name = true := by
  have htable := (attachment?_eq_some_iff.1 h).1
  rw [hmember] at htable
  obtain ⟨request, hget, heq⟩ := Option.map_eq_some_iff.1 htable
  refine List.any_eq_true.2 ⟨request, NameMap.mem_values_of_get? hget, ?_⟩
  rw [← heq]
  simp [RedirectorRequest.attachment]

end Requests

namespace Selection

/-- The requests after the comment of a declaration. -/
theorem requests_learn (s : Selection) (d : Declaration) :
    (s.learn d).requests = (Request.read? (.ok d)).toList.foldl Requests.add s.requests := by
  rw [learn, heed, Request.read?]
  cases Request.of (Annotations.parse d.comment) with
  | error e => rfl
  | ok request? =>
    cases request? with
    | none => rfl
    | some request => cases request <;> rfl

theorem requests_learnAll (s : Selection) {stream : List (Except DeclarationError Declaration)}
    (hends : (s.learnAll stream).2 = none) :
    (s.learnAll stream).1.requests = (stream.filterMap Request.read?).foldl Requests.add s.requests := by
  induction stream generalizing s with
  | nil => rfl
  | cons item rest ih =>
    cases item with
    | error e => cases hends
    | ok d =>
      rw [learnAll, ih (s.learn d) hends, requests_learn, ← List.foldl_append, List.filterMap_cons]
      cases Request.read? (.ok d) <;> rfl

/-- After the first pass a table has for each wrapper what was asked for last. -/
theorem table?_learnAll {registry : Registry} {stream : List (Except DeclarationError Declaration)}
    (hends : ((start registry).learnAll stream).2 = none) (isMetamethod : Bool) (wrapper : String) :
    ((start registry).learnAll stream).1.requests.table? isMetamethod wrapper
      = ((attachments stream).filter (Requests.isKept isMetamethod wrapper)).getLast? := by
  have hnone : (start registry).requests.table? isMetamethod wrapper = none := by cases isMetamethod <;> rfl
  rw [requests_learnAll _ hends, Requests.table?_foldl, hnone, Option.or_none, List.filterMap_filterMap]
  rfl

end Selection

end LuaGlue
