import LuaGlue.Glue.Bindings
import LuaGlue.Proofs.Emission.Growth
import LuaGlue.Proofs.Selection.Learned

/-!
Requests that stand by themselves.

A *remark* is a comment without a declaration. The first pass hears all remarks before the second pass registers
anything, and the second pass skips them. So when only remarks ask for something, it does not matter where they stand,
as long as each comes behind those it came behind before:

    remark a   class C   remark b   function f      class C   function f   remark a   remark b
        first pass     names  C f    requests  a b      (`learnAll_eq`)
        second pass    C f                              (`registerAll_withoutRemarks`)
-/

namespace LuaGlue

/-- The comment that stands by itself, if the item is one. -/
def remark? : Except DeclarationError Declaration → Option String
  | .ok (.remark comment) => some comment
  | _ => none

/-- The comments that stand by themselves, in order. -/
def remarks (stream : List (Except DeclarationError Declaration)) : List String := stream.filterMap remark?

/-- Everything else, in order. -/
def withoutRemarks (stream : List (Except DeclarationError Declaration)) :
    List (Except DeclarationError Declaration) :=
  stream.filter fun item => (remark? item).isNone

theorem eq_remark {item : Except DeclarationError Declaration} {comment : String}
    (h : remark? item = some comment) : item = .ok (.remark comment) := by
  unfold remark? at h
  split at h
  · cases h
    rfl
  · cases h

section Cons

variable {item : Except DeclarationError Declaration} (h : remark? item = none)

include h

theorem remarks_cons (rest : List (Except DeclarationError Declaration)) :
    remarks (item :: rest) = remarks rest := by
  rw [remarks, List.filterMap_cons_none h]
  rfl

theorem withoutRemarks_cons (rest : List (Except DeclarationError Declaration)) :
    withoutRemarks (item :: rest) = item :: withoutRemarks rest := by
  rw [withoutRemarks, List.filter_cons_of_pos (by simp [h])]
  rfl

end Cons

/-- Does the item leave it to remarks to name a Lua state? -/
def leavesStatesToRemarks : Except DeclarationError Declaration → Bool
  | .ok (.remark _) | .error _ => true
  | .ok d => ((Annotations.parse d.comment).get? "LuaStateTypes").isNone

/-- Is it only remarks that name a Lua state to ask for something? -/
def OnlyRemarksAsk (stream : List (Except DeclarationError Declaration)) : Prop :=
  ∀ item ∈ stream, leavesStatesToRemarks item = true

instance (stream : List (Except DeclarationError Declaration)) : Decidable (OnlyRemarksAsk stream) :=
  inferInstanceAs (Decidable (∀ item ∈ stream, leavesStatesToRemarks item = true))

/-- Do two sequences differ in nothing but the places of remarks? -/
structure Rearranged (stream stream' : List (Except DeclarationError Declaration)) : Prop where
  remarks : remarks stream' = remarks stream
  rest : withoutRemarks stream' = withoutRemarks stream

theorem OnlyRemarksAsk.rearranged {stream stream' : List (Except DeclarationError Declaration)}
    (honly : OnlyRemarksAsk stream) (hmoved : Rearranged stream stream') : OnlyRemarksAsk stream' := by
  intro item hitem
  cases hremark : remark? item with
  | some comment => rw [eq_remark hremark, leavesStatesToRemarks]
  | none =>
    have hrest : item ∈ withoutRemarks stream' := List.mem_filter.2 ⟨hitem, by simp [hremark]⟩
    rw [hmoved.rest] at hrest
    exact honly item (List.mem_of_mem_filter hrest)

namespace Selection

/-- The names after the declarations of a sequence. -/
def learnNames (known : KnownNames) (stream : List (Except DeclarationError Declaration)) : KnownNames :=
  stream.foldl (fun known item => item.toOption.elim known (learnName known)) known

/-! ### The first pass -/

/-- A comment is heard whatever names are known. -/
theorem heed_withKnown (s : Selection) (known : KnownNames) (comment : String) :
    ({ s with known } : Selection).heed comment = { s.heed comment with known } := by
  unfold heed
  split
  · rfl
  · rfl
  · unfold accept
    split <;> rfl

theorem foldl_heed_withKnown (s : Selection) (known : KnownNames) (comments : List String) :
    comments.foldl heed { s with known } = { comments.foldl heed s with known } := by
  induction comments generalizing s with
  | nil => rfl
  | cons comment rest ih => rw [List.foldl_cons, List.foldl_cons, heed_withKnown, ih]

/-- Of a declaration whose comment names no state, only the name is learned. -/
theorem learn_of_leaves {d : Declaration} (hremark : remark? (.ok d) = none)
    (hleaves : leavesStatesToRemarks (.ok d) = true) (s : Selection) :
    s.learn d = { s with known := learnName s.known d } := by
  have hnone : (Annotations.parse d.comment).get? "LuaStateTypes" = none := by
    cases d with
    | remark => cases hremark
    | record | function | enum => exact Option.isNone_iff_eq_none.1 hleaves
  rw [learn, heed, Request.of, hnone]

/-- What is learned from a sequence without errors: names from the declarations, all else from the remarks. -/
theorem learnAll_eq {stream : List (Except DeclarationError Declaration)} (honly : OnlyRemarksAsk stream)
    {s : Selection} (hends : (s.learnAll stream).2 = none) : (s.learnAll stream).1
      = { (remarks stream).foldl heed s with known := learnNames s.known (withoutRemarks stream) } := by
  induction stream generalizing s with
  | nil => rfl
  | cons item rest ih =>
    cases item with
    | error e => cases hends
    | ok d =>
      rw [learnAll] at hends ⊢
      rw [ih (fun item hitem => honly item (List.mem_cons_of_mem _ hitem)) hends]
      cases hremark : remark? (.ok d) with
      | some comment =>
        obtain rfl : d = .remark comment := Except.ok.inj (eq_remark hremark)
        have hrest : withoutRemarks (.ok (.remark comment) :: rest) = withoutRemarks rest := rfl
        have hremarks : remarks (.ok (.remark comment) :: rest) = comment :: remarks rest := rfl
        have hheed : s.learn (.remark comment) = s.heed comment := rfl
        rw [hrest, hremarks, hheed, known_heed, List.foldl_cons]
      | none =>
        rw [learn_of_leaves hremark (honly _ List.mem_cons_self), withoutRemarks_cons hremark, remarks_cons hremark,
          foldl_heed_withKnown]
        rfl

/-- Remarks do not stop the first pass. -/
theorem ends_learnAll (s t : Selection) (stream : List (Except DeclarationError Declaration)) :
    (s.learnAll stream).2 = (t.learnAll (withoutRemarks stream)).2 := by
  induction stream generalizing s t with
  | nil => rfl
  | cons item rest ih =>
    cases hremark : remark? item with
    | some comment =>
      obtain rfl : item = .ok (.remark comment) := eq_remark hremark
      exact ih _ _
    | none =>
      rw [withoutRemarks_cons hremark]
      cases item with
      | error e => rfl
      | ok d => exact ih _ _

/-! ### The second pass -/

/-- The second pass skips remarks. -/
theorem registerAll_withoutRemarks (s : Selection) (stream : List (Except DeclarationError Declaration)) :
    s.registerAll (withoutRemarks stream) = s.registerAll stream := by
  induction stream generalizing s with
  | nil => rfl
  | cons item rest ih =>
    cases hremark : remark? item with
    | some comment =>
      obtain rfl : item = .ok (.remark comment) := eq_remark hremark
      exact ih s
    | none =>
      rw [withoutRemarks_cons hremark]
      cases item with
      | error e => rfl
      | ok d =>
        rw [registerAll, registerAll]
        split
        · exact ih _
        · rfl

/-! ### Runs -/

/-- The first pass stops only where a file cannot be loaded. -/
theorem source_of_learnAll {s : Selection} {stream : List (Except DeclarationError Declaration)} {e : SelectionError}
    (h : (s.learnAll stream).2 = some e) : ∃ cause, e = .source cause := by
  induction stream generalizing s with
  | nil => cases h
  | cons item rest ih =>
    cases item with
    | error cause => exact ⟨cause, (Option.some.inj h).symm⟩
    | ok d => exact ih h

/-- A run that stops in the first pass. -/
theorem runAll_of_stops {s : Selection} {stream : List (Except DeclarationError Declaration)} {e : SelectionError}
    (h : (s.learnAll stream).2 = some e) : s.runAll stream = ((s.learnAll stream).1, some e) := by
  have hlearn : s.learnAll stream = ((s.learnAll stream).1, some e) := Prod.ext rfl h
  rw [runAll, hlearn]

section Rearranged

variable {stream stream' : List (Except DeclarationError Declaration)}

/-- The first pass ends in the same way. -/
theorem ends_rearranged (hmoved : Rearranged stream stream') (s : Selection) :
    (s.learnAll stream').2 = (s.learnAll stream).2 := by
  rw [ends_learnAll s s stream', hmoved.rest, ← ends_learnAll]

/-- When the first pass comes to its end, the places of remarks make no difference to the run. -/
theorem runAll_rearranged (honly : OnlyRemarksAsk stream) (hmoved : Rearranged stream stream') {s : Selection}
    (hends : (s.learnAll stream).2 = none) : s.runAll stream' = s.runAll stream := by
  have hends' : (s.learnAll stream').2 = none := (ends_rearranged hmoved s).trans hends
  have hlearn : s.learnAll stream' = s.learnAll stream := by
    refine Prod.ext ?_ (ends_rearranged hmoved s)
    rw [learnAll_eq honly hends, learnAll_eq (honly.rearranged hmoved) hends', hmoved.remarks, hmoved.rest]
  have hregister : ∀ t : Selection, t.registerAll stream' = t.registerAll stream := by
    intro t
    rw [← registerAll_withoutRemarks, hmoved.rest, registerAll_withoutRemarks]
  rw [runAll, runAll, hlearn]
  simp only [hregister]

end Rearranged

end Selection

namespace Registry

/-! ### Files -/

section Templates

variable (r : Registry) (templates : NameMap String)

theorem alike_withTemplates : Registry.Alike { r with templates } r := ⟨rfl, rfl⟩

theorem stateFile_withTemplates (cxxNamespace state : String) :
    StateFile.of { r with templates } cxxNamespace state = StateFile.of r cxxNamespace state := by
  have halike := alike_withTemplates r templates
  have hheaders : StateFile.headersOf { r with templates } = StateFile.headersOf r := rfl
  rw [StateFile.of, StateFile.of]
  simp only [halike.classesForState_eq, ProtoWrapper.of_congr halike, ClassGlue.of_congr halike,
    WrapperFunction.of_congr halike, hheaders]

theorem renderStates_withTemplates (cxxNamespace : String) (states : List String) :
    ({ r with templates } : Registry).renderStates cxxNamespace states = r.renderStates cxxNamespace states := by
  induction states with
  | nil => rfl
  | cons state rest ih =>
    rw [renderStates, renderStates, stateFile_withTemplates]
    simp only [ih, StateFile.render_congr (alike_withTemplates r templates)]

/-- No file depends on templates. -/
theorem renderAll_withTemplates (cxxNamespace : String) :
    ({ r with templates } : Registry).renderAll cxxNamespace = r.renderAll cxxNamespace := by
  rw [renderAll, renderAll]
  simp only [renderStates_withTemplates]

end Templates

end Registry

open Selection

/-- CORRECT: let only remarks ask for something, and let another sequence of declarations come from moving remarks to
other files or places without changing their order. Then a run over it ends in the same way, with the same error or
the same summary. Unless a file cannot be loaded the registry is the same, and in any case the same files are
rendered. -/
theorem remarks_work_anywhere (registry : Registry) {sources sources' : List DeclarationSource}
    (honly : OnlyRemarksAsk (DeclarationSource.stream sources))
    (hmoved : Rearranged (DeclarationSource.stream sources) (DeclarationSource.stream sources')) :
    (Registry.select registry sources').outcome = (Registry.select registry sources).outcome
      ∧ ((Registry.select registry sources').registry = (Registry.select registry sources).registry
        ∨ ∃ cause, (Registry.select registry sources).outcome = .error (.source cause))
      ∧ ∀ cxxNamespace, (Registry.select registry sources').registry.renderAll cxxNamespace
          = (Registry.select registry sources).registry.renderAll cxxNamespace := by
  cases hends : ((start registry).learnAll (DeclarationSource.stream sources)).2 with
  | none =>
    have hselect : Registry.select registry sources' = Registry.select registry sources := by
      rw [Registry.select, Registry.select, runAll_rearranged honly hmoved hends]
    rw [hselect]
    exact ⟨rfl, .inl rfl, fun _ => rfl⟩
  | some e =>
    have hends' := (ends_rearranged hmoved (start registry)).trans hends
    obtain ⟨cause, rfl⟩ := source_of_learnAll hends
    obtain ⟨templates, _, _, _, hlearned⟩ := learnAll_rest (start registry) (DeclarationSource.stream sources)
    obtain ⟨templates', _, _, _, hlearned'⟩ := learnAll_rest (start registry) (DeclarationSource.stream sources')
    rw [Registry.select, Registry.select, runAll_of_stops hends, runAll_of_stops hends', hlearned, hlearned']
    refine ⟨rfl, .inr ⟨cause, rfl⟩, fun cxxNamespace => ?_⟩
    exact (Registry.renderAll_withTemplates _ templates' cxxNamespace).trans
      (Registry.renderAll_withTemplates _ templates cxxNamespace).symm

/-- A comment that asks for a function, and the function. -/
def askedSource : DeclarationSource where
  path := "light.toml"
  text := some "source='light.hpp'\n[[annotation]]\ncomment='CUSTOM_ATTRIBUTE[LuaStateTypes(Main) LuaLate(FreeFunction, ::Light)]'\n[[function]]\nname='Light'"

/-- The function by itself. -/
def silentSource : DeclarationSource where
  path := "light.toml"
  text := some "source='light.hpp'\n[[function]]\nname='Light'"

/-- The comment by itself. -/
def requestSource : DeclarationSource where
  path := "requests.toml"
  text := some "source='requests.hpp'\n[[annotation]]\ncomment='CUSTOM_ATTRIBUTE[LuaStateTypes(Main) LuaLate(FreeFunction, ::Light)]'"

/-- The comment may come from another file, behind the function it asks for. -/
theorem late_request_heard : ∃ summary,
    (Registry.select {} [silentSource, requestSource]).outcome = .ok summary
      ∧ (Registry.select {} [silentSource, requestSource]).registry
        = (Registry.select {} [askedSource]).registry
      ∧ (Registry.select {} [silentSource, requestSource]).registry.functions.keys = ["::Light"] := by
  let request := "CUSTOM_ATTRIBUTE[LuaStateTypes(Main) LuaLate(FreeFunction, ::Light)]"
  let light : DeclaredFunction := ⟨"Light", "", [], "void", false, "", none, false, "light.hpp"⟩
  have hasked : DeclarationSource.stream [askedSource] = [.ok (.remark request), .ok (.function light)] := by
    decide +kernel
  have hmoved : DeclarationSource.stream [silentSource, requestSource]
      = [.ok (.function light), .ok (.remark request)] := by decide +kernel
  have hrearranged : Rearranged (DeclarationSource.stream [askedSource])
      (DeclarationSource.stream [silentSource, requestSource]) := by
    rw [hasked, hmoved]
    exact ⟨rfl, rfl⟩
  have honly : OnlyRemarksAsk (DeclarationSource.stream [askedSource]) := by
    rw [hasked]
    decide +kernel
  have hrun : (Registry.select {} [silentSource, requestSource]).outcome.isOk = true
      ∧ (Registry.select {} [silentSource, requestSource]).registry.functions.keys = ["::Light"] := by
    rw [Registry.select, hmoved]
    decide +kernel
  obtain ⟨summary, hsummary⟩ := isOk_iff.1 hrun.1
  obtain ⟨hsame, hregistry, -⟩ := remarks_work_anywhere {} honly hrearranged
  rcases hregistry with hregistry | ⟨cause, hfailed⟩
  · exact ⟨summary, hsummary, hregistry, hrun.2⟩
  · rw [hsummary, hfailed] at hsame
    cases hsame

end LuaGlue
