import LuaGlue.Proofs.Emission.Closed
import LuaGlue.Proofs.Functions.Primaries
import LuaGlue.Proofs.Resolution.Resolved

/-!
The wrappers that free functions are registered with.

A state file registers each free function by the name of its wrapper, and defines the wrappers of the
primary functions. So a name is defined as often as there are primary functions in the file that own it
(`wrappers_filter`), and what it calls is the native function of the primary one. In an uncontended run each
function has one primary in its file: it is settled at the first name of the request, in the same state, and
it is dropped only together with the function.

    functions of the file ──primary ones──▶ definitions          f registered by N
                                                                 g primary, named N ──▶ N calls g
-/

namespace LuaGlue

open Registry Selection

/-! ### Calls -/

/-- The native calls in the code. -/
def CallCode.calls : CallCode → List NativeCall
  | .single _ tail => tail.toList.map (·.call)
  | .overloaded _ _ _ branches => branches.flatMap fun b => b.tail.toList.map (·.call)

namespace CallCode

variable {f : BoundFunction} {registry : Registry}

theorem calls_branchesFrom {index : Nat} {saved : List Nat} {overloads : List Overload} {branches : List Branch}
    (h : branchesFrom f registry true index saved overloads = .ok branches) :
    (branches.flatMap fun b => b.tail.toList.map (·.call)) = overloads.map (NativeCall.ofOverload f) := by
  induction overloads generalizing index saved branches with
  | nil =>
    cases h
    rfl
  | cons o rest ih =>
    obtain ⟨extractions, -, h⟩ := bind_eq_ok.1 h
    obtain ⟨others, hothers, h⟩ := bind_eq_ok.1 h
    cases h
    rw [List.flatMap_cons, ih hothers]
    rfl

/-- The code of a function has a call for each overload, and there is one. -/
theorem calls_of {code : CallCode} (h : CallCode.of f registry true = .ok code) :
    code.calls = f.overloads.map (NativeCall.ofOverload f) ∧ f.overloads ≠ [] := by
  obtain ⟨o, extractions, hone, -, rfl⟩ | ⟨branches, hmany, hbranches, rfl⟩ := of_cases h
  · rw [hone]
    exact ⟨rfl, List.cons_ne_nil o []⟩
  · exact ⟨calls_branchesFrom hbranches, List.ne_nil_of_length_pos (Nat.lt_of_lt_of_le Nat.two_pos hmany)⟩

end CallCode

/-- The calls of a wrapper go to the native function it is made for. -/
theorem WrapperFunction.calls_of {name : String} {f : BoundFunction} {registry : Registry} {w : WrapperFunction}
    (h : WrapperFunction.of name f registry = .ok w) :
    w.body.call.calls ≠ [] ∧ ∀ call ∈ w.body.call.calls, call.callee = NativeCall.calleeOf f := by
  obtain ⟨code, hcode, hbody⟩ := bind_eq_ok.1 (WrapperFunction.of_eq_ok h).2
  obtain ⟨push, -, hbody⟩ := bind_eq_ok.1 hbody
  obtain ⟨hcalls, hne⟩ := CallCode.calls_of hcode
  have hcall : w.body.call = code := by
    rw [← Except.ok.inj hbody]
  rw [hcall, hcalls]
  refine ⟨by simpa using hne, fun call hcall => ?_⟩
  obtain ⟨o, -, rfl⟩ := List.mem_map.1 hcall
  rfl

/-! ### Definitions -/

/-- A test on results that can be made on the elements may be made there. -/
theorem filter_mapM_ok {ε α β : Type} {F : α → Except ε β} {l : List α} {found : List β} (keep : α → Bool)
    (kept : β → Bool) (hsame : ∀ a b, F a = .ok b → kept b = keep a) (h : l.mapM F = .ok found) :
    (l.filter keep).mapM F = .ok (found.filter kept) := by
  induction l generalizing found with
  | nil =>
    cases h
    rfl
  | cons a l ih =>
    obtain ⟨b, rest, hb, hrest, rfl⟩ := mapM_cons_eq_ok.1 h
    have hkept := hsame a b hb
    have hothers := ih hrest
    rw [List.filter_cons, List.filter_cons, hkept]
    cases keep a with
    | true => exact mapM_cons_eq_ok.2 ⟨b, _, hb, hothers, rfl⟩
    | false => exact hothers

/-- There is one result exactly when there is one element. -/
theorem mapM_eq_singleton {ε α β : Type} {F : α → Except ε β} {l : List α} {b : β} (h : l.mapM F = .ok [b]) :
    ∃ a, l = [a] ∧ F a = .ok b := by
  cases l with
  | nil => cases h
  | cons a l =>
    obtain ⟨first, rest, hfirst, hrest, heq⟩ := mapM_cons_eq_ok.1 h
    cases heq
    cases l with
    | nil => exact ⟨a, rfl, hfirst⟩
    | cons next l =>
      obtain ⟨_, _, -, -, hnone⟩ := mapM_cons_eq_ok.1 hrest
      cases hnone

namespace StateFile

/-- Is the wrapper that the function is registered with defined once, and does the definition call the native
function? -/
def DefinesOnce (file : StateFile) (f : BoundFunction) : Prop :=
  ∃ w, (file.wrappers.filter fun w => w.name == f.freeWrapperName) = [w]
    ∧ w.body.call.calls ≠ [] ∧ ∀ call ∈ w.body.call.calls, call.callee = f.qualified

/-- The primary functions of the file whose wrapper has this name. -/
def owners (file : StateFile) (name : String) : List BoundFunction :=
  file.functions.filter fun g => ownsWrapper g && g.freeWrapperName == name

variable {registry : Registry} {cxxNamespace state : String} {file : StateFile}

theorem functions_of (h : StateFile.of registry cxxNamespace state = .ok file) :
    file.functions = (registry.functions.values.filter fun f => f.state == some state)
      ∧ (file.functions.filter ownsWrapper).mapM (fun f => WrapperFunction.of f.freeWrapperName f registry)
        = .ok file.wrappers := by
  unfold StateFile.of at h
  obtain ⟨protos, -, h⟩ := bind_eq_ok.1 h
  obtain ⟨glue, -, h⟩ := bind_eq_ok.1 h
  obtain ⟨wrappers, hwrappers, h⟩ := bind_eq_ok.1 h
  cases h
  exact ⟨rfl, hwrappers⟩

/-- The definitions of a name are those of the primary functions that own it. -/
theorem wrappers_filter (h : StateFile.of registry cxxNamespace state = .ok file) (name : String) :
    (file.owners name).mapM (fun f => WrapperFunction.of f.freeWrapperName f registry)
      = .ok (file.wrappers.filter fun w => w.name == name) := by
  have hfilter := filter_mapM_ok (fun g : BoundFunction => g.freeWrapperName == name)
    (fun w : WrapperFunction => w.name == name)
    (fun f w hw => by rw [(WrapperFunction.of_eq_ok hw).1]) (functions_of h).2
  rwa [List.filter_filter, show (file.functions.filter fun g => (g.freeWrapperName == name) && ownsWrapper g)
    = file.owners name from List.filter_congr fun g _ => Bool.and_comm _ _] at hfilter

/-- A name is defined once, for the right function, if it has one owner and this is of the same native function. -/
theorem definesOnce_iff (h : StateFile.of registry cxxNamespace state = .ok file) {f : BoundFunction}
    (hfree : ∀ g ∈ file.owners f.freeWrapperName, NativeCall.calleeOf g = g.qualified) :
    file.DefinesOnce f ↔ ∃ g, file.owners f.freeWrapperName = [g] ∧ g.qualified = f.qualified := by
  have hwrappers := wrappers_filter h f.freeWrapperName
  constructor
  · rintro ⟨w, hw, hne, hcalls⟩
    rw [hw] at hwrappers
    obtain ⟨g, hg, hof⟩ := mapM_eq_singleton hwrappers
    obtain ⟨call, hcall⟩ := List.exists_mem_of_ne_nil _ hne
    refine ⟨g, hg, ?_⟩
    rw [← hfree g (hg ▸ List.mem_cons_self), ← (WrapperFunction.calls_of hof).2 call hcall, hcalls call hcall]
  · rintro ⟨g, hg, hsame⟩
    rw [hg] at hwrappers
    obtain ⟨w, rest, hof, hrest, hfound⟩ := mapM_cons_eq_ok.1 hwrappers
    cases hrest
    obtain ⟨hne, hcalls⟩ := WrapperFunction.calls_of hof
    refine ⟨w, hfound, hne, fun call hcall => ?_⟩
    rw [hcalls call hcall, hfree g (hg ▸ List.mem_cons_self), hsame]

end StateFile

/-! ### Primaries of a run -/

theorem CxxType.mem_usesOf {onlyRead : Bool} {ts : List CxxType} {use : ClassUse} :
    use ∈ usesOf onlyRead ts ↔ ∃ t ∈ ts, use ∈ t.uses onlyRead := by
  induction ts with
  | nil => simp [usesOf]
  | cons t rest ih => simp [usesOf, ih]

namespace BoundFunction

variable {f g : BoundFunction}

theorem mem_paramTypes {t : CxxType} : t ∈ f.paramTypes ↔ ∃ o ∈ f.overloads, ∃ param ∈ o, param.type = t := by
  simp [paramTypes]

namespace IsPrimaryOf

/-- Both use the same classes. -/
theorem mem_uses (h : g.IsPrimaryOf f) (use : ClassUse) : use ∈ f.uses ↔ use ∈ g.uses := by
  have hparams : ∀ t, t ∈ f.paramTypes ↔ t ∈ g.paramTypes := fun t =>
    mem_paramTypes.trans ((exists_congr fun o => and_congr_left fun _ => h.overloads o).trans mem_paramTypes.symm)
  rw [uses, uses, List.mem_append, List.mem_append, CxxType.mem_usesOf, CxxType.mem_usesOf, h.result]
  exact or_congr_left (exists_congr fun t => and_congr_left fun _ => hparams t)

/-- Both are dropped, or none is. -/
theorem misses_iff (h : g.IsPrimaryOf f) (hwrapper : f.wrapperName = none) (r : Registry) :
    r.misses g = true ↔ r.misses f = true := by
  rw [Registry.misses_iff, Registry.misses_iff, h.generated, hwrapper]
  exact and_congr_right fun _ => exists_congr fun use => and_congr_left fun _ => (h.mem_uses use).symm

theorem qualified_eq (h : g.IsPrimaryOf f) : g.qualified = f.qualified := by
  rw [qualified, qualified, h.scope, h.name]

theorem freeWrapperName_eq (h : g.IsPrimaryOf f) (hwrapper : f.wrapperName = none) :
    g.freeWrapperName = f.freeWrapperName := by
  rw [freeWrapperName, freeWrapperName, h.generated, hwrapper, h.scope, h.name]

theorem ownsWrapper_eq (h : g.IsPrimaryOf f) : StateFile.ownsWrapper g = true := by
  rw [StateFile.ownsWrapper, h.direct, h.own, h.generated]
  rfl

end IsPrimaryOf

end BoundFunction

theorem StateFile.ownsWrapper_iff {g : BoundFunction} :
    ownsWrapper g = true ↔ g.isRedirector = false ∧ g.isAlias = false ∧ g.wrapperName = none := by
  simp [ownsWrapper, and_assoc]

section Run

variable {patches : Patches} {headers : NameSet} {stream : List (Except DeclarationError Declaration)} {s : Selection}

/-- A free function without a native wrapper is called by its own name. -/
theorem calleeOf_of_run (hrun : (start { patches, headers }).runAll stream = (s, none)) {f : BoundFunction}
    (hf : f ∈ s.registry.functions.values) (hwrapper : f.wrapperName = none) :
    NativeCall.calleeOf f = f.qualified := by
  obtain ⟨key, hkey⟩ := NameMap.mem_values.1 hf
  obtain ⟨hsettled, -⟩ := (functions_of_run hrun).1 (NameMap.mem_entries_iff.1 hkey)
  obtain ⟨_, _, _, _, -, -, -, heq⟩ := Offer.eq_of_foldl_settle hsettled hwrapper
  rw [heq]
  rfl

/-- In an uncontended run each name of a wrapper has one owner. -/
theorem owners_of_uncontended (hrun : (start { patches, headers }).runAll stream = (s, none))
    {cxxNamespace state : String} {file : StateFile} (hfile : StateFile.of s.registry cxxNamespace state = .ok file)
    (huncontended : ((start { patches, headers }).learnAll stream).1.Uncontended stream) {f : BoundFunction}
    (hf : f ∈ file.functions) (hwrapper : f.wrapperName = none) :
    ∃ g, file.owners f.freeWrapperName = [g] ∧ g.qualified = f.qualified := by
  have hfunctions := (StateFile.functions_of hfile).1
  rw [hfunctions] at hf
  obtain ⟨hvalue, hstate⟩ := List.mem_filter.1 hf
  obtain ⟨key, hkey⟩ := NameMap.mem_values.1 hvalue
  obtain ⟨hsettled, hkept⟩ := (functions_of_run hrun).1 (NameMap.mem_entries_iff.1 hkey)
  obtain ⟨first, g, hg, hprimary, honly⟩ := huncontended.exists_primary hsettled hwrapper
  have hleft : s.registry.functions.get? first = some g := by
    refine (functions_of_run hrun).2 ⟨hg, Bool.eq_false_iff.2 fun hmisses => ?_⟩
    rw [(hprimary.misses_iff hwrapper _).1 hmisses] at hkept
    cases hkept
  let owns (h : BoundFunction) : Bool :=
    (StateFile.ownsWrapper h && h.freeWrapperName == f.freeWrapperName) && h.state == some state
  have howns : owns g = true := by
    simpa [owns, hprimary.ownsWrapper_eq, hprimary.freeWrapperName_eq hwrapper, hprimary.state] using hstate
  have hentries : (s.registry.functions.entries.filter fun entry => owns entry.2) = [(first, g)] := by
    refine NameMap.eq_of_mem_iff (List.Pairwise.filter _ s.registry.functions.ordered) (List.pairwise_singleton _ _)
      fun ⟨other, h⟩ => ?_
    rw [List.mem_filter, NameMap.mem_entries_iff, List.mem_singleton, Prod.mk.injEq]
    constructor
    · rintro ⟨hother, hholds⟩
      simp only [owns, Bool.and_eq_true, beq_iff_eq, StateFile.ownsWrapper_iff] at hholds
      obtain ⟨⟨⟨-, hown, hgenerated⟩, hname⟩, -⟩ := hholds
      obtain rfl := honly other h ((functions_of_run hrun).1 hother).1 hgenerated hown hname
      rw [hleft] at hother
      exact ⟨rfl, (Option.some.inj hother).symm⟩
    · rintro ⟨rfl, rfl⟩
      exact ⟨hleft, howns⟩
  refine ⟨g, ?_, hprimary.qualified_eq⟩
  rw [StateFile.owners, hfunctions, List.filter_filter, NameMap.values, List.filter_map]
  change (s.registry.functions.entries.filter fun entry => owns entry.2).map Prod.snd = [g]
  rw [hentries]
  rfl

end Run

/-- CORRECT: a function that a rendered state file registers by a generated wrapper has it defined there exactly
once, with calls of its own native function, if and only if one primary function of the file owns this wrapper
and is of the same native function. This is so for all functions of all files of an uncontended run. -/
theorem registered_wrappers_defined_iff (patches : Patches) (headers : NameSet)
    (stream : List (Except DeclarationError Declaration)) (s : Selection)
    (hrun : (start { patches, headers }).runAll stream = (s, none)) (cxxNamespace state : String) (file : StateFile)
    (hfile : StateFile.of s.registry cxxNamespace state = .ok file) :
    (∀ f ∈ file.functions, f.wrapperName = none →
        (file.DefinesOnce f ↔ ∃ g, file.owners f.freeWrapperName = [g] ∧ g.qualified = f.qualified))
      ∧ (((start { patches, headers }).learnAll stream).1.Uncontended stream →
        ∀ f ∈ file.functions, f.wrapperName = none → file.DefinesOnce f) := by
  have hiff : ∀ f, file.DefinesOnce f
      ↔ ∃ g, file.owners f.freeWrapperName = [g] ∧ g.qualified = f.qualified := by
    intro f
    refine StateFile.definesOnce_iff hfile fun g hg => ?_
    obtain ⟨hmem, hholds⟩ := List.mem_filter.1 hg
    rw [(StateFile.functions_of hfile).1] at hmem
    exact calleeOf_of_run hrun (List.mem_filter.1 hmem).1
      (StateFile.ownsWrapper_iff.1 (Bool.and_eq_true_iff.1 hholds).1).2.2
  exact ⟨fun f _ _ => hiff f, fun huncontended f hf hwrapper =>
    (hiff f).2 (owners_of_uncontended hrun hfile huncontended hf hwrapper)⟩

/-- The free function `run` of `A`, under two Lua names. -/
def aliasedRuns : List (Except DeclarationError Declaration) :=
  [.ok (.remark "CUSTOM_ATTRIBUTE[LuaStateTypes(Main) LuaLate(FreeFunction, ::A::run, ::, run)]"),
    .ok (.remark "CUSTOM_ATTRIBUTE[LuaStateTypes(Main) LuaLate(FreeFunction, ::A::run, ::, go)]"),
    .ok (.function (runOf "::A" []))]

theorem alias_defined_once : ∃ s file, (start {}).runAll aliasedRuns = (s, none)
    ∧ StateFile.of s.registry "Glue" "Main" = .ok file
    ∧ ((start {}).learnAll aliasedRuns).1.Uncontended aliasedRuns
    ∧ ∃ f ∈ file.functions, f.luaName = "go" ∧ f.isAlias = true ∧ f.wrapperName = none ∧ file.DefinesOnce f := by
  have hends : ((start {}).runAll aliasedRuns).2 = none
      ∧ ((start {}).learnAll aliasedRuns).1.Uncontended aliasedRuns
      ∧ (StateFile.of ((start {}).runAll aliasedRuns).1.registry "Glue" "Main").toOption.any (fun file =>
        file.functions.any fun f => f.luaName == "go" && f.isAlias && f.wrapperName.isNone) = true := by
    decide +kernel
  obtain ⟨hnone, huncontended, hany⟩ := hends
  have hrun := eq_of_ends hnone
  cases hfile : StateFile.of ((start {}).runAll aliasedRuns).1.registry "Glue" "Main" with
  | error cause =>
    rw [hfile] at hany
    cases hany
  | ok file =>
    rw [hfile] at hany
    obtain ⟨f, hf, hholds⟩ := List.any_eq_true.1 hany
    simp only [Bool.and_eq_true, beq_iff_eq, Option.isNone_iff_eq_none] at hholds
    obtain ⟨⟨hname, halias⟩, hwrapper⟩ := hholds
    exact ⟨_, file, hrun, hfile, huncontended, f, hf, hname, halias, hwrapper,
      (registered_wrappers_defined_iff {} ∅ aliasedRuns _ hrun "Glue" "Main" file hfile).2 huncontended f hf hwrapper⟩

/-- The `run` of `A` is first under the Lua name `run`, and the `run` of `B` has `go` for its other name. -/
def strayRuns : List (Except DeclarationError Declaration) :=
  runs [runOf "::A" [], runOf "::B" []]
    ++ [.ok (.remark "CUSTOM_ATTRIBUTE[LuaStateTypes(Main) LuaLate(FreeFunction, ::B::run, ::, go)]")]

/-- What `go` is registered with is defined nowhere. -/
theorem stray_alias_undefined : ((start {}).runAll strayRuns).2 = none
    ∧ ∃ file, StateFile.of ((start {}).runAll strayRuns).1.registry "Glue" "Main" = .ok file
      ∧ ∃ f ∈ file.functions, f.luaName = "go" ∧ f.wrapperName = none
        ∧ (∀ w ∈ file.wrappers, w.name ≠ f.freeWrapperName) ∧ ¬ file.DefinesOnce f := by
  have hends : ((start {}).runAll strayRuns).2 = none
      ∧ (StateFile.of ((start {}).runAll strayRuns).1.registry "Glue" "Main").toOption.any (fun file =>
        file.functions.any fun f => f.luaName == "go" && f.wrapperName.isNone
          && file.wrappers.all fun w => w.name != f.freeWrapperName) = true := by
    decide +kernel
  obtain ⟨hnone, hany⟩ := hends
  cases hfile : StateFile.of ((start {}).runAll strayRuns).1.registry "Glue" "Main" with
  | error cause =>
    rw [hfile] at hany
    cases hany
  | ok file =>
    rw [hfile] at hany
    obtain ⟨f, hf, hholds⟩ := List.any_eq_true.1 hany
    simp only [Bool.and_eq_true, beq_iff_eq, Option.isNone_iff_eq_none, List.all_eq_true, bne_iff_ne] at hholds
    obtain ⟨⟨hname, hwrapper⟩, hall⟩ := hholds
    refine ⟨hnone, file, rfl, f, hf, hname, hwrapper, hall, ?_⟩
    rintro ⟨w, hw, -⟩
    have hmem : w ∈ file.wrappers.filter fun w => w.name == f.freeWrapperName := hw ▸ List.mem_cons_self
    obtain ⟨hdefined, hsame⟩ := List.mem_filter.1 hmem
    exact hall w hdefined (beq_iff_eq.1 hsame)

end LuaGlue
