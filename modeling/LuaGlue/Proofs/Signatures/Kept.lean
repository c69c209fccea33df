import LuaGlue.Proofs.Emission.Totality
import LuaGlue.Proofs.Selection.Settled
import LuaGlue.Proofs.Signatures.Keys

/-!
Which function types a run keeps.

Every function type that a binding reads is looked up by the name of its wrapper, and the first one of a
name is kept. So a boxed function pointer is called through a wrapper that was made for the first function
type of this name. Where names tell function types (`IsTellable`), that is its own type
(`kept_signatures_called_alike`). The marks of a result are not in a name, so it need not be
(`slot_boxed_as_counter`).

    int(*)()  ──▶ Ret_int32_t_Params_ ◀── int*(*)()
-/

namespace LuaGlue

open Selection

namespace Registry

/-- The bindings whose types a run reads. A native wrapper has none, so metamethods are left out. -/
def bindings (r : Registry) : List BoundFunction :=
  r.functions.values ++ r.classes.flatMap fun c => generatedKinds.flatMap fun kind => (c.members kind).values

/-- The function types in the types of all bindings. -/
def reachable (r : Registry) : List Signature :=
  r.bindings.flatMap fun f => (f.paramTypes ++ [f.result]).flatMap CxxType.signatures

/-! ### What is recorded under a name -/

/-- A registration records a function type under the name of its wrapper, or none. -/
theorem keyed_change {r r' : Registry} (hchange : Change r r') (h : Keyed r.signatures) : Keyed r'.signatures := by
  cases hchange with
  | wrap hname => exact (recording_addSignature r hname).keyed h
  | expose hadd => obtain ⟨-, rfl, -⟩ | ⟨c, -, -, rfl, -⟩ := addClass_cases hadd <;> exact h
  | addThin name scope source =>
    rw [addThinClass]
    split <;> exact h
  | derive _ hadd =>
    obtain ⟨-, rfl⟩ := addBase_ok hadd
    exact h
  | nest scope id =>
    obtain hsame | ⟨outer, hnested⟩ := nestClass_cases r scope id
    · rwa [hsame]
    · rwa [hnested]
  | enter hadd =>
    obtain ⟨-, rfl⟩ := addEnum_ok hadd
    exact h
  | mapTemplate | describe | makeDefault | extendMember | extendFunction | bindWrapper | redirect | implement
  | includeHeader => exact h

/-- At the end of a run every function type is recorded under the name of its wrapper. -/
theorem keyed_of_run {patches : Patches} {headers : NameSet} {sources : List DeclarationSource} {summary : Summary}
    (h : (({ patches, headers } : Registry).select sources).outcome = .ok summary) :
    Keyed (({ patches, headers } : Registry).select sources).registry.signatures := by
  obtain ⟨complete, hchanges, hsettled⟩ := exists_settled h
  have hplaced := ((Stocked.empty patches headers).changes hchanges).placed
  have hstart : Keyed ({ patches, headers } : Registry).signatures := fun entry hentry => by cases hentry
  rw [hsettled, (complete.survivors hplaced).signatures]
  exact hchanges.keeps (P := fun r => Keyed r.signatures) keyed_change hstart

theorem mem_reachable_of_result {r : Registry} {f : BoundFunction} (hf : f ∈ r.bindings) {s : Signature}
    (hs : f.result.signature? = some s) : s ∈ r.reachable := by
  refine List.mem_flatMap.2 ⟨f, hf, List.mem_flatMap.2 ⟨f.result, List.mem_append_right _ List.mem_cons_self, ?_⟩⟩
  unfold CxxType.signature? at hs
  split at hs
  · next heq =>
    cases hs
    rw [heq, CxxType.signatures]
    exact List.mem_cons_self
  · cases hs

/-- The result of a binding without a native wrapper is recorded. -/
theorem Sound.recorded {r : Registry} (h : r.Sound) {f : BoundFunction} (hf : f ∈ r.bindings)
    (hdirect : f.wrapperName = none) : f.result.IsRecorded r.signatures := by
  rcases List.mem_append.1 hf with hfree | hmember
  · exact (h.housed.functions f hfree hdirect).recorded
  · obtain ⟨c, hc, hmember⟩ := List.mem_flatMap.1 hmember
    obtain ⟨kind, hkind, hmember⟩ := List.mem_flatMap.1 hmember
    have hhouses := (h.housed.classes c hc).members kind hkind f hmember
    refine (hhouses.owned (Bool.eq_false_iff.2 fun hredirector => ?_)).served.recorded
    have hwrapped := (hhouses.redirected hredirector).1
    rw [hdirect] at hwrapped
    cases hwrapped

end Registry

/-- CORRECT: where the names of wrappers tell function types, two function types of one name in the types of
bindings are called alike; the function type that is kept under a name is called as every one that has it; and
every binding that gives a function pointer to Lua boxes it with a wrapper of a function type called as its
own. -/
theorem kept_signatures_called_alike (patches : Patches) (headers : NameSet) (sources : List DeclarationSource)
    (summary : Summary) (hselected : (({ patches, headers } : Registry).select sources).outcome = .ok summary)
    (htellable : IsTellable ((({ patches, headers } : Registry).select sources).registry.signatures.values
      ++ (({ patches, headers } : Registry).select sources).registry.reachable)) :
    let registry := (({ patches, headers } : Registry).select sources).registry
    (∀ s ∈ registry.reachable, ∀ s' ∈ registry.reachable, ∀ key,
        s.wrapperName = .ok key → s'.wrapperName = .ok key → s.callType = s'.callType)
      ∧ (∀ s ∈ registry.reachable, ∀ key kept, s.wrapperName = .ok key →
        registry.signatures.get? key = some kept → kept.callType = s.callType)
      ∧ (PlainNames (DeclarationSource.stream sources) → ∀ f ∈ registry.bindings, f.wrapperName = none →
        ∀ s key, f.result.signature? = some s → s.wrapperName = .ok key →
          ∃ kept, registry.signatures.get? key = some kept ∧ kept.wrapperName = .ok key
            ∧ kept.callType = s.callType) := by
  intro registry
  have hkeyed : Keyed registry.signatures := Registry.keyed_of_run hselected
  have hreachable : ∀ s ∈ registry.reachable, s ∈ registry.signatures.values ++ registry.reachable :=
    fun s hs => List.mem_append_right _ hs
  have hkept : ∀ s ∈ registry.reachable, ∀ key kept, s.wrapperName = .ok key →
      registry.signatures.get? key = some kept → kept.callType = s.callType := by
    intro s hs key kept hkey hget
    have hname := hkeyed (key, kept) (NameMap.mem_entries_of_get? hget)
    exact Signature.callType_eq_of_wrapperName_eq htellable
      (List.mem_append_left _ (NameMap.mem_values_of_get? hget)) (hreachable s hs) hname hkey
  refine ⟨fun s hs s' hs' key hkey hkey' => ?_, hkept, fun hplain f hf hdirect s key hs hkey => ?_⟩
  · exact Signature.callType_eq_of_wrapperName_eq htellable (hreachable s hs) (hreachable s' hs') hkey hkey'
  · have hfinished : registry.Finished := Selection.finished_of_run hplain hselected
    obtain ⟨kept, hget⟩ := Option.isSome_iff_exists.1 (hfinished.sound.recorded hf hdirect s hs key hkey)
    exact ⟨kept, hget, hkeyed (key, kept) (NameMap.mem_entries_of_get? hget),
      hkept s (Registry.mem_reachable_of_result hf hs) key kept hkey hget⟩

/-- A file that declares `Visit`, which takes a callback and gives one that was there before. -/
def visitSource : DeclarationSource where
  path := "visit.toml"
  text := some "source='visit.hpp'\n[[class]]\nname='Mesh'\ncomment='CUSTOM_ATTRIBUTE[Lua(Main)]'\n[[function]]\nname='Visit'\ncomment='CUSTOM_ATTRIBUTE[Lua(Main)]'\nparams=[['each','void(*)(const Mesh*, int)']]\nreturns='bool(*)(float)'"

theorem visit_signatures_called_alike : ∃ summary, (Registry.select {} [visitSource]).outcome = .ok summary
    ∧ IsTellable ((Registry.select {} [visitSource]).registry.signatures.values
      ++ (Registry.select {} [visitSource]).registry.reachable)
    ∧ (Registry.select {} [visitSource]).registry.signatures.keys
      = ["Ret_bool_Params_float", "Ret_void_Params_ConstMeshPtr_int32_t"]
    ∧ ∀ s ∈ (Registry.select {} [visitSource]).registry.reachable,
      ∀ s' ∈ (Registry.select {} [visitSource]).registry.reachable, ∀ key,
        s.wrapperName = .ok key → s'.wrapperName = .ok key → s.callType = s'.callType := by
  have hrun : (Registry.select {} [visitSource]).outcome.isOk = true
      ∧ IsTellable ((Registry.select {} [visitSource]).registry.signatures.values
        ++ (Registry.select {} [visitSource]).registry.reachable)
      ∧ (Registry.select {} [visitSource]).registry.signatures.keys
        = ["Ret_bool_Params_float", "Ret_void_Params_ConstMeshPtr_int32_t"] := by
    decide +kernel
  obtain ⟨hok, htellable, hkeys⟩ := hrun
  obtain ⟨summary, hsummary⟩ := isOk_iff.1 hok
  exact ⟨summary, hsummary, htellable, hkeys,
    (kept_signatures_called_alike {} ∅ [visitSource] summary hsummary htellable).1⟩

/-- A file that declares `Counter`, which gives a function that makes a number, and `Slot`, which gives a
function that makes a pointer to one. -/
def slotSource : DeclarationSource where
  path := "hooks.toml"
  text := some "source='hooks.hpp'\n[[function]]\nname='Counter'\ncomment='CUSTOM_ATTRIBUTE[Lua(Main)]'\nreturns='int(*)()'\n[[function]]\nname='Slot'\ncomment='CUSTOM_ATTRIBUTE[Lua(Main)]'\nreturns='int*(*)()'"

/-- The two function types have one name, so only that of `Counter` is kept, and what `Slot` gives is called
as if it made a number. -/
theorem slot_boxed_as_counter : ∃ summary, (Registry.select {} [slotSource]).outcome = .ok summary
    ∧ (Registry.select {} [slotSource]).registry.signatures.keys = ["Ret_int32_t_Params_"]
    ∧ (Registry.select {} [slotSource]).registry.reachable.map (fun s => (s.wrapperName.toOption, s.callType.result))
      = [(some "Ret_int32_t_Params_", ⟨"int32_t", {}⟩),
         (some "Ret_int32_t_Params_", ⟨"int32_t", { isPointer := true }⟩)]
    ∧ ((Registry.select {} [slotSource]).registry.signatures.get? "Ret_int32_t_Params_").map (·.callType)
      = some ⟨[], ⟨"int32_t", {}⟩⟩ := by
  have hrun : (Registry.select {} [slotSource]).outcome.isOk = true
      ∧ (Registry.select {} [slotSource]).registry.signatures.keys = ["Ret_int32_t_Params_"]
      ∧ (Registry.select {} [slotSource]).registry.reachable.map
          (fun s => (s.wrapperName.toOption, s.callType.result))
        = [(some "Ret_int32_t_Params_", ⟨"int32_t", {}⟩),
           (some "Ret_int32_t_Params_", ⟨"int32_t", { isPointer := true }⟩)]
      ∧ ((Registry.select {} [slotSource]).registry.signatures.get? "Ret_int32_t_Params_").map (·.callType)
        = some ⟨[], ⟨"int32_t", {}⟩⟩ := by
    decide +kernel
  obtain ⟨summary, hsummary⟩ := isOk_iff.1 hrun.1
  exact ⟨summary, hsummary, hrun.2⟩

end LuaGlue
