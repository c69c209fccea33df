import LuaGlue.Proofs.Emission.Closed
import Mathlib.Algebra.Order.BigOperators.Group.List
import Mathlib.Algebra.Order.Group.Nat
import Mathlib.Data.List.Sort

/-!
What the header of a state says of a registry.

The code of classes and functions is generated from the classes and the extensions of a registry, whatever
else is in it (`Registry.Alike`). The rest of a header is a list of includes and a list of wrappers for
function types. Each include and each wrapper adds to the length of the text. So if one header has all
includes and wrappers of another one, and agrees with it otherwise, then the two have one text only if they
have the same includes and the same wrappers (`StateFile.eq_of_render_eq`).
-/

namespace LuaGlue

/-! ### Generated code -/

/-- Do the registries hold the same classes under the same extensions? -/
structure Registry.Alike (r r' : Registry) : Prop where
  classes : r.classes = r'.classes
  patches : r.patches = r'.patches

/-- What reads nothing but classes and extensions is the same for both registries. -/
theorem Registry.Alike.congr {α : Type} {r r' : Registry} (h : r.Alike r') {f : Registry → α}
    (hf : ∀ q q' : Registry, f q = f { q' with classes := q.classes, patches := q.patches }) : f r = f r' := by
  rw [hf r r', h.classes, h.patches]

section Alike

variable {r r' : Registry}

theorem CallCode.branchesFrom_congr (h : r.Alike r') (f : BoundFunction) (withCall : Bool) (index : Nat)
    (saved : List Nat) (overloads : List Overload) :
    branchesFrom f r withCall index saved overloads = branchesFrom f r' withCall index saved overloads := by
  induction overloads generalizing index saved with
  | nil => rfl
  | cons o rest ih =>
    have harguments : Extraction.ofOverload .branch r o = Extraction.ofOverload .branch r' o :=
      h.congr (f := fun q => Extraction.ofOverload .branch q o) fun _ _ => rfl
    rw [branchesFrom, branchesFrom, harguments]
    simp only [ih]

theorem CallCode.of_congr (h : r.Alike r') (f : BoundFunction) (withCall : Bool) :
    CallCode.of f r withCall = CallCode.of f r' withCall := by
  rw [CallCode.of, CallCode.of]
  split
  · rfl
  · next o _ =>
    have harguments : Extraction.ofOverload .body r o = Extraction.ofOverload .body r' o :=
      h.congr (f := fun q => Extraction.ofOverload .body q o) fun _ _ => rfl
    rw [harguments]
  · rw [branchesFrom_congr h]

theorem ProtoWrapper.of_congr (h : r.Alike r') (s : Signature) : ProtoWrapper.of s r = ProtoWrapper.of s r' := by
  have hpush : ∀ f : BoundFunction, f.pushResult r = f.pushResult r' := fun f => h.congr fun _ _ => rfl
  rw [ProtoWrapper.of, ProtoWrapper.of]
  simp only [CallCode.of_congr h, hpush]

theorem WrapperBody.of_congr (h : r.Alike r') (f : BoundFunction) : WrapperBody.of f r = WrapperBody.of f r' := by
  have hpush : f.pushResult r = f.pushResult r' := h.congr fun _ _ => rfl
  rw [WrapperBody.of, WrapperBody.of, CallCode.of_congr h, hpush]

theorem ClassGlue.of_congr (h : r.Alike r') : ClassGlue.of r = ClassGlue.of r' := by
  funext c
  have hname : ∀ f, Members.wrapperName r c f = Members.wrapperName r' c f := fun f =>
    h.congr (f := fun q => Members.wrapperName q c f) fun _ _ => rfl
  have hdispatch : c.constructorDispatch r = c.constructorDispatch r' := by
    rw [BoundClass.constructorDispatch, BoundClass.constructorDispatch]
    simp only [WrapperBody.of_congr h]
  rw [ClassGlue.of, ClassGlue.of, hdispatch, Members.wrappers, Members.wrappers]
  simp only [WrapperFunction.of, WrapperBody.of_congr h, hname]

theorem WrapperFunction.of_congr (h : r.Alike r') (name : String) (f : BoundFunction) :
    WrapperFunction.of name f r = WrapperFunction.of name f r' := by
  rw [WrapperFunction.of, WrapperFunction.of, WrapperBody.of_congr h]

theorem Registry.Alike.classesForState_eq (h : r.Alike r') (state : String) :
    r.classesForState state = r'.classesForState state :=
  h.congr (f := fun q => q.classesForState state) fun _ _ => rfl

theorem StateFile.render_congr (h : r.Alike r') (file : StateFile) : file.render r = file.render r' :=
  h.congr (f := fun q => file.render q) fun _ _ => rfl

end Alike

/-! ### Texts that grow -/

theorem length_join_le {l l' : List String} (h : l.Sublist l') : (String.join l).length ≤ (String.join l').length := by
  rw [String.length_join, String.length_join]
  exact (h.map String.length).sum_le_sum fun _ _ => Nat.zero_le _

/-- Texts that are not empty make a longer text with every one that is added. -/
theorem eq_of_length_join_le {α : Type} {f : α → String} (hpos : ∀ a, 0 < (f a).length) {l l' : List α}
    (h : l.Sublist l') (hle : (String.join (l'.map f)).length ≤ (String.join (l.map f)).length) : l = l' := by
  induction h with
  | slnil => rfl
  | @cons l l' a hsub ih =>
    have hrest := length_join_le (hsub.map f)
    have ha := hpos a
    rw [List.map_cons, String.join_cons, String.length_append] at hle
    omega
  | @cons_cons l l' a hsub ih =>
    rw [List.map_cons, List.map_cons, String.join_cons, String.join_cons, String.length_append, String.length_append] at hle
    rw [ih (by omega)]

/-- A map with more entries lists the same ones in the same order. -/
theorem NameMap.sublist_of_get? {α : Type} {m m' : NameMap α}
    (h : ∀ key value, m.get? key = some value → m'.get? key = some value) : m.entries.Sublist m'.entries := by
  have hantisymm : Std.Antisymm fun a b : String × α => a.1 < b.1 :=
    ⟨fun a b hab hba => absurd (String.lt_trans hab hba) (String.lt_irrefl _)⟩
  have hnodup : m.entries.Nodup := by
    refine m.ordered.imp ?_
    rintro a b hlt rfl
    exact String.lt_irrefl _ hlt
  have hsubset : m.entries ⊆ m'.entries := fun entry hentry =>
    mem_entries_of_get? (h entry.1 entry.2 (get?_of_mem_entries hentry))
  exact List.sublist_of_subperm_of_pairwise (List.subperm_of_subset hnodup hsubset) m.ordered m'.ordered

/-- It is the same map if it has no more keys. -/
theorem NameMap.eq_iff_of_get? {α : Type} {m m' : NameMap α}
    (h : ∀ key value, m.get? key = some value → m'.get? key = some value) :
    m' = m ↔ ∀ key, m'.contains key = true → m.contains key = true := by
  constructor
  · rintro rfl key hkey
    exact hkey
  · intro hkeys
    refine ext_get? fun key => ?_
    cases hget : m.get? key with
    | some value => exact h key value hget
    | none =>
      have hnone : ¬ m'.contains key = true := fun hkey => by
        have hcontains := hkeys key hkey
        rw [NameMap.contains, hget] at hcontains
        cases hcontains
      simpa [NameMap.contains] using hnone

/-- It is the same map if it has no more values. -/
theorem NameMap.eq_of_length_values {α : Type} {m m' : NameMap α}
    (h : ∀ key value, m.get? key = some value → m'.get? key = some value)
    (hlength : m'.values.length = m.values.length) : m' = m := by
  rw [NameMap.values, NameMap.values, List.length_map, List.length_map] at hlength
  have hentries := (sublist_of_get? h).eq_of_length hlength.symm
  cases m
  cases m'
  simp_all

namespace StateFile

/-- An include. -/
def renderInclude (header : String) : String := Text.line 0 s!"#include \"{header}\""

theorem length_append_pos (a : String) {b : String} (hb : 0 < b.length) : 0 < (a ++ b).length := by
  rw [String.length_append]
  exact Nat.add_pos_right _ hb

theorem length_renderInclude_pos (header : String) : 0 < (renderInclude header).length :=
  length_append_pos _ (by decide)

theorem length_render_proto_pos (w : ProtoWrapper) : 0 < w.render.length := by
  unfold ProtoWrapper.render
  exact length_append_pos _ (by decide)

/-- Two headers of one text that differ in includes and wrappers for function types alone. -/
theorem length_of_render_eq (r : Registry) (file : StateFile) {headers : NameSet} {protos : List ProtoWrapper}
    (h : ({ file with headers, protos } : StateFile).render r = file.render r) :
    (String.join (headers.toList.map renderInclude)).length + (String.join (protos.map (·.render))).length
      = (String.join (file.headers.toList.map renderInclude)).length
        + (String.join (file.protos.map (·.render))).length := by
  have hincludes : ∀ headers : NameSet, String.join ((headers.toList.map fun header => s!"#include \"{header}\"").map
      (Text.line 0)) = String.join (headers.toList.map renderInclude) := by
    intro headers
    rw [List.map_map]
    rfl
  have hguard : ({ file with headers, protos } : StateFile).guard = file.guard := rfl
  have hsetup : renderSetup r { file with headers, protos } = renderSetup r file := rfl
  have hlength := congrArg String.length h
  unfold render renderHead at hlength
  simp only [String.length_append, Text.lines, List.map_append, String.join_append, hincludes, hguard, hsetup]
    at hlength
  omega

/-- A header that has all includes and wrappers of another one, and one text with it, is that header. -/
theorem eq_of_render_eq (r : Registry) (file : StateFile) {headers : NameSet} {protos : List ProtoWrapper}
    (hheaders : ∀ header, file.headers.contains header = true → headers.contains header = true)
    (hprotos : file.protos.Sublist protos)
    (h : ({ file with headers, protos } : StateFile).render r = file.render r) :
    headers = file.headers ∧ protos = file.protos := by
  have hentries : file.headers.entries.Sublist headers.entries := by
    refine NameMap.sublist_of_get? fun name value hget => ?_
    have hcontains := hheaders name (by rw [NameMap.contains, hget]; rfl)
    rw [NameMap.contains] at hcontains
    obtain ⟨other, hother⟩ := Option.isSome_iff_exists.1 hcontains
    exact hother
  have hnames : file.headers.toList.Sublist headers.toList := hentries.map Prod.fst
  have hlength := length_of_render_eq r file h
  have hincludes := length_join_le (hnames.map renderInclude)
  have hwrappers := length_join_le (hprotos.map (·.render))
  constructor
  · have hsame := eq_of_length_join_le length_renderInclude_pos hnames (by omega)
    refine NameSet.ext_contains fun header => ?_
    rw [← NameSet.mem_toList, ← NameSet.mem_toList, hsame]
  · have hle : (String.join (protos.map (·.render))).length ≤ (String.join (file.protos.map (·.render))).length := by
      omega
    exact (eq_of_length_join_le length_render_proto_pos hprotos hle).symm

end StateFile

end LuaGlue
