import LuaGlue.Proofs.Naming.Scopes
import LuaGlue.Proofs.Results
import LuaGlue.Spelling.Convert

/-!
The classes that a spelling leads to.

A class comes into a type as the two halves of a qualified name, so its scope and its name can be told
from the name again. `convert_legible` is the induction: a shape without parts has at most one such
class, and the parts of the others are shorter spellings.
-/

namespace LuaGlue

/-- Can the class be told from its qualified name? -/
def ClassRef.IsLegible (ref : ClassRef) : Prop := Scope.Legible ref.scope ref.name

namespace CxxType

mutual

/-- Every class in a type. -/
def refs : CxxType → List ClassRef
  | .record ref _ => [ref]
  | .function params result _ _ => refsOf params ++ refs result
  | .array _ element _ => refs element
  | .void _ | .numeric _ _ | .bool _ | .text _ _ | .enum _ _ => []

/-- Every class in these types. -/
def refsOf : List CxxType → List ClassRef
  | [] => []
  | t :: ts => refs t ++ refsOf ts

end

/-- Can every class in the type be told from its qualified name? -/
def IsLegible (t : CxxType) : Prop := ∀ ref ∈ t.refs, ref.IsLegible

theorem mem_refsOf {ts : List CxxType} {ref : ClassRef} : ref ∈ refsOf ts ↔ ∃ t ∈ ts, ref ∈ t.refs := by
  induction ts with
  | nil => simp [refsOf]
  | cons t ts ih => simp [refsOf, ih]

theorem isLegible_of_refs_eq_nil {t : CxxType} (h : t.refs = []) : t.IsLegible := by
  intro ref href
  rw [h] at href
  cases href

theorem isLegible_record {ref : ClassRef} {m : Modifiers} : (record ref m).IsLegible ↔ ref.IsLegible := by
  simp [IsLegible, refs]

theorem refs_withMods (m : Modifiers) (t : CxxType) : (t.withMods m).refs = t.refs := by
  cases t <;> rfl

end CxxType

/-- What the extensions add to a type leaves the names in it. -/
theorem Patches.isLegible_adjust {p : Patches} {t : CxxType} (h : t.IsLegible) : (p.adjust t).IsLegible := by
  unfold adjust
  split
  · simp only
    split
    · have href := CxxType.isLegible_record.1 h
      exact CxxType.isLegible_record.2 href
    · exact h
  · exact h

namespace Spelling

/-! ### Shapes -/

theorem isLegible_classRef (qualified : String) (forward : Option ForwardKeyword) :
    (classRef qualified forward).IsLegible := Scope.legible_splitQualified qualified

theorem refs_of_builtin? {name : String} {isPointer : Bool} {t : CxxType}
    (h : builtin? name isPointer = some (.ok t)) : t.refs = [] := by
  unfold builtin? at h
  split at h
  · cases h; rfl
  split at h
  · cases h; rfl
  split at h
  · split at h
    · cases h; rfl
    · cases h
  split at h
  · split at h
    · cases h; rfl
    · cases h
  split at h
  · cases h; rfl
  · obtain ⟨kind, -, heq⟩ := Option.map_eq_some_iff.1 h
    cases heq
    rfl

theorem exists_of_functionShape {text : List Char} {whole : String} {hasStorage : Bool} {found : Shape}
    (h : functionShape text whole hasStorage = .ok found) :
    ∃ result params, found = .function result params hasStorage := by
  unfold functionShape at h
  split at h
  · cases h
  · split at h
    · cases h
    · exact ⟨_, _, (Except.ok.inj h).symm⟩

theorem ne_leaf_of_functionShape {text : List Char} {whole : String} {hasStorage : Bool} {t : CxxType} :
    functionShape text whole hasStorage ≠ .ok (.leaf t) := fun h => by
  obtain ⟨result, params, hfound⟩ := exists_of_functionShape h
  cases hfound

theorem ne_leaf_of_templateShape {ctx : Context} {base : List Char} {whole : String} {t : CxxType} :
    templateShape ctx base whole ≠ .ok (.leaf t) := by
  unfold templateShape
  split
  · exact nofun
  · split
    · exact nofun
    · simp only
      split
      · split
        · exact nofun
        · exact nofun
      · exact nofun

/-- What is read by its name is an enum or, if none is known by it, a class. -/
theorem exists_of_nameShape {ctx : Context} {base : List Char} {whole scope : String} {found : Shape}
    (h : nameShape ctx base whole scope = .ok found) : isIdentifier base = true
      ∧ ((∃ qualified, resolve ctx.known.enums (String.ofList base) scope = some qualified
          ∧ found = .leaf (.enum qualified {}))
        ∨ found = .leaf (.record (classRef ((resolve ctx.known.classes (String.ofList base) scope).getD
            (Scope.fromGlobal (String.ofList base))) none) {})) := by
  unfold nameShape at h
  split at h
  · cases h
  · next hidentifier =>
    refine ⟨by simpa using hidentifier, ?_⟩
    dsimp only at h
    split at h
    · next qualified hresolve => exact .inl ⟨qualified, hresolve, (Except.ok.inj h).symm⟩
    · exact .inr (Except.ok.inj h).symm

/-- A shape without parts has at most one class, which has been looked up or assumed. -/
theorem isLegible_of_shape {ctx : Context} {base : List Char} {whole scope : String} {isPointer : Bool}
    {t : CxxType} (h : shape ctx base whole scope isPointer = .ok (.leaf t)) : t.IsLegible := by
  unfold shape at h
  split at h
  · exact absurd h ne_leaf_of_functionShape
  split at h
  · exact absurd h ne_leaf_of_functionShape
  split at h
  · next builtin hbuiltin =>
    cases builtin with
    | error reason => cases h
    | ok t' =>
      cases h
      exact CxxType.isLegible_of_refs_eq_nil (refs_of_builtin? hbuiltin)
  split at h
  · cases h
    exact CxxType.isLegible_of_refs_eq_nil rfl
  split at h
  · cases h
    exact CxxType.isLegible_record.2 (isLegible_classRef _ _)
  split at h
  · cases h
    exact CxxType.isLegible_record.2 (isLegible_classRef _ _)
  split at h
  · exact absurd h ne_leaf_of_templateShape
  · obtain ⟨-, ⟨qualified, -, heq⟩ | heq⟩ := exists_of_nameShape h
    · cases heq
      exact CxxType.isLegible_of_refs_eq_nil rfl
    · cases heq
      exact CxxType.isLegible_record.2 (isLegible_classRef _ _)

/-! ### Conversion -/

/-- A spelling is read by its marks, by the shape of what they leave, and by its parts. -/
theorem convertChars_eq (ctx : Context) (scope : String) (spelling : List Char) :
    convertChars ctx scope spelling = do
      let (base, m) ← splitMarks (Text.trim spelling)
      match ← shape ctx base (String.ofList (Text.trim spelling)) scope m.isPointer with
      | .leaf t => return ctx.patches.adjust (t.withMods m)
      | .function result params hasStorage =>
        let resultType ← convertChars ctx scope result
        let paramTypes ← params.mapM (convertChars ctx scope)
        return .function paramTypes resultType hasStorage m
      | .array names element => return .array names (← convertChars ctx scope element) m := by
  rw [convertChars]
  simp only
  split
  · next reason hmarks =>
    rw [hmarks]
    rfl
  · next base m hmarks =>
    rw [hmarks]
    simp only [bind, Except.bind]
    split
    · next reason hshape => rw [hshape]
    · next t hshape =>
      rw [hshape]
      rfl
    · next result params hasStorage hshape =>
      rw [hshape]
      simp
    · next names element hshape => rw [hshape]

/-- What holds of the type of a spelling without parts, and of the type made of the types of its parts, holds of the
type of every spelling. -/
theorem convertChars_induction {ctx : Context} {scope : String} {motive : List Char → CxxType → Prop}
    (leaf : ∀ {spelling base m t}, splitMarks (Text.trim spelling) = .ok (base, m) →
      shape ctx base (String.ofList (Text.trim spelling)) scope m.isPointer = .ok (.leaf t) →
      motive spelling (ctx.patches.adjust (t.withMods m)))
    (function : ∀ {spelling base m result params hasStorage resultType paramTypes},
      splitMarks (Text.trim spelling) = .ok (base, m) →
      shape ctx base (String.ofList (Text.trim spelling)) scope m.isPointer = .ok (.function result params hasStorage) →
      motive result resultType → List.Forall₂ motive params paramTypes →
      motive spelling (.function paramTypes resultType hasStorage m))
    (array : ∀ {spelling base m names element elementType}, splitMarks (Text.trim spelling) = .ok (base, m) →
      shape ctx base (String.ofList (Text.trim spelling)) scope m.isPointer = .ok (.array names element) →
      motive element elementType → motive spelling (.array names elementType m))
    {spelling : List Char} {t : CxxType} (h : convertChars ctx scope spelling = .ok t) : motive spelling t := by
  induction hlength : spelling.length using Nat.strongRecOn generalizing spelling t with
  | ind n ih =>
    subst hlength
    rw [convertChars_eq] at h
    obtain ⟨⟨base, m⟩, hmarks, h⟩ := bind_eq_ok.1 h
    obtain ⟨found, hshape, h⟩ := bind_eq_ok.1 h
    have hpart : ∀ part ∈ found.parts, part.length < spelling.length := fun part hpart =>
      Nat.lt_of_lt_of_le (length_lt_of_shape hshape hpart)
        (Nat.le_trans (length_of_splitMarks hmarks) (Text.length_trim_le spelling))
    cases found with
    | leaf t =>
      cases h
      exact leaf hmarks hshape
    | function result params hasStorage =>
      obtain ⟨resultType, hresult, h⟩ := bind_eq_ok.1 h
      obtain ⟨paramTypes, hparams, h⟩ := bind_eq_ok.1 h
      cases h
      refine function hmarks hshape (ih _ (hpart result List.mem_cons_self) hresult rfl) ?_
      have hlisted := (List.forall₂_and_left (p := (· ∈ params)) _ _).2 ⟨fun _ => id, forall₂_of_mapM_ok hparams⟩
      exact hlisted.imp fun param type ⟨hmem, hconvert⟩ =>
        ih _ (hpart param (List.mem_cons_of_mem _ hmem)) hconvert rfl
    | array names element =>
      obtain ⟨elementType, helement, h⟩ := bind_eq_ok.1 h
      cases h
      exact array hmarks hshape (ih _ (hpart element List.mem_cons_self) helement rfl)

theorem convertChars_legible (ctx : Context) (scope : String) (spelling : List Char) {t : CxxType}
    (h : convertChars ctx scope spelling = .ok t) : t.IsLegible := by
  refine convertChars_induction (motive := fun _ t => t.IsLegible) ?_ ?_ ?_ h
  · intro spelling base m t _ hshape
    refine Patches.isLegible_adjust ?_
    rw [CxxType.IsLegible, CxxType.refs_withMods]
    exact isLegible_of_shape hshape
  · intro spelling base m result params hasStorage resultType paramTypes _ _ hresult hparams ref href
    rcases List.mem_append.1 href with hparam | hin
    · obtain ⟨t, ht, hin⟩ := CxxType.mem_refsOf.1 hparam
      obtain ⟨param, -, hlegible⟩ := exists_mem_of_forall₂ hparams.flip ht
      exact hlegible ref hin
    · exact hresult ref hin
  · intro spelling base m names element elementType _ _ helement
    exact helement

/-- Every class that a spelling leads to can be told from its qualified name. -/
theorem convert_legible {ctx : Context} {spelling scope : String} {t : CxxType}
    (h : convert ctx spelling scope = .ok t) : t.IsLegible := convertChars_legible ctx scope _ h

end Spelling

end LuaGlue
