import LuaGlue.Call.Extraction
import LuaGlue.Proofs.Results

/-!
What the code that reads an argument is made of.

The code for an argument is put together in one go, and so is a conversion or a closure in it: if any part of it fails
it does as well. Where it succeeds its parts are known (`Extraction.madeOf`, `Conversion.madeOf`, `Closure.madeOf`),
and what is proved about such code begins there.

    an object        fetched
    other values     checked and retrieved
    wide texts       checked and retrieved      then widened
    function types   checked and retrieved      then wrapped in a closure
    arrays           checked and retrieved      then read as another type
-/

namespace LuaGlue

variable {registry : Registry} {slot : Nat}

/-- What the parts of the closure for a function type are made of: the spelled types of its head, the code that pushes
each argument, the check and the code of its result unless that is `void`, and both texts of its type. -/
structure Closure.MadeOf (s : Signature) (slot : Nat) (registry : Registry) (c : Closure) : Prop where
  slot_eq : c.slot = slot
  hasStorage_eq : c.hasStorage = s.hasStorage
  params : s.params.mapM (·.spelled) = .ok c.params
  result : s.result.spelled = .ok c.result
  arguments : (s.params.zipIdx.mapM fun (t, i) => t.push (argumentName i) (qualifier slot s.hasStorage) registry)
    = .ok c.arguments
  outcome : (s.result.isVoidValue = true ∧ c.outcome = none)
    ∨ (s.result.isVoidValue = false ∧ ∃ value fallback, s.result.retrieve (-1) registry = .ok value
      ∧ c.outcome = some ⟨s.result.validate (-1), value, fallback⟩)
  texts : s.text true = .ok c.pointerText ∧ s.text false = .ok c.plainText

/-- A closure that is made at all has each part from the function type. -/
theorem Closure.madeOf {s : Signature} {c : Closure}
    (h : ofSignature s slot registry = .ok c) : c.MadeOf s slot registry := by
  obtain ⟨params, hparams, h⟩ := bind_eq_ok.1 h
  obtain ⟨result, hresult, h⟩ := bind_eq_ok.1 h
  obtain ⟨arguments, harguments, h⟩ := bind_eq_ok.1 h
  cases hvoid : s.result.isVoidValue with
  | true =>
    simp only [hvoid, ↓reduceIte] at h
    obtain ⟨outcome, houtcome, h⟩ := bind_eq_ok.1 h
    obtain ⟨pointerText, hpointerText, h⟩ := bind_eq_ok.1 h
    obtain ⟨plainText, hplainText, h⟩ := bind_eq_ok.1 h
    cases houtcome
    cases h
    exact ⟨rfl, rfl, hparams, hresult, harguments, .inl ⟨hvoid, rfl⟩, hpointerText, hplainText⟩
  | false =>
    simp only [hvoid, Bool.false_eq_true, ↓reduceIte] at h
    obtain ⟨value, hvalue, h⟩ := bind_eq_ok.1 h
    obtain ⟨fallback, -, h⟩ := bind_eq_ok.1 h
    obtain ⟨outcome, houtcome, h⟩ := bind_eq_ok.1 h
    obtain ⟨pointerText, hpointerText, h⟩ := bind_eq_ok.1 h
    obtain ⟨plainText, hplainText, h⟩ := bind_eq_ok.1 h
    cases houtcome
    cases h
    exact ⟨rfl, rfl, hparams, hresult, harguments, .inr ⟨hvoid, value, fallback, hvalue, rfl⟩, hpointerText,
      hplainText⟩

/-- What a conversion is made for, and what it has been made of. -/
inductive Conversion.MadeOf (registry : Registry) (slot : Nat) : CxxType → Conversion → Prop where
  | widen (kind : TextKind) (m : Modifiers) : MadeOf registry slot (.text kind m) (.widen kind slot)
  | closure {params : List CxxType} {result : CxxType} {hasStorage : Bool} {c : Closure} (m : Modifiers)
      (hclosure : Closure.ofSignature ⟨params, result, hasStorage⟩ slot registry = .ok c) :
    MadeOf registry slot (.function params result hasStorage m) (.closure c)
  | array (names : ArrayNames) (element : CxxType) (m : Modifiers) (type : String) :
    MadeOf registry slot (.array names element m) (.array type slot)

theorem Conversion.madeOf {t : CxxType} {c : Conversion} (h : t.conversion slot registry = .ok c) :
    MadeOf registry slot t c := by
  cases t with
  | text kind m =>
    rw [CxxType.conversion] at h
    split at h
    · cases h
      exact .widen kind m
    · cases h
  | function params result hasStorage m =>
    obtain ⟨closure, hclosure, rfl⟩ := map_eq_ok.1 h
    exact .closure m hclosure
  | array names element m =>
    obtain ⟨name, -, h⟩ := bind_eq_ok.1 h
    cases h
    exact .array names element m _
  | _ => cases h

/-- What the code that reads a slot as a type has been made of. -/
inductive Extraction.MadeOf (layout : Layout) (registry : Registry) (t : CxxType) (slot : Nat) : Extraction → Prop where
  | object (ref : ClassRef) (m : Modifiers) (htype : t = .record ref m) :
    MadeOf layout registry t slot (.object ⟨slot, m.isReference, ref.tag, ref.qualified ++ m.marks⟩)
  | direct (value : String) (hobject : t.fetch? slot = none) (hneeds : t.needsConversion = false)
      (hvalue : t.retrieve slot registry = .ok value) :
    MadeOf layout registry t slot (.checked slot (t.validate slot) (.direct (bindsReference layout t) value))
  | converted (value : String) (conversion : Conversion) (hobject : t.fetch? slot = none)
      (hvalue : t.retrieve slot registry = .ok value) (hconversion : t.conversion slot registry = .ok conversion) :
    MadeOf layout registry t slot (.checked slot (t.validate slot) (.converted value conversion))

theorem Extraction.madeOf {layout : Layout} {t : CxxType} {e : Extraction} (h : ofType layout registry t slot = .ok e) :
    MadeOf layout registry t slot e := by
  rw [ofType] at h
  cases hfetch : t.fetch? slot with
  | some fetch =>
    rw [hfetch] at h
    cases h
    cases t with
    | record ref m =>
      obtain rfl := Option.some.inj hfetch
      exact .object ref m rfl
    | _ => cases hfetch
  | none =>
    rw [hfetch] at h
    obtain ⟨value, hvalue, h⟩ := bind_eq_ok.1 h
    cases hneeds : t.needsConversion with
    | true =>
      simp only [hneeds, ↓reduceIte] at h
      obtain ⟨reading, hreading, h⟩ := bind_eq_ok.1 h
      obtain ⟨conversion, hconversion, rfl⟩ := map_eq_ok.1 hreading
      cases h
      exact .converted value conversion hfetch hvalue hconversion
    | false =>
      simp only [hneeds, Bool.false_eq_true, ↓reduceIte] at h
      cases h
      exact .direct value hfetch hneeds hvalue

end LuaGlue
