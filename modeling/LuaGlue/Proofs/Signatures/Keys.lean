import LuaGlue.Proofs.Emission.Types
import LuaGlue.Proofs.Results
import Mathlib.Data.List.Infix

/-!
What the name of a signature wrapper says about the function type.

A function type is recorded under the name of its wrapper. A call through the pointer depends on more: on
the scopes of the classes, on the element of an array, and on the marks of the result, none of which are
in the name. And the parameters are joined by an underscore, which names may have too. `IsTellable` lists
what it takes for the name to tell how a function is called (`callType_eq_of_wrapperName_eq`).

    Ret_ Mesh _Params_ ConstNamePtr _ int32_t
         │             │              the end of a label is seen if none goes on behind another one and _
         │             marks are seen if no name begins with Const or ends in Ptr or Ref
         the marks of the result are not there at all
-/

namespace LuaGlue

/-! ### How a function is called -/

namespace CxxType

mutual

/-- The name of the type with its scope, apart from its marks. -/
def fullName : CxxType → String
  | .void _ => "void"
  | .numeric k _ => k.cxxName
  | .bool _ => "bool"
  | .text k _ => k.cxxName
  | .enum n _ => n
  | .record r _ => r.qualified
  | .function ps r hasStorage _ =>
    functionText (fullNames ps) (r.constness ++ fullName r ++ r.marks) (!hasStorage)
  | .array names element _ => names.raw ++ "<" ++ element.constness ++ fullName element ++ element.marks ++ ">"

/-- The types as they are written in full. -/
def fullNames : List CxxType → List String
  | [] => []
  | t :: ts => (t.constness ++ fullName t ++ t.marks) :: fullNames ts

end

end CxxType

/-- A parameter or a result, as far as a call depends on it. -/
structure CallPart where
  name : String
  mods : Modifiers
  deriving DecidableEq, Repr

/-- What a type contributes to a call. -/
def CxxType.callPart (t : CxxType) : CallPart := ⟨t.fullName, t.mods⟩

/-- What the code of a call through a pointer depends on. -/
structure CallType where
  params : List CallPart
  result : CallPart
  deriving DecidableEq, Repr

/-- How a function of this type is called. -/
def Signature.callType (s : Signature) : CallType := ⟨s.params.map CxxType.callPart, s.result.callPart⟩

/-! ### The name of the wrapper -/

/-- A mark in the name of a wrapper, if it is set. -/
def markText (isSet : Bool) (text : String) : List Char := if isSet then text.toList else []

namespace CxxType

/-- The bare name as an identifier. -/
def bareName (t : CxxType) : List Char :=
  match t.cxxName with
  | .ok name => (Scope.identifier name).toList
  | .error _ => []

/-- The bare name with the marks around it. -/
def label (t : CxxType) : List Char :=
  markText t.isConst "Const" ++ (t.bareName ++ markText t.isPointer "Ptr" ++ markText t.isReference "Ref")

end CxxType

theorem toList_ite (isSet : Bool) (text : String) :
    (if isSet then text else "").toList = markText isSet text := by
  cases isSet <;> rfl

theorem Signature.toList_of_paramLabel {t : CxxType} {label : String} (h : paramLabel t = .ok label) :
    label.toList = t.label := by
  obtain ⟨name, hname, heq⟩ := bind_eq_ok.1 h
  cases heq
  have hbare : t.bareName = (Scope.identifier name).toList := by rw [CxxType.bareName, hname]
  rw [CxxType.label, hbare]
  simp only [String.toList_append, toList_ite, List.append_assoc]

theorem Signature.toList_of_paramLabels {ts : List CxxType} {labels : List String}
    (h : ts.mapM paramLabel = .ok labels) : labels.map String.toList = ts.map CxxType.label := by
  induction ts generalizing labels with
  | nil =>
    cases h
    rfl
  | cons t rest ih =>
    obtain ⟨label, others, hlabel, hothers, rfl⟩ := mapM_cons_eq_ok.1 h
    rw [List.map_cons, List.map_cons, toList_of_paramLabel hlabel, ih hothers]

/-- The name is that of the result and the labels of the parameters, joined. -/
theorem Signature.toList_of_wrapperName {s : Signature} {key : String} (h : s.wrapperName = .ok key) :
    key.toList = "Ret_".toList ++ (s.result.bareName
      ++ '_' :: ("Params_".toList ++ ['_'].intercalate (s.params.map CxxType.label))) := by
  obtain ⟨labels, hlabels, hrest⟩ := bind_eq_ok.1 h
  obtain ⟨name, hname, heq⟩ := bind_eq_ok.1 hrest
  cases heq
  have hbare : s.result.bareName = (Scope.identifier name).toList := by rw [CxxType.bareName, hname]
  rw [hbare, ← toList_of_paramLabels hlabels]
  simp [String.toList_append, String.toList_intercalate]

/-! ### Marks that can be seen -/

/-- Is the name set off from the marks around it? -/
def IsSetOff (name : List Char) : Prop :=
  name ≠ [] ∧ ¬ "Const".toList <+: name ∧ ¬ "Ptr".toList <:+ name ∧ ¬ "Ref".toList <:+ name

instance (name : List Char) : Decidable (IsSetOff name) := inferInstanceAs (Decidable (_ ∧ _ ∧ _ ∧ _))

section Marks

variable {a b mark : List Char}

/-- A mark stands at the front of a name, unless it goes on in what follows. -/
theorem prefix_of_prefix_append (h : mark <+: a ++ b) (hb : ∀ c ∈ b.head?, c ∉ mark) : mark <+: a := by
  induction mark generalizing a with
  | nil => exact List.nil_prefix
  | cons c mark ih =>
    cases a with
    | nil =>
      obtain ⟨rest, rfl⟩ := h
      exact absurd List.mem_cons_self (hb c rfl)
    | cons d a =>
      obtain ⟨rfl, hrest⟩ := List.cons_prefix_cons.1 h
      exact List.cons_prefix_cons.2 ⟨rfl, ih hrest fun c hc hmem => hb c hc (List.mem_cons_of_mem _ hmem)⟩

/-- Two texts with a mark in front or without one are told apart if none begins with the mark itself. -/
theorem eq_of_mark_append_eq {p q : Bool} {text : String} (ha : ¬ text.toList <+: a) (hb : ¬ text.toList <+: b)
    (h : markText p text ++ a = markText q text ++ b) : p = q ∧ a = b := by
  cases p <;> cases q
  · exact ⟨rfl, h⟩
  · exact absurd ⟨b, h.symm⟩ ha
  · exact absurd ⟨a, h⟩ hb
  · exact ⟨rfl, List.append_cancel_left h⟩

/-- Two texts with a mark behind them or without one are told apart if none ends in the mark itself. -/
theorem eq_of_append_mark_eq {p q : Bool} {text : String} (ha : ¬ text.toList <:+ a) (hb : ¬ text.toList <:+ b)
    (h : a ++ markText p text = b ++ markText q text) : p = q ∧ a = b := by
  cases p <;> cases q
  · exact ⟨rfl, by simpa [markText] using h⟩
  · exact absurd ⟨b, by simpa [markText] using h.symm⟩ ha
  · exact absurd ⟨a, by simpa [markText] using h⟩ hb
  · exact ⟨rfl, List.append_cancel_right h⟩

end Marks

/-- A name that is set off does not begin with the mark of a constant even when other marks follow it. -/
theorem IsSetOff.not_const_prefix {name : List Char} (h : IsSetOff name) (p q : Bool) :
    ¬ "Const".toList <+: name ++ markText p "Ptr" ++ markText q "Ref" := by
  intro hprefix
  rw [List.append_assoc] at hprefix
  refine h.2.1 (prefix_of_prefix_append hprefix fun c hc => ?_)
  cases p <;> cases q <;> cases hc <;> decide

/-- Nor does it end in that of a reference when that of a pointer follows it. -/
theorem IsSetOff.not_ref_suffix {name : List Char} (h : IsSetOff name) (p : Bool) :
    ¬ "Ref".toList <:+ name ++ markText p "Ptr" := by
  cases p with
  | false => simpa [markText] using h.2.2.2
  | true =>
    rintro ⟨front, hfront⟩
    have hlast : (front ++ "Ref".toList).getLast? = (name ++ markText true "Ptr").getLast? := by rw [hfront]
    simp [markText] at hlast

/-- The label tells the name and the marks. -/
theorem CxxType.eq_of_label_eq {t u : CxxType} (ht : IsSetOff t.bareName) (hu : IsSetOff u.bareName)
    (h : t.label = u.label) : t.bareName = u.bareName ∧ t.mods = u.mods := by
  obtain ⟨hconst, hinner⟩ := eq_of_mark_append_eq (ht.not_const_prefix _ _) (hu.not_const_prefix _ _) h
  obtain ⟨href, hpointed⟩ := eq_of_append_mark_eq (ht.not_ref_suffix _) (hu.not_ref_suffix _) hinner
  obtain ⟨hptr, hname⟩ := eq_of_append_mark_eq ht.2.2.1 hu.2.2.1 hpointed
  refine ⟨hname, ?_⟩
  calc t.mods = ⟨t.isPointer, t.isReference, t.isConst⟩ := rfl
    _ = ⟨u.isPointer, u.isReference, u.isConst⟩ := by rw [hptr, href, hconst]
    _ = u.mods := rfl

theorem CxxType.label_ne_nil {t : CxxType} (h : IsSetOff t.bareName) : t.label ≠ [] := by
  intro hlabel
  simp only [label, List.append_eq_nil_iff] at hlabel
  exact h.1 hlabel.2.1.1

/-! ### Words that can be told apart -/

/-- Does no word go on behind another one and an underscore? -/
def IsApart (words : List (List Char)) : Prop := ∀ a ∈ words, ∀ b ∈ words, ¬ a ++ ['_'] <+: b

instance (words : List (List Char)) : Decidable (IsApart words) := List.decidableBAll ..

section Apart

variable {words xs ys : List (List Char)}

/-- The first word is seen. -/
theorem IsApart.eq_of_append_eq (h : IsApart words) {a b u v : List Char} (ha : a ∈ words) (hb : b ∈ words)
    (heq : a ++ '_' :: u = b ++ '_' :: v) : a = b ∧ u = v := by
  rcases List.append_eq_append_iff.1 heq with ⟨between, rfl, hrest⟩ | ⟨between, rfl, hrest⟩
  · cases between with
    | nil =>
      cases hrest
      exact ⟨(List.append_nil a).symm, rfl⟩
    | cons c between =>
      cases hrest
      exact absurd ⟨between, by simp⟩ (h a ha _ hb)
  · cases between with
    | nil =>
      cases hrest
      exact ⟨List.append_nil b, rfl⟩
    | cons c between =>
      cases hrest
      exact absurd ⟨between, by simp⟩ (h b hb _ ha)

/-- Words with an underscore behind each of them. -/
def terminated (words : List (List Char)) : List Char := words.flatMap (· ++ ['_'])

theorem IsApart.terminated_injective (h : IsApart words) (hxs : ∀ x ∈ xs, x ∈ words) (hys : ∀ y ∈ ys, y ∈ words)
    (heq : terminated xs = terminated ys) : xs = ys := by
  induction xs generalizing ys with
  | nil =>
    cases ys with
    | nil => rfl
    | cons y ys => simp [terminated] at heq
  | cons x xs ih =>
    cases ys with
    | nil => simp [terminated] at heq
    | cons y ys =>
      have htexts : x ++ '_' :: terminated xs = y ++ '_' :: terminated ys := by simpa [terminated] using heq
      obtain ⟨rfl, hrest⟩ := h.eq_of_append_eq (hxs x List.mem_cons_self) (hys y List.mem_cons_self) htexts
      rw [ih (fun z hz => hxs z (List.mem_cons_of_mem _ hz)) (fun z hz => hys z (List.mem_cons_of_mem _ hz)) hrest]

theorem intercalate_append (hxs : xs ≠ []) : ['_'].intercalate xs ++ ['_'] = terminated xs := by
  induction xs with
  | nil => exact absurd rfl hxs
  | cons x xs ih =>
    cases xs with
    | nil => simp [terminated]
    | cons y ys =>
      have hrest := ih (List.cons_ne_nil y ys)
      rw [terminated, List.flatMap_cons, ← terminated, ← hrest]
      simp [List.intercalate]

theorem intercalate_ne_nil {x : List Char} (hx : x ≠ []) (xs : List (List Char)) :
    ['_'].intercalate (x :: xs) ≠ [] := by
  cases xs with
  | nil => simpa using hx
  | cons y ys => simp [List.intercalate, hx]

/-- Words that are no empty ones and stay apart are seen in the text that joins them. -/
theorem IsApart.intercalate_injective (h : IsApart words) (hfilled : ∀ word ∈ words, word ≠ [])
    (hxs : ∀ x ∈ xs, x ∈ words) (hys : ∀ y ∈ ys, y ∈ words)
    (heq : ['_'].intercalate xs = ['_'].intercalate ys) : xs = ys := by
  cases xs with
  | nil =>
    cases ys with
    | nil => rfl
    | cons y ys => exact absurd heq.symm (intercalate_ne_nil (hfilled y (hys y List.mem_cons_self)) ys)
  | cons x xs =>
    cases ys with
    | nil => exact absurd heq (intercalate_ne_nil (hfilled x (hxs x List.mem_cons_self)) xs)
    | cons y ys =>
      refine h.terminated_injective hxs hys ?_
      rw [← intercalate_append (List.cons_ne_nil x xs), ← intercalate_append (List.cons_ne_nil y ys), heq]

end Apart

/-! ### Names that tell how a function is called -/

/-- The parameters of those function types whose wrappers have names. -/
def namedParams (signatures : List Signature) : List CxxType :=
  (signatures.filter Signature.isFlat).flatMap Signature.params

/-- The results of those function types whose wrappers have names. -/
def namedResults (signatures : List Signature) : List CxxType :=
  (signatures.filter Signature.isFlat).map Signature.result

/-- What it takes for the names of wrappers to tell the function types: the marks and ends of names can be
seen, a name belongs to one type, and the results of one name have the same marks. -/
structure IsTellable (signatures : List Signature) : Prop where
  setOff : ∀ t ∈ namedParams signatures, IsSetOff t.bareName
  apart : IsApart ((namedParams signatures).map CxxType.label)
  named : ∀ t ∈ namedParams signatures, ∀ u ∈ namedParams signatures,
    t.bareName = u.bareName → t.fullName = u.fullName
  resultsApart : IsApart ((namedResults signatures).map CxxType.bareName)
  results : ∀ t ∈ namedResults signatures, ∀ u ∈ namedResults signatures,
    t.bareName = u.bareName → t.callPart = u.callPart

theorem isTellable_iff {signatures : List Signature} : IsTellable signatures
    ↔ (∀ t ∈ namedParams signatures, IsSetOff t.bareName)
      ∧ IsApart ((namedParams signatures).map CxxType.label)
      ∧ (∀ t ∈ namedParams signatures, ∀ u ∈ namedParams signatures,
        t.bareName = u.bareName → t.fullName = u.fullName)
      ∧ IsApart ((namedResults signatures).map CxxType.bareName)
      ∧ ∀ t ∈ namedResults signatures, ∀ u ∈ namedResults signatures,
        t.bareName = u.bareName → t.callPart = u.callPart :=
  ⟨fun ⟨a, b, c, d, e⟩ => ⟨a, b, c, d, e⟩, fun ⟨a, b, c, d, e⟩ => ⟨a, b, c, d, e⟩⟩

instance (signatures : List Signature) : Decidable (IsTellable signatures) :=
  decidable_of_iff _ isTellable_iff.symm

namespace Signature

variable {signatures : List Signature} {s s' : Signature} {key : String}

theorem isFlat_of_wrapperName (h : s.wrapperName = .ok key) : s.isFlat = true := by
  rw [← isOk_wrapperName, h]
  rfl

theorem mem_namedParams (hs : s ∈ signatures) (h : s.wrapperName = .ok key) {t : CxxType} (ht : t ∈ s.params) :
    t ∈ namedParams signatures :=
  List.mem_flatMap.2 ⟨s, List.mem_filter.2 ⟨hs, isFlat_of_wrapperName h⟩, ht⟩

theorem mem_namedResults (hs : s ∈ signatures) (h : s.wrapperName = .ok key) : s.result ∈ namedResults signatures :=
  List.mem_map_of_mem (List.mem_filter.2 ⟨hs, isFlat_of_wrapperName h⟩)

/-- Parameters of the same labels are the same to a call. -/
theorem callParts_eq_of_labels_eq (h : IsTellable signatures) {ts us : List CxxType}
    (hts : ∀ t ∈ ts, t ∈ namedParams signatures) (hus : ∀ u ∈ us, u ∈ namedParams signatures)
    (heq : ts.map CxxType.label = us.map CxxType.label) : ts.map CxxType.callPart = us.map CxxType.callPart := by
  induction ts generalizing us with
  | nil =>
    cases us with
    | nil => rfl
    | cons u us => cases heq
  | cons t ts ih =>
    cases us with
    | nil => cases heq
    | cons u us =>
      obtain ⟨hlabel, hrest⟩ := List.cons.inj heq
      have ht := hts t List.mem_cons_self
      have hu := hus u List.mem_cons_self
      obtain ⟨hname, hmods⟩ := CxxType.eq_of_label_eq (h.setOff t ht) (h.setOff u hu) hlabel
      have hpart : t.callPart = u.callPart := by
        rw [CxxType.callPart, CxxType.callPart, h.named t ht u hu hname, hmods]
      rw [List.map_cons, List.map_cons, hpart, ih (fun x hx => hts x (List.mem_cons_of_mem _ hx))
        (fun x hx => hus x (List.mem_cons_of_mem _ hx)) hrest]

/-- Functions whose types have one wrapper are called alike. -/
theorem callType_eq_of_wrapperName_eq (h : IsTellable signatures) (hs : s ∈ signatures) (hs' : s' ∈ signatures)
    (hkey : s.wrapperName = .ok key) (hkey' : s'.wrapperName = .ok key) : s.callType = s'.callType := by
  have hresult := mem_namedResults hs hkey
  have hresult' := mem_namedResults hs' hkey'
  have htexts := List.append_cancel_left ((toList_of_wrapperName hkey).symm.trans (toList_of_wrapperName hkey'))
  obtain ⟨hname, hrest⟩ := h.resultsApart.eq_of_append_eq (List.mem_map_of_mem hresult)
    (List.mem_map_of_mem hresult') htexts
  have hlabels : s.params.map CxxType.label = s'.params.map CxxType.label := by
    refine h.apart.intercalate_injective ?_ ?_ ?_ (List.append_cancel_left hrest)
    · intro word hword
      obtain ⟨t, ht, rfl⟩ := List.mem_map.1 hword
      exact CxxType.label_ne_nil (h.setOff t ht)
    · intro word hword
      obtain ⟨t, ht, rfl⟩ := List.mem_map.1 hword
      exact List.mem_map_of_mem (mem_namedParams hs hkey ht)
    · intro word hword
      obtain ⟨t, ht, rfl⟩ := List.mem_map.1 hword
      exact List.mem_map_of_mem (mem_namedParams hs' hkey' ht)
  have hparams := callParts_eq_of_labels_eq h (fun t => mem_namedParams hs hkey) (fun t => mem_namedParams hs' hkey')
    hlabels
  rw [callType, callType, hparams, h.results _ hresult _ hresult' hname]

end Signature

end LuaGlue
