import LuaGlue.Proofs.Naming.Scopes
import LuaGlue.Proofs.Signatures.Keys
import LuaGlue.Proofs.Spelling.Cuts

/-!
Names that are words.

A generated name is put together from fixed words and from names of the source, whose colons become underscores. So it
is a word, that is letters, digits and underscores, if the names of the source are words or paths of them. The name of
a signature wrapper brings in the names of types as well, and not all of these are paths (`isWord_wrapperName_iff`):

    ::Gfx::Mesh   ──▶ Mesh            std::string ──▶ std__string
    ::Gfx::Axis   ──▶ __Gfx__Axis     char*       ──▶ char*
-/

namespace LuaGlue

/-! ### Words and paths -/

/-- Is it an ASCII letter, a digit or an underscore? -/
def isWordChar (c : Char) : Bool := c.isAlphanum || c == '_'

/-- Has the name only letters, digits and underscores? -/
def IsWord (name : String) : Prop := ∀ c ∈ name.toList, isWordChar c = true

instance (name : String) : Decidable (IsWord name) := List.decidableBAll ..

/-- Has the name only these and colons, as a path of words has? -/
def IsPath (name : String) : Prop := ∀ c ∈ name.toList, isWordChar c = true ∨ c = ':'

instance (name : String) : Decidable (IsPath name) := List.decidableBAll ..

@[simp] theorem isWord_append {a b : String} : IsWord (a ++ b) ↔ IsWord a ∧ IsWord b := by
  rw [IsWord, String.toList_append, List.forall_mem_append]
  rfl

@[simp] theorem isPath_append {a b : String} : IsPath (a ++ b) ↔ IsPath a ∧ IsPath b := by
  rw [IsPath, String.toList_append, List.forall_mem_append]
  rfl

theorem IsWord.isPlain {name : String} (h : IsWord name) : Scope.IsPlain name := fun hcolon => by
  cases h ':' hcolon

/-- A path without colons is a word. -/
theorem IsPath.isWord {name : String} (h : IsPath name) (hplain : Scope.IsPlain name) : IsWord name :=
  fun c hc => (h c hc).resolve_right fun heq => hplain (heq ▸ hc)

theorem IsWord.isPath {name : String} (h : IsWord name) : IsPath name := fun c hc => .inl (h c hc)

theorem isPath_qualify {scope name : String} : IsPath (Scope.qualify scope name) ↔ IsPath scope ∧ IsPath name := by
  have hseparator : IsPath "::" := by decide
  rw [Scope.qualify, isPath_append, isPath_append, and_iff_left hseparator]

/-- What a path becomes is a word, and nothing else does. -/
@[simp] theorem isWord_identifier {path : String} : IsWord (Scope.identifier path) ↔ IsPath path := by
  rw [IsWord, Scope.identifier, String.toList_ofList, List.forall_mem_map]
  refine forall₂_congr fun c _ => ?_
  split
  · next hcolon => simp [hcolon, isWordChar]
  · next hother => simp [hother]

theorem isWord_tag {scope name : String} : IsWord (Scope.tag scope name) ↔ IsPath scope ∧ IsWord name := by
  have hbetween : IsWord "_" := by decide
  rw [Scope.tag, isWord_append, isWord_append, isWord_identifier, and_iff_left hbetween]

/-! ### Types -/

/-- Is the bare name of the type a path of words? A pointer to characters has its star in the name, and a name
behind a keyword is taken as it stands. A function type has no bare name. -/
def CxxType.isNamedByWords : CxxType → Bool
  | .void _ | .numeric _ _ | .bool _ => true
  | .text kind _ => kind != .narrowPointer && kind != .widePointer
  | .enum name _ => decide (IsPath name)
  | .record ref _ => decide (IsPath ref.name)
  | .array names _ _ => decide (IsPath names.rawName)
  | .function _ _ _ _ => false

theorem CxxType.isNamedByWords_iff {t : CxxType} {name : String} (h : t.cxxName = .ok name) :
    t.isNamedByWords = true ↔ IsPath name := by
  cases t with
  | void =>
    cases h
    exact iff_of_true rfl (by decide)
  | bool =>
    cases h
    exact iff_of_true rfl (by decide)
  | numeric kind =>
    cases h
    exact iff_of_true rfl (by cases kind <;> decide)
  | text kind =>
    cases h
    rw [isNamedByWords]
    cases kind <;> decide
  | enum =>
    cases h
    exact decide_eq_true_iff
  | record =>
    cases h
    exact decide_eq_true_iff
  | array =>
    cases h
    exact decide_eq_true_iff
  | function => cases h

theorem CxxType.isWord_bareName_iff {t : CxxType} {name : String} (h : t.cxxName = .ok name) :
    (∀ c ∈ t.bareName, isWordChar c = true) ↔ t.isNamedByWords = true := by
  rw [isNamedByWords_iff h, bareName, h]
  exact isWord_identifier

/-- The marks are words. -/
theorem CxxType.isWord_label_iff {t : CxxType} {name : String} (h : t.cxxName = .ok name) :
    (∀ c ∈ t.label, isWordChar c = true) ↔ t.isNamedByWords = true := by
  have hmark : ∀ isSet text, IsWord text → ∀ c ∈ markText isSet text, isWordChar c = true := by
    intro isSet text htext
    cases isSet with
    | true => exact htext
    | false => exact nofun
  rw [label, List.forall_mem_append, List.forall_mem_append, List.forall_mem_append, isWord_bareName_iff h,
    and_iff_right (hmark _ "Const" (by decide)), and_iff_left (hmark _ "Ref" (by decide)),
    and_iff_left (hmark _ "Ptr" (by decide))]

/-- The name of a signature wrapper is a word when the result and all parameters are named by words. -/
theorem Signature.isWord_wrapperName_iff {s : Signature} {key : String} (h : s.wrapperName = .ok key) :
    IsWord key ↔ ∀ t ∈ s.result :: s.params, t.isNamedByWords = true := by
  obtain ⟨labels, hlabels, hrest⟩ := bind_eq_ok.1 h
  obtain ⟨name, hname, -⟩ := bind_eq_ok.1 hrest
  have hparams : ∀ t ∈ s.params, (∀ c ∈ t.label, isWordChar c = true) ↔ t.isNamedByWords = true := by
    intro t ht
    obtain ⟨label, -, hlabel⟩ := exists_mem_of_mapM_ok hlabels t ht
    obtain ⟨bare, hbare, -⟩ := bind_eq_ok.1 hlabel
    exact CxxType.isWord_label_iff hbare
  have hfixed : ∀ text, IsWord text → ∀ c ∈ text.toList, isWordChar c = true := fun _ htext => htext
  rw [IsWord, toList_of_wrapperName h, List.forall_mem_append, List.forall_mem_append, List.forall_mem_cons,
    List.forall_mem_append, Text.forall_mem_intercalate (by decide), List.forall_mem_map, List.forall_mem_cons,
    CxxType.isWord_bareName_iff hname, and_iff_right (hfixed "Ret_" (by decide)),
    and_iff_right (hfixed "Params_" (by decide))]
  exact and_congr_right fun _ => (and_iff_right (by decide)).trans (forall₂_congr hparams)

end LuaGlue
