import LuaGlue.Selection.Register

/-!
Which function types are recorded.

Recording the function types of a type goes from the outermost one inwards and stops at the first whose
wrapper has no name. It only ever adds to what is recorded, each function type under the name of its own
wrapper, and touches nothing else. So once a type has been gone through, the type itself is recorded if
it is a function type with a name.
-/

namespace LuaGlue

/-- The function type that a type is, apart from its modifiers. -/
def CxxType.signature? : CxxType → Option Signature
  | .function params result hasStorage _ => some ⟨params, result, hasStorage⟩
  | _ => none

/-- Is the type no function type with a named wrapper, unless that is recorded? -/
def CxxType.IsRecorded (signatures : NameMap Signature) (t : CxxType) : Prop :=
  ∀ s, t.signature? = some s → ∀ key, s.wrapperName = .ok key → signatures.contains key = true

/-- Is every function type recorded under the name of its own wrapper? -/
def Keyed (signatures : NameMap Signature) : Prop :=
  ∀ entry ∈ signatures.entries, entry.2.wrapperName = .ok entry.1

/-- Recorded names stay recorded. -/
def Covers (old new : NameMap Signature) : Prop := ∀ key, old.contains key = true → new.contains key = true

theorem CxxType.IsRecorded.mono {old new : NameMap Signature} {t : CxxType} (h : t.IsRecorded old)
    (hcovers : Covers old new) : t.IsRecorded new :=
  fun s hs key hkey => hcovers key (h s hs key hkey)

namespace Registry

/-- What recording function types does to a registry. -/
structure Recording (r r' : Registry) : Prop where
  rest : r' = { r with signatures := r'.signatures }
  covers : Covers r.signatures r'.signatures
  keyed : Keyed r.signatures → Keyed r'.signatures

theorem Recording.refl (r : Registry) : Recording r r := ⟨rfl, fun _ h => h, id⟩

theorem Recording.trans {r r' r'' : Registry} (h : Recording r r') (h' : Recording r' r'') : Recording r r'' := by
  refine ⟨?_, fun key hkey => h'.covers key (h.covers key hkey), fun hkeyed => h'.keyed (h.keyed hkeyed)⟩
  rw [h'.rest, h.rest]

theorem recording_addSignature (r : Registry) {s : Signature} {key : String} (hname : s.wrapperName = .ok key) :
    Recording r (r.addSignature key s) := by
  rw [addSignature]
  split
  · exact .refl r
  · refine ⟨rfl, fun other hother => ?_, fun hkeyed entry hentry => ?_⟩
    · rw [NameMap.contains_insert, hother, Bool.or_true]
    · rcases NameMap.mem_insertIn hentry with rfl | hold
      · exact hname
      · exact hkeyed entry hold

theorem contains_addSignature (r : Registry) (key : String) (s : Signature) :
    (r.addSignature key s).signatures.contains key = true := by
  rw [addSignature]
  split
  · next h => exact h
  · simp [NameMap.contains_insert]

theorem recording_addSignatures (r : Registry) (l : List Signature) : Recording r (r.addSignatures l).1 := by
  induction l generalizing r with
  | nil => exact .refl r
  | cons s rest ih =>
    rw [addSignatures]
    split
    · next key hname => exact (recording_addSignature r hname).trans (ih _)
    · exact .refl r

/-- The outermost function type is gone through first. -/
theorem isRecorded_registerSignatures (r : Registry) (t : CxxType) :
    t.IsRecorded (r.registerSignatures t).1.signatures := by
  intro s hs key hkey
  have hfirst : ∃ rest, t.signatures = s :: rest := by
    unfold CxxType.signature? at hs
    split at hs
    · cases hs
      rw [CxxType.signatures]
      exact ⟨_, rfl⟩
    · cases hs
  obtain ⟨rest, hrest⟩ := hfirst
  rw [registerSignatures, hrest, addSignatures, hkey]
  exact (recording_addSignatures _ rest).covers key (contains_addSignature r key s)

end Registry

namespace Selection

/-- What recording function types does to a run. -/
structure Recording (s s' : Selection) : Prop where
  rest : s' = { s with registry := s'.registry, notices := s'.notices }
  registry : Registry.Recording s.registry s'.registry

theorem Recording.refl (s : Selection) : Recording s s := ⟨rfl, .refl _⟩

theorem Recording.trans {s s' s'' : Selection} (h : Recording s s') (h' : Recording s' s'') : Recording s s'' := by
  refine ⟨?_, h.registry.trans h'.registry⟩
  rw [h'.rest, h.rest]

theorem wrapSignatures_spec (s : Selection) (t : CxxType) :
    Recording s (s.wrapSignatures t) ∧ t.IsRecorded (s.wrapSignatures t).registry.signatures := by
  have hrecording := Registry.recording_addSignatures s.registry t.signatures
  have hrecorded := Registry.isRecorded_registerSignatures s.registry t
  rw [← Registry.registerSignatures] at hrecording
  rw [wrapSignatures]
  split
  · next registry h =>
    rw [h] at hrecording hrecorded
    exact ⟨⟨rfl, hrecording⟩, hrecorded⟩
  · next registry abort h =>
    rw [h] at hrecording hrecorded
    exact ⟨⟨rfl, hrecording⟩, hrecorded⟩

/-- Types that have been gone through stay recorded. -/
theorem foldl_wrapSignatures_spec (ts : List CxxType) (s : Selection) :
    Recording s (ts.foldl wrapSignatures s)
      ∧ ∀ t ∈ ts, t.IsRecorded (ts.foldl wrapSignatures s).registry.signatures := by
  induction ts generalizing s with
  | nil => exact ⟨.refl s, fun t ht => by cases ht⟩
  | cons t rest ih =>
    obtain ⟨hfirst, hrecorded⟩ := wrapSignatures_spec s t
    obtain ⟨hrest, hothers⟩ := ih (s.wrapSignatures t)
    refine ⟨hfirst.trans hrest, fun other hother => ?_⟩
    rcases List.mem_cons.1 hother with rfl | hother
    · exact hrecorded.mono hrest.registry.covers
    · exact hothers other hother

/-- After the function types of an overload have got their wrappers, its result is recorded. -/
theorem wrapAll_spec (s : Selection) (o : Overload) (result : CxxType) :
    Recording s (s.wrapAll o result) ∧ result.IsRecorded (s.wrapAll o result).registry.signatures := by
  obtain ⟨hrecording, hrecorded⟩ := foldl_wrapSignatures_spec (o.map Param.type ++ [result]) s
  exact ⟨hrecording, hrecorded result (List.mem_append_right _ List.mem_cons_self)⟩

end Selection

end LuaGlue
