import LuaGlue.Glue.StateFile
import LuaGlue.Proofs.Emission.Totality
import LuaGlue.Proofs.Naming.Tags
import LuaGlue.Proofs.Selection.Settled

/-!
Which values are accepted as objects of a class.

At run time an object is known by its metatable, and the metatable by the tag of the class. Generated code
accepts an object as one of a class if the metatable is in the convertible set of the class. This set has
the tags of the class and of all classes that derive from it, so what is accepted is right as far as tags
tell classes apart. Clear names do (`Scope.Clear.eq_of_tag_eq`); in general they do not.

    metatable of Y in the set of X   ⟺   some Z with the tag of Y is X or derives from it
    tags are distinct                ⟺   .. for all X and Y: Y itself is X or derives from it
-/

namespace LuaGlue

open Relation

namespace Registry

/-- The metatables that are accepted where an object of the class is asked for. -/
def acceptedMetatables (r : Registry) (c : BoundClass) : List String :=
  (r.convertibleTo c.id).toList.map (· ++ "Metatable")

/-- Does the tag of a class say which class it is? -/
def HasDistinctTags (r : Registry) : Prop := ∀ c ∈ r.classes, ∀ d ∈ r.classes, c.tag = d.tag → c = d

/-- Is the class the other one, or does it derive from it at any distance? -/
def IsKindOf (r : Registry) (c base : BoundClass) : Prop := c = base ∨ TransGen r.HasBase c.id base.id

/-- The set that a state file defines for a class lists the accepted metatables. -/
theorem renderConvertibleSet_eq (r : Registry) (c : BoundClass) :
    StateFile.renderConvertibleSet r c
      = Text.line 0 s!"inline std::unordered_set<std::string> {c.convertibleSet} \x7b"
        ++ Text.lines 8 ((r.acceptedMetatables c).map fun metatable => s!"\x7b\"{metatable}\"\x7d,")
        ++ "\x7d;" := by
  have hline : ∀ tag metatable : String, metatable = tag ++ "Metatable" →
      s!"\x7b\"{tag}Metatable\"\x7d," = s!"\x7b\"{metatable}\"\x7d," := by
    rintro tag metatable rfl
    change "\x7b\"" ++ (tag ++ ("Metatable" ++ "\"\x7d,")) = "\x7b\"" ++ (tag ++ "Metatable" ++ "\"\x7d,")
    rw [String.append_assoc]
  rw [StateFile.renderConvertibleSet, acceptedMetatables, List.map_map]
  simp only [hline _ _ rfl, Function.comp_def]

section Accepted

variable {r : Registry}

/-- A path of base edges is a kinship. -/
theorem Regular.isKindOf_iff (h : r.Regular) {c base : BoundClass} (hc : c ∈ r.classes) (hbase : base ∈ r.classes) :
    r.IsKindOf c base ↔ r.LeadsTo c.id base.id := by
  rw [IsKindOf, LeadsTo, reflTransGen_iff_eq_or_transGen]
  refine or_congr ⟨fun heq => by rw [heq], fun hid => ?_⟩ Iff.rfl
  have hsame := h.class?_eq hbase
  rw [hid, h.class?_eq hc] at hsame
  exact Option.some.inj hsame

/-- A metatable is accepted when its tag is that of the class or of one that derives from it. -/
theorem Regular.mem_acceptedMetatables (h : r.Regular) {c d : BoundClass} (hc : c ∈ r.classes) :
    d.metatable ∈ r.acceptedMetatables c ↔ ∃ e ∈ r.classes, e.tag = d.tag ∧ r.IsKindOf e c := by
  have hmem : d.metatable ∈ r.acceptedMetatables c ↔ d.tag ∈ (r.convertibleTo c.id).toList := by
    rw [acceptedMetatables, List.mem_map]
    simp [BoundClass.metatable]
  rw [hmem, mem_convertibleTo_iff h.basesInRange]
  refine exists_congr fun e => and_congr_right fun he => and_congr_right fun _ => ?_
  exact (h.isKindOf_iff he hc).symm

/-- Two classes that are of each other's kind are the same. -/
theorem Regular.eq_of_isKindOf (h : r.Regular) {c d : BoundClass} (hcd : r.IsKindOf c d) (hdc : r.IsKindOf d c) :
    c = d := by
  rcases hcd with rfl | hcd
  · rfl
  · rcases hdc with rfl | hdc
    · rfl
    · exact absurd (hcd.trans hdc) (h.acyclic c.id)

/-- Acceptance is kinship when the tags are distinct, and only then. -/
theorem Regular.accepted_iff_kind (h : r.Regular) :
    (∀ c ∈ r.classes, ∀ d ∈ r.classes, d.metatable ∈ r.acceptedMetatables c ↔ r.IsKindOf d c)
      ↔ r.HasDistinctTags := by
  constructor
  · intro hexact c hc d hd htag
    have hself : ∀ e ∈ r.classes, ∀ e' ∈ r.classes, e.tag = e'.tag → r.IsKindOf e e' := fun e he e' he' heq =>
      (hexact e' he' e he).1 ((h.mem_acceptedMetatables he').2 ⟨e', he', heq.symm, .inl rfl⟩)
    exact h.eq_of_isKindOf (hself c hc d hd htag) (hself d hd c hc htag.symm)
  · intro hdistinct c hc d hd
    rw [h.mem_acceptedMetatables hc]
    constructor
    · rintro ⟨e, he, htag, hkind⟩
      rwa [← hdistinct e he d hd htag]
    · exact fun hkind => ⟨d, hd, rfl, hkind⟩

/-- Clear names make distinct tags. -/
theorem Regular.hasDistinctTags_of_clear (h : r.Regular) (hclear : ∀ c ∈ r.classes, Scope.Clear c.scope c.name) :
    r.HasDistinctTags := by
  intro c hc d hd htag
  obtain ⟨hscope, hname⟩ := (hclear c hc).eq_of_tag_eq (hclear d hd) htag
  refine h.named.eq_of_qualified_eq hc hd ?_
  rw [BoundClass.qualified, BoundClass.qualified, hscope, hname]

end Accepted

end Registry

/-- CORRECT: after a run that succeeds, the metatable of a class is accepted for another one exactly when
some class of the same tag is that class or derives from it. So what is accepted is right for all classes
exactly when no two classes share a tag, and that is so when their names are clear. -/
theorem accepted_after_selection_iff (patches : Patches) (headers : NameSet) (sources : List DeclarationSource)
    (summary : Summary) (hplain : Selection.PlainNames (DeclarationSource.stream sources))
    (hselected : (({ patches, headers } : Registry).select sources).outcome = .ok summary) :
    let registry := (({ patches, headers } : Registry).select sources).registry
    (∀ x ∈ registry.classes, ∀ y ∈ registry.classes, y.metatable ∈ registry.acceptedMetatables x
        ↔ ∃ z ∈ registry.classes, z.tag = y.tag ∧ registry.IsKindOf z x)
      ∧ ((∀ x ∈ registry.classes, ∀ y ∈ registry.classes,
          y.metatable ∈ registry.acceptedMetatables x ↔ registry.IsKindOf y x) ↔ registry.HasDistinctTags)
      ∧ ((∀ c ∈ registry.classes, Scope.Clear c.scope c.name) → registry.HasDistinctTags) := by
  intro registry
  have hregular : registry.Regular := (Selection.finished_of_run hplain hselected).sound.regular
  exact ⟨fun x hx y _ => hregular.mem_acceptedMetatables hx, hregular.accepted_iff_kind,
    hregular.hasDistinctTags_of_clear⟩

/-- A file that declares `Actor` and `Sound` in `::World`. -/
def worldSource : DeclarationSource where
  path := "world.toml"
  text := some "source='world.hpp'\n[[class]]\nname='Actor'\nscope='::World'\ncomment='CUSTOM_ATTRIBUTE[Lua(Main)]'\n[[class]]\nname='Sound'\nscope='::World'"

theorem world_has_distinct_tags : ∃ summary, (Registry.select {} [worldSource]).outcome = .ok summary
    ∧ Selection.PlainNames (DeclarationSource.stream [worldSource])
    ∧ (Registry.select {} [worldSource]).registry.classes.map (·.tag) = ["__World_Actor", "__World_Sound"]
    ∧ (Registry.select {} [worldSource]).registry.HasDistinctTags := by
  have hrun : (Registry.select {} [worldSource]).outcome.isOk = true
      ∧ Selection.PlainNames (DeclarationSource.stream [worldSource])
      ∧ (Registry.select {} [worldSource]).registry.classes.map (·.tag) = ["__World_Actor", "__World_Sound"]
      ∧ ∀ c ∈ (Registry.select {} [worldSource]).registry.classes, Scope.normalize c.scope = c.scope
        ∧ (∀ part ∈ Scope.parts c.scope, Scope.IsPlain part ∧ Scope.IsClearPart part.toList)
        ∧ '_' ∉ c.name.toList := by
    decide +kernel
  obtain ⟨hok, hplain, htags, hclear⟩ := hrun
  obtain ⟨summary, hsummary⟩ := isOk_iff.1 hok
  exact ⟨summary, hsummary, hplain, htags, (accepted_after_selection_iff {} ∅ [worldSource] summary hplain
    hsummary).2.2 fun c hc => ⟨(hclear c hc).1, (hclear c hc).2.1, (hclear c hc).2.2⟩⟩

/-- A file that declares `Draw_Call` in `::Gfx` and `Call` in `::Gfx_Draw`. -/
def drawCallSource : DeclarationSource where
  path := "gfx.toml"
  text := some "source='gfx.hpp'\n[[class]]\nname='Draw_Call'\nscope='::Gfx'\ncomment='CUSTOM_ATTRIBUTE[Lua(Main)]'\n[[class]]\nname='Call'\nscope='::Gfx_Draw'\ncomment='CUSTOM_ATTRIBUTE[Lua(Main)]'"

/-- Neither class derives from the other one, but both have the tag `__Gfx_Draw_Call`. -/
theorem draw_calls_share_metatable : ∃ summary, (Registry.select {} [drawCallSource]).outcome = .ok summary
    ∧ Selection.PlainNames (DeclarationSource.stream [drawCallSource])
    ∧ ∃ x ∈ (Registry.select {} [drawCallSource]).registry.classes,
      ∃ y ∈ (Registry.select {} [drawCallSource]).registry.classes,
        x.qualified = "::Gfx::Draw_Call" ∧ y.qualified = "::Gfx_Draw::Call"
          ∧ y.metatable ∈ (Registry.select {} [drawCallSource]).registry.acceptedMetatables x
          ∧ ¬ (Registry.select {} [drawCallSource]).registry.IsKindOf y x := by
  have hrun : (Registry.select {} [drawCallSource]).outcome.isOk = true
      ∧ Selection.PlainNames (DeclarationSource.stream [drawCallSource])
      ∧ (Registry.select {} [drawCallSource]).registry.classes.map (fun c => (c.qualified, c.tag))
        = [("::Gfx::Draw_Call", "__Gfx_Draw_Call"), ("::Gfx_Draw::Call", "__Gfx_Draw_Call")]
      ∧ ∀ x ∈ (Registry.select {} [drawCallSource]).registry.classes,
        (Registry.select {} [drawCallSource]).registry.bases x.id = [] := by
    decide +kernel
  obtain ⟨hok, hplain, hnames, hbases⟩ := hrun
  obtain ⟨summary, hsummary⟩ := isOk_iff.1 hok
  have hregular := (Selection.finished_of_run hplain hsummary).sound.regular
  refine ⟨summary, hsummary, hplain, ?_⟩
  change (Registry.select {} [drawCallSource]).registry.Regular at hregular
  generalize (Registry.select {} [drawCallSource]).registry = registry at hnames hbases hregular ⊢
  obtain ⟨x, rest, hclasses, hx, hrest⟩ := List.map_eq_cons_iff.1 hnames
  obtain ⟨y, others, rfl, hy, -⟩ := List.map_eq_cons_iff.1 hrest
  obtain ⟨hxname, hxtag⟩ := Prod.mk.inj hx
  obtain ⟨hyname, hytag⟩ := Prod.mk.inj hy
  have hxmem : x ∈ registry.classes := hclasses ▸ List.mem_cons_self
  have hymem : y ∈ registry.classes := hclasses ▸ List.mem_cons_of_mem _ List.mem_cons_self
  refine ⟨x, hxmem, y, hymem, hxname, hyname, ?_, ?_⟩
  · exact (hregular.mem_acceptedMetatables hxmem).2 ⟨x, hxmem, hxtag.trans hytag.symm, .inl rfl⟩
  · rintro (rfl | hderives)
    · exact absurd (hxname.symm.trans hyname) (by decide)
    · obtain ⟨base, hbase, -⟩ := TransGen.head'_iff.1 hderives
      rw [Registry.HasBase, hbases y hymem] at hbase
      cases hbase

end LuaGlue
