import LuaGlue.Annotation
import LuaGlue.Proofs.Spelling.Cuts
import Mathlib.Data.List.Nodup

/-!
A comment gives back the annotations that were written into it.

`Written` says how a list of annotations is written between the brackets of a comment: each one its name and, in
parentheses, its parameters with a comma between any two; blanks and commas stand between annotations and at both ends,
spaces anywhere inside parentheses.

    Lua(A,B), Lua(C) LuaState()     -->     ` , Lua( A ,B)Lua(C),,LuaState( )`

`scanItems_written` reads such a body back, parameter by parameter, whatever the gaps and the spaces are. Of several
annotations of one name a comment keeps the first (`get?_parse`), so what it has under a name is what was written first
under it.
-/

namespace LuaGlue

namespace Annotation

/-! ### How annotations are written -/

/-- Are there only separators in the text? -/
def IsGap (gap : List Char) : Prop := ∀ c ∈ gap, isSeparator c = true

instance (gap : List Char) : Decidable (IsGap gap) := List.decidableBAll ..

/-- Can the text stand for the name of an annotation? -/
structure IsName (name : List Char) : Prop where
  filled : name ≠ []
  unopened : '(' ∉ name
  unclosed : ']' ∉ name
  starts : ∀ c ∈ name.head?, isSeparator c = false
  ends : ∀ c ∈ name.getLast?, Text.isBlank c = false

instance (name : List Char) : Decidable (IsName name) :=
  haveI := Option.decidableForallMem (p := (isSeparator · = false)) name.head?
  haveI := Option.decidableForallMem (p := (Text.isBlank · = false)) name.getLast?
  decidable_of_iff (name ≠ [] ∧ '(' ∉ name ∧ ']' ∉ name ∧ (∀ c ∈ name.head?, isSeparator c = false)
      ∧ ∀ c ∈ name.getLast?, Text.isBlank c = false)
    ⟨fun ⟨hfilled, hopen, hclosed, hstart, hend⟩ => ⟨hfilled, hopen, hclosed, hstart, hend⟩,
      fun h => ⟨h.filled, h.unopened, h.unclosed, h.starts, h.ends⟩⟩

/-- Can the text stand for a parameter? -/
structure IsParam (param : List Char) : Prop where
  commaFree : ',' ∉ param
  unended : ')' ∉ param
  unclosed : ']' ∉ param
  spaceFree : ' ' ∉ param

instance (param : List Char) : Decidable (IsParam param) :=
  decidable_of_iff (',' ∉ param ∧ ')' ∉ param ∧ ']' ∉ param ∧ ' ' ∉ param)
    ⟨fun ⟨hcomma, hend, hclosed, hspace⟩ => ⟨hcomma, hend, hclosed, hspace⟩,
      fun h => ⟨h.commaFree, h.unended, h.unclosed, h.spaceFree⟩⟩

/-- Is this text, between parentheses, what an annotation has as its parameters? -/
structure Spells (a : Annotation) (inside : List Char) : Prop where
  named : IsName a.name.toList
  filled : a.params ≠ []
  plain : ∀ param ∈ a.params, IsParam param.toList
  spaced : inside.filter (· ≠ ' ') = [','].intercalate (a.params.map String.toList)

instance (a : Annotation) (inside : List Char) : Decidable (a.Spells inside) :=
  decidable_of_iff (IsName a.name.toList ∧ a.params ≠ [] ∧ (∀ param ∈ a.params, IsParam param.toList)
      ∧ inside.filter (· ≠ ' ') = [','].intercalate (a.params.map String.toList))
    ⟨fun ⟨hname, hfilled, hplain, hspaced⟩ => ⟨hname, hfilled, hplain, hspaced⟩,
      fun h => ⟨h.named, h.filled, h.plain, h.spaced⟩⟩

/-- Are these annotations, in this order, what the text between two brackets has in it? -/
inductive Written : List Annotation → List Char → Prop
  /-- Behind the last annotation only separators are left. -/
  | done {gap : List Char} (hgap : IsGap gap) : Written [] gap
  /-- An annotation with what stands before it, and the others. -/
  | item {a : Annotation} {gap inside rest : List Char} {as : List Annotation}
      (hgap : IsGap gap) (ha : a.Spells inside) (hrest : Written as rest) :
      Written (a :: as) (gap ++ (a.name.toList ++ '(' :: (inside ++ ')' :: rest)))

/-- Between parentheses there are only spaces, commas and the parameters. -/
theorem Spells.forall_inside {a : Annotation} {inside : List Char} (h : a.Spells inside) {P : Char → Prop}
    (hspace : P ' ') (hcomma : P ',') (hparams : ∀ param ∈ a.params, ∀ c ∈ param.toList, P c) : ∀ c ∈ inside, P c := by
  intro c hc
  by_cases heq : c = ' '
  · rwa [heq]
  · have hkept : c ∈ inside.filter (· ≠ ' ') := List.mem_filter.2 ⟨hc, by simpa using heq⟩
    rw [h.spaced] at hkept
    exact (Text.forall_mem_intercalate hcomma _).2 (List.forall_mem_map.2 hparams) c hkept

theorem Spells.unended {a : Annotation} {inside : List Char} (h : a.Spells inside) : ')' ∉ inside := fun hmem =>
  h.forall_inside (P := (· ≠ ')')) (by decide) (by decide)
    (fun param hparam _ hc heq => (h.plain param hparam).unended (heq ▸ hc)) _ hmem rfl

theorem Spells.unclosed {a : Annotation} {inside : List Char} (h : a.Spells inside) : ']' ∉ inside := fun hmem =>
  h.forall_inside (P := (· ≠ ']')) (by decide) (by decide)
    (fun param hparam _ hc heq => (h.plain param hparam).unclosed (heq ▸ hc)) _ hmem rfl

theorem Written.unclosed {as : List Annotation} {body : List Char} (h : Written as body) : ']' ∉ body := by
  have hno : ∀ {gap : List Char}, IsGap gap → ']' ∉ gap := fun hgap hmem => absurd (hgap _ hmem) (by decide)
  induction h with
  | done hgap => exact hno hgap
  | item hgap ha hrest ih => simp [hno hgap, ha.named.unclosed, ha.unclosed, ih]

/-! ### How they are read -/

/-- Up to the closing parenthesis the commas cut what is no space into parameters. -/
theorem scanParams_append {inside : List Char} (hinside : ')' ∉ inside) {current : List Char} (hcurrent : ',' ∉ current)
    (done : List (List Char)) (rest : List Char) : scanParams done current (inside ++ ')' :: rest)
      = ⟨done ++ (current ++ inside.filter (· ≠ ' ')).splitOn ',', rest, true⟩ := by
  induction inside generalizing done current with
  | nil =>
    rw [List.nil_append, scanParams, if_neg (by decide), if_pos rfl, List.filter_nil, List.append_nil,
      List.splitOn_eq_singleton hcurrent]
  | cons c inside ih =>
    rw [List.mem_cons, not_or] at hinside
    rw [List.cons_append, scanParams]
    by_cases hcomma : c = ','
    · subst hcomma
      rw [if_pos rfl, ih hinside.2 List.not_mem_nil, List.filter_cons_of_pos (by decide),
        List.splitOn_append_cons_self_of_not_mem hcurrent]
      simp
    · rw [if_neg hcomma, if_neg (Ne.symm hinside.1)]
      by_cases hspace : c = ' '
      · rw [if_pos hspace, ih hinside.2 hcurrent, List.filter_cons_of_neg (by simpa using hspace)]
      · have hnext : ',' ∉ current ++ [c] := by simp [hcurrent, Ne.symm hcomma]
        rw [if_neg hspace, ih hinside.2 hnext, List.filter_cons_of_pos (by simpa using hspace), List.append_assoc,
          List.singleton_append]

/-- The parameters of an annotation are read back, the empty ones too. -/
theorem Spells.scanParams_eq {a : Annotation} {inside : List Char} (h : a.Spells inside) (rest : List Char) :
    scanParams [] [] (inside ++ ')' :: rest) = ⟨a.params.map String.toList, rest, true⟩ := by
  have hcommas : ∀ piece ∈ a.params.map String.toList, ',' ∉ piece := by
    rintro piece hpiece
    obtain ⟨param, hparam, rfl⟩ := List.mem_map.1 hpiece
    exact (h.plain param hparam).commaFree
  rw [scanParams_append h.unended List.not_mem_nil, List.nil_append, List.nil_append, h.spaced,
    List.splitOn_intercalate ',' hcommas (by simpa using h.filled)]

theorem IsName.isSolid {name : List Char} (h : IsName name) : Text.IsSolid name := by
  refine ⟨fun c hc => ?_, h.ends⟩
  have hstart := h.starts c hc
  rw [isSeparator, Bool.or_eq_false_iff] at hstart
  exact hstart.1

/-- A name is read up to its parenthesis, and nothing of it is trimmed. -/
theorem IsName.scanName_eq {name : List Char} (h : IsName name) (rest : List Char) :
    scanName (name ++ '(' :: rest) = (name, rest) := by
  rw [scanName, Text.breakAt?_append_of_not_mem h.unopened]
  simp only [Text.trim_of_isSolid h.isSolid]

/-- All separators are skipped, and nothing else. -/
theorem dropWhile_isSeparator {gap rest : List Char} (hgap : IsGap gap)
    (hrest : ∀ c ∈ rest.head?, isSeparator c = false) : (gap ++ rest).dropWhile isSeparator = rest := by
  rw [List.dropWhile_append_of_pos hgap]
  cases rest with
  | nil => rfl
  | cons c rest => rw [List.dropWhile_cons_of_neg (by simp [hrest c rfl])]

theorem scanItems_gap {gap : List Char} (hgap : IsGap gap) : scanItems gap = [] := by
  have hskip : (gap ++ []).dropWhile isSeparator = [] := dropWhile_isSeparator hgap (by simp)
  rw [List.append_nil] at hskip
  rw [scanItems, hskip]
  rfl

/-- One annotation is read, and then what is behind its parenthesis. -/
theorem scanItems_item {a : Annotation} {gap inside : List Char} (hgap : IsGap gap)
    (ha : a.Spells inside) (rest : List Char) :
    scanItems (gap ++ (a.name.toList ++ '(' :: (inside ++ ')' :: rest))) = a :: scanItems rest := by
  have hstarts : ∀ c ∈ (a.name.toList ++ '(' :: (inside ++ ')' :: rest)).head?, isSeparator c = false := by
    rw [List.head?_append_of_ne_nil _ ha.named.filled]
    exact ha.named.starts
  have hparams : (a.params.map String.toList).map String.ofList = a.params := by simp [Function.comp_def]
  rw [scanItems, dropWhile_isSeparator hgap hstarts, ha.named.scanName_eq, dif_neg ha.named.filled, ha.scanParams_eq]
  simp only [if_true, hparams, String.ofList_toList]

/-- What has been written is read: the gaps, and after each the annotation behind it. -/
theorem scanItems_written {as : List Annotation} {body : List Char} (h : Written as body) : scanItems body = as := by
  induction h with
  | done hgap => exact scanItems_gap hgap
  | item hgap ha _ ih => rw [scanItems_item hgap ha, ih]

/-- The body of a comment stands behind the first tag, up to the next bracket. -/
theorem body?_eq {before body : List Char} (hbefore : ¬ opening <:+: before) (hbody : ']' ∉ body) (after : List Char) :
    body? (before ++ opening ++ (body ++ ']' :: after)) = some body := by
  have hopening : opening = "CUSTOM_ATTRIBUTE".toList ++ ['['] := by decide
  rw [hopening] at hbefore ⊢
  rw [body?, hopening, Text.breakFirst?_append_of_not_infix (by decide) hbefore, Option.bind_eq_bind, Option.bind_some]
  dsimp only
  rw [Text.breakAt?_append_of_not_mem hbody]
  rfl

theorem items_written {as : List Annotation} {before body : List Char} (hbefore : ¬ opening <:+: before)
    (hbody : Written as body) (has : as ≠ []) (after : List Char) :
    items (String.ofList (before ++ opening ++ (body ++ ']' :: after))) = as := by
  have hopened : body.contains '(' = true := by
    cases hbody with
    | done => exact absurd rfl has
    | item => simp
  rw [items, String.toList_ofList, body?_eq hbefore hbody.unclosed]
  simp only [hopened, if_true, scanItems_written hbody]

end Annotation

namespace Annotations

open Annotation

/-! ### What a comment keeps -/

theorem get?_insert (as : Annotations) (a : Annotation) (name : String) :
    (as.insert a).get? name = (as.get? name).or (if a.name = name then some a else none) := by
  rw [insert]
  split
  · next htaken =>
    obtain ⟨b, hb, hname⟩ := List.any_eq_true.1 htaken
    split
    · next heq =>
      have hfound : (as.get? name).isSome = true := List.find?_isSome.2 ⟨b, hb, by simpa [← heq] using hname⟩
      rw [Option.or_of_isSome hfound]
    · rw [Option.or_none]
  · rw [get?, get?, List.find?_append, List.find?_singleton]
    simp only [decide_eq_true_eq]

/-- What is inserted later does not change what there is under a name. -/
theorem get?_foldl_insert (as : Annotations) (more : List Annotation) (name : String) :
    (more.foldl insert as).get? name = (as.get? name).or (more.find? (·.name = name)) := by
  induction more generalizing as with
  | nil => rw [List.foldl_nil, List.find?_nil, Option.or_none]
  | cons a more ih =>
    rw [List.foldl_cons, ih, get?_insert, Option.or_assoc, List.find?_cons]
    by_cases hname : a.name = name <;> simp [hname]

/-- Of several annotations of one name a comment keeps the first. -/
theorem get?_parse (comment : String) (name : String) :
    (parse comment).get? name = (items comment).find? (·.name = name) := by
  rw [parse, get?_foldl_insert]
  rfl

theorem nodup_insert {as : Annotations} (h : (as.all.map (·.name)).Nodup) (a : Annotation) :
    ((as.insert a).all.map (·.name)).Nodup := by
  rw [insert]
  split
  · exact h
  · next hnew =>
    rw [List.map_append, List.map_singleton, ← List.concat_eq_append]
    refine h.concat fun htaken => hnew ?_
    obtain ⟨b, hb, hname⟩ := List.mem_map.1 htaken
    exact List.any_eq_true.2 ⟨b, hb, decide_eq_true hname⟩

/-- A comment keeps no two annotations of one name. -/
theorem nodup_parse (comment : String) : ((parse comment).all.map (·.name)).Nodup := by
  rw [parse]
  refine List.foldlRecOn (motive := fun as => (as.all.map (·.name)).Nodup) (items comment) insert ?_ ?_
  · exact List.nodup_nil
  · exact fun as has a _ => nodup_insert has a

/-- CORRECT: whatever is written into a comment is what the comment has, under each name what was written first. -/
theorem written_annotations_kept {as : List Annotation} {before body : List Char}
    (hbefore : ¬ opening <:+: before) (hbody : Written as body) (has : as ≠ []) (after : List Char) :
    let kept := parse (String.ofList (before ++ opening ++ (body ++ ']' :: after)))
    (∀ name, kept.get? name = as.find? (·.name = name)) ∧ (kept.all.map (·.name)).Nodup := by
  refine ⟨fun name => ?_, nodup_parse _⟩
  rw [get?_parse, items_written hbefore hbody has]

theorem written_lua_kept :
    ¬ opening <:+: "// CUSTOM_ATTRIBUTE: ".toList
      ∧ Written [⟨"Lua", ["A", "", "BC"]⟩, ⟨"Lua", ["D"]⟩, ⟨"Lua Late", [""]⟩]
        " ,Lua( A ,, B C)\tLua(D)Lua Late(),".toList
      ∧ let kept := parse "// CUSTOM_ATTRIBUTE: CUSTOM_ATTRIBUTE[ ,Lua( A ,, B C)\tLua(D)Lua Late(),] Lua(E)]"
        kept.get? "Lua" = some ⟨"Lua", ["A", "", "BC"]⟩ ∧ kept.get? "Lua Late" = some ⟨"Lua Late", [""]⟩
          ∧ kept.get? "Late" = none := by
  have hbefore : ¬ opening <:+: "// CUSTOM_ATTRIBUTE: ".toList := fun htag =>
    absurd (htag.subset (show '[' ∈ opening by decide)) (by decide)
  have hlate : Written [⟨"Lua Late", [""]⟩] "Lua Late(),".toList :=
    @Written.item ⟨"Lua Late", [""]⟩ [] [] ",".toList [] (by decide) (by decide) (.done (by decide))
  have hagain : Written [⟨"Lua", ["D"]⟩, ⟨"Lua Late", [""]⟩] "\tLua(D)Lua Late(),".toList :=
    @Written.item ⟨"Lua", ["D"]⟩ "\t".toList "D".toList _ _ (by decide) (by decide) hlate
  have hbody : Written [⟨"Lua", ["A", "", "BC"]⟩, ⟨"Lua", ["D"]⟩, ⟨"Lua Late", [""]⟩]
      " ,Lua( A ,, B C)\tLua(D)Lua Late(),".toList :=
    @Written.item ⟨"Lua", ["A", "", "BC"]⟩ " ,".toList " A ,, B C".toList _ _ (by decide) (by decide) hagain
  have hkept := (written_annotations_kept hbefore hbody (List.cons_ne_nil _ _) " Lua(E)]".toList).1
  exact ⟨hbefore, hbody, (hkept "Lua").trans (by decide), (hkept "Lua Late").trans (by decide),
    (hkept "Late").trans (by decide)⟩

end Annotations

end LuaGlue
