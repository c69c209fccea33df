import LuaGlue.Text.Blank
import LuaGlue.Text.Search

/-!
The annotations that a comment carries.

A comment asks for bindings in a bracket such as

    // CUSTOM_ATTRIBUTE[LuaStateTypes(Main) LuaLate(Class, ::Gfx::Texture)]

whose body is a list of items, each a name with its parameters in parentheses; blanks and commas
between items are skipped, and spaces inside parentheses do not count. A body without parentheses is
one item without parameters. Of several items of one name the first counts.
-/

namespace LuaGlue

/-- One annotation: a name and its parameters. -/
structure Annotation where
  name : String
  params : List String
  deriving DecidableEq, Repr

/-- Why an annotation or one of its parameters cannot be had. -/
inductive AnnotationError where
  /-- No item has this name. -/
  | missing (name : String)
  /-- The item has no parameter at this index. -/
  | missingParam (name : String) (index : Nat)
  deriving DecidableEq, Repr

/-- The words that report the error. -/
def AnnotationError.message : AnnotationError → String
  | .missing name => s!"attribute '{name}' is not present"
  | .missingParam name index => s!"attribute '{name}' has no parameter {index}"

namespace Annotation

/-- The parameter at an index. -/
def param (a : Annotation) (index : Nat) : Except AnnotationError String :=
  match a.params[index]? with
  | some text => .ok text
  | none => .error (.missingParam a.name index)

/-- The parameter at an index, unless there is none or it is empty. -/
def optional (a : Annotation) (index : Nat) : Option String :=
  a.params[index]?.filter fun text => !text.isEmpty

/-- What opens the annotations of a comment. -/
def opening : List Char := "CUSTOM_ATTRIBUTE[".toList

/-- The text between the brackets of a comment. -/
def body? (comment : List Char) : Option (List Char) := do
  let (_, rest) ← Text.breakFirst? opening comment
  let (body, _) ← Text.breakAt? (· = ']') rest
  return body

/-- A parameter list as read so far. -/
structure Params where
  /-- The parameters that a comma or the closing parenthesis has ended. -/
  done : List (List Char)
  /-- The text after them. -/
  rest : List Char
  /-- Was there a closing parenthesis? -/
  closed : Bool

/-- Reads parameters up to the closing parenthesis. Text that ends without one is a parameter unless
it is empty. -/
def scanParams (done : List (List Char)) (current : List Char) : List Char → Params
  | [] => ⟨if current.isEmpty then done else done ++ [current], [], false⟩
  | c :: rest =>
    if c = ',' then scanParams (done ++ [current]) [] rest
    else if c = ')' then ⟨done ++ [current], rest, true⟩
    else if c = ' ' then scanParams done current rest
    else scanParams done (current ++ [c]) rest

/-- Does the character only separate items? -/
def isSeparator (c : Char) : Bool := Text.isBlank c || c = ','

/-- The name an item begins with, and the text after the parenthesis that ends it. -/
def scanName (text : List Char) : List Char × List Char :=
  match Text.breakAt? (· = '(') text with
  | some (name, rest) => (Text.trim name, rest)
  | none => (Text.trim text, [])

theorem length_rest_scanParams_le (done : List (List Char)) (current text : List Char) :
    (scanParams done current text).rest.length ≤ text.length := by
  induction text generalizing done current with
  | nil => simp [scanParams]
  | cons c rest ih =>
    rw [scanParams]
    split
    · exact Nat.le_succ_of_le (ih _ _)
    · split
      · exact Nat.le_succ _
      · split <;> exact Nat.le_succ_of_le (ih _ _)

theorem length_scanName_lt {text : List Char} (h : (scanName text).1 ≠ []) :
    (scanName text).2.length < text.length := by
  unfold scanName at h ⊢
  split
  · next name rest hb =>
    obtain ⟨c, -, rfl⟩ := Text.breakAt?_eq_some hb
    simp
    omega
  · next hb =>
    cases text with
    | nil => simp [hb, Text.trim, Text.trimStart, Text.trimEnd] at h
    | cons => simp

/-- The items of a body that has parentheses, in order. -/
def scanItems (text : List Char) : List Annotation :=
  let item := scanName (text.dropWhile isSeparator)
  if _h : item.1 = [] then []
  else
    let params := scanParams [] [] item.2
    let head : Annotation := ⟨String.ofList item.1, params.done.map String.ofList⟩
    if params.closed then head :: scanItems params.rest else [head]
termination_by text.length
decreasing_by
  have hname := length_scanName_lt _h
  have hrest := length_rest_scanParams_le [] [] (scanName (text.dropWhile isSeparator)).2
  have hdrop := (List.dropWhile_sublist isSeparator (l := text)).length_le
  omega

/-- The items a comment carries, in order. -/
def items (comment : String) : List Annotation :=
  match body? comment.toList with
  | none => []
  | some body =>
    if body.contains '(' then scanItems body
    else
      let name := Text.trim body
      if name.isEmpty then [] else [⟨String.ofList name, []⟩]

end Annotation

/-- All annotations of one comment, each name once. -/
structure Annotations where
  all : List Annotation
  deriving Repr

namespace Annotations

/-- The annotations with one more, unless its name is taken. -/
def insert (as : Annotations) (a : Annotation) : Annotations :=
  if as.all.any (·.name = a.name) then as else ⟨as.all ++ [a]⟩

/-- The annotations of a comment: of each name the first item. -/
def parse (comment : String) : Annotations :=
  let items := Annotation.items comment
  items.foldl insert ⟨[]⟩

/-- The annotation of this name. -/
def get? (as : Annotations) (name : String) : Option Annotation := as.all.find? (·.name = name)

/-- The annotation of this name, or the error that reports its absence. -/
def require (as : Annotations) (name : String) : Except AnnotationError Annotation :=
  match as.get? name with
  | some a => .ok a
  | none => .error (.missing name)

/-- Does the comment carry none? -/
def isEmpty (as : Annotations) : Bool := as.all.isEmpty

end Annotations

end LuaGlue
