import LuaGlue.Call.Native

/-!
The code of a call, piece by piece.

The code that reads the arguments is taken apart into pieces: a check, a retrieval, an extraction of an
object and a conversion are pieces of their own. `textAll_pieces` says that the pieces in their order are
what is written to the file, character by character, and `filter_pieces` that arguments are handled in the
blocks of the overloads and nowhere else.

A run goes through the pieces of the text from the first to the last. What it finds on the Lua stack and
what native code does to that is left to a `Host`.

    require   returns only if the check holds; the run ends otherwise
    take      the value is retrieved: the run notes a `Retrieval`
    enter     of a chain of branches, only the first whose index was chosen runs
-/

namespace LuaGlue

/-- The variable that keeps a retrieved value. -/
inductive Target where
  /-- The parameter, perhaps bound as a reference. -/
  | parameter (byReference : Bool)
  /-- An intermediate value, which a conversion makes the parameter of. -/
  | intermediate
  deriving DecidableEq, Repr

/-- The declaration of the variable for a slot. -/
def Target.declaration (slot : Nat) : Target → String
  | .parameter byReference =>
    let mark := if byReference then "&" else ""
    s!"auto{mark} param_{slot}"
  | .intermediate => s!"auto param_inter_{slot}"

/-- A piece of the code of a call. -/
inductive Piece where
  /-- The overload that is meant is found out, and the lambda around the branches begins. -/
  | choose (name : String) (candidates : List Candidate) (resultMarks : Option String)
  /-- A branch begins, for the overload with this index. -/
  | enter (index : Nat)
  /-- The check of an argument. -/
  | require (slot : Nat) (check : String)
  /-- The value of an argument is retrieved and kept. -/
  | take (target : Target) (slot : Nat) (value : String)
  /-- An object of a class is checked and extracted in one step. -/
  | extract (fetch : UserdataFetch)
  /-- The intermediate value is converted. -/
  | convert (conversion : Conversion)
  /-- The code for one argument is over. -/
  | gap
  /-- The native call. -/
  | finish (tail : CallTail)
  /-- A branch ends. -/
  | leave
  /-- The branch for any other index, and the end of the lambda. -/
  | uncaught
  deriving DecidableEq, Repr

namespace Piece

/-- What is written for a piece. -/
def text (layout : Layout) : Piece → String
  | .choose name candidates resultMarks =>
    Text.lines 8
      ["std::unordered_set<int> matching_overloads\x7b\x7d;",
       "int num_matching_overloads\x7b\x7d;",
       "auto num_params_on_stack = lua_gettop(lua_state);"]
      ++ String.join (candidates.map (·.render))
      ++ CallCode.renderVerdict name
      ++ Text.line 8 s!"{NativeCall.capture resultMarks}[=]() \x7b"
  | .enter index =>
    let chain := if index = 0 then "" else "else "
    Text.lines 12 [s!"{chain}if (selected_overload == {index})", "\x7b"]
  | .require slot check => Extraction.renderCheck layout.indent slot check
  | .take target slot value => Text.line layout.indent s!"{target.declaration slot} = {value};"
  | .extract fetch => fetch.render
  | .convert conversion => Text.line layout.indent s!"{conversion.render};"
  | .gap =>
    match layout with
    | .body => "\n"
    | .branch => ""
  | .finish tail => tail.render layout
  | .leave => Text.line 12 "\x7d"
  | .uncaught => CallCode.renderUncaught ++ Text.line 8 "\x7d();" ++ "\n"

/-- What is written for pieces one after another. -/
def textAll (layout : Layout) (pieces : List Piece) : String := String.join (pieces.map (text layout))

/-- Does the piece check, take or convert an argument? -/
def handlesArgument : Piece → Bool
  | .require _ _ | .take _ _ _ | .extract _ | .convert _ => true
  | _ => false

end Piece

/-! ### The pieces of a call -/

/-- The pieces of the code that reads one slot. -/
def Extraction.pieces : Extraction → List Piece
  | .object fetch => [.extract fetch, .gap]
  | .checked slot check (.direct byReference value) =>
    [.require slot check, .take (.parameter byReference) slot value, .gap]
  | .checked slot check (.converted value conversion) =>
    [.require slot check, .take .intermediate slot value, .convert conversion, .gap]

/-- The pieces of the branch for one overload. -/
def Branch.pieces (b : Branch) : List Piece :=
  .enter b.index :: (b.extractions.flatMap Extraction.pieces ++ (b.tail.toList.map .finish ++ [.leave]))

namespace CallCode

/-- Where the arguments are read. -/
def layout : CallCode → Layout
  | .single _ _ => .body
  | .overloaded _ _ _ _ => .branch

/-- The pieces of a call. -/
def pieces : CallCode → List Piece
  | .single extractions tail => extractions.flatMap Extraction.pieces ++ tail.toList.map .finish
  | .overloaded name candidates resultMarks branches =>
    .choose name candidates resultMarks :: (branches.flatMap Branch.pieces ++ [.uncaught])

/-- What reads the arguments of each overload. -/
def extractions : CallCode → List (List Extraction)
  | .single extractions _ => [extractions]
  | .overloaded _ _ _ branches => branches.map (·.extractions)

/-- The pieces that read the arguments of each overload. -/
def blocks : CallCode → List (List Piece)
  | .single extractions _ => [extractions.flatMap Extraction.pieces]
  | .overloaded _ _ _ branches => branches.map fun b => b.extractions.flatMap Extraction.pieces

theorem blocks_eq (code : CallCode) : code.blocks = code.extractions.map (·.flatMap Extraction.pieces) := by
  cases code with
  | single extractions tail => rfl
  | overloaded name candidates resultMarks branches => rw [blocks, extractions, List.map_map]; rfl

end CallCode

/-! ### Their text -/

namespace Piece

theorem textAll_nil (layout : Layout) : textAll layout [] = "" := rfl

theorem textAll_cons (layout : Layout) (p : Piece) (rest : List Piece) :
    textAll layout (p :: rest) = p.text layout ++ textAll layout rest := by
  rw [textAll, List.map_cons, String.join_cons, ← textAll]

theorem textAll_append (layout : Layout) (ps qs : List Piece) :
    textAll layout (ps ++ qs) = textAll layout ps ++ textAll layout qs := by
  rw [textAll, List.map_append, String.join_append, ← textAll, ← textAll]

theorem textAll_finish (layout : Layout) (tail : Option CallTail) :
    textAll layout (tail.toList.map .finish) = (tail.map (·.render layout)).getD "" := by
  cases tail with
  | none => rfl
  | some tail => exact textAll_cons layout (.finish tail) [] |>.trans String.append_empty

end Piece

/-- The pieces of one slot are its statements, and the gap after them. -/
theorem Extraction.textAll_slot (layout : Layout) (e : Extraction) :
    Piece.textAll layout e.pieces = e.render layout.indent ++ Piece.gap.text layout := by
  match e with
  | .object fetch =>
    simp only [pieces, Piece.textAll_cons, Piece.textAll_nil, String.append_empty]
    rfl
  | .checked slot check (.direct byReference value) =>
    simp only [pieces, Piece.textAll_cons, Piece.textAll_nil, String.append_empty, Piece.text, render]
    unfold Target.declaration
    simp only [toString, String.append_assoc]
  | .checked slot check (.converted value conversion) =>
    simp only [pieces, Piece.textAll_cons, Piece.textAll_nil, String.append_empty, Piece.text, render]
    unfold Target.declaration
    simp only [toString, String.append_assoc]

theorem Extraction.textAll_pieces (layout : Layout) (extractions : List Extraction) :
    Piece.textAll layout (extractions.flatMap Extraction.pieces) = renderAll layout extractions := by
  induction extractions with
  | nil => rfl
  | cons e rest ih =>
    rw [List.flatMap_cons, Piece.textAll_append, ih, textAll_slot]
    cases layout <;> simp only [renderAll, Piece.text, List.map_cons, String.join_cons]

theorem Branch.textAll_pieces (b : Branch) : Piece.textAll .branch b.pieces = b.render := by
  rw [pieces, render, Piece.textAll_cons, Piece.textAll_append, Piece.textAll_append,
    Extraction.textAll_pieces, Piece.textAll_finish]
  simp only [Piece.text, Piece.textAll_cons, Piece.textAll_nil, String.append_empty, String.append_assoc]

/-- The pieces are the whole code. -/
theorem CallCode.textAll_pieces (code : CallCode) : Piece.textAll code.layout code.pieces = code.render := by
  cases code with
  | single extractions tail =>
    rw [pieces, layout, Piece.textAll_append, Extraction.textAll_pieces, Piece.textAll_finish, render]
  | overloaded name candidates resultMarks branches =>
    have hbranches : Piece.textAll .branch (branches.flatMap Branch.pieces)
        = String.join (branches.map (·.render)) := by
      induction branches with
      | nil => rfl
      | cons b rest ih =>
        rw [List.flatMap_cons, Piece.textAll_append, ih, b.textAll_pieces, List.map_cons, String.join_cons]
    rw [pieces, layout, Piece.textAll_cons, Piece.textAll_append, hbranches, render]
    simp only [Piece.text, Piece.textAll_cons, Piece.textAll_nil, String.append_empty, String.append_assoc]

/-- Nothing but the code of its slots handles arguments in a branch. -/
theorem Branch.filter_pieces (b : Branch) : b.pieces.filter Piece.handlesArgument
    = (b.extractions.flatMap Extraction.pieces).filter Piece.handlesArgument := by
  have htail : (b.tail.toList.map Piece.finish ++ [Piece.leave]).filter Piece.handlesArgument = [] := by
    cases b.tail <;> rfl
  rw [pieces, List.filter_cons_of_neg Bool.false_ne_true, List.filter_append, htail, List.append_nil]

/-- Arguments are handled in the blocks of the overloads only. -/
theorem CallCode.filter_pieces (code : CallCode) :
    code.pieces.filter Piece.handlesArgument = code.blocks.flatten.filter Piece.handlesArgument := by
  cases code with
  | single extractions tail =>
    have htail : (tail.toList.map Piece.finish).filter Piece.handlesArgument = [] := by
      cases tail <;> rfl
    rw [pieces, blocks, List.filter_append, htail, List.append_nil, List.flatten_singleton]
  | overloaded name candidates resultMarks branches =>
    rw [pieces, blocks, List.filter_cons_of_neg Bool.false_ne_true, List.filter_append,
      List.filter_cons_of_neg Bool.false_ne_true, List.filter_nil, List.append_nil, ← List.flatMap_def]
    simp only [List.filter_flatMap, Branch.filter_pieces]

end LuaGlue
