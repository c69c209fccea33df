import LuaGlue.Declaration.Basic
import LuaGlue.Toml.Decode
import LuaGlue.Toml.Reader

/-!
Declaration files: what one header declares, written as a TOML document.

    source = "gfx/texture.hpp"          the header
    [[annotation]]  comment             a loose comment
    [[class]]       name, scope, ...    with [[class.constructor]] and [[class.method]]
    [[function]]    name, scope, params, returns, static, comment
    [[enum]]        name, scope, values, comment

`DeclarationDocument.declarations` puts the content of a file in order: comments, each class followed by
its constructors and methods, functions, enums. Scopes are normalized on the way.
-/

namespace LuaGlue

/-- A class with its members. -/
structure ClassEntry where
  name : String
  scope : String
  /-- The header that declares it, where it is another one than that of the file. -/
  source : Option String
  line : Option Nat
  comment : String
  bases : List String
  hasDefaultConstructor : Bool
  methods : List DeclaredFunction
  /-- The parameters of each constructor. -/
  constructors : List (List DeclaredParam)
  deriving Repr

/-- The content of a declaration file. -/
structure DeclarationDocument where
  source : String
  remarks : List String
  classes : List ClassEntry
  functions : List DeclaredFunction
  enums : List DeclaredEnum
  deriving Repr

namespace DeclarationDocument

open Toml

/-- The spelling of the result of a function that gives none. -/
def noResult : String := "void"

/-- A parameter. -/
def param : Decoder DeclaredParam := fun value => do
  let fields ← Fields.of? ["name", "type"] value
  return { name := ← fields.required "name" Decoder.text, type := ← fields.required "type" Decoder.text }

/-- A parameter list, none by default. -/
def params (fields : Fields) : Option (List DeclaredParam) :=
  fields.withDefault "params" (Decoder.list param) []

/-- A text that is empty by default. -/
def textOrEmpty (fields : Fields) (name : String) : Option String :=
  fields.withDefault name Decoder.text ""

/-- A function without owner and header. -/
def function : Decoder DeclaredFunction := fun value => do
  let fields ← Fields.of? ["name", "scope", "params", "returns", "static", "comment"] value
  return { name := ← fields.required "name" Decoder.text
           scope := ← textOrEmpty fields "scope"
           params := ← params fields
           returns := ← fields.withDefault "returns" Decoder.text noResult
           isStatic := ← fields.withDefault "static" Decoder.boolean false
           comment := ← textOrEmpty fields "comment"
           owner := none, isConstructor := false, source := "" }

/-- The parameters of a constructor. -/
def constructor : Decoder (List DeclaredParam) := fun value => do
  params (← Fields.of? ["params"] value)

/-- A class. -/
def classEntry : Decoder ClassEntry := fun value => do
  let fields ← Fields.of?
    ["name", "scope", "source", "line", "comment", "bases", "default_constructor", "method",
     "constructor"] value
  return { name := ← fields.required "name" Decoder.text
           scope := ← textOrEmpty fields "scope"
           source := ← fields.optional "source" Decoder.text
           line := ← fields.optional "line" (Decoder.natural 32)
           comment := ← textOrEmpty fields "comment"
           bases := ← fields.withDefault "bases" (Decoder.list Decoder.text) []
           hasDefaultConstructor := ← fields.withDefault "default_constructor" Decoder.boolean false
           methods := ← fields.withDefault "method" (Decoder.list function) []
           constructors := ← fields.withDefault "constructor" (Decoder.list constructor) [] }

/-- A key of an enum and its value. -/
def enumValue : Decoder (String × Nat) := fun value => do
  let fields ← Fields.of? ["key", "value"] value
  return (← fields.required "key" Decoder.text, ← fields.required "value" (Decoder.natural 64))

/-- An enum without header. -/
def enum : Decoder DeclaredEnum := fun value => do
  let fields ← Fields.of? ["name", "scope", "comment", "values"] value
  return { name := ← fields.required "name" Decoder.text
           scope := ← textOrEmpty fields "scope"
           comment := ← textOrEmpty fields "comment"
           values := ← fields.withDefault "values" (Decoder.list enumValue) []
           source := "" }

/-- A loose comment. -/
def remark : Decoder String := fun value => do
  (← Fields.of? ["comment"] value).required "comment" Decoder.text

/-- A whole file. -/
def decode : Decoder DeclarationDocument := fun value => do
  let fields ← Fields.of? ["source", "annotation", "class", "function", "enum"] value
  return { source := ← fields.required "source" Decoder.text
           remarks := ← fields.withDefault "annotation" (Decoder.list remark) []
           classes := ← fields.withDefault "class" (Decoder.list classEntry) []
           functions := ← fields.withDefault "function" (Decoder.list function) []
           enums := ← fields.withDefault "enum" (Decoder.list enum) [] }

/-- The content of a file, unless it is malformed or lacks something. -/
def parse? (text : String) : Option DeclarationDocument := do
  decode (.table (← Toml.parse? text))

/-- The declarations of a class: the class, its constructors and its methods. -/
def classDeclarations (source : String) (entry : ClassEntry) : List Declaration :=
  let scope := Scope.normalize entry.scope
  let source := entry.source.getD source
  let qualified := Scope.qualify scope entry.name
  let owner := some (scope, entry.name)
  let constructors := entry.constructors.map fun params : List DeclaredParam =>
    { name := entry.name, scope := qualified, params, returns := noResult, isStatic := true,
      comment := "", owner, isConstructor := true, source : DeclaredFunction }
  let methods := entry.methods.map fun method => { method with scope := qualified, owner, source }
  .record
      { name := entry.name, scope, source, line := entry.line, comment := entry.comment,
        bases := entry.bases, hasDefaultConstructor := entry.hasDefaultConstructor }
    :: (constructors ++ methods).map .function

/-- All declarations of a file, in order. -/
def declarations (d : DeclarationDocument) : List Declaration :=
  d.remarks.map .remark
    ++ d.classes.flatMap (classDeclarations d.source)
    ++ d.functions.map (fun f =>
      .function { f with scope := Scope.normalize f.scope, source := d.source })
    ++ d.enums.map (fun e => .enum { e with scope := Scope.normalize e.scope, source := d.source })

end DeclarationDocument

end LuaGlue
