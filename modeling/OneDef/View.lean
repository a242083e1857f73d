import OneDef.Json
import OneDef.LineMap
import OneDef.Token
import OneDef.Tree

/-!
# Listings of tokens and trees

A view is a token or a tree with each span shown together with the line and column where it starts,
and names shown by their text alone.
-/

namespace OneDef

structure SpanView where
  start : Nat
  stop : Nat
  line : Nat
  column : Nat
  deriving DecidableEq

structure TokenView where
  kind : Kind
  text : String
  span : SpanView
  deriving DecidableEq

inductive TreeView where
  | define (name : String) (params : List String) (body : TreeView) (span : SpanView)
  | call (name : String) (args : List TreeView) (span : SpanView)
  | var (name : String) (span : SpanView)
  | int (value : String) (span : SpanView)

namespace LineMap

def viewSpan (map : LineMap) (span : Span) : SpanView :=
  let position := map.position span.start
  ⟨span.start, span.stop, position.line, position.column⟩

def viewToken (map : LineMap) (token : Token) : TokenView :=
  ⟨token.kind, token.text, map.viewSpan token.span⟩

mutual

def viewTree (map : LineMap) : Tree → TreeView
  | .define name params body span =>
    .define name.text (params.map Ident.text) (map.viewTree body) (map.viewSpan span)
  | .call name args span => .call name.text (map.viewTrees args) (map.viewSpan span)
  | .var name => .var name.text (map.viewSpan name.span)
  | .int value span => .int value (map.viewSpan span)

def viewTrees (map : LineMap) : List Tree → List TreeView
  | [] => []
  | tree :: trees => map.viewTree tree :: map.viewTrees trees

end

end LineMap

def SpanView.toJson (view : SpanView) : Json :=
  .object [("start", .number view.start), ("end", .number view.stop),
    ("line", .number view.line), ("col", .number view.column)]

def TokenView.toJson (view : TokenView) : Json :=
  .object [("kind", .string view.kind.name), ("text", .string view.text),
    ("span", view.span.toJson)]

namespace TreeView

mutual

def toJson : TreeView → Json
  | .define name params body span =>
    .object [("node", .string Shape.define.name), ("name", .string name),
      ("params", .array (params.map Json.string)), ("body", body.toJson), ("span", span.toJson)]
  | .call name args span =>
    .object [("node", .string Shape.call.name), ("name", .string name),
      ("args", .array (toJsons args)), ("span", span.toJson)]
  | .var name span =>
    .object [("node", .string Shape.var.name), ("name", .string name), ("span", span.toJson)]
  | .int value span =>
    .object [("node", .string Shape.int.name), ("value", .string value), ("span", span.toJson)]

def toJsons : List TreeView → List Json
  | [] => []
  | view :: views => view.toJson :: toJsons views

end

end TreeView

end OneDef
