import OneDef.Error
import OneDef.Tree.Printer

/-!
# Trees as JavaScript

A definition at the root becomes one function on one line; any other tree becomes an expression.
Definitions do not nest, so one below the root is an error, and the first one met from left to right
is reported.
-/

namespace OneDef.Tree

mutual

def toExpression : Tree → Except GenerateError String
  | .define _ _ _ span => .error (.unexpectedNode .define span)
  | .call name args _ => do return name.text ++ parenthesized "," (← toExpressions args)
  | .var name => .ok name.text
  | .int value _ => .ok value

def toExpressions : List Tree → Except GenerateError (List String)
  | [] => .ok []
  | tree :: trees => do
    let first ← tree.toExpression
    let others ← toExpressions trees
    return first :: others

end

def toJavaScript : Tree → Except GenerateError String
  | .define name params body _ => do
    let value ← body.toExpression
    return "function " ++ name.text ++ parenthesized "," (params.map Ident.text) ++
      " \x7b return " ++ value ++ " \x7d;"
  | tree => tree.toExpression

end OneDef.Tree
