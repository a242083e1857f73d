import OneDef.Tree

/-!
# Printing trees as source

The normal layout of a definition is three lines, with the body indented by two blanks.  Lists are
separated by a comma and a blank.
-/

namespace OneDef.Tree

/-- Parts between parentheses. -/
def parenthesized (separator : String) (parts : List String) : String :=
  "(" ++ separator.intercalate parts ++ ")"

mutual

def toSource : Tree → String
  | .define name params body _ =>
    "def " ++ name.text ++ parenthesized ", " (params.map Ident.text) ++ "\n  " ++ body.toSource ++
      "\nend"
  | .call name args _ => name.text ++ parenthesized ", " (toSources args)
  | .var name => name.text
  | .int value _ => value

def toSources : List Tree → List String
  | [] => []
  | tree :: trees => tree.toSource :: toSources trees

end

theorem toSources_eq_map (trees : List Tree) : toSources trees = trees.map toSource := by
  induction trees with
  | nil => rfl
  | cons tree trees ih => rw [toSources, ih, List.map_cons]

end OneDef.Tree
