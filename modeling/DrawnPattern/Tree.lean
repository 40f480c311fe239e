import DrawnPattern.Traits
set_option autoImplicit false

/-!
# Text trees

Graphs, results and catalogs are shown as labelled trees, one label to a line,
with branches drawn in front of every label but the first.
-/

namespace DrawnPattern

/-- A label with subtrees: how graphs, catalogs and matches are
shown as text. -/
inductive Tree where
  | branch (label : String) (children : List Tree)

namespace Tree

def leaf (label : String) : Tree := branch label []

/-- Subtrees one below the other, each line after the given margin.  The last
branch closes the margin. -/
def renderAll (margin : String) : List Tree → String
  | [] => ""
  | branch label children :: rest =>
    let last := rest.isEmpty
    margin ++ (if last then "└── " else "├── ") ++ label ++ "\n" ++
      renderAll (margin ++ if last then "    " else "│   ") children ++
      renderAll margin rest

/-- The tree as text; every line ends in a line feed. -/
def render : Tree → String
  | branch label children => label ++ "\n" ++ renderAll "" children

/-- Properties on one line. -/
def ofProperties (properties : Properties) : Tree :=
  let entries := properties.toList.map fun (name, value) =>
    name ++ ": " ++ value.display
  leaf ("Properties: \x7b" ++ ", ".intercalate entries ++ "\x7d")

/-- The label and the properties, as far as there are any, each as a subtree. -/
def ofTraits (traits : Traits) : List Tree :=
  (traits.label.toList.map fun label => leaf ("Label: " ++ label)) ++
    if traits.properties.isEmpty then [] else [ofProperties traits.properties]

/-- Numbers between square brackets. -/
def bracketed (items : List String) : String :=
  "[" ++ ", ".intercalate items ++ "]"

end Tree

end DrawnPattern
