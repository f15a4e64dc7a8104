import TaskDiagram.Graph.Digraph

/-!
# Drawings of a diagram

A digraph as text for drawing programs: a numbered line for each node, labelled with its kind and
fields, then a line for each edge.
-/

namespace TaskDiagram

/-- The label of a block in a drawing. -/
def NodeLabel.text (label : NodeLabel) : String :=
  label.kind.name ++
    String.join (label.fields.entries.map fun (name, value) => " " ++ name ++ "=" ++ value.display)

/-- One character of a label as the drawing text writes it. -/
def dotChar (c : Char) : List Char :=
  if c == '"' then ['\\', '"']
  else if c == '\\' then ['\\', '\\']
  else if c == '\n' then ['\\', 'l']
  else [c]

def dotLabel (s : String) : String :=
  "[ label = \"" ++ String.ofList (s.toList.flatMap dotChar) ++ "\" ]"

/-- The drawing text of a digraph. -/
def Digraph.dot (d : Digraph) : String :=
  let nodes := (List.finRange d.size).map fun i =>
    "    " ++ toString i ++ " " ++ dotLabel (d.node i).text ++ "\n"
  let edges := d.edges.map fun e =>
    "    " ++ toString e.source ++ " -> " ++ toString e.target ++ " " ++ dotLabel e.socket.name ++
      "\n"
  "digraph \x7b\n" ++ String.join nodes ++ String.join edges ++ "\x7d\n"

/-- The drawing text of a diagram. -/
def Graph.dot (g : Graph) : String := g.digraph.dot

end TaskDiagram
