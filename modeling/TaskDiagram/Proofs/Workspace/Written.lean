import TaskDiagram.Proofs.Json.Members
import TaskDiagram.Proofs.Workspace.Accounting
import TaskDiagram.Proofs.Workspace.Document

/-! # The nodes of a payload as they are written

A node is written as a record, with what is plugged into it in a map by sockets and what is behind
it in a field of its own. The nodes written in a payload, in the order of their sockets, are those
that are loaded: the blocks of the diagram have their kinds and fields, one by one.
-/

namespace TaskDiagram

namespace Json

/-- The kind of a node. -/
def nodeKind? (value : Json) : Option BlockKind :=
  (value.member? "kind" 0).bind fun v => (Decode.variantInChoice BlockKind.table v).toOption

/-- What is written in a field of a node. -/
def nodeField? (value : Json) (name : String) : Option Json :=
  (value.member? "fields" 1).bind (lastValue? name)

/-- The node in a socket of a node. -/
def nodeInput? (value : Json) (socket : SocketName) : Option Json :=
  (value.member? "inputs" 5).bind (lastValue? socket.name)

/-- The node behind a node. -/
def nodeNext? (value : Json) : Option Json := (value.member? "next" 4).filter (!·.isNull)

/-- A node and all that hang on it, socket by socket and to a depth. -/
def nodesWithin : (depth : Nat) → Json → List Json
  | 0, _ => []
  | depth + 1, value =>
      value :: (SocketName.all.filterMap value.nodeInput? ++ value.nodeNext?.toList).flatMap
        (nodesWithin depth)

/-- A node and all that hang on it. -/
def nodes (value : Json) : List Json := value.nodesWithin (value.height + 1)

/-- A node as it is written and as it is loaded. -/
structure Describes (value : Json) (q : Numbered) : Prop where
  kind : value.nodeKind? = some q.kind
  fields : ∀ name, Option.Rel (fun v field => FieldValue.decode v = .ok field)
    (value.nodeField? name) (q.fields.get? name)

end Json

/-- The nodes of a payload, those at the heads of chains with all that hang on them. -/
def Payload.writtenNodes (value : Json) : Payload → List Json
  | .workspace _ =>
      match value.member? "blocks" 0 with
      | some (.arr heads) => heads.flatMap Json.nodes
      | _ => []
  | .node _ => value.nodes

/-! ## Parts of a node -/

namespace Node

variable {kind : Decoder BlockKind} {depth : Nat} {value : Json} {node : Node}

/-- Only its name is read as a socket. -/
theorem eq_name_of_socketKey {key : String} {socket : SocketName} (h : socketKey key = .ok socket) :
    key = socket.name := by
  unfold socketKey Decode.name at h
  split at h
  next found hfound =>
    cases h
    obtain ⟨⟨name, _⟩, hfind, rfl⟩ := Option.map_eq_some_iff.mp hfound
    obtain ⟨socket, -, heq⟩ := List.mem_map.mp (List.mem_of_find?_eq_some hfind)
    cases heq
    have hname := List.find?_some hfind
    exact (beq_iff_eq.mp hname).symm
  next => cases h

/-- Every part of a node is read where it is written. -/
theorem reads_of_decodeWithin (h : decodeWithin kind (depth + 1) value = .ok node) :
    (Fields.need "kind" kind).Reads 0 node.kind value ∧
    (Fields.defaulted "fields" .empty FieldMap.decode).Reads 1 node.fields value ∧
    (Fields.optional "next" (decodeWithin kind depth)).Reads 4 node.next value ∧
    (Fields.defaulted "inputs" .empty fun v =>
      (Decode.map socketKey (decodeWithin kind depth) v).map socketsOf).Reads 5 node.inputs
      value := by
  have hkind := (Fields.consumes_need "kind" kind).map mk
  have hfields := hkind.seq (Fields.consumes_defaulted "fields" .empty FieldMap.decode)
  have hx := hfields.seq (Fields.consumes_optional "x" Decode.float)
  have hy := hx.seq (Fields.consumes_optional "y" Decode.float)
  have hnext := hy.seq (Fields.consumes_optional "next" (decodeWithin kind depth))
  obtain ⟨_, inputs, hbeforeInputs, hinputs, rfl⟩ := (Fields.reads_of_read h).of_seq hnext
  obtain ⟨_, next, hbeforeNext, hbehind, rfl⟩ := hbeforeInputs.of_seq hy
  obtain ⟨_, y, hbeforeY, -, rfl⟩ := hbeforeNext.of_seq hx
  obtain ⟨_, x, hbeforeX, -, rfl⟩ := hbeforeY.of_seq hfields
  obtain ⟨_, fields, hbeforeFields, hmap, rfl⟩ := hbeforeX.of_seq hkind
  obtain ⟨k, hfirst, rfl⟩ := hbeforeFields.of_map
  exact ⟨hfirst, hmap, hbehind, hinputs⟩

/-- Every socket holds the node that was written last for it. -/
theorem input_of_decodeWithin (h : decodeWithin kind (depth + 1) value = .ok node)
    (socket : SocketName) : Option.Rel (fun v child => decodeWithin kind depth v = .ok child)
      (value.nodeInput? socket) (node.inputs.get? socket) := by
  obtain ⟨-, -, -, hinputs⟩ := reads_of_decodeWithin h
  unfold Json.nodeInput?
  rcases hinputs.of_defaulted with ⟨hnone, hempty⟩ | ⟨v, hv, hread⟩
  · rw [hnone, hempty, Sockets.get?_empty]
    exact .none
  · obtain ⟨entries, hentries, hsockets⟩ := Except.of_map_eq_ok hread
    have hname : ∀ s found, socketKey s = .ok found → (s == socket.name) = (found == socket) := by
      intro s found hs
      rw [eq_name_of_socketKey hs]
      cases found <;> cases socket <;> rfl
    rw [hv, ← hsockets, get?_socketsOf]
    exact Decode.rel_of_map hentries hname

theorem next_of_decodeWithin (h : decodeWithin kind (depth + 1) value = .ok node) :
    Option.Rel (fun v child => decodeWithin kind depth v = .ok child) value.nodeNext?
      node.next := by
  obtain ⟨-, -, hnext, -⟩ := reads_of_decodeWithin h
  exact hnext.of_optional

/-- Each field of a node is read where it is written. -/
theorem fields_of_decodeWithin (h : decodeWithin kind (depth + 1) value = .ok node)
    (name : String) : Option.Rel (fun v field => FieldValue.decode v = .ok field)
      (value.nodeField? name) (node.fields.get? name) := by
  obtain ⟨-, hfields, -, -⟩ := reads_of_decodeWithin h
  unfold Json.nodeField?
  rcases hfields.of_defaulted with ⟨hnone, hempty⟩ | ⟨v, hv, hread⟩
  · rw [hnone, hempty]
    exact .none
  · obtain ⟨entries, hentries, hmap⟩ := Except.of_map_eq_ok hread
    have hname : ∀ s found, Except.ok (ε := DecodeError) s = .ok found →
        (s == name) = (found == name) := by
      intro s found hs
      rw [Except.ok.inj hs]
    rw [hv, ← hmap, TextMap.get?_ofList]
    exact Decode.rel_of_map hentries hname

theorem kind_of_decodeWithin
    (h : decodeWithin (Decode.variantInChoice BlockKind.table) (depth + 1) value = .ok node) :
    value.nodeKind? = some node.kind := by
  obtain ⟨v, hv, hkind⟩ := (reads_of_decodeWithin h).1.of_need
  rw [Json.nodeKind?, hv, Option.bind_some, hkind]
  rfl

end Node

/-! ## All nodes -/

/-- What is plugged into a node is listed socket by socket. -/
theorem socketTrees_eq_filterMap (inputs : Sockets Node) : socketTrees inputs =
    SocketName.all.filterMap fun socket =>
      (inputs.get? socket).map fun node => (socket, node.tree) := by
  obtain ⟨object, location, action, when, body, otherwise, next⟩ := inputs
  simp only [socketTrees, optionTree_eq_map, Tree.inSocket, SocketName.all,
    List.filterMap_eq_flatMap_toList, List.flatMap_cons, List.flatMap_nil, Sockets.get?,
    Option.map_map, List.append_assoc, List.append_nil]
  rfl

section Numbering

variable {grammar : Grammar} {R : Json → Numbered → Prop} {f : Json → List Json}

/-- Nodes that hang on one owner are numbered one after the other. -/
theorem forall₂_numberedInputs {values : List Json} {inputs : List (SocketName × Tree)}
    (h : List.Forall₂ (fun v entry => ∀ id hook,
      List.Forall₂ R (f v) (entry.2.numbered grammar id hook)) values inputs)
    (owner : BlockId) (kind : BlockKind) (filled : List SocketName) (id : BlockId) :
    List.Forall₂ R (values.flatMap f)
      (Tree.numberedInputs grammar owner kind filled id inputs) := by
  induction h generalizing filled id with
  | nil => exact .nil
  | cons hentry _ ih => exact List.rel_append (hentry _ _) (ih _ _)

theorem forall₂_numberedForest {values : List Json} {trees : List Tree}
    (h : List.Forall₂ (fun v tree => ∀ id hook,
      List.Forall₂ R (f v) (tree.numbered grammar id hook)) values trees) (id : BlockId) :
    List.Forall₂ R (values.flatMap f) (Tree.numberedForest grammar id trees) := by
  induction h generalizing id with
  | nil => exact .nil
  | cons htree _ ih => exact List.rel_append (htree _ _) (ih _)

end Numbering

/-- The nodes written in a node are those of its tree. -/
theorem Node.forall₂_numbered (grammar : Grammar) {depth : Nat} {value : Json} {node : Node}
    (h : decodeWithin (Decode.variantInChoice BlockKind.table) depth value = .ok node)
    (id : BlockId) (hook : Option Hook) :
    List.Forall₂ Json.Describes (value.nodesWithin depth) (node.tree.numbered grammar id hook) := by
  induction depth generalizing value node id hook with
  | zero => cases h
  | succ depth ih =>
      -- Inputs are numbered in the order of their sockets, and what comes next behind them.
      have hinputs : List.Forall₂ (fun v entry => ∀ id hook, List.Forall₂ Json.Describes
          (v.nodesWithin depth) (entry.2.numbered grammar id hook))
          (SocketName.all.filterMap value.nodeInput? ++ value.nodeNext?.toList)
          (socketTrees node.inputs ++ Tree.inSocket .next (optionTree node.next)) := by
        apply List.rel_append
        · rw [socketTrees_eq_filterMap]
          refine Graph.forall₂_filterMap_of_rel fun socket => ?_
          have hinput := input_of_decodeWithin h socket
          generalize value.nodeInput? socket = v at hinput ⊢
          generalize node.inputs.get? socket = child at hinput ⊢
          cases hinput with
          | none => exact .none
          | some hchild => exact .some fun id hook => ih hchild id hook
        · have hnext := next_of_decodeWithin h
          generalize value.nodeNext? = v at hnext ⊢
          generalize node.next = child at hnext ⊢
          cases hnext with
          | none => exact .nil
          | some hchild => exact .cons (fun id hook => ih hchild id hook) .nil
      have hself : value.Describes ⟨id, node.kind, node.fields, hook⟩ :=
        ⟨kind_of_decodeWithin h, fields_of_decodeWithin h⟩
      obtain ⟨kind, fields, x, y, next, inputs⟩ := node
      exact .cons hself (forall₂_numberedInputs hinputs _ _ _ _)

/-- The nodes written in a payload are, in their order, those that are loaded. -/
theorem Payload.forall₂_numbered (grammar : Grammar) {value : Json} {p : Payload}
    (h : decode value = .ok p) :
    List.Forall₂ Json.Describes (p.writtenNodes value) (p.toWorkspace.numbered grammar) := by
  unfold decode at h
  split at h
  next w hworkspace =>
    cases h
    obtain ⟨heads, hheads, rfl⟩ := (Fields.reads_of_readStrict hworkspace).of_map
    unfold writtenNodes
    rcases hheads.of_defaulted with ⟨hnone, rfl⟩ | ⟨v, hv, hread⟩
    · rw [hnone]
      exact .nil
    · rw [hv]
      unfold Decode.list at hread
      split at hread
      next values =>
        have htrees : List.Forall₂ (fun v tree => ∀ id hook, List.Forall₂ Json.Describes v.nodes
            (Tree.numbered grammar id hook tree)) values (heads.map Node.tree) := by
          rw [List.forall₂_map_right_iff]
          exact (Decode.forall₂_of_items hread).imp fun v node hnode =>
            Node.forall₂_numbered grammar hnode
        exact forall₂_numberedForest htrees 0
      next => cases hread
  next =>
    split at h
    next node hnode =>
      cases h
      change List.Forall₂ Json.Describes value.nodes (node.tree.numbered grammar 0 none ++ [])
      rw [List.append_nil]
      exact Node.forall₂_numbered grammar hnode 0 none
    next => cases h

end TaskDiagram
