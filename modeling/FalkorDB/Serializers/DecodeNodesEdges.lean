/-
FalkorDB/Serializers/DecodeNodesEdges.lean

The graph loaders of `decode_graph_entities.c`: `RdbLoadNodes_v14`,
`RdbLoadDeletedNodes_v14`, `RdbLoadEdges_v14` and `RdbLoadDeletedEdges_v14`.
For each, the law that it reads back the records of the format and makes on the
graph exactly the calls those records ask for, in order:

    rdbLoadNodes codes ops g nodes.length (nodes.flatMap (encNode codes) ++ r)
      = (nodes.foldlM (loadNode ops) g).map (·, r)

The calls into the graph (`Serializer_Graph_SetNode`, `Serializer_Graph_SetEdge`,
the two `MarkDeleted` functions, the schema lookups with their `ASSERT` and the
pending indices) are declared in headers that are not among the sources; they
are the record `GraphLoader` over a graph context `σ`, and every result holds
for every such record.  `Serializer_Graph_SetNode` and `Serializer_Graph_SetEdge`
fill the local `Node n` or `Edge e` whose attributes `_RdbLoadEntity` then adds:
the entity they set is part of the context, and `addNoClone` writes to it.

`LabelID`, an `int`, is taken 32 bits wide.  The counter of a node's index loop
is an `int` again: a node with 2^31 labels or more is undefined behaviour,
`none` in the model.  The edge format comment lists the four ids of the edges
and then "edge properties X N", but the loop reads each edge's properties right
after its ids; that per-edge layout is the one `encEdge` writes.
-/
import FalkorDB.Serializers.DecodeGraphEntities

namespace FalkorDB

/-- The calls of the v14 graph loaders into a graph context `σ`.  A call that can fail
an `ASSERT` or index an array out of range answers `none`. -/
structure GraphLoader (σ : Type) where
  /-- `Serializer_Graph_SetNode(gc->g, id, labels, nodeLabelCount, &n)`. -/
  setNode : σ → UInt64 → List UInt32 → σ
  /-- `AttributeSet_AddNoClone` on the attributes of the entity set last. -/
  addNoClone : σ → List UInt16 → List SIValue → Nat → Bool → σ
  /-- `GraphContext_GetSchemaByID(gc, label, SCHEMA_NODE)`, its `ASSERT`, and
  `Index_IndexNode` on the schema's pending index when it has one. -/
  indexNode : σ → UInt32 → Option σ
  /-- `gc->decoding_context->multi_edge[relation]`. -/
  multiEdge : σ → UInt64 → Option Bool
  /-- `Serializer_Graph_SetEdge(gc->g, multi_edge, edgeId, srcId, destId, relation, &e)`. -/
  setEdge : σ → Bool → UInt64 → UInt64 → UInt64 → UInt64 → σ
  /-- `GraphContext_GetSchemaByID(gc, relation, SCHEMA_EDGE)`, its `ASSERT`, and
  `Index_IndexEdge` on the schema's pending index when it has one. -/
  indexEdge : σ → UInt64 → Option σ
  /-- `Serializer_Graph_MarkNodeDeleted(gc->g, id)`. -/
  markNodeDeleted : σ → UInt64 → σ
  /-- `Serializer_Graph_MarkEdgeDeleted(gc->g, id)`. -/
  markEdgeDeleted : σ → UInt64 → σ

section Loaders

variable (codes : SITypeCodes) {σ : Type} (ops : GraphLoader σ)

/-- `labels[i] = RedisModule_LoadUnsigned(rdb)`: a `LabelID`. -/
def rdbLoadLabel (items : List RdbItem) : Option (UInt32 × List RdbItem) := do
  let (label, items) ← rdbLoadUnsigned items
  return (label.toUInt32, items)

/-- One turn of `RdbLoadNodes_v14`: the node's id and labels, `Serializer_Graph_SetNode`,
the node's attributes, then the index of each label. -/
def rdbLoadNode (g : σ) (items : List RdbItem) : Option (σ × List RdbItem) := do
  let (id, items) ← rdbLoadUnsigned items
  let (nodeLabelCount, items) ← rdbLoadUnsigned items
  let (labels, items) ← rdbLoadMany rdbLoadLabel nodeLabelCount.toNat items
  let (g, items) ← rdbLoadEntity codes ops.addNoClone (ops.setNode g id labels) items
  if nodeLabelCount.toNat < 2 ^ 31 then
    let g ← labels.foldlM ops.indexNode g
    return (g, items)
  else none

/-- `RdbLoadNodes_v14(rdb, gc, node_count)`. -/
def rdbLoadNodes (g : σ) (nodeCount : Nat) (items : List RdbItem) : Option (σ × List RdbItem) :=
  rdbLoadIter (rdbLoadNode codes ops) nodeCount g items

/-- One turn of `RdbLoadEdges_v14`: the edge's four ids, `Serializer_Graph_SetEdge`, the
edge's attributes, then the index of its relation. -/
def rdbLoadEdge (g : σ) (items : List RdbItem) : Option (σ × List RdbItem) := do
  let (edgeId, items) ← rdbLoadUnsigned items
  let (srcId, items) ← rdbLoadUnsigned items
  let (destId, items) ← rdbLoadUnsigned items
  let (relation, items) ← rdbLoadUnsigned items
  let multiEdge ← ops.multiEdge g relation
  let (g, items) ← rdbLoadEntity codes ops.addNoClone
    (ops.setEdge g multiEdge edgeId srcId destId relation) items
  let g ← ops.indexEdge g relation
  return (g, items)

/-- `RdbLoadEdges_v14(rdb, gc, edge_count)`. -/
def rdbLoadEdges (g : σ) (edgeCount : Nat) (items : List RdbItem) : Option (σ × List RdbItem) :=
  rdbLoadIter (rdbLoadEdge codes ops) edgeCount g items

/-- One turn of the two deleted-entity loaders: an id, then its `MarkDeleted` call. -/
def rdbLoadDeleted (markDeleted : σ → UInt64 → σ) (g : σ) (items : List RdbItem) :
    Option (σ × List RdbItem) := do
  let (id, items) ← rdbLoadUnsigned items
  return (markDeleted g id, items)

/-- `RdbLoadDeletedNodes_v14(rdb, gc, deleted_node_count)`. -/
def rdbLoadDeletedNodes (g : σ) (deletedNodeCount : Nat) (items : List RdbItem) :
    Option (σ × List RdbItem) :=
  rdbLoadIter (rdbLoadDeleted ops.markNodeDeleted) deletedNodeCount g items

/-- `RdbLoadDeletedEdges_v14(rdb, gc, deleted_edge_count)`. -/
def rdbLoadDeletedEdges (g : σ) (deletedEdgeCount : Nat) (items : List RdbItem) :
    Option (σ × List RdbItem) :=
  rdbLoadIter (rdbLoadDeleted ops.markEdgeDeleted) deletedEdgeCount g items

end Loaders

/-! ### The format of nodes and edges, and the calls it asks for -/

/-- A node as the format stores it. -/
structure NodeRecord where
  id : UInt64
  labels : List UInt32
  attributes : List (UInt16 × SIValue)

/-- An edge as the format stores it. -/
structure EdgeRecord where
  id : UInt64
  src : UInt64
  dest : UInt64
  relation : UInt64
  attributes : List (UInt16 × SIValue)

/-- Attributes that `_RdbLoadEntity` reads back: fewer than 2^31, values of C. -/
def AttributesWellFormed (attrs : List (UInt16 × SIValue)) : Prop :=
  attrs.length < 2 ^ 31 ∧ ∀ attr ∈ attrs, attr.2.WellFormed

/-- A node whose labels fit the `int` counter of its index loop. -/
def NodeRecord.WellFormed (node : NodeRecord) : Prop :=
  node.labels.length < 2 ^ 31 ∧ AttributesWellFormed node.attributes

section Format

variable (codes : SITypeCodes) {σ : Type} (ops : GraphLoader σ)

/-- Node Format: ID, #labels M, (labels) X M, #properties N, (name, value type, value) X N. -/
def encNode (node : NodeRecord) : List RdbItem :=
  .unsigned node.id :: .unsigned node.labels.length.toUInt64 ::
    (node.labels.map fun label => .unsigned label.toUInt64) ++ encEntity codes node.attributes

/-- Edge format: edge ID, source node ID, destination node ID, relation type, then the
edge's properties. -/
def encEdge (edge : EdgeRecord) : List RdbItem :=
  [.unsigned edge.id, .unsigned edge.src, .unsigned edge.dest, .unsigned edge.relation] ++
    encEntity codes edge.attributes

/-- The call `_RdbLoadEntity` makes for these attributes. -/
def addAttributes (g : σ) (attrs : List (UInt16 × SIValue)) : σ :=
  ops.addNoClone g (attrs.map Prod.fst) (attrs.map Prod.snd) attrs.length false

/-- The calls that loading a node makes. -/
def loadNode (g : σ) (node : NodeRecord) : Option σ :=
  node.labels.foldlM ops.indexNode
    (addAttributes ops (ops.setNode g node.id node.labels) node.attributes)

/-- The calls that loading an edge makes. -/
def loadEdge (g : σ) (edge : EdgeRecord) : Option σ := do
  let multiEdge ← ops.multiEdge g edge.relation
  ops.indexEdge (addAttributes ops
    (ops.setEdge g multiEdge edge.id edge.src edge.dest edge.relation) edge.attributes)
    edge.relation

end Format

/-! ### The loaders make the calls of the records they read -/

section RoundTrip

variable {codes : SITypeCodes} {σ : Type} {ops : GraphLoader σ}

theorem rdbLoadMany_label (labels : List UInt32) (r : List RdbItem) :
    rdbLoadMany rdbLoadLabel labels.length
      ((labels.map fun label => RdbItem.unsigned label.toUInt64) ++ r) = some (labels, r) := by
  rw [List.map_eq_flatMap]
  exact rdbLoadMany_flatMap (fun _ _ _ => by simp [rdbLoadLabel]) r

theorem rdbLoadEntity_addAttributes {attrs : List (UInt16 × SIValue)}
    (h : AttributesWellFormed attrs) (g : σ) (r : List RdbItem) :
    rdbLoadEntity codes ops.addNoClone g (encEntity codes attrs ++ r) =
      some (addAttributes ops g attrs, r) :=
  rdbLoadEntity_encEntity ops.addNoClone g h.1 h.2 r

theorem rdbLoadNode_encNode {node : NodeRecord} (h : node.WellFormed) (g : σ) (r : List RdbItem) :
    rdbLoadNode codes ops g (encNode codes node ++ r) = (loadNode ops g node).map (·, r) := by
  have hcount : node.labels.length.toUInt64.toNat = node.labels.length :=
    UInt64.toNat_ofNat_of_lt (by have := h.1; unfold UInt64.size; omega)
  simp only [rdbLoadNode, encNode, List.cons_append, List.append_assoc, rdbLoadUnsigned_unsigned,
    Option.pure_def, Option.bind_eq_bind, Option.some_bind, hcount, rdbLoadMany_label,
    rdbLoadEntity_addAttributes h.2, h.1, if_true, loadNode]
  cases List.foldlM ops.indexNode _ node.labels <;> rfl

theorem rdbLoadNodes_encNode {nodes : List NodeRecord} (h : ∀ node ∈ nodes, node.WellFormed)
    (g : σ) (r : List RdbItem) :
    rdbLoadNodes codes ops g nodes.length (nodes.flatMap (encNode codes) ++ r) =
      (nodes.foldlM (loadNode ops) g).map (·, r) :=
  rdbLoadIter_flatMap (fun node hn g r => rdbLoadNode_encNode (h node hn) g r) g r

/-- Two nodes, one with a label and an attribute, into a graph that records the
ids it is given. -/
theorem rdbLoadNodes_encNode_two :
    let codes : SITypeCodes :=
      ⟨8192, 16384, 2048, 4096, 8, 131072, 262144, 32768, 786432, by decide, by decide⟩
    let ops : GraphLoader (List UInt64) := ⟨fun g id _ => g ++ [id], fun g _ _ _ _ => g,
      fun g _ => some g, fun _ _ => some false, fun g _ id _ _ _ => g ++ [id], fun g _ => some g,
      fun g _ => g, fun g _ => g⟩
    let nodes : List NodeRecord := [⟨1, [0], [(2, .int64 5)]⟩, ⟨7, [], []⟩]
    (∀ node ∈ nodes, node.WellFormed) ∧
    rdbLoadNodes codes ops [] nodes.length (nodes.flatMap (encNode codes) ++ []) =
      (nodes.foldlM (loadNode ops) []).map (·, []) :=
  ⟨by unfold NodeRecord.WellFormed AttributesWellFormed; decide, rdbLoadNodes_encNode
    (by unfold NodeRecord.WellFormed AttributesWellFormed; decide) _ _⟩

theorem rdbLoadEdge_encEdge {edge : EdgeRecord} (h : AttributesWellFormed edge.attributes)
    (g : σ) (r : List RdbItem) :
    rdbLoadEdge codes ops g (encEdge codes edge ++ r) = (loadEdge ops g edge).map (·, r) := by
  simp only [rdbLoadEdge, encEdge, List.cons_append, List.nil_append, List.append_assoc,
    rdbLoadUnsigned_unsigned, Option.pure_def, Option.bind_eq_bind, Option.some_bind, loadEdge]
  cases ops.multiEdge g edge.relation with
  | none => rfl
  | some multiEdge =>
    simp only [Option.some_bind, rdbLoadEntity_addAttributes h]
    cases ops.indexEdge _ edge.relation <;> rfl

theorem rdbLoadEdges_encEdge {edges : List EdgeRecord}
    (h : ∀ edge ∈ edges, AttributesWellFormed edge.attributes) (g : σ) (r : List RdbItem) :
    rdbLoadEdges codes ops g edges.length (edges.flatMap (encEdge codes) ++ r) =
      (edges.foldlM (loadEdge ops) g).map (·, r) :=
  rdbLoadIter_flatMap (fun edge he g r => rdbLoadEdge_encEdge (h edge he) g r) g r

/-- Two edges, one with an attribute, into a graph that records the ids it is
given. -/
theorem rdbLoadEdges_encEdge_two :
    let codes : SITypeCodes :=
      ⟨8192, 16384, 2048, 4096, 8, 131072, 262144, 32768, 786432, by decide, by decide⟩
    let ops : GraphLoader (List UInt64) := ⟨fun g id _ => g ++ [id], fun g _ _ _ _ => g,
      fun g _ => some g, fun _ _ => some false, fun g _ id _ _ _ => g ++ [id], fun g _ => some g,
      fun g _ => g, fun g _ => g⟩
    let edges : List EdgeRecord := [⟨3, 1, 7, 0, [(2, .bool true)]⟩, ⟨4, 7, 1, 0, []⟩]
    (∀ edge ∈ edges, AttributesWellFormed edge.attributes) ∧
    rdbLoadEdges codes ops [] edges.length (edges.flatMap (encEdge codes) ++ []) =
      (edges.foldlM (loadEdge ops) []).map (·, []) :=
  ⟨by unfold AttributesWellFormed; decide, rdbLoadEdges_encEdge
    (by unfold AttributesWellFormed; decide) _ _⟩

/-- Deleted nodes and edges: a list of ids, each marked in order. -/
theorem rdbLoadDeleted_ids (markDeleted : σ → UInt64 → σ) (ids : List UInt64) (g : σ)
    (r : List RdbItem) :
    rdbLoadIter (rdbLoadDeleted markDeleted) ids.length g (ids.map .unsigned ++ r) =
      some (ids.foldl markDeleted g, r) := by
  induction ids generalizing g with
  | nil => rfl
  | cons id ids ih => exact ih (markDeleted g id)

end RoundTrip

end FalkorDB
