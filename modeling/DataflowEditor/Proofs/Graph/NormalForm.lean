import DataflowEditor.Proofs.Graph.Rereading
import DataflowEditor.Proofs.Graph.Scopes

/-! # The normal form of a document

A document that is read and written again comes back in its normal form. The normal form is told
here as a rewrite of the nested document itself, which knows nothing of arenas: it numbers graphs,
states and nodes, writes the ends of edges as text, makes the tables of scopes anew, puts lists
where there are none, and leaves all else as it is. A document in normal form already is not
changed, up to the order of members.
-/

namespace DataflowEditor

/-- The members of an object. Any other document has none. -/
def Json.fields (document : Json) : Fields :=
  document.asObject?.getD []

namespace Fields

/-- The items under a key. Whatever is no array has none. -/
def items (fields : Fields) (key : String) : List Json :=
  ((fields.value? key).bind Json.asArray?).getD []

/-- Set a member that exists. -/
def renew (fields : Fields) (key : String) (value : Json) : Fields :=
  if fields.has key then fields.put key value else fields

end Fields

namespace NormalForm

/-! ## The rewrite -/

/-- The end of an edge as the text of its index. -/
def endAsText (key : String) (fields : Fields) : Fields :=
  match (fields.value? key).bind Json.asIndex? with
  | some index => fields.put key (.str (Text.decimal index))
  | none => fields

def edge : Json → Json
  | .obj fields => .obj (endAsText "dst" (endAsText "src" fields))
  | other => other

/-- The document embedded in a node whose type says that it owns a graph. -/
def embedded? (fields : Fields) : Option Json :=
  if fields.text "type" = "NestedSDFG" then
    ((fields.value? "attributes").bind Json.asObject?).bind (Fields.value? · "sdfg")
  else none

/-- The place of the entry node of the scope that a node lies in, -1 at the top. -/
def scope (fields : Fields) : Int :=
  match (fields.value? "scope_entry").bind Json.asIndex? with
  | some entry => signedWord entry
  | none => -1

/-- The entries of the table of scopes of a list of nodes. -/
def scopeEntries (nodes : List Json) : Fields :=
  State.entriesOf (nodes.map fun node => scope node.fields)

/-- Every member that numbers a graph, and one at least. -/
def listed (id : Nat) (fields : Fields) : Fields :=
  if fields.has "sdfg_list_id" || fields.has "cfg_list_id" then
    (fields.renew "sdfg_list_id" (.nat id)).renew "cfg_list_id" (.nat id)
  else fields.put "sdfg_list_id" (.nat id)

/-- Rewrite the items of a list, each by its place. The number of the next graph goes from one item
to the next. -/
def inTurn (rewrite : Nat → Nat → Json → Json × Nat) : (next place : Nat) → List Json →
    List Json × Nat
  | next, _, [] => ([], next)
  | next, place, document :: rest =>
    let first := rewrite next place document
    let others := inTurn rewrite first.2 (place + 1) rest
    (first.1 :: others.1, others.2)

/-- Rewrite a node; `graph` rewrites the document embedded in it. -/
def node (graph : Nat → Json → Json × Nat) (next place : Nat) : Json → Json × Nat
  | .obj fields =>
    match embedded? fields with
    | some inner =>
      let rewritten := graph next inner
      (.obj ((Fields.put fields "id" (.nat place)).modifyAttributes fun attributes =>
        Fields.put attributes "sdfg" rewritten.1), rewritten.2)
    | none => (.obj (Fields.put fields "id" (.nat place)), next)
  | other => (other, next)

def state (graph : Nat → Json → Json × Nat) (next place : Nat) : Json → Json × Nat
  | .obj fields =>
    let nodes := inTurn (node graph) next 0 (Fields.items fields "nodes")
    let numbered := Fields.renew (Fields.put fields "id" (.nat place)) "scope_dict"
      (.obj (scopeEntries (Fields.items fields "nodes")))
    (.obj ((numbered.put "nodes" (.arr nodes.1)).put "edges"
      (.arr ((Fields.items fields "edges").map edge))), nodes.2)
  | other => (other, next)

/-- Rewrite a graph as the one of a number. The number after that goes to the first graph embedded
in it. -/
def graph (embedded : Nat → Json → Json × Nat) (id : Nat) : Json → Json × Nat
  | .obj fields =>
    let states := inTurn (state embedded) (id + 1) 0 (Fields.items fields "nodes")
    (.obj (((listed id fields).put "nodes" (.arr states.1)).put "edges"
      (.arr ((Fields.items fields "edges").map edge))), states.2)
  | other => (other, id)

/-- Rewrite the graphs of a document to a given depth. -/
def graphWithin : Nat → Nat → Json → Json × Nat
  | 0, id, document => (document, id)
  | depth + 1, id, document => graph (graphWithin depth) id document

end NormalForm

/-- The normal form of a graph document. -/
def Json.normalForm (document : Json) : Json :=
  (NormalForm.graphWithin document.depth 0 document).1

/-! ## Documents in normal form -/

namespace NormalForm

/-- The graphs embedded in the nodes of a graph. -/
def embeddedIn (fields : Fields) : List Json :=
  (fields.items "nodes").flatMap fun state =>
    (state.fields.items "nodes").flatMap fun node => (embedded? node.fields).toList

/-- A graph and those embedded in it to a given depth, each in front of its own. -/
def graphsWithin : Nat → Json → List Fields
  | depth + 1, .obj fields => fields :: (embeddedIn fields).flatMap (graphsWithin depth)
  | _, _ => []

/-- An end of an edge is given once, as the text of its index. -/
def EndNormal (key : String) (fields : Fields) : Prop :=
  ∃ index ∈ (fields.value? key).bind Json.asIndex?, fields.values key = [.str (Text.decimal index)]

structure EdgeNormal (document : Json) : Prop where
  object : document = .obj document.fields
  source : EndNormal "src" document.fields
  target : EndNormal "dst" document.fields

/-- A node gives its place, and holds an embedded document once. -/
structure NodeNormal (place : Nat) (document : Json) : Prop where
  object : document = .obj document.fields
  id : document.fields.values "id" = [.nat place]
  embedded : ∀ inner ∈ embedded? document.fields,
    ∃ attributes ∈ (document.fields.value? "attributes").bind Json.asObject?,
      document.fields.values "attributes" = [.obj attributes] ∧
        Fields.values attributes "sdfg" = [inner]

/-- Both lists of a container are there, once, and its edges are in normal form. -/
structure ListsNormal (fields : Fields) : Prop where
  nodes : fields.values "nodes" = [.arr (fields.items "nodes")]
  edges : fields.values "edges" = [.arr (fields.items "edges")]
  ends : ∀ edge ∈ fields.items "edges", EdgeNormal edge

structure StateNormal (place : Nat) (document : Json) : Prop where
  object : document = .obj document.fields
  id : document.fields.values "id" = [.nat place]
  scopes : ∀ table ∈ document.fields.value? "scope_dict",
    document.fields.values "scope_dict" = [table] ∧ table = .obj table.fields ∧
      (scopeEntries (document.fields.items "nodes")).Perm table.fields
  lists : ListsNormal document.fields
  nodes : ∀ entry ∈ (document.fields.items "nodes").zipIdx, NodeNormal entry.2 entry.1

/-- The members of one graph are in normal form. The graphs embedded in it are not looked into. -/
structure GraphNormal (id : Nat) (fields : Fields) : Prop where
  numbered : fields.has "sdfg_list_id" = true ∨ fields.has "cfg_list_id" = true
  every : ∀ key ∈ ["sdfg_list_id", "cfg_list_id"], fields.has key = true →
    fields.values key = [.nat id]
  lists : ListsNormal fields
  states : ∀ entry ∈ (fields.items "nodes").zipIdx, StateNormal entry.2 entry.1

instance (key : String) (fields : Fields) : Decidable (EndNormal key fields) :=
  inferInstanceAs (Decidable (∃ index ∈ (fields.value? key).bind Json.asIndex?,
    fields.values key = [.str (Text.decimal index)]))

instance : DecidablePred EdgeNormal := fun document =>
  decidable_of_iff (document = .obj document.fields ∧ EndNormal "src" document.fields ∧
      EndNormal "dst" document.fields)
    ⟨fun ⟨object, source, target⟩ => ⟨object, source, target⟩,
      fun ⟨object, source, target⟩ => ⟨object, source, target⟩⟩

instance : DecidableRel NodeNormal := fun place document =>
  decidable_of_iff (document = .obj document.fields ∧ document.fields.values "id" = [.nat place] ∧
      ∀ inner ∈ embedded? document.fields,
        ∃ attributes ∈ (document.fields.value? "attributes").bind Json.asObject?,
          document.fields.values "attributes" = [.obj attributes] ∧
            Fields.values attributes "sdfg" = [inner])
    ⟨fun ⟨object, id, embedded⟩ => ⟨object, id, embedded⟩,
      fun ⟨object, id, embedded⟩ => ⟨object, id, embedded⟩⟩

instance : DecidablePred ListsNormal := fun fields =>
  decidable_of_iff (fields.values "nodes" = [.arr (fields.items "nodes")] ∧
      fields.values "edges" = [.arr (fields.items "edges")] ∧
        ∀ edge ∈ fields.items "edges", EdgeNormal edge)
    ⟨fun ⟨nodes, edges, ends⟩ => ⟨nodes, edges, ends⟩,
      fun ⟨nodes, edges, ends⟩ => ⟨nodes, edges, ends⟩⟩

instance : DecidableRel StateNormal := fun place document =>
  decidable_of_iff (document = .obj document.fields ∧ document.fields.values "id" = [.nat place] ∧
      (∀ table ∈ document.fields.value? "scope_dict",
        document.fields.values "scope_dict" = [table] ∧ table = .obj table.fields ∧
          (scopeEntries (document.fields.items "nodes")).Perm table.fields) ∧
      ListsNormal document.fields ∧
      ∀ entry ∈ (document.fields.items "nodes").zipIdx, NodeNormal entry.2 entry.1)
    ⟨fun ⟨object, id, scopes, lists, nodes⟩ => ⟨object, id, scopes, lists, nodes⟩,
      fun ⟨object, id, scopes, lists, nodes⟩ => ⟨object, id, scopes, lists, nodes⟩⟩

instance : DecidableRel GraphNormal := fun id fields =>
  decidable_of_iff ((fields.has "sdfg_list_id" = true ∨ fields.has "cfg_list_id" = true) ∧
      (∀ key ∈ ["sdfg_list_id", "cfg_list_id"], fields.has key = true →
        fields.values key = [.nat id]) ∧ ListsNormal fields ∧
      ∀ entry ∈ (fields.items "nodes").zipIdx, StateNormal entry.2 entry.1)
    ⟨fun ⟨numbered, every, lists, states⟩ => ⟨numbered, every, lists, states⟩,
      fun ⟨numbered, every, lists, states⟩ => ⟨numbered, every, lists, states⟩⟩

end NormalForm

/-- The graphs of a document in depth-first order. -/
def Json.graphs (document : Json) : List Fields :=
  NormalForm.graphsWithin document.depth document

/-- Every graph is in normal form under its place in depth-first order. -/
def Json.InNormalForm (document : Json) : Prop :=
  ∀ entry ∈ document.graphs.zipIdx, NormalForm.GraphNormal entry.2 entry.1

instance : DecidablePred Json.InNormalForm := fun document =>
  inferInstanceAs (Decidable (∀ entry ∈ document.graphs.zipIdx,
    NormalForm.GraphNormal entry.2 entry.1))

/-! ## What is written is the normal form -/

namespace NormalForm

theorem items_of_ok {part : Part} {key : String} {fields : Fields} {documents : List Json}
    (h : part.items key fields = .ok documents) : fields.items key = documents := by
  rw [Part.items] at h
  rw [Fields.items]
  split at h <;> cases h <;> simp_all [Json.asArray?]

/-! ### Edges -/

/-- A decoded edge is written back as the normal form of the document it was read from. -/
theorem encode_same {place bound : Nat} {container : Container} {document : Json} {read : Edge}
    (h : Edge.decode place bound container document = .ok read) :
    Json.Same read.encode (edge document) := by
  obtain ⟨fields, hfields, h⟩ := bind_eq_ok.mp h
  obtain ⟨source, hsource, h⟩ := bind_eq_ok.mp h
  obtain ⟨target, htarget, h⟩ := bind_eq_ok.mp h
  cases h
  rw [Part.fields_eq_ok.mp hfields, edge, endAsText, endAsText, Edge.endpoint_index hsource,
    Fields.value?_put_of_ne _ _ _ _ (by decide), Edge.endpoint_index htarget]
  exact .obj (Fields.same_renewed .rfl .rfl)

theorem encodeAll_same {place bound : Nat} {container : Container} {documents : List Json}
    {edges : List Edge} (h : Edge.decodeAll bound container place documents = .ok edges) :
    Json.Same (Edge.encodeAll edges) (.arr (documents.map edge)) := by
  refine .arr ?_
  induction documents generalizing place edges with
  | nil =>
      cases h
      rfl
  | cons document rest ih =>
      obtain ⟨first, hfirst, h⟩ := bind_eq_ok.mp h
      obtain ⟨others, hothers, h⟩ := bind_eq_ok.mp h
      cases h
      exact List.cons_eq_cons.mpr ⟨encode_same hfirst, ih hothers⟩

/-! ### Nodes -/

/-- The decoder and the rewrite find the same embedded graph in a node. -/
theorem embedded?_of_some {fields inner : Fields} (h : Node.embedded fields = .ok (some inner)) :
    embedded? fields = some (.obj inner) := by
  rw [embedded?, if_pos ((Node.embedded_isSome h).mp rfl), Node.embedded_eq_some h]

theorem embedded?_of_none {fields : Fields} (h : Node.embedded fields = .ok none) :
    embedded? fields = none :=
  if_neg fun hkind => Bool.false_ne_true ((Node.embedded_isSome h).mpr hkind)

/-- A rewriter makes of the document of a nested graph what the arena writes for the graph, and
counts the graphs that the decoder takes from it. -/
def Retraces (rewrite : Nat → Json → Json × Nat) (nested : NestedDecoder) (arena : Arena) : Prop :=
  ∀ ⦃next : Nat⦄ ⦃location : Location⦄ ⦃inner : Fields⦄ ⦃block : List Subgraph⦄,
    nested next location inner = .ok block → arena.HasBlock next block →
      Json.Same (arena.document next) (rewrite next (.obj inner)).1 ∧
        (rewrite next (.obj inner)).2 = next + block.length

variable {rewrite : Nat → Json → Json × Nat} {nested : NestedDecoder} {arena : Arena}

/-- Writing a node with its graph put back is rewriting the two members that may differ: its id and
its graph. -/
theorem written_same {document again : Json} (h : Json.Same document again) (fields : Fields)
    (place : Nat) : (Node.written place document (Node.withoutEmbedded fields)).Same
      ((fields.put "id" (.nat place)).modifyAttributes fun attributes =>
        Fields.put attributes "sdfg" again) := by
  have hattributes : ∀ attributes : Fields, ((attributes.without "sdfg").put "sdfg" document).Same
      (attributes.put "sdfg" again) := by
    intro attributes key
    simp only [Fields.values_put, Fields.values_without]
    split
    · exact congrArg (fun document => [document]) h
    · rfl
  intro key
  simp only [Node.written, Node.withoutEmbedded, Fields.modifyAttributes, Fields.values_put,
    Fields.value?_put_of_ne _ _ _ _ (show "attributes" ≠ "id" by decide), Fields.value?_put_self]
  split
  · exact congrArg (fun document => [document]) (Json.Same.obj (hattributes _))
  · rfl

/-- The nodes of a state are written as the rewrite of the documents they were read from, graphs
included. -/
theorem nodes_same (hrewrite : Retraces rewrite nested arena) {graph state next place : Nat}
    {documents : List Json} {nodes : List Node} {blocks : List Subgraph}
    (h : State.decodeNodes nested graph state next place documents = .ok (nodes, blocks))
    (hblocks : arena.HasBlock next blocks) :
    ((nodes.zipIdx place).map fun (node, index) => node.encode arena.document index).map
        Json.canonical = (inTurn (node rewrite) next place documents).1.map Json.canonical ∧
      (inTurn (node rewrite) next place documents).2 = next + blocks.length := by
  induction documents generalizing next place nodes blocks with
  | nil =>
      cases h
      exact ⟨rfl, rfl⟩
  | cons document rest ih =>
      obtain ⟨fields, hfields, h⟩ := bind_eq_ok.mp h
      obtain ⟨embedded, hembedded, h⟩ := bind_eq_ok.mp h
      obtain rfl := Part.fields_eq_ok.mp hfields
      cases embedded with
      | none =>
          obtain ⟨⟨others, behind⟩, hrest, h⟩ := bind_eq_ok.mp h
          cases h
          obtain ⟨hothers, hnext⟩ := ih hrest hblocks
          have hnode : node rewrite next place (.obj fields) =
              (.obj (fields.put "id" (.nat place)), next) := by
            rw [node, embedded?_of_none hembedded]
          rw [inTurn, hnode]
          exact ⟨List.cons_eq_cons.mpr ⟨rfl, hothers⟩, hnext⟩
      | some inner =>
          obtain ⟨block, hblock, h⟩ := bind_eq_ok.mp h
          obtain ⟨⟨others, behind⟩, hrest, h⟩ := bind_eq_ok.mp h
          cases h
          obtain ⟨hfirst, hbehind⟩ := hblocks.append
          -- The graph of this node takes the first numbers of the block, the rest of the nodes what
          -- is left.
          obtain ⟨hinner, hcount⟩ := hrewrite hblock hfirst
          obtain ⟨hothers, hnext⟩ := ih hrest hbehind
          have hnode : node rewrite next place (.obj fields) =
              (.obj ((fields.put "id" (.nat place)).modifyAttributes fun attributes =>
                Fields.put attributes "sdfg" (rewrite next (.obj inner)).1),
                next + block.length) := by
            rw [node, embedded?_of_some hembedded, ← hcount]
          rw [inTurn, hnode, List.length_append, ← Nat.add_assoc]
          exact ⟨List.cons_eq_cons.mpr ⟨Json.Same.obj (written_same hinner fields place), hothers⟩,
            hnext⟩

/-! ### States -/

/-- Decoding takes nothing from a node that tells its scope. -/
theorem scopes_of_decodeNodes {graph state next place : Nat} {documents : List Json}
    {nodes : List Node} {blocks : List Subgraph}
    (h : State.decodeNodes nested graph state next place documents = .ok (nodes, blocks)) :
    nodes.map State.scopeOf = documents.map fun document => scope document.fields := by
  induction documents generalizing next place nodes blocks with
  | nil =>
      cases h
      rfl
  | cons document rest ih =>
      obtain ⟨fields, hfields, h⟩ := bind_eq_ok.mp h
      obtain ⟨embedded, _, h⟩ := bind_eq_ok.mp h
      obtain rfl := Part.fields_eq_ok.mp hfields
      cases embedded with
      | none =>
          obtain ⟨⟨others, behind⟩, hrest, h⟩ := bind_eq_ok.mp h
          cases h
          exact List.cons_eq_cons.mpr ⟨rfl, ih hrest⟩
      | some inner =>
          obtain ⟨block, _, h⟩ := bind_eq_ok.mp h
          obtain ⟨⟨others, behind⟩, hrest, h⟩ := bind_eq_ok.mp h
          cases h
          have hentry : (Node.withoutEmbedded fields).value? "scope_entry" =
              fields.value? "scope_entry" :=
            Fields.value?_modifyAttributes_of_ne _ (by decide)
          refine List.cons_eq_cons.mpr ⟨?_, ih hrest⟩
          rw [State.scopeOf, hentry]
          rfl

/-- What is left of a container when its lists are taken out. -/
def withoutLists (fields : Fields) : Fields :=
  (fields.without "nodes").without "edges"

theorem withoutLists_put (fields : Fields) {key : String} (value : Json) (hnodes : key ≠ "nodes")
    (hedges : key ≠ "edges") :
    withoutLists (fields.put key value) = (withoutLists fields).put key value := by
  rw [withoutLists, Fields.without_put_of_ne _ _ _ _ hnodes,
    Fields.without_put_of_ne _ _ _ _ hedges, withoutLists]

theorem has_withoutLists (fields : Fields) {key : String} (hnodes : key ≠ "nodes")
    (hedges : key ≠ "edges") : (withoutLists fields).has key = fields.has key := by
  rw [Fields.has, withoutLists, Fields.value?_without_of_ne _ _ _ hedges,
    Fields.value?_without_of_ne _ _ _ hnodes, Fields.has]

/-- Taking the two lists out of a record leaves every other member. -/
theorem values_withoutLists (fields : Fields) (key : String) :
    (withoutLists fields).values key =
      if key = "nodes" ∨ key = "edges" then [] else fields.values key := by
  rw [withoutLists, Fields.values_without, Fields.values_without]
  grind

/-- Putting the two lists back undoes taking them out, up to the order of the members. -/
theorem lists_same {taken fields : Fields} (h : taken.Same (withoutLists fields))
    {nodes edges nodes' edges' : Json} (hnodes : Json.Same nodes nodes')
    (hedges : Json.Same edges edges') :
    ((taken.put "nodes" nodes).put "edges" edges).Same
      ((fields.put "nodes" nodes').put "edges" edges') := by
  have hset := (h.put "nodes" hnodes).put "edges" hedges
  exact fun key => (hset key).trans (Fields.same_renewed .rfl .rfl key)

/-- Numbering a state sets its id and its scope table, the table taken from the documents of its
nodes. -/
theorem numbered_same {fields : Fields} {nodes : List Node} {documents : List Json}
    (h : nodes.map State.scopeOf = documents.map fun document => scope document.fields)
    (edges : List Edge) (place : Nat) :
    (State.numbered place ⟨nodes, edges, withoutLists fields⟩).Same
      (withoutLists ((fields.put "id" (.nat place)).renew "scope_dict"
        (.obj (scopeEntries documents)))) := by
  have htable := State.scopeTable_same ⟨nodes, edges, withoutLists fields⟩
  rw [h] at htable
  have hid : withoutLists (fields.put "id" (.nat place)) =
      (withoutLists fields).put "id" (.nat place) :=
    withoutLists_put _ _ (by decide) (by decide)
  have hhas : ((withoutLists fields).put "id" (.nat place)).has "scope_dict" =
      (fields.put "id" (.nat place)).has "scope_dict" := by
    rw [← hid, has_withoutLists _ (by decide) (by decide)]
  simp only [State.numbered, Fields.renew, hhas]
  split
  · rw [withoutLists_put _ _ (by decide) (by decide), hid]
    exact (Fields.Same.refl _).put "scope_dict" htable.symm
  · rw [hid]
    exact .refl _

/-- A state is written as the rewrite of its document, and both count the same graphs below it. -/
theorem state_same (hrewrite : Retraces rewrite nested arena) {graph next place : Nat}
    {document : Json} {read : State} {block : List Subgraph}
    (h : State.decode nested graph next place document = .ok (read, block))
    (hblock : arena.HasBlock next block) :
    Json.Same (read.encode arena.document place) (state rewrite next place document).1 ∧
      (state rewrite next place document).2 = next + block.length := by
  obtain ⟨fields, hfields, h⟩ := bind_eq_ok.mp h
  obtain ⟨nodeDocuments, hnodeDocuments, h⟩ := bind_eq_ok.mp h
  obtain ⟨edgeDocuments, hedgeDocuments, h⟩ := bind_eq_ok.mp h
  obtain ⟨⟨nodes, blocks⟩, hnodes, h⟩ := bind_eq_ok.mp h
  obtain ⟨edges, hedges, h⟩ := bind_eq_ok.mp h
  cases h
  obtain rfl := Part.fields_eq_ok.mp hfields
  obtain ⟨hwritten, hnext⟩ := nodes_same hrewrite hnodes hblock
  rw [← List.mapIdx_eq_zipIdx_map] at hwritten
  simp only [state, items_of_ok hnodeDocuments, items_of_ok hedgeDocuments]
  refine ⟨.obj (lists_same ?_ (.arr hwritten) (encodeAll_same hedges)), hnext⟩
  exact numbered_same (scopes_of_decodeNodes hnodes) edges place

/-- So is a list of states, each from its own place and its own first graph. -/
theorem states_same (hrewrite : Retraces rewrite nested arena) {graph next place : Nat}
    {documents : List Json} {states : List State} {blocks : List Subgraph}
    (h : State.decodeAll nested graph next place documents = .ok (states, blocks))
    (hblocks : arena.HasBlock next blocks) :
    ((states.zipIdx place).map fun (state, index) => state.encode arena.document index).map
        Json.canonical = (inTurn (state rewrite) next place documents).1.map Json.canonical ∧
      (inTurn (state rewrite) next place documents).2 = next + blocks.length := by
  induction documents generalizing next place states blocks with
  | nil =>
      cases h
      exact ⟨rfl, rfl⟩
  | cons document rest ih =>
      obtain ⟨⟨read, block⟩, hread, h⟩ := bind_eq_ok.mp h
      obtain ⟨⟨others, behind⟩, hrest, h⟩ := bind_eq_ok.mp h
      cases h
      obtain ⟨hblock, hbehind⟩ := hblocks.append
      obtain ⟨hfirst, hcount⟩ := state_same hrewrite hread hblock
      obtain ⟨hothers, hnext⟩ := ih hrest hbehind
      simp only [inTurn, hcount, List.length_append, ← Nat.add_assoc]
      exact ⟨List.cons_eq_cons.mpr ⟨hfirst, hothers⟩, hnext⟩

/-! ### Graphs -/

theorem numbered_eq (id : Nat) (fields : Fields) :
    Subgraph.numbered id (withoutLists fields) = withoutLists (listed id fields) := by
  have hput : ∀ (given : Fields) (key : String), key ∈ ["sdfg_list_id", "cfg_list_id"] →
      withoutLists (given.put key (.nat id)) = (withoutLists given).put key (.nat id) ∧
        (withoutLists given).has key = given.has key := by
    intro given key hkey
    have hnodes : key ≠ "nodes" := by
      rintro rfl
      revert hkey
      decide
    have hedges : key ≠ "edges" := by
      rintro rfl
      revert hkey
      decide
    exact ⟨withoutLists_put _ _ hnodes hedges, has_withoutLists _ hnodes hedges⟩
  have hrenew : ∀ (given : Fields) (key : String), key ∈ ["sdfg_list_id", "cfg_list_id"] →
      withoutLists (given.renew key (.nat id)) = (withoutLists given).renew key (.nat id) := by
    intro given key hkey
    obtain ⟨hset, hhas⟩ := hput given key hkey
    rw [Fields.renew, Fields.renew, hhas]
    split
    · exact hset
    · rfl
  have hlist := hput fields "sdfg_list_id" (by simp)
  have hconfig := hput fields "cfg_list_id" (by simp)
  rw [listed, Subgraph.numbered, hlist.2, hconfig.2]
  split
  · rw [hrenew _ _ (by simp), hrenew _ _ (by simp)]
    rfl
  · exact hlist.1.symm

/-- A graph is written as the rewrite of its document, and its block holds as many graphs as the
rewrite counts. -/
theorem graph_same (hformed : arena.WellFormed) (hrewrite : Retraces rewrite nested arena)
    {id : Nat} {owner : Option Location} {fields : Fields} {block : List Subgraph}
    (h : Subgraph.decodeWith nested id owner fields = .ok block)
    (hblock : arena.HasBlock id block) :
    Json.Same (arena.document id) (graph rewrite id (.obj fields)).1 ∧
      (graph rewrite id (.obj fields)).2 = id + block.length := by
  obtain ⟨_, _, h⟩ := bind_eq_ok.mp h
  obtain ⟨stateDocuments, hstateDocuments, h⟩ := bind_eq_ok.mp h
  obtain ⟨edgeDocuments, hedgeDocuments, h⟩ := bind_eq_ok.mp h
  obtain ⟨⟨states, blocks⟩, hstates, h⟩ := bind_eq_ok.mp h
  obtain ⟨edges, hedges, h⟩ := bind_eq_ok.mp h
  cases h
  obtain ⟨hgraph, hblocks⟩ := hblock.cons
  obtain ⟨hwritten, hnext⟩ := states_same hrewrite hstates hblocks
  rw [← List.mapIdx_eq_zipIdx_map] at hwritten
  rw [hformed.document_eq hgraph]
  simp only [graph, items_of_ok hstateDocuments, items_of_ok hedgeDocuments, hnext,
    List.length_cons]
  refine ⟨.obj (lists_same ?_ (.arr hwritten) (encodeAll_same hedges)), by omega⟩
  have hnumbered := numbered_eq id fields
  rw [withoutLists] at hnumbered
  rw [hnumbered]
  exact .refl _

/-- The rewrite descends with the decoder, one step of depth for each. -/
theorem graphWithin_same (hformed : arena.WellFormed) {fuel id : Nat} {owner : Option Location}
    {fields : Fields} {block : List Subgraph}
    (h : Subgraph.decodeWithin fuel id owner fields = .ok block)
    (hblock : arena.HasBlock id block) :
    Json.Same (arena.document id) (graphWithin fuel id (.obj fields)).1 ∧
      (graphWithin fuel id (.obj fields)).2 = id + block.length := by
  induction fuel generalizing id owner fields block with
  | zero => cases h
  | succ fuel ih =>
      refine graph_same hformed ?_ h hblock
      intro next location inner block hinner hfound
      exact ih hinner hfound

end NormalForm

/-- Reading a document and writing it again gives its normal form. -/
theorem Arena.toJson_same_normalForm {document : Json} {arena : Arena}
    (h : ofJson document = .ok arena) : Json.Same arena.toJson document.normalForm := by
  have hformed := ofJson_wellFormed h
  obtain ⟨fields, hfields, h⟩ := bind_eq_ok.mp h
  obtain ⟨graphs, hgraphs, h⟩ := bind_eq_ok.mp h
  cases h
  obtain rfl := Part.fields_eq_ok.mp hfields
  exact (NormalForm.graphWithin_same hformed hgraphs List.prefix_rfl).1

/-! ## A document in normal form is not changed -/

namespace NormalForm

/-- Graphs that are numbered from `start` on are in normal form. -/
def NormalFrom (start : Nat) (graphs : List Fields) : Prop :=
  ∀ entry ∈ graphs.zipIdx start, GraphNormal entry.2 entry.1

theorem NormalFrom.cons {start : Nat} {first : Fields} {rest : List Fields}
    (h : NormalFrom start (first :: rest)) :
    GraphNormal start first ∧ NormalFrom (start + 1) rest := by
  rw [NormalFrom, List.zipIdx_cons, List.forall_mem_cons] at h
  exact h

/-- The numbering of a list of graphs is normal when both parts are, the second from where the first
ends. -/
theorem NormalFrom.append {start : Nat} {first second : List Fields}
    (h : NormalFrom start (first ++ second)) :
    NormalFrom start first ∧ NormalFrom (start + first.length) second := by
  rw [NormalFrom, List.zipIdx_append, List.forall_mem_append] at h
  exact h

/-- A rewriter numbers the graphs of a document one after the other, and leaves a document as it is
whose graphs are in normal form under these numbers. -/
structure Numbers (rewrite : Nat → Json → Json × Nat) (graphs : Json → List Fields) : Prop where
  count : ∀ next document, (rewrite next document).2 = next + (graphs document).length
  kept : ∀ next document, NormalFrom next (graphs document) →
    Json.Same (rewrite next document).1 document

section InTurn

variable {rewrite : Nat → Nat → Json → Json × Nat} {graphs : Json → List Fields}

/-- Rewriting documents one after another counts the graphs of all of them. -/
theorem inTurn_count
    (h : ∀ next place document, (rewrite next place document).2 = next + (graphs document).length)
    (next place : Nat) (documents : List Json) :
    (inTurn rewrite next place documents).2 = next + (documents.flatMap graphs).length := by
  induction documents generalizing next place with
  | nil => rfl
  | cons document rest ih =>
      rw [inTurn, ih, h, List.flatMap_cons, List.length_append, Nat.add_assoc]

/-- Rewriting documents one after another keeps each that is in normal form at its place. -/
theorem inTurn_kept {Normal : Nat → Json → Prop}
    (hcount : ∀ next place document,
      (rewrite next place document).2 = next + (graphs document).length)
    (hkept : ∀ next place document, Normal place document → NormalFrom next (graphs document) →
      Json.Same (rewrite next place document).1 document)
    (next place : Nat) (documents : List Json)
    (hnormal : ∀ entry ∈ documents.zipIdx place, Normal entry.2 entry.1)
    (hgraphs : NormalFrom next (documents.flatMap graphs)) :
    (inTurn rewrite next place documents).1.map Json.canonical =
      documents.map Json.canonical := by
  induction documents generalizing next place with
  | nil => rfl
  | cons document rest ih =>
      rw [List.flatMap_cons] at hgraphs
      rw [List.zipIdx_cons, List.forall_mem_cons] at hnormal
      obtain ⟨hfirst, hbehind⟩ := hgraphs.append
      exact List.cons_eq_cons.mpr ⟨hkept next place document hnormal.1 hfirst,
        ih _ _ hnormal.2 (by rwa [hcount])⟩

end InTurn

theorem endAsText_kept {key : String} {fields : Fields} (h : EndNormal key fields) :
    endAsText key fields = fields := by
  obtain ⟨index, hindex, hvalues⟩ := h
  rw [endAsText, Option.mem_def.mp hindex]
  exact Fields.put_eq_self hvalues

theorem edge_kept {document : Json} (h : EdgeNormal document) : edge document = document := by
  rw [h.object, edge, endAsText_kept h.source, endAsText_kept h.target]

/-- A record whose lists are in normal form is kept, whatever numbers it. -/
theorem lists_kept {numbered fields : Fields} (h : numbered.Same fields)
    (hlists : ListsNormal fields) {nodes : List Json}
    (hnodes : nodes.map Json.canonical = (fields.items "nodes").map Json.canonical) :
    ((numbered.put "nodes" (.arr nodes)).put "edges"
      (.arr ((fields.items "edges").map edge))).Same fields := by
  have hedges : (fields.items "edges").map edge = fields.items "edges" :=
    (List.map_congr_left fun document hdocument =>
      edge_kept (hlists.ends document hdocument)).trans (List.map_id _)
  have hsame : Json.Same (.arr (fields.items "edges")) (.arr (fields.items "edges")) := .rfl
  have hset := (h.put "nodes" (Json.Same.arr hnodes)).put "edges" hsame
  rw [hedges]
  rwa [Fields.put_eq_self hlists.nodes, Fields.put_eq_self hlists.edges] at hset

variable {rewrite : Nat → Json → Json × Nat} {graphs : Json → List Fields}

theorem node_count (h : Numbers rewrite graphs) (next place : Nat) (document : Json) :
    (node rewrite next place document).2 =
      next + ((embedded? document.fields).toList.flatMap graphs).length := by
  cases document with
  | obj fields =>
      simp only [node, Json.fields, Json.asObject?, Option.getD_some]
      cases embedded? fields with
      | none => rfl
      | some inner => simp [h.count]
  | _ => rfl

theorem node_kept (h : Numbers rewrite graphs) (next place : Nat) (document : Json)
    (hnormal : NodeNormal place document)
    (hgraphs : NormalFrom next ((embedded? document.fields).toList.flatMap graphs)) :
    Json.Same (node rewrite next place document).1 document := by
  obtain ⟨hobject, hid, hembedded⟩ := hnormal
  generalize document.fields = fields at hobject hid hembedded hgraphs
  subst hobject
  simp only [node, Fields.put_eq_self hid]
  cases hinner : embedded? fields with
  | none => exact .rfl
  | some inner =>
      obtain ⟨attributes, hvalue, hattributes, hsdfg⟩ := hembedded inner hinner
      rw [hinner] at hgraphs
      have hkept := h.kept next inner (by simpa using hgraphs)
      simp only [Fields.modifyAttributes, Option.mem_def.mp hvalue, Option.getD_some]
      exact .obj (Fields.put_same hattributes (.obj (Fields.put_same hsdfg hkept)))

theorem state_count (h : Numbers rewrite graphs) (next place : Nat) (document : Json) :
    (state rewrite next place document).2 = next + ((document.fields.items "nodes").flatMap
      fun node => (embedded? node.fields).toList.flatMap graphs).length := by
  cases document with
  | obj fields => exact inTurn_count (node_count h) next 0 _
  | _ => rfl

theorem state_kept (h : Numbers rewrite graphs) (next place : Nat) (document : Json)
    (hnormal : StateNormal place document)
    (hgraphs : NormalFrom next ((document.fields.items "nodes").flatMap
      fun node => (embedded? node.fields).toList.flatMap graphs)) :
    Json.Same (state rewrite next place document).1 document := by
  obtain ⟨hobject, hid, hscopes, hlists, hnodes⟩ := hnormal
  generalize document.fields = fields at hobject hid hscopes hlists hnodes hgraphs
  subst hobject
  have hkept := inTurn_kept (node_count h) (node_kept h) next 0 (fields.items "nodes") hnodes
    hgraphs
  have hnumbered : ((fields.put "id" (.nat place)).renew "scope_dict"
      (.obj (scopeEntries (fields.items "nodes")))).Same fields := by
    rw [Fields.put_eq_self hid, Fields.renew]
    split
    next hhas =>
      obtain ⟨table, htable⟩ := Option.isSome_iff_exists.mp hhas
      obtain ⟨honce, hobject, hperm⟩ := hscopes table htable
      refine Fields.put_same honce ?_
      rw [hobject]
      exact .obj (Fields.same_of_perm hperm (State.entriesOf_keys _))
    next => exact .refl fields
  exact .obj (lists_kept hnumbered hlists hkept)

theorem listed_kept {id : Nat} {fields : Fields} (h : GraphNormal id fields) :
    listed id fields = fields := by
  have hrenew : ∀ key ∈ ["sdfg_list_id", "cfg_list_id"], fields.renew key (.nat id) = fields := by
    intro key hkey
    rw [Fields.renew]
    split
    next hhas => exact Fields.put_eq_self (h.every key hkey hhas)
    next => rfl
  rw [listed, if_pos (by simpa using h.numbered), hrenew _ (by simp), hrenew _ (by simp)]

/-- If rewriting keeps and counts the graphs one level down, it keeps and counts this one. -/
theorem graph_numbers (h : Numbers rewrite graphs) : Numbers (graph rewrite) fun document =>
    match document with
    | .obj fields => fields :: (embeddedIn fields).flatMap graphs
    | _ => [] where
  count id document := by
    cases document with
    | obj fields =>
        simp only [graph, inTurn_count (state_count h), embeddedIn, List.flatMap_assoc,
          List.length_cons]
        omega
    | _ => rfl
  kept id document hgraphs := by
    cases document with
    | obj fields =>
        obtain ⟨hnormal, hbehind⟩ := NormalFrom.cons hgraphs
        simp only [embeddedIn, List.flatMap_assoc] at hbehind
        have hkept := inTurn_kept (state_count h) (state_kept h) (id + 1) 0
          (Fields.items fields "nodes") hnormal.states hbehind
        refine .obj (lists_kept ?_ hnormal.lists hkept)
        rw [listed_kept hnormal]
        exact .refl fields
    | _ => exact .rfl

theorem graphWithin_numbers (depth : Nat) :
    Numbers (graphWithin depth) (graphsWithin depth) := by
  induction depth with
  | zero => exact ⟨fun _ _ => rfl, fun _ _ _ => .rfl⟩
  | succ depth ih =>
      have hnumbers := graph_numbers ih
      refine ⟨fun id document => ?_, fun id document hgraphs => ?_⟩
      · rw [graphWithin, hnumbers.count]
        cases document <;> rfl
      · refine hnumbers.kept id document ?_
        cases document <;> exact hgraphs

end NormalForm

/-- A document in normal form is its own normal form. -/
theorem Json.InNormalForm.normalForm_same {document : Json} (h : document.InNormalForm) :
    Same document.normalForm document :=
  (NormalForm.graphWithin_numbers document.depth).kept 0 document h

/-- Reading a document and writing it again only puts it in normal form, so that a document that is
in normal form already comes back as it was. -/
theorem Arena.toJson_normalizes {document : Json} {arena : Arena}
    (h : ofJson document = .ok arena) :
    Json.Same arena.toJson document.normalForm ∧
      (document.InNormalForm → Json.Same arena.toJson document) :=
  ⟨toJson_same_normalForm h,
    fun hnormal => (toJson_same_normalForm h).trans hnormal.normalForm_same⟩

namespace Arena

/-- The graph of `nestedDocument` with the numbers that it is written with, and with a table of
scopes. -/
def tidyDocument : Json :=
  .obj [("type", .str "SDFG"), ("start_state", .nat 0), ("sdfg_list_id", .nat 0),
    ("edges", .arr []), ("nodes", .arr [
      .obj [("id", .nat 0), ("scope_dict", .obj [("0", .arr [.nat 1]), ("-1", .arr [.nat 0])]),
        ("nodes", .arr [
          .obj [("type", .str "NestedSDFG"), ("id", .nat 0), ("attributes", .obj [("sdfg", .obj [
            ("cfg_list_id", .nat 1), ("edges", .arr []), ("nodes", .arr [
              .obj [("id", .nat 0), ("nodes", .arr []), ("edges", .arr [])]])])])],
          .obj [("type", .str "Tasklet"), ("scope_entry", .str "0"), ("id", .nat 1)]]),
        ("edges", .arr [.obj [("src", .str "0"), ("dst", .str "1")]])]])]

/-- The arena that `tidyDocument` is read as. -/
def tidyArena : Arena :=
  ⟨[⟨[⟨[⟨some 1, [("type", .str "NestedSDFG"), ("id", .nat 0), ("attributes", .obj [])]⟩,
      ⟨none, [("type", .str "Tasklet"), ("scope_entry", .str "0"), ("id", .nat 1)]⟩],
      [⟨0, 1, []⟩], [("id", .nat 0),
        ("scope_dict", .obj [("0", .arr [.nat 1]), ("-1", .arr [.nat 0])])]⟩], [], none,
      [("type", .str "SDFG"), ("start_state", .nat 0), ("sdfg_list_id", .nat 0)]⟩,
    ⟨[⟨[], [], [("id", .nat 0)]⟩], [], some ⟨0, 0, 0⟩, [("cfg_list_id", .nat 1)]⟩]⟩

theorem tidyDocument_normalizes : ofJson tidyDocument = .ok tidyArena ∧
    Json.Same tidyArena.toJson tidyDocument ∧ ofJson nestedDocument = .ok nestedArena ∧
    Json.Same nestedArena.toJson nestedDocument.normalForm :=
  have htidy : ofJson tidyDocument = .ok tidyArena := by decide
  ⟨htidy, (toJson_normalizes htidy).2 (by decide), ofJson_nestedDocument,
    (toJson_normalizes ofJson_nestedDocument).1⟩

end Arena

end DataflowEditor
