import DataflowEditor.Proofs.Graph.Locating
import DataflowEditor.Proofs.Service.Payload
import DataflowEditor.Proofs.Toolkit.Dialogue
import DataflowEditor.Service.Transformation

/-! # Expanding a library node

A request gives the node to expand by three words without a sign, and the node is looked up by an
address, whose components have one. A word from the upper half becomes a negative component, and the
highest of all becomes the one that stands for unset, so that words may come to name a state or a
graph. They never come to name another node: the toolkit is asked exactly where a library node
stands at the location that the words give.
-/

namespace DataflowEditor

/-! ## Words as components -/

theorem isSignedWord_signedWord {word : Nat} (h : word < wordCount) :
    IsSignedWord (signedWord word) := by
  by_cases hlow : word < halfWordCount
  · rw [signedWord_of_lt hlow]
    simp only [halfWordCount] at hlow
    simp only [IsSignedWord, halfWordCount]
    omega
  · rw [signedWord_of_le (Nat.le_of_not_lt hlow) h]
    simp only [halfWordCount, wordCount] at hlow h
    simp only [IsSignedWord, halfWordCount, wordCount]
    omega

/-- No word becomes the index of another. -/
theorem IsIndex.signedWord_eq {word count : Nat} (hword : word < wordCount)
    (h : IsIndex (signedWord word) count) : signedWord word = word := by
  refine signedWord_of_lt (Nat.lt_of_not_le fun hhigh => ?_)
  have hnegative := h.1
  rw [signedWord_of_le hhigh hword] at hnegative
  omega

namespace Location

/-- The location that three words give. -/
def ofWords (graph state node : UInt64) : Location :=
  ⟨graph.toNat, state.toNat, node.toNat⟩

/-- The three numbers are words. -/
def IsWords (location : Location) : Prop :=
  location.graph < wordCount ∧ location.state < wordCount ∧ location.node < wordCount

theorem isWords_ofWords (graph state node : UInt64) : (ofWords graph state node).IsWords :=
  have hword : ∀ word : UInt64, word.toNat < wordCount := fun word =>
    Nat.lt_of_lt_of_eq word.toNat_lt (by decide)
  ⟨hword graph, hword state, hword node⟩

theorem address_eq (location : Location) : (Element.ofLocation location).address =
    ⟨signedWord location.graph, signedWord location.state, signedWord location.node, -1⟩ :=
  rfl

theorem IsWords.address_isSigned {location : Location} (h : location.IsWords) :
    (Element.ofLocation location).address.IsSigned := by
  have hunset : IsSignedWord (-1) := by decide
  simp only [address_eq, Address.IsSigned]
  exact ⟨isSignedWord_signedWord h.1, isSignedWord_signedWord h.2.1,
    isSignedWord_signedWord h.2.2, hunset⟩

end Location

/-! ## The check of a location -/

theorem Node.isLibrary_iff {node : Node} : node.isLibrary = true ↔
    node.fields.value? "type" = some (.str "LibraryNode") ∨
      ∃ path, node.fields.value? "classpath" = some path := by
  rw [isLibrary, Bool.or_eq_true, decide_eq_true_iff, kind, Fields.text_eq_iff (by decide),
    Fields.bind_asString?_eq_some, Fields.has, Option.isSome_iff_exists]

theorem message_of_mapError {α : Type} {message : String} {result : Except GraphError α}
    {failure : Failure} (h : result.mapError (.ofGraphError message) = .error failure) :
    failure.message = message := by
  cases result with
  | ok value => cases h
  | error error => cases h; rfl

/-- However the check fails, it says what was attempted. -/
theorem message_of_checkLibraryNode {arena : Arena} {location : Location} {failure : Failure}
    (h : checkLibraryNode arena location = .error failure) :
    failure.message = expandFailedMessage := by
  rw [checkLibraryNode] at h
  cases hlocated : (arena.locate (Element.ofLocation location).address).mapError
      (Failure.ofGraphError expandFailedMessage) with
  | error other =>
      rw [hlocated] at h
      cases h
      exact message_of_mapError hlocated
  | ok found =>
      rw [hlocated, ok_bind] at h
      cases hkind : found.element with
      | node id place index =>
          simp only [hkind] at h
          cases hnode : (arena.node ⟨id, place, index⟩).mapError
              (Failure.ofGraphError expandFailedMessage) with
          | error other =>
              rw [hnode] at h
              cases h
              exact message_of_mapError hnode
          | ok node =>
              rw [hnode, ok_bind] at h
              split at h <;> cases h
              rfl
      | _ =>
          simp only [hkind] at h
          cases h
          rfl

/-- A node is named where one is set, whatever the edge is. -/
theorem Element.ofAddress_eq_node {address : Address} {id place index : Nat} :
    ofAddress address = .node id place index ↔ address.node ≠ -1 ∧ address.graph.toNat = id ∧
      address.state.toNat = place ∧ address.node.toNat = index := by
  rw [ofAddress]
  split
  next hset => simp [hset]
  next hunset =>
    repeat' split
    all_goals simp [hunset]

namespace Arena

variable {arena : Arena} {location : Location}

/-- At this location stands a node that has the type of a library node, or a class path. -/
def HasLibraryNode (arena : Arena) (location : Location) : Prop :=
  ∃ node, arena.node location = .ok node ∧
    (node.fields.value? "type" = some (.str "LibraryNode") ∨
      ∃ path, node.fields.value? "classpath" = some path)

/-- Words that lead to a node are its location. -/
theorem WellFormed.locate_words (h : arena.WellFormed)
    (hcounts : arena.CountsBelow halfWordCount) (hwords : location.IsWords) {found : Located}
    (hlocated : arena.locate (Element.ofLocation location).address = .ok found)
    {id place index : Nat} (hnode : found.element = .node id place index) :
    location = ⟨id, place, index⟩ := by
  have hexact := h.locatesExactly hcounts hwords.address_isSigned
  obtain ⟨graph, hgraph, _, hindex, _⟩ := hexact.succeeds.mp ⟨found, hlocated⟩
  obtain ⟨helement, _, _⟩ := hexact.found found hlocated
  obtain ⟨hset, rfl, rfl, rfl⟩ := Element.ofAddress_eq_node.mp (helement.symm.trans hnode)
  obtain ⟨state, hstate, hindex⟩ := hindex.resolve_left hset
  simp only [Location.address_eq] at hgraph hstate hindex ⊢
  -- Each component is an index, and therefore the word that it was made of.
  rw [hgraph.isIndex.signedWord_eq hwords.1, hstate.isIndex.signedWord_eq hwords.2.1,
    hindex.signedWord_eq hwords.2.2]
  rfl

/-- The check passes exactly where the location leads to a library node. -/
theorem WellFormed.checkLibraryNode_eq_ok (h : arena.WellFormed)
    (hcounts : arena.CountsBelow halfWordCount) (hwords : location.IsWords) :
    checkLibraryNode arena location = .ok () ↔ arena.HasLibraryNode location := by
  constructor
  · intro hcheck
    rw [checkLibraryNode, bind_eq_ok] at hcheck
    obtain ⟨found, hlocated, hcheck⟩ := hcheck
    have hlocated := mapError_eq_ok.mp hlocated
    cases hkind : found.element with
    | node id place index =>
        obtain rfl := h.locate_words hcounts hwords hlocated hkind
        simp only [hkind] at hcheck
        obtain ⟨node, hnode, hcheck⟩ := bind_eq_ok.mp hcheck
        split at hcheck
        next hlibrary => exact ⟨node, mapError_eq_ok.mp hnode, Node.isLibrary_iff.mp hlibrary⟩
        next => cases hcheck
    | _ => simp [hkind] at hcheck
  · rintro ⟨node, hnode, hlibrary⟩
    obtain ⟨graph, state, hgraph, hstate, hindex⟩ := node_eq_ok.mp hnode
    have hlive : arena.contains (.ofLocation location) = true :=
      contains_node.mpr ⟨graph, state, hgraph, hstate, (List.getElem?_eq_some_iff.mp hindex).1⟩
    have hlocated := h.locate_live (hcounts.fitsWords hlive) hlive
    refine bind_eq_ok.mpr ⟨_, mapError_eq_ok.mpr hlocated, ?_⟩
    refine bind_eq_ok.mpr ⟨node, mapError_eq_ok.mpr hnode, ?_⟩
    rw [if_pos (Node.isLibrary_iff.mpr hlibrary)]
    rfl

end Arena

/-! ## The operation -/

namespace ExpansionRequest

open Operation

/-- How a request to expand the node at a location of the arena goes. -/
structure ExpandsExactly (request : ExpansionRequest) (options : WriteOptions) (arena : Arena)
    (location : Location) {σ : Type} (answerer : Dialogue.Answerer σ) (state : σ) : Prop where
  /-- The toolkit is asked once, with the location as it was given, and has the last word. -/
  asked : arena.HasLibraryNode location →
    Runs answerer (request.run options) state
      [⟨.expand arena.toJson (some location) options,
        (answerer (.expand arena.toJson (some location) options) state).1⟩]
      ((answerer (.expand arena.toJson (some location) options) state).1.mapError
        (toolkitFailure expandFailedMessage))
      (answerer (.expand arena.toJson (some location) options) state).2
  refused : ¬ arena.HasLibraryNode location → ∃ failure, failure.message = expandFailedMessage ∧
    Runs answerer (request.run options) state [] (.error failure) state
  called : ∀ call, call ∈ (request.run options).run.calls answerer state ↔
    arena.HasLibraryNode location ∧ call = .expand arena.toJson (some location) options

variable {payload : Json} {arena : Arena} {location : Location}

theorem run_eq (payload : Json) (location : Location) (options : WriteOptions) :
    ExpansionRequest.run ⟨some payload, some location⟩ options =
      ofAttempt (readPayloadOrText payload) >>= fun arena =>
        ofAttempt (checkLibraryNode arena location) >>= fun _ =>
          ask (.expand arena.toJson (some location) options) expandFailedMessage :=
  rfl

section Runs

variable {σ : Type} (options : WriteOptions) (answerer : Dialogue.Answerer σ) (state : σ)

/-- After the check there is one call, and its answer is the outcome. -/
theorem runs_checked (hread : readPayloadOrText payload = .ok arena)
    (hcheck : checkLibraryNode arena location = .ok ()) :
    Runs answerer (ExpansionRequest.run ⟨some payload, some location⟩ options) state
      [⟨.expand arena.toJson (some location) options,
        (answerer (.expand arena.toJson (some location) options) state).1⟩]
      ((answerer (.expand arena.toJson (some location) options) state).1.mapError
        (toolkitFailure expandFailedMessage))
      (answerer (.expand arena.toJson (some location) options) state).2 := by
  rw [run_eq, hread]
  refine (runs_ofAttempt answerer state (.ok arena)).bind_ok ?_
  rw [hcheck]
  exact (runs_ofAttempt answerer state (.ok ())).bind_ok
    (runs_ask answerer state expandFailedMessage (.expand arena.toJson (some location) options))

/-- Without it there is no call. -/
theorem runs_refused (hread : readPayloadOrText payload = .ok arena) {failure : Failure}
    (hcheck : checkLibraryNode arena location = .error failure) :
    Runs answerer (ExpansionRequest.run ⟨some payload, some location⟩ options) state []
      (.error failure) state := by
  rw [run_eq, hread]
  refine (runs_ofAttempt answerer state (.ok arena)).bind_ok ?_
  rw [hcheck]
  exact (runs_ofAttempt answerer state (.error failure)).bind_error

/-- At every location of words, expanding does exactly what is specified. -/
theorem expandsExactly (hread : readPayloadOrText payload = .ok arena)
    (hcounts : arena.CountsBelow halfWordCount) (hwords : location.IsWords) :
    ExpandsExactly ⟨some payload, some location⟩ options arena location answerer state := by
  have hgate := (readPayloadOrText_wellFormed hread).checkLibraryNode_eq_ok hcounts hwords
  cases hcheck : checkLibraryNode arena location with
  | ok done =>
      have hlibrary := hgate.mp hcheck
      have hruns := runs_checked options answerer state hread hcheck
      refine ⟨fun _ => hruns, fun hno => absurd hlibrary hno, fun call => ?_⟩
      rw [← Dialogue.trace_calls, hruns.trace]
      simp [hlibrary]
  | error failure =>
      have hno : ¬ arena.HasLibraryNode location := fun hlibrary => by
        rw [hgate.mpr hlibrary] at hcheck
        cases hcheck
      have hruns := runs_refused options answerer state hread hcheck
      refine ⟨fun hlibrary => absurd hlibrary hno,
        fun _ => ⟨failure, message_of_checkLibraryNode hcheck, hruns⟩, fun call => ?_⟩
      rw [← Dialogue.trace_calls, hruns.trace]
      simp [hno]

/-- In every graph that a request brings, whose lists are shorter than signed words count, any three
words lead to the toolkit exactly if a library node stands where they say. -/
theorem ofWords_expandsExactly (hread : readPayloadOrText payload = .ok arena)
    (hcounts : arena.CountsBelow halfWordCount) (graph place node : UInt64) :
    ExpandsExactly ⟨some payload, some (.ofWords graph place node)⟩ options arena
      (.ofWords graph place node) answerer state :=
  expandsExactly options answerer state hread hcounts (Location.isWords_ofWords graph place node)

end Runs

/-- A graph with one library node. -/
def libraryDocument : Json :=
  .obj [("nodes", .arr [.obj [("nodes", .arr [.obj [("type", .str "LibraryNode")]])]])]

def libraryArena : Arena :=
  ⟨[⟨[⟨[⟨none, [("type", .str "LibraryNode")]⟩], [], []⟩], [], none, []⟩]⟩

/-- A toolkit that counts its calls and cannot be reached. -/
def countingAnswerer : Dialogue.Answerer Nat :=
  fun _ count => (.error default, count + 1)

/-- The node itself is expanded. The three words that a graph alone is addressed with are not. -/
theorem libraryDocument_expandsExactly :
    readPayloadOrText libraryDocument = .ok libraryArena ∧
      libraryArena.CountsBelow halfWordCount ∧ libraryArena.HasLibraryNode (.ofWords 0 0 0) ∧
      ¬ libraryArena.HasLibraryNode (.ofWords 0 (-1) (-1)) ∧
      ExpandsExactly ⟨some libraryDocument, some (.ofWords 0 0 0)⟩ default libraryArena
        (.ofWords 0 0 0) countingAnswerer 0 ∧
      ExpandsExactly ⟨some libraryDocument, some (.ofWords 0 (-1) (-1))⟩ default libraryArena
        (.ofWords 0 (-1) (-1)) countingAnswerer 0 := by
  have hread : readPayloadOrText libraryDocument = .ok libraryArena := by decide
  have hcounts : libraryArena.CountsBelow halfWordCount := by decide
  have hbeyond : libraryArena.node (.ofWords 0 (-1) (-1)) =
      .error (.stateOutOfRange 0 (-1)) := by decide
  refine ⟨hread, hcounts, ⟨_, rfl, .inl rfl⟩, ?_, ofWords_expandsExactly _ _ _ hread hcounts 0 0 0,
    ofWords_expandsExactly _ _ _ hread hcounts 0 (-1) (-1)⟩
  rintro ⟨node, hnode, _⟩
  rw [hbeyond] at hnode
  cases hnode

end ExpansionRequest

end DataflowEditor
