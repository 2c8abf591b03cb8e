import DataflowEditor.Proofs.Json.Fields
import DataflowEditor.Proofs.Json.Records
import DataflowEditor.Toolkit.Analysis
import DataflowEditor.Toolkit.Exchange

/-! # What documents spell

Most of what daemon and toolkit exchange is made of records, which are decoded field by field.
Identifiers, places, selections, analyses and the values of symbols are not records, and each of
them has a decoder of its own. What a document spells is told here without the decoders, by the
members or items that it has, and a document that spells a value is decoded to it. An object may
hold its members in any order, and others besides.
-/

namespace DataflowEditor

/-! ## Members and numbers -/

/-- A key with one member has one value. -/
theorem Fields.eq_of_mem {members : Fields} {key : String} {u v : Json}
    (hkeys : (members.map Prod.fst).Nodup) (hu : (key, u) ∈ members) (hv : (key, v) ∈ members) :
    u = v :=
  congrArg Prod.snd (List.inj_on_of_nodup_map hkeys hu hv rfl)

/-- A field stores what the member of its name is decoded to. -/
theorem RecordField.needed_store {α β : Type} {name : String} {decode : Decoder β}
    {set : α → β → α} {members : Fields} {u v : Json} {value : β}
    (hkeys : (members.map Prod.fst).Nodup) (hu : (name, u) ∈ members)
    (hvalue : decode (.ofJson u) = .ok value) (hv : (name, v) ∈ members) (record : α) :
    (RecordField.needed name decode set).store (.ofJson v) record = .ok (set record value) := by
  obtain rfl := Fields.eq_of_mem hkeys hu hv
  exact map_eq_ok.mpr ⟨value, hvalue, rfl⟩

namespace Draft

/-- An index is a number from zero up that fits a word, and nothing else is. -/
theorem index_ofJson {document : Json} {n : Nat} :
    index (.ofJson document) = .ok n ↔ document = .nat n ∧ n < wordCount := by
  constructor
  · intro h
    obtain ⟨i, hi, rfl⟩ := map_eq_ok.mp h
    obtain ⟨hdraft, hlow, hhigh⟩ := integer_eq_ok.mp hi
    have hdocument : document = .int i := by
      cases document <;> simp_all [ofJson, Json.int]
    obtain ⟨n, rfl⟩ := Int.eq_ofNat_of_zero_le hlow
    exact ⟨hdocument, by rw [Int.toNat_natCast]; omega⟩
  · rintro ⟨rfl, hn⟩
    exact map_eq_ok.mpr ⟨n, integer_eq_ok.mpr ⟨rfl, by omega, by omega⟩, Int.toNat_natCast n⟩

theorem index_lt {draft : Draft} {n : Nat} (h : index draft = .ok n) : n < wordCount := by
  obtain ⟨i, hi, rfl⟩ := map_eq_ok.mp h
  obtain ⟨_, hlow, hhigh⟩ := integer_eq_ok.mp hi
  omega

theorem list_index_ofJson {picked : List Nat} (h : ∀ n ∈ picked, n < wordCount) :
    list index (.ofJson (.arr (picked.map .nat))) = .ok picked :=
  listItems_ofItems (fun n hn => index_ofJson.mpr ⟨rfl, h n hn⟩) 0 []

end Draft

/-! ## Identifiers -/

namespace MessageId

/-- An identifier is spelled by an integer of 64 bits, or by a text. -/
inductive Spells : Json → MessageId → Prop
  | number {value : Int} : IsSignedWord value → Spells (.int value) (.number value)
  | text (value : String) : Spells (.str value) (.text value)

/-- A document is an identifier exactly if it spells one. -/
theorem ofJson?_eq_some {document : Json} {id : MessageId} :
    ofJson? document = some id ↔ Spells document id := by
  constructor
  · intro h
    unfold ofJson? at h
    split at h
    next hvalue =>
      obtain rfl := Option.some.inj h
      obtain ⟨rfl, hword⟩ := Json.asInt?_eq_some.mp hvalue
      exact .number hword
    next htext =>
      obtain rfl := Option.some.inj h
      cases document with
      | str text =>
          obtain rfl := Option.some.inj htext
          exact .text text
      | _ => cases htext
    next => cases h
  · intro h
    cases h with
    | @number value hword =>
        have hvalue : (Json.int value).asInt? = some value := Json.asInt?_eq_some.mpr ⟨rfl, hword⟩
        rw [ofJson?, hvalue]
    | text => rfl

/-- An identifier is decoded from a draft of a document that spells it, and from no other. -/
theorem decode_eq_ok {draft : Draft} {id : MessageId} :
    decode draft = .ok id ↔ ∃ document, draft.json? = some document ∧ Spells document id := by
  rw [decode, bind_eq_ok]
  simp only [← ofJson?_eq_some, Draft.json]
  cases draft.json? with
  | none => simp
  | some document =>
      cases hid : ofJson? document <;> simp [hid, pure, Except.pure]

theorem decodeAs_of_spells {document : Json} {id : MessageId} (h : Spells document id) :
    document.decodeAs decode = .ok id := by
  refine decode_eq_ok.mpr ⟨document, ?_, h⟩
  cases h <;> rfl

theorem spells_toJson {draft : Draft} {id : MessageId} (h : decode draft = .ok id) :
    Spells id.toJson id := by
  obtain ⟨document, _, hspells⟩ := decode_eq_ok.mp h
  cases hspells with
  | number hword => exact .number hword
  | text value => exact .text value

theorem reproduces : Reproduces decode toJson :=
  fun _ _ h => decodeAs_of_spells (spells_toJson h)

end MessageId

/-! ## Places -/

namespace Location

/-- A place is spelled by its three numbers, in order. -/
inductive Spells : Json → Location → Prop
  | items {graph state node : Nat} : graph < wordCount → state < wordCount → node < wordCount →
      Spells (.arr [.nat graph, .nat state, .nat node]) ⟨graph, state, node⟩

/-- Three numbers are decoded to the place that they spell. -/
theorem decodeAs_of_spells {document : Json} {location : Location} (h : Spells document location) :
    document.decodeAs decode = .ok location := by
  cases h with
  | items hgraph hstate hnode =>
      have hg := Draft.index_ofJson.mpr ⟨rfl, hgraph⟩
      have hs := Draft.index_ofJson.mpr ⟨rfl, hstate⟩
      have hn := Draft.index_ofJson.mpr ⟨rfl, hnode⟩
      simp [Json.decodeAs, Draft.ofJson, Draft.ofItems, decode, RecordShape.decode,
        RecordShape.decodeItems, shape, RecordField.needed, hg, hs, hn, Except.map]

theorem spells_toJson {draft : Draft} {location : Location} (h : decode draft = .ok location) :
    Spells location.toJson location := by
  obtain ⟨hgraph, hstate, hnode⟩ : location.graph < wordCount ∧ location.state < wordCount ∧
      location.node < wordCount := by
    unfold decode at h
    split at h
    next deep items closed =>
      have hshape : shape.decode (.array deep items closed) = .ok location := by
        split at h
        next => cases h
        next => exact h
      refine RecordShape.decode_keeps (P := fun location : Location => location.graph < wordCount ∧
        location.state < wordCount ∧ location.node < wordCount) (by decide) ?_ hshape
      simp only [shape, List.forall_mem_cons]
      exact ⟨RecordField.keeps_stored fun _ _ _ hn h => ⟨Draft.index_lt hn, h.2⟩,
        RecordField.keeps_stored fun _ _ _ hn h => ⟨h.1, Draft.index_lt hn, h.2.2⟩,
        RecordField.keeps_stored fun _ _ _ hn h => ⟨h.1, h.2.1, Draft.index_lt hn⟩, by simp⟩
    next => exact absurd h Draft.refuse_ne_ok
  exact .items hgraph hstate hnode

theorem reproduces : Reproduces decode toJson :=
  fun _ _ h => decodeAs_of_spells (spells_toJson h)

end Location

/-! ## Selections -/

namespace SelectedSubgraph

/-- All numbers of the selection fit a word. -/
def IsWords : SelectedSubgraph → Prop
  | .states graph places => graph < wordCount ∧ ∀ place ∈ places, place < wordCount
  | .nodes graph place indices =>
    graph < wordCount ∧ place < wordCount ∧ ∀ index ∈ indices, index < wordCount

/-- A selection is spelled by an object that names its kind and its numbers, or by an array of the
kind and the numbers in order. -/
inductive Spells : Json → SelectedSubgraph → Prop
  | states {members : Fields} {graph : Nat} {places : List Nat} :
      (members.map Prod.fst).Nodup → ("kind", .str "states") ∈ members →
      ("graph", .nat graph) ∈ members → ("states", .arr (places.map .nat)) ∈ members →
      IsWords (.states graph places) → Spells (.obj members) (.states graph places)
  | nodes {members : Fields} {graph place : Nat} {indices : List Nat} :
      (members.map Prod.fst).Nodup → ("kind", .str "nodes") ∈ members →
      ("graph", .nat graph) ∈ members → ("state", .nat place) ∈ members →
      ("nodes", .arr (indices.map .nat)) ∈ members →
      IsWords (.nodes graph place indices) → Spells (.obj members) (.nodes graph place indices)
  | stateItems {graph : Nat} {places : List Nat} : IsWords (.states graph places) →
      Spells (.arr [.str "states", .nat graph, .arr (places.map .nat)]) (.states graph places)
  | nodeItems {graph place : Nat} {indices : List Nat} : IsWords (.nodes graph place indices) →
      Spells (.arr [.str "nodes", .nat graph, .nat place, .arr (indices.map .nat)])
        (.nodes graph place indices)

/-! ### Selections as objects -/

/-- The numbers that were seen are those that are meant. -/
structure Numbers.Agrees (meant : Numbers) (seen : List String) (numbers : Numbers) : Prop where
  graph : "graph" ∈ seen → numbers.graph = meant.graph
  state : "state" ∈ seen → numbers.state = meant.state
  picked : "states" ∈ seen ∨ "nodes" ∈ seen → numbers.picked = meant.picked

section Members

variable {members : Fields} {meant numbers : Numbers} {seen : List String}

theorem Numbers.agrees_nil (meant numbers : Numbers) : meant.Agrees [] numbers :=
  ⟨by simp, by simp, by simp⟩

theorem Numbers.Agrees.store_graph (h : meant.Agrees seen numbers) :
    meant.Agrees ("graph" :: seen) { numbers with graph := meant.graph } :=
  ⟨fun _ => rfl, by simpa using h.state, by simpa using h.picked⟩

theorem Numbers.Agrees.store_state (h : meant.Agrees seen numbers) :
    meant.Agrees ("state" :: seen) { numbers with state := meant.state } :=
  ⟨by simpa using h.graph, fun _ => rfl, by simpa using h.picked⟩

theorem Numbers.Agrees.store_picked (h : meant.Agrees seen numbers) {key : String}
    (hkey : key = "states" ∨ key = "nodes") :
    meant.Agrees (key :: seen) { numbers with picked := meant.picked } := by
  refine ⟨?_, ?_, fun _ => rfl⟩
  · rcases hkey with rfl | rfl <;> simpa using h.graph
  · rcases hkey with rfl | rfl <;> simpa using h.state

/-- The numbers of selected states are taken from their members, wherever these stand. -/
theorem decode_statesShape (meant : Numbers) (hkeys : (members.map Prod.fst).Nodup)
    (hgraph : ("graph", .nat meant.graph) ∈ members)
    (hpicked : ("states", .arr (meant.picked.map .nat)) ∈ members)
    (hword : meant.graph < wordCount) (hwords : ∀ n ∈ meant.picked, n < wordCount) :
    ∃ numbers, statesShape.decode (.ofJson (.obj members)) = .ok numbers ∧
      numbers.graph = meant.graph ∧ numbers.picked = meant.picked := by
  have hreadGraph := Draft.index_ofJson.mpr ⟨rfl, hword⟩
  have hreadPicked := Draft.list_index_ofJson hwords
  have hgraphKey : "graph" ∈ members.map Prod.fst := List.mem_map.mpr ⟨_, hgraph, rfl⟩
  have hpickedKey : "states" ∈ members.map Prod.fst := List.mem_map.mpr ⟨_, hpicked, rfl⟩
  have hrun := statesShape.decode_of_stored (meant.agrees_nil _) hkeys ?_ ?_
  · obtain ⟨numbers, met, hdecoded, hagrees, hmet⟩ := hrun
    simp only [statesShape, List.forall_mem_cons] at hmet
    exact ⟨numbers, hdecoded, hagrees.graph (hmet.1 hgraphKey),
      hagrees.picked (.inl (hmet.2.1 hpickedKey))⟩
  · simp only [statesShape, List.forall_mem_cons]
    exact ⟨fun _ => hgraphKey, fun _ => hpickedKey, by simp⟩
  · simp only [statesShape, List.forall_mem_cons]
    exact ⟨fun _ hv _ numbers h =>
        ⟨_, RecordField.needed_store hkeys hgraph hreadGraph hv numbers, h.store_graph⟩,
      fun _ hv _ numbers h => ⟨_, RecordField.needed_store hkeys hpicked hreadPicked hv numbers,
        h.store_picked (.inl rfl)⟩, by simp⟩

/-- The numbers of selected nodes are taken from their members, wherever these stand. -/
theorem decode_nodesShape (meant : Numbers) (hkeys : (members.map Prod.fst).Nodup)
    (hgraph : ("graph", .nat meant.graph) ∈ members)
    (hstate : ("state", .nat meant.state) ∈ members)
    (hpicked : ("nodes", .arr (meant.picked.map .nat)) ∈ members)
    (hword : meant.graph < wordCount) (hstateWord : meant.state < wordCount)
    (hwords : ∀ n ∈ meant.picked, n < wordCount) :
    ∃ numbers, nodesShape.decode (.ofJson (.obj members)) = .ok numbers ∧
      numbers.graph = meant.graph ∧ numbers.state = meant.state ∧
        numbers.picked = meant.picked := by
  have hreadGraph := Draft.index_ofJson.mpr ⟨rfl, hword⟩
  have hreadState := Draft.index_ofJson.mpr ⟨rfl, hstateWord⟩
  have hreadPicked := Draft.list_index_ofJson hwords
  have hgraphKey : "graph" ∈ members.map Prod.fst := List.mem_map.mpr ⟨_, hgraph, rfl⟩
  have hstateKey : "state" ∈ members.map Prod.fst := List.mem_map.mpr ⟨_, hstate, rfl⟩
  have hpickedKey : "nodes" ∈ members.map Prod.fst := List.mem_map.mpr ⟨_, hpicked, rfl⟩
  have hrun := nodesShape.decode_of_stored (meant.agrees_nil _) hkeys ?_ ?_
  · obtain ⟨numbers, met, hdecoded, hagrees, hmet⟩ := hrun
    simp only [nodesShape, List.forall_mem_cons] at hmet
    exact ⟨numbers, hdecoded, hagrees.graph (hmet.1 hgraphKey), hagrees.state (hmet.2.1 hstateKey),
      hagrees.picked (.inr (hmet.2.2.1 hpickedKey))⟩
  · simp only [nodesShape, List.forall_mem_cons]
    exact ⟨fun _ => hgraphKey, fun _ => hstateKey, fun _ => hpickedKey, by simp⟩
  · simp only [nodesShape, List.forall_mem_cons]
    exact ⟨fun _ hv _ numbers h =>
        ⟨_, RecordField.needed_store hkeys hgraph hreadGraph hv numbers, h.store_graph⟩,
      fun _ hv _ numbers h =>
        ⟨_, RecordField.needed_store hkeys hstate hreadState hv numbers, h.store_state⟩,
      fun _ hv _ numbers h => ⟨_, RecordField.needed_store hkeys hpicked hreadPicked hv numbers,
        h.store_picked (.inr rfl)⟩, by simp⟩

/-- The kind is taken from its member, and the other members go to the decoder of that kind. -/
theorem decode_ofJson {kind : Kind} {name : String} (hkeys : (members.map Prod.fst).Nodup)
    (hmem : ("kind", .str name) ∈ members) (hkind : Kind.decode (.text (some name)) = .ok kind) :
    decode (.ofJson (.obj members)) =
      decodeRest kind (.ofJson (.obj (members.without "kind"))) := by
  have hfind := Draft.find?_ofMembers hkeys hmem
  have hrest := Draft.filter_ofMembers members "kind"
  rw [Draft.ofJson, Draft.ofJson, ← hrest]
  simp only [decode, hfind, Draft.ofJson, hkind]
  rfl

end Members

/-- An object is decoded by its members in any order, and an array by its items in their order. -/
theorem decodeAs_of_spells {document : Json} {selection : SelectedSubgraph}
    (h : Spells document selection) : document.decodeAs decode = .ok selection := by
  -- The kind is read first, wherever it stands, and the shape of that kind then reads the others.
  have hrest : ∀ {members : Fields}, (members.map Prod.fst).Nodup →
      ((members.without "kind").map Prod.fst).Nodup := fun hkeys =>
    hkeys.sublist (List.filter_sublist.map Prod.fst)
  have hother : ∀ {members : Fields} {key : String} {v : Json}, (key, v) ∈ members →
      key ≠ "kind" → (key, v) ∈ members.without "kind" := fun hmem hne =>
    List.mem_filter.mpr ⟨hmem, by simpa using hne⟩
  cases h with
  | @states members graph places hkeys hkind hgraph hplaces hwords =>
      obtain ⟨numbers, hread, rfl, rfl⟩ := decode_statesShape ⟨graph, 0, places⟩ (hrest hkeys)
        (hother hgraph (by decide)) (hother hplaces (by decide)) hwords.1 hwords.2
      rw [Json.decodeAs, decode_ofJson hkeys hkind rfl, decodeRest, hread]
  | @nodes members graph place indices hkeys hkind hgraph hplace hindices hwords =>
      obtain ⟨numbers, hread, rfl, rfl, rfl⟩ := decode_nodesShape ⟨graph, place, indices⟩
        (hrest hkeys) (hother hgraph (by decide)) (hother hplace (by decide))
        (hother hindices (by decide)) hwords.1 hwords.2.1 hwords.2.2
      rw [Json.decodeAs, decode_ofJson hkeys hkind rfl, decodeRest, hread]
  | @stateItems graph places hwords =>
      have hg := Draft.index_ofJson.mpr ⟨rfl, hwords.1⟩
      have hp := Draft.list_index_ofJson hwords.2
      have hread : statesShape.decode (.array false (Draft.ofItems
          [.nat graph, .arr (places.map .nat)]) true) = .ok ⟨graph, 0, places⟩ := by
        simp [Draft.ofItems, RecordShape.decode, RecordShape.decodeItems, statesShape,
          RecordField.needed, hg, hp, Except.map]
      show decodeRest .states (.array false (Draft.ofItems
        [.nat graph, .arr (places.map .nat)]) true) = _
      rw [decodeRest, hread]
  | @nodeItems graph place indices hwords =>
      have hg := Draft.index_ofJson.mpr ⟨rfl, hwords.1⟩
      have hs := Draft.index_ofJson.mpr ⟨rfl, hwords.2.1⟩
      have hp := Draft.list_index_ofJson hwords.2.2
      have hread : nodesShape.decode (.array false (Draft.ofItems
          [.nat graph, .nat place, .arr (indices.map .nat)]) true) =
            .ok ⟨graph, place, indices⟩ := by
        simp [Draft.ofItems, RecordShape.decode, RecordShape.decodeItems, nodesShape,
          RecordField.needed, hg, hs, hp, Except.map]
      show decodeRest .nodes (.array false (Draft.ofItems
        [.nat graph, .nat place, .arr (indices.map .nat)]) true) = _
      rw [decodeRest, hread]

/-! ### Selections that were decoded -/

structure Numbers.IsWords (numbers : Numbers) : Prop where
  graph : numbers.graph < wordCount
  state : numbers.state < wordCount
  picked : ∀ n ∈ numbers.picked, n < wordCount

/-- Indices of a list are words if each of them was decoded. -/
theorem picked_lt {draft : Draft} {picked : List Nat}
    (h : Draft.list Draft.index draft = .ok picked) : ∀ n ∈ picked, n < wordCount :=
  Draft.list_keeps (fun _ _ => Draft.index_lt) h

theorem isWords_of_statesShape {draft : Draft} {numbers : Numbers}
    (h : statesShape.decode draft = .ok numbers) : numbers.IsWords := by
  refine RecordShape.decode_keeps ⟨by decide, by decide, nofun⟩ ?_ h
  simp only [statesShape, List.forall_mem_cons]
  exact ⟨RecordField.keeps_stored fun _ _ _ hn h => ⟨Draft.index_lt hn, h.state, h.picked⟩,
    RecordField.keeps_stored fun _ _ _ hn h => ⟨h.graph, h.state, picked_lt hn⟩, by simp⟩

theorem isWords_of_nodesShape {draft : Draft} {numbers : Numbers}
    (h : nodesShape.decode draft = .ok numbers) : numbers.IsWords := by
  refine RecordShape.decode_keeps ⟨by decide, by decide, nofun⟩ ?_ h
  simp only [nodesShape, List.forall_mem_cons]
  exact ⟨RecordField.keeps_stored fun _ _ _ hn h => ⟨Draft.index_lt hn, h.state, h.picked⟩,
    RecordField.keeps_stored fun _ _ _ hn h => ⟨h.graph, Draft.index_lt hn, h.picked⟩,
    RecordField.keeps_stored fun _ _ _ hn h => ⟨h.graph, h.state, picked_lt hn⟩, by simp⟩

/-- A selection is decoded to numbers that fit a word, whatever its kind. -/
theorem isWords_of_decodeRest {kind : Kind} {rest : Draft} {selection : SelectedSubgraph}
    (h : decodeRest kind rest = .ok selection) : selection.IsWords := by
  cases kind with
  | states =>
      unfold decodeRest at h
      dsimp only at h
      split at h
      next numbers hnumbers =>
        obtain rfl := Except.ok.inj h
        have hwords := isWords_of_statesShape hnumbers
        exact ⟨hwords.graph, hwords.picked⟩
      next => cases h
      next => cases h
  | nodes =>
      unfold decodeRest at h
      dsimp only at h
      split at h
      next numbers hnumbers =>
        obtain rfl := Except.ok.inj h
        have hwords := isWords_of_nodesShape hnumbers
        exact ⟨hwords.graph, hwords.state, hwords.picked⟩
      next => cases h
      next => cases h

theorem isWords_of_decode {draft : Draft} {selection : SelectedSubgraph}
    (h : decode draft = .ok selection) : selection.IsWords := by
  unfold decode at h
  split at h
  next =>
    split at h
    next => cases h
    next =>
      obtain ⟨kind, _, hrest⟩ := bind_eq_ok.mp h
      exact isWords_of_decodeRest hrest
  next => cases h
  next =>
    obtain ⟨kind, _, hrest⟩ := bind_eq_ok.mp h
    exact isWords_of_decodeRest hrest
  next => exact absurd h Draft.refuse_ne_ok

theorem spells_toJson {draft : Draft} {selection : SelectedSubgraph}
    (h : decode draft = .ok selection) : Spells selection.toJson selection := by
  have hwords := isWords_of_decode h
  cases selection with
  | states graph places =>
      exact .states (by simp) (by simp) (by simp) (by simp) hwords
  | nodes graph place indices =>
      exact .nodes (by simp) (by simp) (by simp) (by simp) (by simp) hwords

theorem reproduces : Reproduces decode toJson :=
  fun _ _ h => decodeAs_of_spells (spells_toJson h)

end SelectedSubgraph

/-! ## Analyses -/

namespace Analysis

/-- An analysis is spelled by its name, or by an object that maps its name to null. -/
inductive Spells : Json → Analysis → Prop
  | name (analysis : Analysis) : Spells (.str analysis.name) analysis
  | member (analysis : Analysis) : Spells (.obj [(analysis.name, .null)]) analysis

/-- A name stands for its analysis, alone or as the only key of an object. -/
theorem decodeAs_of_spells {document : Json} {analysis : Analysis} (h : Spells document analysis) :
    document.decodeAs decode = .ok analysis := by
  cases h <;> cases analysis <;> rfl

theorem reproduces : Reproduces decode toJson :=
  fun _ analysis _ => decodeAs_of_spells (.name analysis)

end Analysis

/-! ## Values of symbols -/

namespace AnalysisQuery

/-- Values of symbols are spelled by an object that holds them in any order, each symbol once. They
are told in the order of the symbols. -/
inductive SpellsValues : Json → List (String × Int) → Prop
  | members {entries values : List (String × Int)} : (entries.map Prod.fst).Nodup →
      (∀ entry ∈ entries, IsSignedWord entry.2) → values.Perm entries →
      values.Pairwise (fun a b => a.1 ≤ b.1) →
      SpellsValues (.obj (entries.map fun entry => (entry.1, .int entry.2))) values

/-- Entries with distinct names have one order. -/
theorem sortEntries_eq {entries values : List (String × Int)} (hkeys : (entries.map Prod.fst).Nodup)
    (hperm : values.Perm entries) (hsorted : values.Pairwise fun a b => a.1 ≤ b.1) :
    sortEntries entries = values := by
  have hboth : (sortEntries entries).Perm values := (List.mergeSort_perm entries _).trans hperm.symm
  have horder := (List.pairwise_mergeSort Json.keyOrder_trans Json.keyOrder_total entries).imp
    of_decide_eq_true
  refine hboth.eq_of_pairwise (fun a b ha hb hab hba => ?_) horder hsorted
  -- Two entries with one name are the same.
  have hentry := fun entry hmem => (hperm.mem_iff (a := entry)).mp hmem
  exact List.inj_on_of_nodup_map hkeys (hentry a (hboth.mem_iff.mp ha)) (hentry b hb)
    (String.le_antisymm hab hba)

/-- Values of symbols are decoded in the order of the symbols, however they are written. -/
theorem decodeValues_of_spells {document : Json} {values : List (String × Int)}
    (h : SpellsValues document values) : document.decodeAs decodeValues = .ok values := by
  cases h with
  | members hkeys hwords hperm hsorted =>
      refine map_eq_ok.mpr ⟨_, Draft.mapping_ofMembers (fun entry hentry => ?_) hkeys,
        sortEntries_eq hkeys hperm hsorted⟩
      have hword := hwords entry hentry
      exact Draft.integer_eq_ok.mpr ⟨rfl, hword.1, Int.le_sub_one_of_lt hword.2⟩

theorem spells_values {draft : Draft} {values : List (String × Int)}
    (h : decodeValues draft = .ok values) :
    SpellsValues (.obj (values.map fun entry => (entry.1, .int entry.2))) values := by
  obtain ⟨entries, hentries, rfl⟩ := map_eq_ok.mp h
  obtain ⟨hkeys, hwords⟩ := Draft.mapping_keeps (P := IsSignedWord) (fun _ value hvalue => by
    obtain ⟨_, hlow, hhigh⟩ := Draft.integer_eq_ok.mp hvalue
    exact ⟨hlow, Int.lt_of_le_sub_one hhigh⟩) hentries
  have hperm : (sortEntries entries).Perm entries := List.mergeSort_perm entries _
  refine .members ((hperm.map Prod.fst).nodup_iff.mpr hkeys)
    (fun entry hentry => hwords entry (hperm.mem_iff.mp hentry)) (List.Perm.refl _) ?_
  exact (List.pairwise_mergeSort Json.keyOrder_trans Json.keyOrder_total entries).imp
    of_decide_eq_true

/-- Values are kept in the order of their names, so they are written and found in it. -/
theorem reproduces_values : Reproduces decodeValues fun values =>
    .obj (values.map fun entry => (entry.1, .int entry.2)) :=
  fun _ _ h => decodeValues_of_spells (spells_values h)

end AnalysisQuery

end DataflowEditor
