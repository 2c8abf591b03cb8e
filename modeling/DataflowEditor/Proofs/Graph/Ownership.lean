import DataflowEditor.Proofs.Graph.Addressing

/-! # The owner that is found and the owner on record

Which node owns a graph is told in two ways: by a search that descends from the root, and by what
the graph has on record. Locating a graph takes the first way and removing one the second. The
relation here says what a search finds without a bound on its depth. In a well-formed arena every
search ends, because the graphs below a node are walked, and finds what is on record.
-/

namespace DataflowEditor.Arena

variable {arena : Arena}

/-- Every node of the graph at an index that owns a graph, with the graph it owns. -/
def ownersAt (arena : Arena) (id : Nat) : List (Nat × Location) :=
  arena.graphs[id]?.elim [] (ownersIn id)

/-- What a search through the nodes in hand finds for a graph, each node before what lies below it
and that before the nodes behind. -/
inductive Finds (arena : Arena) (target : Nat) : List (Nat × Location) → Option Location → Prop
  | nowhere : Finds arena target [] none
  | here {location : Location} {behind : List (Nat × Location)} :
      Finds arena target ((target, location) :: behind) (some location)
  | inside {nested : Nat} {location found : Location} {behind : List (Nat × Location)} :
      nested ≠ target → Finds arena target (arena.ownersAt nested) (some found) →
      Finds arena target ((nested, location) :: behind) (some found)
  | behind {nested : Nat} {location : Location} {behind : List (Nat × Location)}
      {found : Option Location} :
      nested ≠ target → Finds arena target (arena.ownersAt nested) none →
      Finds arena target behind found →
      Finds arena target ((nested, location) :: behind) found

theorem ownersAt_fst (id : Nat) : (arena.ownersAt id).map Prod.fst = arena.childrenAt id := by
  rw [ownersAt, childrenAt]
  cases arena.graphs[id]? with
  | none => rfl
  | some graph => exact ownersIn_fst id graph

theorem owns_of_mem_ownersAt {id nested : Nat} {location : Location}
    (h : (nested, location) ∈ arena.ownersAt id) : arena.Owns location nested := by
  rw [ownersAt] at h
  cases hgraph : arena.graphs[id]? with
  | none => simp [hgraph] at h
  | some graph =>
      rw [hgraph, Option.elim_some] at h
      obtain ⟨rfl, _⟩ := mem_ownersIn.mp h
      exact owns_iff.mpr ⟨graph, hgraph, h⟩

/-- The bounded search through the nodes in hand. -/
def searchAmong (arena : Arena) (target fuel : Nat) (owners : List (Nat × Location)) :
    Option Location :=
  owners.findSome? fun (nested, location) =>
    if nested = target then some location else arena.searchOwner target fuel nested

/-- The search goes through the owner list of a graph, and below each entry. -/
theorem searchOwner_succ (target fuel id : Nat) :
    arena.searchOwner target (fuel + 1) id =
      arena.searchAmong target fuel (arena.ownersAt id) := by
  rw [searchOwner, ownersAt]
  cases arena.graphs[id]? with
  | none => rfl
  | some graph => rfl

namespace Finds

variable {target : Nat} {owners : List (Nat × Location)} {found other : Option Location}

/-- A search finds one thing. -/
theorem unique (h : arena.Finds target owners found) (hother : arena.Finds target owners other) :
    found = other := by
  induction h generalizing other with
  | nowhere => cases hother; rfl
  | here =>
      cases hother with
      | here => rfl
      | inside hne => exact absurd rfl hne
      | behind hne => exact absurd rfl hne
  | inside hne _ ih =>
      cases hother with
      | here => exact absurd rfl hne
      | inside _ hbelow => exact ih hbelow
      | behind _ hbelow => cases ih hbelow
  | behind hne _ _ ihbelow ihbehind =>
      cases hother with
      | here => exact absurd rfl hne
      | inside _ hbelow => cases ihbelow hbelow
      | behind _ _ hbehind => exact ihbehind hbehind

/-- What the search finds is the owner of what it looked for. -/
theorem owns {location : Location} (h : arena.Finds target owners (some location))
    (howners : ∀ owner ∈ owners, arena.Owns owner.2 owner.1) : arena.Owns location target := by
  generalize hfound : some location = found at h
  induction h with
  | nowhere => cases hfound
  | here =>
      cases hfound
      exact howners _ List.mem_cons_self
  | inside _ _ ih => exact ih (fun owner howner => owns_of_mem_ownersAt howner) hfound
  | behind _ _ _ _ ih =>
      exact ih (fun owner howner => howners owner (List.mem_cons_of_mem _ howner)) hfound

/-- A search that finds nothing has passed every graph of the walk. -/
theorem notMem_of_none {met : List Nat} (h : arena.Finds target owners none)
    (hwalk : Walks arena.childrenAt (owners.map Prod.fst) met) : target ∉ met := by
  generalize hfound : none = found at h
  induction h generalizing met with
  | nowhere =>
      cases hwalk
      exact List.not_mem_nil
  | here => cases hfound
  | inside => cases hfound
  | behind hne _ _ ihbelow ihbehind =>
      cases hwalk with
      | visit hrest =>
          rw [← ownersAt_fst] at hrest
          obtain ⟨front, back, rfl, hfront, hback⟩ := hrest.split
          simp [Ne.symm hne, ihbelow hfront rfl, ihbehind hback hfound]

/-- The bounded search finds the same if it may go as deep as there are graphs to meet. -/
theorem searchAmong_eq {met : List Nat} (h : arena.Finds target owners found)
    (hwalk : Walks arena.childrenAt (owners.map Prod.fst) met) {fuel : Nat}
    (hfuel : met.length ≤ fuel) : arena.searchAmong target fuel owners = found := by
  induction h generalizing met fuel with
  | nowhere => rfl
  | here => simp [searchAmong]
  | @inside nested location _ behind hne _ ih =>
      cases hwalk with
      | visit hrest =>
          rw [← ownersAt_fst] at hrest
          obtain ⟨front, back, rfl, hfront, _⟩ := hrest.split
          rw [List.length_cons, List.length_append] at hfuel
          obtain ⟨less, rfl⟩ := Nat.exists_eq_add_one.mpr (show 0 < fuel by omega)
          have hbelow := ih hfront (show front.length ≤ less by omega)
          rw [← searchOwner_succ] at hbelow
          simp [searchAmong, hne, hbelow]
  | @behind nested location behind _ hne _ _ ihbelow ihbehind =>
      cases hwalk with
      | visit hrest =>
          rw [← ownersAt_fst] at hrest
          obtain ⟨front, back, rfl, hfront, hback⟩ := hrest.split
          rw [List.length_cons, List.length_append] at hfuel
          obtain ⟨less, rfl⟩ := Nat.exists_eq_add_one.mpr (show 0 < fuel by omega)
          have hbelow := ihbelow hfront (show front.length ≤ less by omega)
          have hbehind := ihbehind hback (show back.length ≤ less + 1 by omega)
          rw [← searchOwner_succ] at hbelow
          rw [searchAmong] at hbehind ⊢
          simp [hne, hbelow, hbehind]

end Finds

/-- Where the graphs below the nodes in hand are walked, a search ends. -/
theorem exists_finds {owners : List (Nat × Location)} {met : List Nat} (target : Nat)
    (hwalk : Walks arena.childrenAt (owners.map Prod.fst) met) :
    ∃ found, arena.Finds target owners found := by
  generalize hcount : met.length = count
  induction count using Nat.strong_induction_on generalizing owners met with
  | _ count ih =>
      cases owners with
      | nil => exact ⟨none, .nowhere⟩
      | cons owner behind =>
          obtain ⟨nested, location⟩ := owner
          by_cases hne : nested = target
          · subst hne
            exact ⟨some location, .here⟩
          · cases hwalk with
            | visit hrest =>
                rw [← ownersAt_fst] at hrest
                obtain ⟨front, back, rfl, hfront, hback⟩ := hrest.split
                rw [List.length_cons, List.length_append] at hcount
                obtain ⟨below, hbelow⟩ := ih front.length (by omega) hfront rfl
                obtain ⟨found, hfound⟩ := ih back.length (by omega) hback rfl
                cases below with
                | none => exact ⟨found, .behind hne hbelow hfound⟩
                | some location => exact ⟨some location, .inside hne hbelow⟩

/-! ## Agreement -/

/-- Searching from the root and looking on record give every graph the same owner, so that a graph
is located with the node that it is removed with. -/
structure OwnersAgree (arena : Arena) : Prop where
  /-- A search from the root ends, and finds what is on record. -/
  found : ∀ id owner, arena.Finds id (arena.ownersAt 0) owner ↔ owner = arena.recordedOwner id
  /-- A bound on the depth of a search changes nothing if it is no less than the count of graphs. -/
  bounded : ∀ id fuel, arena.graphs.length ≤ fuel →
    arena.searchOwner id fuel 0 = arena.recordedOwner id
  root : arena.recordedOwner 0 = none
  beyond : ∀ id, arena.graphs.length ≤ id → arena.recordedOwner id = none
  owned : ∀ id, 0 < id → id < arena.graphs.length → ∃ location,
    arena.recordedOwner id = some location ∧ ∀ other, arena.Owns other id ↔ other = location
  /-- An address of a graph is dangling exactly if there is no such graph. -/
  located : ∀ id : Int, id < halfWordCount → arena.locate ⟨id, -1, -1, -1⟩ =
    if 0 ≤ id ∧ id < arena.graphs.length then
      .ok ⟨.graph id.toNat, (arena.recordedOwner id.toNat).map .ofLocation⟩
    else .error (.graphNotFound id)
  /-- Removing the node that a graph was located with removes the graph. -/
  erased : ∀ (id : Int) (element parent : Element), id < halfWordCount →
    arena.locate ⟨id, -1, -1, -1⟩ = .ok ⟨element, some parent⟩ →
      ∃ result, arena.erase element = .ok result ∧ arena.erase parent = .ok result

namespace WellFormed

/-- The graphs below the root are those behind it. -/
theorem walks_ownersAt (h : arena.WellFormed) : ∃ below,
    List.range arena.graphs.length = 0 :: below ∧
      Walks arena.childrenAt ((arena.ownersAt 0).map Prod.fst) below := by
  have hwalk := h.preorder
  generalize List.range arena.graphs.length = met at hwalk
  cases hwalk with
  | @visit _ _ below hbelow =>
      rw [List.append_nil, ← ownersAt_fst] at hbelow
      exact ⟨below, rfl, hbelow⟩

/-- The search from the root finds the recorded owner. -/
theorem finds_recordedOwner (h : arena.WellFormed) (id : Nat) :
    arena.Finds id (arena.ownersAt 0) (arena.recordedOwner id) := by
  obtain ⟨below, hrange, hwalk⟩ := h.walks_ownersAt
  obtain ⟨found, hfound⟩ := exists_finds id hwalk
  suffices hsame : found = arena.recordedOwner id from hsame ▸ hfound
  cases found with
  | some location =>
      have howns := hfound.owns fun owner howner => owns_of_mem_ownersAt howner
      exact (h.recordedOwner_eq_some_iff.mpr howns).symm
  | none =>
      -- What has an owner stands behind the root, and the search has passed all that does.
      cases hrecord : arena.recordedOwner id with
      | none => rfl
      | some location =>
          obtain ⟨hlt, hinside⟩ := h.lt_of_owns (h.recordedOwner_eq_some_iff.mp hrecord)
          have hmem : id ∈ 0 :: below := hrange ▸ List.mem_range.mpr hinside
          have hbelow := (List.mem_cons.mp hmem).resolve_left (by omega)
          exact absurd hbelow (hfound.notMem_of_none hwalk)

/-- So does the search with a bound, once the bound is the number of graphs. -/
theorem searchOwner_eq (h : arena.WellFormed) (id : Nat) {fuel : Nat}
    (hfuel : arena.graphs.length ≤ fuel) :
    arena.searchOwner id fuel 0 = arena.recordedOwner id := by
  obtain ⟨below, hrange, hwalk⟩ := h.walks_ownersAt
  have hlength := congrArg List.length hrange
  rw [List.length_range, List.length_cons] at hlength
  obtain ⟨less, rfl⟩ := Nat.exists_eq_add_one.mpr (show 0 < fuel by omega)
  rw [searchOwner_succ]
  exact (h.finds_recordedOwner id).searchAmong_eq hwalk (by omega)

theorem recordedOwner_root (h : arena.WellFormed) : arena.recordedOwner 0 = none := by
  obtain ⟨root, hgraph, hnone⟩ := Option.map_eq_some_iff.mp h.root
  rw [recordedOwner, hgraph, Option.bind_some, hnone]

/-- The address of a graph leads to it and to the node that owns it, if there is such a graph. -/
theorem locate_graph (h : arena.WellFormed) {id : Int} (hid : id < halfWordCount) :
    arena.locate ⟨id, -1, -1, -1⟩ =
      if 0 ≤ id ∧ id < arena.graphs.length then
        .ok ⟨.graph id.toNat, (arena.recordedOwner id.toNat).map .ofLocation⟩
      else .error (.graphNotFound id) := by
  by_cases hneg : id < 0
  · rw [locate, if_pos hneg, if_neg (by omega)]
  · obtain ⟨place, rfl⟩ := Int.eq_ofNat_of_zero_le (Int.not_lt.mp hneg)
    have hfits : (Element.graph place).FitsWords := Int.ofNat_lt.mp hid
    have haddress : (Element.graph place).address = ⟨place, -1, -1, -1⟩ := Element.address_eq hfits
    rw [← haddress]
    by_cases hinside : place < arena.graphs.length
    · have hlive : arena.contains (.graph place) = true :=
        contains_graph.mpr ⟨_, List.getElem?_eq_getElem hinside⟩
      rw [h.locate_live hfits hlive, if_pos ⟨by omega, by omega⟩]
      rfl
    · rw [h.locate_eq hfits, Element.graphIndex,
        List.getElem?_eq_none (Nat.le_of_not_lt hinside), if_neg (by omega)]

/-- A graph goes with the node that it has on record. -/
theorem erase_graph (h : arena.WellFormed) {id : Nat} {location : Location}
    (hrecord : arena.recordedOwner id = some location) :
    arena.erase (.graph id) = arena.erase (.ofLocation location) := by
  have hinside := (h.lt_of_owns (h.recordedOwner_eq_some_iff.mp hrecord)).2
  rw [Arena.erase, graph_eq_ok.mpr (List.getElem?_eq_getElem hinside), ok_bind, hrecord]
  rfl


/-- On a well-formed arena the search, the records and the nesting name the same owners. -/
theorem ownersAgree (h : arena.WellFormed) : arena.OwnersAgree where
  found := fun id owner =>
    ⟨fun hfound => hfound.unique (h.finds_recordedOwner id), fun heq => heq ▸
      h.finds_recordedOwner id⟩
  bounded := fun id _ hfuel => h.searchOwner_eq id hfuel
  root := h.recordedOwner_root
  beyond := fun id hid => by rw [recordedOwner, List.getElem?_eq_none hid, Option.bind_none]
  owned := h.owned
  located := fun _ hid => h.locate_graph hid
  erased := by
    intro id element parent hid hlocated
    rw [h.locate_graph hid] at hlocated
    split at hlocated
    next hinside =>
      obtain ⟨rfl, hparent⟩ := Located.mk.inj (Except.ok.inj hlocated)
      obtain ⟨location, hrecord, rfl⟩ := Option.map_eq_some_iff.mp hparent
      obtain ⟨node, hnode, _⟩ := h.recordedOwner_eq_some_iff.mp hrecord
      rw [h.erase_graph hrecord, Element.ofLocation, Arena.erase, Arena.eraseNode, hnode]
      exact ⟨_, rfl, rfl⟩
    next => cases hlocated

end WellFormed

/-- After every run of edits the two ways to the owner of a graph agree. -/
theorem reachable_ownersAgree {document : Json} (hdocument : ofJson document = .ok arena)
    (edits : List Edit) : (arena.afterEdits edits).OwnersAgree :=
  ((ofJson_wellFormed hdocument).afterEdits edits).ownersAgree

theorem nestedEdits_ownersAgree : ofJson nestedDocument = .ok nestedArena ∧
    (nestedArena.afterEdits nestedEdits).OwnersAgree :=
  ⟨ofJson_nestedDocument, reachable_ownersAgree ofJson_nestedDocument nestedEdits⟩

end DataflowEditor.Arena
