import DataflowEditor.Proofs.Graph.Editing
import DataflowEditor.Proofs.Json.Fields
import Mathlib.Data.List.Induction

/-! # Places that stay

Any number of places may go from a list at once. The items at other places stay in order, each
lowered by the number of gone places below it. References by place follow. Removing one more place,
below all that are gone, is the same as removing it afterwards: lists, renamed places, edges and
fields agree.
-/

namespace DataflowEditor

/-- The items whose places are not gone, in order. -/
def keep {α : Type} (gone : Nat → Bool) (items : List α) : List α :=
  (items.zipIdx.filter fun item => !gone item.2).map Prod.fst

/-- How many of the places below are gone. -/
def goneBelow (gone : Nat → Bool) (place : Nat) : Nat :=
  (List.range place).countP gone

/-- Where a place is found after others are gone: lower by the number of those below it. A place
that is gone itself is found nowhere. -/
def lowerPlace (gone : Nat → Bool) (place : Nat) : Option Nat :=
  if gone place then none else some (place - goneBelow gone place)

/-- One more place is gone. -/
def orPlace (gone : Nat → Bool) (removed : Nat) (place : Nat) : Bool :=
  gone place || decide (place = removed)

variable {α β : Type} {gone other : Nat → Bool} {removed : Nat}

/-! ## Renamed places -/

theorem goneBelow_succ (place : Nat) :
    goneBelow gone (place + 1) = goneBelow gone place + if gone place then 1 else 0 := by
  rw [goneBelow, List.range_succ, List.countP_append, List.countP_singleton, goneBelow]

theorem goneBelow_eq_zero {place : Nat} (h : ∀ below < place, gone below = false) :
    goneBelow gone place = 0 := by
  apply List.countP_eq_zero.mpr
  intro below hbelow
  simp [h below (List.mem_range.mp hbelow)]

theorem goneBelow_le_self (gone : Nat → Bool) (place : Nat) : goneBelow gone place ≤ place := by
  have hcount := List.countP_le_length (l := List.range place) (p := gone)
  rwa [List.length_range] at hcount

/-- Only the places above the removed one count. -/
theorem goneBelow_le {place : Nat} (h : ∀ below ≤ removed, gone below = false)
    (hplace : removed < place) : goneBelow gone place + removed + 1 ≤ place := by
  induction place with
  | zero => omega
  | succ place ih =>
      rw [goneBelow_succ]
      rcases Nat.lt_or_ge removed place with hlt | hge
      · have hrest := ih hlt
        split <;> omega
      · have hnone : goneBelow gone place = 0 :=
          goneBelow_eq_zero fun below hbelow => h below (by omega)
        have hself := h place (by omega)
        simp only [hself, Bool.false_eq_true, if_false]
        omega

/-- One more place is gone below for all places behind the one removed. -/
theorem goneBelow_orPlace (h : gone removed = false) (place : Nat) :
    goneBelow (orPlace gone removed) place =
      goneBelow gone place + if removed < place then 1 else 0 := by
  induction place with
  | zero => rfl
  | succ place ih =>
      rw [goneBelow_succ, goneBelow_succ, ih, orPlace]
      by_cases heq : place = removed
      · subst heq
        simp [h]
      · have hlt : removed < place + 1 ↔ removed < place := by omega
        simp only [heq, decide_false, Bool.or_false, hlt]
        omega

/-- A place that stays is lowered once more if one below it goes afterwards. -/
theorem lowerPlace_orPlace (h : ∀ below ≤ removed, gone below = false) (place : Nat) :
    lowerPlace (orPlace gone removed) place =
      (lowerPlace gone place).bind (shiftPlace removed) := by
  have hself := h removed (Nat.le_refl removed)
  rw [lowerPlace, lowerPlace, goneBelow_orPlace hself]
  by_cases heq : place = removed
  · subst heq
    have hnone := goneBelow_eq_zero fun below hbelow => h below (Nat.le_of_lt hbelow)
    simp [orPlace, hself, hnone, shiftPlace]
  · simp only [orPlace, heq, decide_false, Bool.or_false]
    split
    · rfl
    · rw [Option.bind_some, shiftPlace]
      by_cases hlt : removed < place
      · have hle := goneBelow_le h hlt
        have hne : place - goneBelow gone place ≠ removed := by omega
        have hbelow : removed < place - goneBelow gone place := by omega
        simp only [hne, if_false, hbelow, if_true, hlt, Nat.sub_add_eq]
      · have hnone := goneBelow_eq_zero fun below (hbelow : below < place) => h below (by omega)
        simp [hnone, heq, hlt]

theorem lowerPlace_of_gone (gone : Nat → Bool) {place : Nat} (h : gone place = true) :
    lowerPlace gone place = none := by
  rw [lowerPlace, h, if_pos rfl]

/-- A place that stays moves up by as many as are gone below it. -/
theorem lowerPlace_of_stays (gone : Nat → Bool) {place : Nat} (h : gone place = false) :
    lowerPlace gone place = some (place - goneBelow gone place) := by
  rw [lowerPlace, h, if_neg Bool.false_ne_true]

theorem lowerPlace_of_none (h : ∀ place, gone place = false) : lowerPlace gone = some := by
  funext place
  simp [lowerPlace, h place, goneBelow_eq_zero fun below _ => h below]

theorem le_of_lowerPlace {place next : Nat} (h : lowerPlace gone place = some next) :
    next ≤ place := by
  unfold lowerPlace at h
  split at h
  · cases h
  · cases h
    exact Nat.sub_le place _

/-! ## Lists -/

theorem keep_nil : keep gone ([] : List α) = [] :=
  rfl

/-- The first item is kept or not, and the rest is looked at from there. -/
theorem keep_cons (item : α) (rest : List α) : keep gone (item :: rest) =
    if gone 0 then keep (fun place => gone (place + 1)) rest
    else item :: keep (fun place => gone (place + 1)) rest := by
  have hrest : ((rest.zipIdx 1).filter fun entry => !gone entry.2).map Prod.fst =
      keep (fun place => gone (place + 1)) rest := by
    rw [keep, List.zipIdx_succ, List.filter_map, List.map_map]
    rfl
  rw [keep, List.zipIdx_cons, List.filter_cons]
  cases gone 0 <;> simp [hrest]

/-- It makes no difference what is said of places beyond the list. -/
theorem keep_congr {items : List α} (h : ∀ place < items.length, gone place = other place) :
    keep gone items = keep other items := by
  rw [keep, keep]
  congr 1
  apply List.filter_congr
  intro entry hentry
  rw [h entry.2 (List.snd_lt_of_mem_zipIdx hentry)]

theorem keep_of_none {items : List α} (h : ∀ place, gone place = false) :
    keep gone items = items := by
  rw [keep, List.filter_eq_self.mpr fun entry _ => by simp [h entry.2], List.zipIdx_map_fst]

/-- Items may be changed before the others go, or after. -/
theorem map_keep (gone : Nat → Bool) (change : α → β) (items : List α) :
    (keep gone items).map change = keep gone (items.map change) := by
  rw [keep, keep, List.zipIdx_map, List.filter_map, List.map_map, List.map_map]
  rfl

theorem keep_sublist (gone : Nat → Bool) (items : List α) : (keep gone items).Sublist items := by
  have hsublist := (List.filter_sublist (l := items.zipIdx) (p := fun entry => !gone entry.2)).map
    Prod.fst
  rwa [List.zipIdx_map_fst] at hsublist

theorem mem_keep {items : List α} {item : α} :
    item ∈ keep gone items ↔ ∃ place, items[place]? = some item ∧ gone place = false := by
  rw [keep, List.mem_map]
  constructor
  · rintro ⟨⟨_, place⟩, hmem, rfl⟩
    obtain ⟨hitem, hstays⟩ := List.mem_filter.mp hmem
    exact ⟨place, List.mk_mem_zipIdx_iff_getElem?.mp hitem, by simpa using hstays⟩
  · rintro ⟨place, hitem, hstays⟩
    exact ⟨(item, place), List.mem_filter.mpr
      ⟨List.mk_mem_zipIdx_iff_getElem?.mpr hitem, by simpa using hstays⟩, rfl⟩

/-- One more place is erased where it stands, if nothing below it is gone. -/
theorem keep_orPlace {items : List α} (h : ∀ below ≤ removed, gone below = false) :
    keep (orPlace gone removed) items = (keep gone items).eraseIdx removed := by
  induction items generalizing gone removed with
  | nil => rfl
  | cons item rest ih =>
      have hfirst := h 0 (Nat.zero_le removed)
      rw [keep_cons, keep_cons, hfirst, if_neg Bool.false_ne_true]
      cases removed with
      | zero =>
          have hself : orPlace gone 0 0 = true := by simp [orPlace]
          have hrest : keep (fun place => orPlace gone 0 (place + 1)) rest =
              keep (fun place => gone (place + 1)) rest :=
            keep_congr fun place _ => by simp [orPlace]
          rw [hself, if_pos rfl, hrest, List.eraseIdx_cons_zero]
      | succ removed =>
          have hself : orPlace gone (removed + 1) 0 = false := by simp [orPlace, hfirst]
          have hshift : (fun place => orPlace gone (removed + 1) (place + 1)) =
              orPlace (fun place => gone (place + 1)) removed := by
            funext place
            simp [orPlace]
          have hbehind : keep (orPlace (fun place => gone (place + 1)) removed) rest =
              (keep (fun place => gone (place + 1)) rest).eraseIdx removed :=
            ih fun below hbelow => h (below + 1) (by omega)
          rw [hself, if_neg Bool.false_ne_true, hshift, hbehind, List.eraseIdx_cons_succ]

theorem goneBelow_succ_left (place : Nat) : goneBelow gone (place + 1) =
    (if gone 0 then 1 else 0) + goneBelow (fun place => gone (place + 1)) place := by
  induction place with
  | zero => rw [goneBelow_succ]; simp [goneBelow]
  | succ place ih =>
      rw [goneBelow_succ, ih, goneBelow_succ]
      omega

/-- An item that stays is found at its lowered place. -/
theorem keep_getElem? (items : List α) {place next : Nat} (h : lowerPlace gone place = some next) :
    (keep gone items)[next]? = items[place]? := by
  induction items generalizing gone place next with
  | nil => rw [keep_nil, List.getElem?_nil, List.getElem?_nil]
  | cons item rest ih =>
      have hstays : gone place = false := by
        by_contra hgone
        simp [lowerPlace, hgone] at h
      rw [lowerPlace_of_stays gone hstays, Option.some.injEq] at h
      subst h
      cases place with
      | zero => rw [keep_cons, hstays]; rfl
      | succ place =>
          have hbehind := ih (lowerPlace_of_stays (fun place => gone (place + 1)) hstays)
          have hbelow := goneBelow_le_self (fun place => gone (place + 1)) place
          rw [keep_cons, goneBelow_succ_left, List.getElem?_cons_succ, ← hbehind]
          cases hfirst : gone 0 with
          | true => simp [Nat.add_comm 1, Nat.add_sub_add_right]
          | false =>
              rw [if_neg Bool.false_ne_true, if_neg Bool.false_ne_true, Nat.zero_add,
                Nat.sub_add_comm hbelow, List.getElem?_cons_succ]

/-- A place stays where it is if nothing goes up to it. -/
theorem lowerPlace_of_below {place : Nat} (h : ∀ below ≤ place, gone below = false) :
    lowerPlace gone place = some place := by
  have hnone := goneBelow_eq_zero fun below (hbelow : below < place) => h below (by omega)
  simp [lowerPlace, h place (Nat.le_refl place), hnone]

theorem lt_length_keep {items : List α} (h : ∀ below ≤ removed, gone below = false)
    (hremoved : removed < items.length) : removed < (keep gone items).length := by
  have hitem : (keep gone items)[removed]? = items[removed]? :=
    keep_getElem? items (lowerPlace_of_below h)
  rw [List.getElem?_eq_getElem hremoved] at hitem
  exact (List.getElem?_eq_some_iff.mp hitem).1

/-- Only what becomes of items that are kept makes a difference. -/
theorem keep_mapIdx_congr {items : List α} {first second : Nat → α → β}
    (h : ∀ place item, items[place]? = some item → gone place = false →
      first place item = second place item) :
    keep gone (items.mapIdx first) = keep gone (items.mapIdx second) := by
  induction items generalizing gone first second with
  | nil => rfl
  | cons item rest ih =>
      have hbehind : keep (fun place => gone (place + 1))
          (rest.mapIdx fun place => first (place + 1)) =
          keep (fun place => gone (place + 1)) (rest.mapIdx fun place => second (place + 1)) :=
        ih fun place item hitem => h (place + 1) item hitem
      rw [List.mapIdx_cons, List.mapIdx_cons, keep_cons, keep_cons, hbehind]
      split
      · rfl
      next hfirst => rw [h 0 item rfl (by simpa using hfirst)]

/-- It does not matter whether an item goes by its place or because nothing comes of it. -/
theorem filterMap_keep_congr {items : List α} {change : α → Option β}
    (h : ∀ place item, items[place]? = some item →
      gone place = other place ∨ change item = none) :
    (keep gone items).filterMap change = (keep other items).filterMap change := by
  induction items generalizing gone other with
  | nil => rfl
  | cons item rest ih =>
      have hbehind : (keep (fun place => gone (place + 1)) rest).filterMap change =
          (keep (fun place => other (place + 1)) rest).filterMap change :=
        ih fun place item hitem => h (place + 1) item hitem
      rw [keep_cons, keep_cons]
      rcases h 0 item rfl with hsame | hnone
      · rw [hsame]
        split
        · exact hbehind
        · rw [List.filterMap_cons, List.filterMap_cons, hbehind]
      · split <;> split <;> simp only [List.filterMap_cons, hnone, hbehind]

theorem keep_concat (front : List α) (last : α) : keep gone (front ++ [last]) =
    keep gone front ++ if gone front.length then [] else [last] := by
  rw [keep, keep, List.zipIdx_append, List.filter_append, List.map_append, Nat.zero_add]
  cases hlast : gone front.length <;> simp [hlast]

theorem length_keep (items : List α) :
    (keep gone items).length = items.length - goneBelow gone items.length := by
  induction items using List.reverseRecOn with
  | nil => rfl
  | append_singleton front last ih =>
      have hbelow := goneBelow_le_self gone front.length
      rw [keep_concat, List.length_append, ih, List.length_append, List.length_singleton,
        goneBelow_succ]
      cases gone front.length with
      | true => simp
      | false =>
          simp only [Bool.false_eq_true, if_false, List.length_singleton]
          omega

/-- The items that stay, each with its new place. -/
theorem zipIdx_keep (gone : Nat → Bool) (items : List α) : (keep gone items).zipIdx =
    items.zipIdx.filterMap fun entry =>
      (lowerPlace gone entry.2).map fun next => (entry.1, next) := by
  induction items using List.reverseRecOn with
  | nil => rfl
  | append_singleton front last ih =>
      rw [keep_concat, List.zipIdx_append, ih, List.zipIdx_append, List.filterMap_append,
        length_keep]
      cases hlast : gone front.length <;> simp [lowerPlace, hlast]

/-! ## Lists of places -/

/-- The places that stay become the first places. -/
theorem filterMap_lowerPlace_range (items : List α) :
    (List.range items.length).filterMap (lowerPlace gone) =
      List.range (keep gone items).length := by
  have hplaces := congrArg (List.map Prod.snd) (zipIdx_keep gone items)
  rw [List.zipIdx_map_snd, List.map_filterMap] at hplaces
  rw [List.range_eq_range', List.range_eq_range', hplaces, ← List.zipIdx_map_snd 0 items,
    List.filterMap_map]
  apply List.filterMap_congr
  intro entry _
  rw [Option.map_map]
  exact Option.map_id'.symm

/-- The items that are kept are those at the places that stay, in order. -/
theorem keep_eq_filterMap (items : List α) : keep gone items =
    ((List.range items.length).filter fun place => !gone place).filterMap fun place =>
      items[place]? := by
  induction items generalizing gone with
  | nil => rfl
  | cons item rest ih =>
      rw [keep_cons, ih, List.length_cons, List.range_succ_eq_map, List.filter_cons,
        List.filter_map]
      cases hfirst : gone 0 <;>
        simp [List.filterMap_map, Function.comp_def]

theorem keep_range (count : Nat) :
    keep gone (List.range count) = (List.range count).filter fun place => !gone place := by
  rw [keep_eq_filterMap, List.length_range]
  refine (List.filterMap_congr fun place hplace => ?_).trans List.filterMap_some
  exact List.getElem?_range (List.mem_range.mp (List.mem_filter.mp hplace).1)

/-- Among the places that stay, one is found at its lowered place. -/
theorem idxOf?_filter_range {count place : Nat} (h : place < count) :
    ((List.range count).filter fun place => !gone place).idxOf? place = lowerPlace gone place := by
  cases hgone : gone place with
  | true =>
      rw [lowerPlace_of_gone gone hgone, List.idxOf?_eq_none_iff]
      intro hmem
      simp [hgone] at hmem
  | false =>
      have hlowered := lowerPlace_of_stays gone hgone
      have hfound : (keep gone (List.range count))[place - goneBelow gone place]? =
          (List.range count)[place]? := keep_getElem? _ hlowered
      rw [keep_range, List.getElem?_range h] at hfound
      obtain ⟨hinside, hplace⟩ := List.getElem?_eq_some_iff.mp hfound
      have hindex := (List.nodup_range.filter fun place => !gone place).idxOf_getElem _ hinside
      rw [hplace] at hindex
      rw [Arena.idxOf?_of_mem (List.mem_of_getElem? hfound), hindex, hlowered]

/-- A sublist without repetition is what is picked by membership in it. -/
theorem filter_mem_of_sublist {first second : List Nat} (h : first.Sublist second)
    (hnodup : second.Nodup) : (second.filter fun id => decide (id ∈ first)) = first := by
  induction h with
  | slnil => rfl
  | @cons front back id hsub ih =>
      obtain ⟨hnot, hrest⟩ := List.nodup_cons.mp hnodup
      have hid : id ∉ front := fun hmem => hnot (hsub.subset hmem)
      rw [List.filter_cons, decide_eq_false hid, if_neg Bool.false_ne_true, ih hrest]
  | @cons_cons front back id hsub ih =>
      obtain ⟨hnot, hrest⟩ := List.nodup_cons.mp hnodup
      have hback : (back.filter fun other => decide (other ∈ id :: front)) =
          back.filter fun other => decide (other ∈ front) := by
        apply List.filter_congr
        intro other hother
        have hne : other ≠ id := fun heq => hnot (heq ▸ hother)
        simp [hne]
      rw [List.filter_cons, decide_eq_true List.mem_cons_self, if_pos rfl, hback, ih hrest]

/-! ## Edges -/

namespace Edge

theorem rename_some : rename some = some :=
  rfl

theorem rename_eq_none {name : Nat → Option Nat} {edge : Edge}
    (h : name edge.source = none ∨ name edge.target = none) : edge.rename name = none := by
  rcases h with hsource | htarget
  · simp [rename, hsource]
  · simp [rename, htarget]

/-- An edge that is renamed twice is renamed by both names in turn. -/
theorem rename_bind (first second : Nat → Option Nat) (edge : Edge) :
    (edge.rename first).bind (rename second) =
      edge.rename fun place => (first place).bind second := by
  cases hsource : first edge.source with
  | none => simp [rename, hsource]
  | some source =>
      cases htarget : first edge.target with
      | none => simp [rename, hsource, htarget]
      | some target => simp [rename, hsource, htarget]

theorem filterMap_rename (first second : Nat → Option Nat) (edges : List Edge) :
    (edges.filterMap (rename first)).filterMap (rename second) =
      edges.filterMap (rename fun place => (first place).bind second) := by
  rw [List.filterMap_filterMap]
  exact List.filterMap_congr fun edge _ => rename_bind first second edge

end Edge

/-! ## One more place -/

theorem le_of_shiftPlace {place next : Nat} (h : shiftPlace removed place = some next) :
    next ≤ place := by
  grind [shiftPlace]

/-- Removing one more element renames edges as if both had gone at once. -/
theorem filterMap_rename_orPlace (h : ∀ below ≤ removed, gone below = false) (edges : List Edge) :
    (edges.filterMap (Edge.rename (lowerPlace gone))).filterMap (Edge.rename (shiftPlace removed)) =
      edges.filterMap (Edge.rename (lowerPlace (orPlace gone removed))) := by
  rw [Edge.filterMap_rename]
  simp only [← lowerPlace_orPlace h]

/-- Removing one more element renames a field as if both had gone at once. -/
theorem Fields.renameIndex_orPlace (h : ∀ below ≤ removed, gone below = false) (fields : Fields)
    (key : String) {dangling : Option Json}
    (hdangling : ∀ value, dangling = some value → value.asIndex? = none) :
    (fields.renameIndex key (lowerPlace gone) dangling).renameIndex key (shiftPlace removed)
        dangling =
      fields.renameIndex key (lowerPlace (orPlace gone removed)) dangling := by
  rw [renameIndex_renameIndex (fun _ _ => le_of_lowerPlace) (fun _ _ => le_of_shiftPlace) hdangling]
  simp only [← lowerPlace_orPlace h]

/-- Removing one more node renames scopes as if both had gone at once. -/
theorem Node.renameScope_orPlace (h : ∀ below ≤ removed, gone below = false) (node : Node) :
    (node.renameScope (lowerPlace gone)).renameScope (shiftPlace removed) =
      node.renameScope (lowerPlace (orPlace gone removed)) := by
  have hnull : ∀ value, some Json.null = some value → value.asIndex? = none := by
    intro value hvalue
    cases hvalue
    rfl
  rw [renameScope, renameScope, renameScope, Node.mk.injEq]
  refine ⟨rfl, ?_⟩
  dsimp only
  rw [Fields.renameIndex_comm (show "scope_exit" ≠ "scope_entry" by decide),
    Fields.renameIndex_orPlace h _ _ hnull, Fields.renameIndex_orPlace h _ _ hnull]

theorem Node.renameScope_some : Node.renameScope some = id := by
  funext node
  rw [renameScope, Fields.renameIndex_some, Fields.renameIndex_some]
  rfl

end DataflowEditor
