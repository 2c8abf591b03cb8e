import DataflowEditor.Json.Decode

/-! # Decoding what was decoded

A draft may say a thing in several ways, but the value that is decoded from it is written in one.
A decoder reproduces a value if it decodes it again from the document that is written for it. This
carries over from parts to lists, mappings and optional parts, and a record that is decoded consists
of what its fields store.
-/

namespace DataflowEditor

/-! ## Results -/

theorem bind_eq_ok {ε α β : Type} {first : Except ε α} {next : α → Except ε β} {result : β} :
    first >>= next = .ok result ↔ ∃ value, first = .ok value ∧ next value = .ok result := by
  cases first <;> simp [bind, Except.bind]

@[simp]
theorem ok_bind {ε α β : Type} (value : α) (next : α → Except ε β) :
    Except.ok value >>= next = next value :=
  rfl

@[simp]
theorem error_bind {ε α β : Type} (error : ε) (next : α → Except ε β) :
    Except.error error >>= next = .error error :=
  rfl

/-- Another wording of the error makes no difference to a success. -/
theorem mapError_eq_ok {ε δ α : Type} {result : Except ε α} {change : ε → δ} {value : α} :
    result.mapError change = .ok value ↔ result = .ok value := by
  cases result with
  | error error => exact ⟨nofun, nofun⟩
  | ok found => exact ⟨fun h => Except.ok.inj h ▸ rfl, fun h => Except.ok.inj h ▸ rfl⟩

theorem map_eq_ok {ε α β : Type} {change : α → β} {result : Except ε α} {value : β} :
    result.map change = .ok value ↔ ∃ before, result = .ok before ∧ change before = value := by
  cases result <;> simp [Except.map]

/-- Where each step comes down to a condition and a value, so do all of them in turn. -/
theorem mapM_eq_ok_iff {α β ε : Type} {step : α → Except ε β} {admits : α → Prop}
    {result : α → β} (hstep : ∀ item found, step item = .ok found ↔
      admits item ∧ found = result item) (items : List α) (results : List β) :
    items.mapM step = .ok results ↔
      (∀ item ∈ items, admits item) ∧ results = items.map result := by
  induction items generalizing results with
  | nil => simp [pure, Except.pure, eq_comm]
  | cons item rest ih =>
      rw [List.mapM_cons, bind_eq_ok]
      constructor
      · rintro ⟨first, hfirst, hmore⟩
        obtain ⟨others, hothers, hpure⟩ := bind_eq_ok.mp hmore
        obtain ⟨hadmits, rfl⟩ := (hstep item first).mp hfirst
        obtain ⟨hall, rfl⟩ := (ih others).mp hothers
        cases hpure
        exact ⟨List.forall_mem_cons.mpr ⟨hadmits, hall⟩, rfl⟩
      · rintro ⟨hall, rfl⟩
        obtain ⟨hadmits, hrest⟩ := List.forall_mem_cons.mp hall
        refine ⟨result item, (hstep _ _).mpr ⟨hadmits, rfl⟩, ?_⟩
        rw [(ih _).mpr ⟨hrest, rfl⟩]
        rfl

/-! ## Keys -/

namespace Draft

variable {α : Type} {entries : List (String × α)} {key : String} {value : α}

theorem mem_putEntry {entry : String × α} (h : entry ∈ putEntry entries key value) :
    entry = (key, value) ∨ entry ∈ entries := by
  induction entries with
  | nil => simpa [putEntry] using h
  | cons first rest ih =>
      obtain ⟨k, v⟩ := first
      rw [putEntry] at h
      split at h
      next hk =>
        rcases List.mem_cons.mp h with rfl | hrest
        · exact .inl (by rw [hk])
        · exact .inr (List.mem_cons_of_mem _ hrest)
      next =>
        rcases List.mem_cons.mp h with rfl | hrest
        · exact .inr List.mem_cons_self
        · exact (ih hrest).imp_right (List.mem_cons_of_mem _)

theorem nodup_putEntry (h : (entries.map Prod.fst).Nodup) (key : String) (value : α) :
    ((putEntry entries key value).map Prod.fst).Nodup := by
  induction entries with
  | nil => simp [putEntry]
  | cons first rest ih =>
      obtain ⟨k, v⟩ := first
      obtain ⟨hk, hrest⟩ := List.nodup_cons.mp h
      rw [putEntry]
      split
      next => exact List.nodup_cons.mpr ⟨hk, hrest⟩
      next hne =>
        refine List.nodup_cons.mpr ⟨fun hmem => ?_, ih hrest⟩
        obtain ⟨entry, hentry, hfst⟩ := List.mem_map.mp hmem
        rcases mem_putEntry hentry with rfl | hold
        · exact hne hfst.symm
        · exact hk (List.mem_map.mpr ⟨entry, hold, hfst⟩)

theorem putEntry_of_notMem (h : key ∉ entries.map Prod.fst) :
    putEntry entries key value = entries ++ [(key, value)] := by
  induction entries with
  | nil => rfl
  | cons first rest ih =>
      obtain ⟨k, v⟩ := first
      simp only [List.map_cons, List.mem_cons, not_or] at h
      rw [putEntry, if_neg (Ne.symm h.1), ih h.2, List.cons_append]

end Draft

/-- Setting a member of an object with distinct keys drops no other member. -/
theorem Fields.put_eq_putEntry {fields : Fields} (h : (fields.map Prod.fst).Nodup) (key : String)
    (value : Json) : fields.put key value = Draft.putEntry fields key value := by
  induction fields with
  | nil => rfl
  | cons first rest ih =>
      obtain ⟨k, v⟩ := first
      obtain ⟨hk, hrest⟩ := List.nodup_cons.mp h
      rw [put, Draft.putEntry, ih hrest]
      split
      next heq =>
        have hkept : without rest key = rest := by
          refine List.filter_eq_self.mpr fun member hmember => decide_eq_true fun hsame => ?_
          exact hk (List.mem_map.mpr ⟨member, hmember, hsame.trans heq.symm⟩)
        rw [hkept]
      next => rfl

/-! ## Documents -/

namespace Json

mutual

/-- No object in the document has two members with one key. -/
def KeysDistinct : Json → Prop
  | .arr items => ItemsDistinct items
  | .obj members => (members.map Prod.fst).Nodup ∧ MembersDistinct members
  | _ => True

def ItemsDistinct : List Json → Prop
  | [] => True
  | v :: rest => v.KeysDistinct ∧ ItemsDistinct rest

def MembersDistinct : List (String × Json) → Prop
  | [] => True
  | (_, v) :: rest => v.KeysDistinct ∧ MembersDistinct rest

end

theorem itemsDistinct_iff {items : List Json} :
    ItemsDistinct items ↔ ∀ v ∈ items, v.KeysDistinct := by
  induction items with
  | nil => simp [ItemsDistinct]
  | cons v rest ih => simp [ItemsDistinct, ih]

theorem membersDistinct_iff {members : List (String × Json)} :
    MembersDistinct members ↔ ∀ member ∈ members, member.2.KeysDistinct := by
  induction members with
  | nil => simp [MembersDistinct]
  | cons member rest ih => simp [MembersDistinct, ih]

end Json

namespace Draft

mutual

/-- Of several members with one key a document keeps one. -/
theorem keysDistinct_of_json? : ∀ {draft : Draft} {document : Json},
    draft.json? = some document → document.KeysDistinct
  | .null, _, h | .bool _, _, h => by
      cases h
      simp [Json.KeysDistinct]
  | .number _, _, h | .text _, _, h => by
      obtain ⟨_, _, rfl⟩ := Option.map_eq_some_iff.mp h
      simp [Json.KeysDistinct]
  | .array deep items closed, _, h => by
      rw [json?] at h
      split at h
      · cases h
      · obtain ⟨found, hfound, rfl⟩ := Option.map_eq_some_iff.mp h
        exact Json.itemsDistinct_iff.mpr (itemsDistinct_of_itemsJson? (by simp) hfound)
  | .object deep members closed, _, h => by
      rw [json?] at h
      split at h
      · cases h
      · obtain ⟨found, hfound, rfl⟩ := Option.map_eq_some_iff.mp h
        have hdistinct := membersDistinct_of_membersJson? (by simp) (by simp) hfound
        exact ⟨hdistinct.1, Json.membersDistinct_iff.mpr hdistinct.2⟩
  | .broken, _, h => by cases h

theorem itemsDistinct_of_itemsJson? : ∀ {items : List Draft} {before found : List Json},
    (∀ v ∈ before, v.KeysDistinct) → itemsJson? before items = some found →
      ∀ v ∈ found, v.KeysDistinct
  | [], _, _, hbefore, h => by
      cases h
      simpa using hbefore
  | item :: rest, _, _, hbefore, h => by
      rw [itemsJson?] at h
      split at h
      next v hv =>
        exact itemsDistinct_of_itemsJson?
          (List.forall_mem_cons.mpr ⟨keysDistinct_of_json? hv, hbefore⟩) h
      next => cases h

theorem membersDistinct_of_membersJson? :
    ∀ {members : List (Option String × Draft)} {before found : Fields},
    (before.map Prod.fst).Nodup → (∀ member ∈ before, member.2.KeysDistinct) →
      membersJson? before members = some found →
        (found.map Prod.fst).Nodup ∧ ∀ member ∈ found, member.2.KeysDistinct
  | [], _, _, hkeys, hbefore, h => by
      cases h
      exact ⟨hkeys, hbefore⟩
  | (_, value) :: rest, _, _, hkeys, hbefore, h => by
      rw [membersJson?.eq_def] at h
      dsimp only at h
      split at h
      next key v hv =>
        rw [Fields.put_eq_putEntry hkeys] at h
        refine membersDistinct_of_membersJson? (nodup_putEntry hkeys key v)
          (fun member hmember => ?_) h
        rcases mem_putEntry hmember with rfl | hold
        · exact keysDistinct_of_json? hv
        · exact hbefore member hold
      next => cases h

end

mutual

/-- A document whose keys are distinct comes out of its draft as it is. -/
theorem json?_ofJson : ∀ {document : Json}, document.KeysDistinct →
    (ofJson document).json? = some document
  | .null, _ | .bool _, _ | .num _, _ | .str _, _ => rfl
  | .arr items, h => by
      rw [ofJson, json?, itemsJson?_ofItems h []]
      rfl
  | .obj members, h => by
      rw [ofJson, json?, membersJson?_ofMembers h.2 [] h.1]
      rfl

/-- The items of a document are taken over behind those before them. -/
theorem itemsJson?_ofItems : ∀ {items : List Json}, Json.ItemsDistinct items →
    ∀ before, itemsJson? before (ofItems items) = some (before.reverse ++ items)
  | [], _, before => by simp [ofItems, itemsJson?]
  | v :: rest, h, before => by
      rw [ofItems, itemsJson?, json?_ofJson h.1]
      simpa using itemsJson?_ofItems h.2 (v :: before)

/-- The members of a document are taken over behind those before them, if no key occurs twice. -/
theorem membersJson?_ofMembers : ∀ {members : List (String × Json)},
    Json.MembersDistinct members → ∀ before : Fields,
      ((before ++ members).map Prod.fst).Nodup →
        membersJson? before (ofMembers members) = some (before ++ members)
  | [], _, before, _ => by simp [ofMembers, membersJson?]
  | (key, v) :: rest, h, before, hkeys => by
      have hnew : key ∉ before.map Prod.fst := by
        rw [List.map_append, List.nodup_append] at hkeys
        exact fun hmem => hkeys.2.2 key hmem key (by simp) rfl
      have hrest := membersJson?_ofMembers h.2 (before ++ [(key, v)]) (by simpa using hkeys)
      have hbefore : (before.map Prod.fst).Nodup :=
        hkeys.sublist ((List.sublist_append_left _ _).map _)
      rw [ofMembers, membersJson?.eq_def]
      simpa [json?_ofJson h.1, Fields.put_eq_putEntry hbefore, putEntry_of_notMem hnew] using hrest

end

end Draft

/-! ## Documents that are skipped or taken apart -/

namespace Draft

mutual

/-- The outline of a document is whole. -/
theorem isOutlined_ofJson : ∀ document : Json, (ofJson document).isOutlined = true
  | .null | .bool _ | .num _ | .str _ => rfl
  | .arr items => by
      rw [ofJson, isOutlined, itemsOutlined_ofItems items, Bool.and_true]
  | .obj members => by
      rw [ofJson, isOutlined, membersOutlined_ofMembers members, Bool.and_true]

theorem itemsOutlined_ofItems : ∀ items : List Json, itemsOutlined (ofItems items) = true
  | [] => rfl
  | v :: rest => by
      rw [ofItems, itemsOutlined, isOutlined_ofJson v, itemsOutlined_ofItems rest, Bool.and_true]

theorem membersOutlined_ofMembers : ∀ members : List (String × Json),
    membersOutlined (ofMembers members) = true
  | [] => rfl
  | (_, v) :: rest => by
      rw [ofMembers, membersOutlined, isOutlined_ofJson v, membersOutlined_ofMembers rest,
        Bool.and_true]

end

/-- A document may always be skipped. -/
theorem skip_ofJson (document : Json) : skip (.ofJson document) = .ok () :=
  if_pos (isOutlined_ofJson document)

/-- The member of a key is found among members with distinct keys. -/
theorem find?_ofMembers {members : Fields} {key : String} {v : Json}
    (hkeys : (members.map Prod.fst).Nodup) (h : (key, v) ∈ members) :
    ((ofMembers members).find? fun member => member.1 = some key) =
      some (some key, .ofJson v) := by
  induction members with
  | nil => cases h
  | cons member rest ih =>
      obtain ⟨k, u⟩ := member
      obtain ⟨hk, hrest⟩ := List.nodup_cons.mp hkeys
      rcases List.mem_cons.mp h with heq | hmem
      · cases heq
        simp [ofMembers]
      · have hne : k ≠ key := fun heq => hk (heq ▸ List.mem_map.mpr ⟨_, hmem, rfl⟩)
        simpa [ofMembers, hne] using ih hrest hmem

/-- The members with other keys are the members of the document without that key. -/
theorem filter_ofMembers (members : Fields) (key : String) :
    ((ofMembers members).filter fun member => member.1 ≠ some key) =
      ofMembers (members.without key) := by
  induction members with
  | nil => rfl
  | cons member rest ih =>
      obtain ⟨k, u⟩ := member
      simp only [Fields.without] at ih ⊢
      by_cases hk : k = key
      · simpa [ofMembers, hk] using ih
      · simpa [ofMembers, hk] using ih

end Draft

/-! ## Decoders -/

namespace Draft

variable {α : Type} {decode : Decoder α} {encode : α → Json}

@[simp]
theorem string_ofJson (text : String) : string (.ofJson (.str text)) = .ok text :=
  rfl

@[simp]
theorem boolean_ofJson (value : Bool) : boolean (.ofJson (.bool value)) = .ok value :=
  rfl

theorem refuse_ne_ok {expected : String} {draft : Draft} {value : α} :
    draft.refuse expected ≠ .ok value := by
  rw [refuse]
  cases draft.found <;> simp [Except.bind]

theorem integer_eq_ok {low high value : Int} {expected : String} {draft : Draft} :
    integer low high expected draft = .ok value ↔
      draft = .number (some (.int value)) ∧ low ≤ value ∧ value ≤ high := by
  refine ⟨fun h => ?_, fun ⟨hdraft, hrange⟩ => hdraft ▸ if_pos hrange⟩
  unfold integer at h
  split at h
  next found =>
    split at h
    next hrange =>
      obtain rfl := Except.ok.inj h
      exact ⟨rfl, hrange⟩
    next => cases h
  next => exact absurd h refuse_ne_ok

/-! ### Lists -/

/-- What holds of all values that come out of a decoder holds of the values in a list. -/
theorem listItems_keeps {P : α → Prop} {closed : Bool} {items : List Draft} {place : Nat}
    {before values : List α} (hdecode : ∀ item value, decode item = .ok value → P value)
    (hbefore : ∀ value ∈ before, P value)
    (h : listItems decode closed place before items = .ok values) : ∀ value ∈ values, P value := by
  induction items generalizing place before with
  | nil =>
      rw [listItems] at h
      split at h
      next =>
        obtain rfl := Except.ok.inj h
        simpa using hbefore
      next => cases h
  | cons item rest ih =>
      rw [listItems] at h
      split at h
      next value hvalue =>
        exact ih (List.forall_mem_cons.mpr ⟨hdecode item value hvalue, hbefore⟩) h
      next => cases h

/-- A list is decoded again from what is written for its values. -/
theorem listItems_ofItems {values : List α}
    (h : ∀ value ∈ values, decode (ofJson (encode value)) = .ok value) (place : Nat)
    (before : List α) :
    listItems decode true place before (ofItems (values.map encode)) =
      .ok (before.reverse ++ values) := by
  induction values generalizing place before with
  | nil => simp [ofItems, listItems]
  | cons value rest ih =>
      obtain ⟨hvalue, hrest⟩ := List.forall_mem_cons.mp h
      rw [List.map_cons, ofItems, listItems, hvalue]
      simpa using ih hrest (place + 1) (value :: before)

theorem list_keeps {P : α → Prop} {draft : Draft} {values : List α}
    (hdecode : ∀ item value, decode item = .ok value → P value)
    (h : list decode draft = .ok values) : ∀ value ∈ values, P value := by
  unfold list at h
  split at h
  next =>
    split at h
    next => cases h
    next => exact listItems_keeps hdecode (by simp) h
  next => exact absurd h refuse_ne_ok

/-! ### Mappings -/

/-- A mapping that is decoded has no key twice, and the decoder of its values vouches for them. -/
theorem mapMembers_keeps {P : α → Prop} {closed : Bool} {members : List (Option String × Draft)}
    {before entries : List (String × α)} (hdecode : ∀ item value, decode item = .ok value → P value)
    (hkeys : (before.map Prod.fst).Nodup) (hbefore : ∀ entry ∈ before, P entry.2)
    (h : mapMembers decode closed before members = .ok entries) :
    (entries.map Prod.fst).Nodup ∧ ∀ entry ∈ entries, P entry.2 := by
  induction members generalizing before with
  | nil =>
      rw [mapMembers] at h
      split at h
      next =>
        obtain rfl := Except.ok.inj h
        exact ⟨hkeys, hbefore⟩
      next => cases h
  | cons member rest ih =>
      obtain ⟨_ | key, item⟩ := member
      · cases h
      · rw [mapMembers] at h
        split at h
        next value hvalue =>
          refine ih (nodup_putEntry hkeys key value) (fun entry hentry => ?_) h
          rcases mem_putEntry hentry with rfl | hold
          · exact hdecode item value hvalue
          · exact hbefore entry hold
        next => cases h

/-- A mapping is decoded again from what is written for its entries. -/
theorem mapMembers_ofMembers {entries : List (String × α)}
    (h : ∀ entry ∈ entries, decode (ofJson (encode entry.2)) = .ok entry.2)
    (before : List (String × α)) (hkeys : ((before ++ entries).map Prod.fst).Nodup) :
    mapMembers decode true before (ofMembers (entries.map fun entry => (entry.1, encode entry.2))) =
      .ok (before ++ entries) := by
  induction entries generalizing before with
  | nil => simp [ofMembers, mapMembers]
  | cons entry rest ih =>
      obtain ⟨key, value⟩ := entry
      obtain ⟨hvalue, hrest⟩ := List.forall_mem_cons.mp h
      have hnew : key ∉ before.map Prod.fst := by
        rw [List.map_append, List.nodup_append] at hkeys
        exact fun hmem => hkeys.2.2 key hmem key (by simp) rfl
      have hmore := ih hrest (before ++ [(key, value)]) (by simpa using hkeys)
      rw [List.map_cons, ofMembers, mapMembers, hvalue]
      simpa [putEntry_of_notMem hnew] using hmore

theorem mapping_keeps {P : α → Prop} {draft : Draft} {entries : List (String × α)}
    (hdecode : ∀ item value, decode item = .ok value → P value)
    (h : mapping decode draft = .ok entries) :
    (entries.map Prod.fst).Nodup ∧ ∀ entry ∈ entries, P entry.2 := by
  unfold mapping at h
  split at h
  next =>
    split at h
    next => cases h
    next => exact mapMembers_keeps hdecode (by simp) (by simp) h
  next => exact absurd h refuse_ne_ok

/-- An object of entries with distinct keys is decoded to these entries. -/
theorem mapping_ofMembers {entries : List (String × α)}
    (h : ∀ entry ∈ entries, decode (ofJson (encode entry.2)) = .ok entry.2)
    (hkeys : (entries.map Prod.fst).Nodup) :
    mapping decode (ofJson (.obj (entries.map fun entry => (entry.1, encode entry.2)))) =
      .ok entries :=
  mapMembers_ofMembers h [] hkeys

end Draft

/-! ## Reproducing -/

/-- Whatever is decoded from a draft, it is decoded again from the document written for it. -/
def Reproduces {α : Type} (decode : Decoder α) (encode : α → Json) : Prop :=
  ∀ ⦃draft value⦄, decode draft = .ok value → decode (.ofJson (encode value)) = .ok value

namespace Reproduces

variable {α β : Type} {decode : Decoder α} {encode : α → Json}

theorem integer (low high : Int) (expected : String) :
    Reproduces (Draft.integer low high expected) .int :=
  fun _ _ h => Draft.integer_eq_ok.mpr ⟨rfl, (Draft.integer_eq_ok.mp h).2⟩

theorem natural (expected : String) : Reproduces (Draft.natural expected) .nat := by
  intro draft value h
  obtain ⟨found, hfound, rfl⟩ := map_eq_ok.mp h
  obtain ⟨_, hlow, hhigh⟩ := Draft.integer_eq_ok.mp hfound
  refine map_eq_ok.mpr ⟨found, Draft.integer_eq_ok.mpr ⟨?_, hlow, hhigh⟩, rfl⟩
  rw [Json.nat, Draft.ofJson, Int.toNat_of_nonneg hlow]

theorem json : Reproduces Draft.json id := by
  intro draft document h
  unfold Draft.json at h
  split at h
  next hfound =>
    obtain rfl := Except.ok.inj h
    rw [Draft.json, id, Draft.json?_ofJson (Draft.keysDistinct_of_json? hfound)]
  next => cases h

theorem list (h : Reproduces decode encode) :
    Reproduces (Draft.list decode) fun values => .arr (values.map encode) :=
  fun _ _ hvalues => Draft.listItems_ofItems (Draft.list_keeps (fun _ _ hvalue => h hvalue) hvalues)
    0 []

theorem mapping (h : Reproduces decode encode) :
    Reproduces (Draft.mapping decode) fun entries =>
      .obj (entries.map fun entry => (entry.1, encode entry.2)) := by
  intro draft entries hentries
  obtain ⟨hkeys, hvalues⟩ := Draft.mapping_keeps (fun _ _ hvalue => h hvalue) hentries
  exact Draft.mapping_ofMembers hvalues hkeys

/-- A value that is there is not written as null, or else it was null that it was decoded from. -/
theorem optional (h : Reproduces decode encode)
    (hnull : ∀ ⦃draft value⦄, decode draft = .ok value → encode value = .null → draft = .null) :
    Reproduces (Draft.optional decode) fun value => (value.map encode).getD .null := by
  intro draft value hvalue
  unfold Draft.optional at hvalue
  split at hvalue
  next =>
    obtain rfl := Except.ok.inj hvalue
    rfl
  next hdraft =>
    obtain ⟨found, hfound, rfl⟩ := map_eq_ok.mp hvalue
    have hagain := h hfound
    show Draft.optional decode (.ofJson (encode found)) = _
    unfold Draft.optional
    split
    next hwritten =>
      cases hencode : encode found with
      | null => exact absurd (hnull hfound hencode) hdraft
      | _ => simp [hencode, Draft.ofJson] at hwritten
    next => rw [hagain]; rfl

end Reproduces

/-! ## Records -/

namespace RecordField

variable {α β : Type} {P : α → Prop}

/-- Storing the field keeps a property of the record. -/
def Keeps (field : RecordField α) (P : α → Prop) : Prop :=
  ∀ ⦃draft record next⦄, P record → field.store draft record = .ok next → P next

/-- Where a decoded value is put into the record, it is enough to look at such values. -/
theorem keeps_stored {name : String} {required : Bool} {decode : Decoder β} {set : α → β → α}
    (h : ∀ draft value record, decode draft = .ok value → P record → P (set record value)) :
    (RecordField.mk name required fun draft record => (decode draft).map (set record)).Keeps P := by
  intro draft record next hrecord hstore
  obtain ⟨value, hvalue, rfl⟩ := map_eq_ok.mp hstore
  exact h draft value record hvalue hrecord

end RecordField

namespace RecordShape

variable {α β : Type} {shape : RecordShape α} {P : α → Prop}

@[simp]
theorem decode_ofJson (members : Fields) : shape.decode (.ofJson (.obj members)) =
    shape.decodeMembers true shape.blank [] (Draft.ofMembers members) :=
  rfl

theorem eq_of_decodeMembers_nil {closed : Bool} {seen : List String} {record result : α}
    (h : shape.decodeMembers closed record seen [] = .ok result) : result = record := by
  rw [decodeMembers] at h
  split at h
  next => cases h
  next =>
    split at h
    next => cases h
    next => exact (Except.ok.inj h).symm

/-- A member is skipped if no field has its name. Else the field, which was not seen yet, stores
it. -/
theorem decodeMembers_cons {closed : Bool} {seen : List String} {record result : α} {key : String}
    {item : Draft} {rest : List (Option String × Draft)}
    (h : shape.decodeMembers closed record seen ((some key, item) :: rest) = .ok result) :
    ((∀ field ∈ shape.fields, field.name ≠ key) ∧
        shape.decodeMembers closed record seen rest = .ok result) ∨
      ∃ field ∈ shape.fields, ∃ next, field.name = key ∧ key ∉ seen ∧
        field.store item record = .ok next ∧
          shape.decodeMembers closed next (key :: seen) rest = .ok result := by
  rw [decodeMembers] at h
  split at h
  next hfind =>
    split at h
    next =>
      exact .inl ⟨fun field hfield => by simpa using List.find?_eq_none.mp hfind field hfield, h⟩
    next => cases h
  next field hfind =>
    split at h
    next => cases h
    next hseen =>
      split at h
      next next hnext =>
        exact .inr ⟨field, List.mem_of_find?_eq_some hfind, next,
          by simpa using List.find?_some hfind, by simpa using hseen, hnext, h⟩
      next => cases h

/-- What every field keeps is kept by all members, whatever their order. -/
theorem decodeMembers_keeps (hstore : ∀ field ∈ shape.fields, field.Keeps P) {closed : Bool}
    {members : List (Option String × Draft)} {seen : List String} {record result : α}
    (hrecord : P record) (h : shape.decodeMembers closed record seen members = .ok result) :
    P result := by
  induction members generalizing record seen with
  | nil => exact eq_of_decodeMembers_nil h ▸ hrecord
  | cons member rest ih =>
      obtain ⟨_ | key, item⟩ := member
      · cases h
      · rcases decodeMembers_cons h with ⟨_, hrest⟩ | ⟨field, hfield, next, _, _, hnext, hrest⟩
        · exact ih hrecord hrest
        · exact ih (hstore field hfield hrecord hnext) hrest

/-- What every field keeps is kept by all items. -/
theorem decodeItems_keeps {closed : Bool} {total place : Nat} {fields : List (RecordField α)}
    (hstore : ∀ field ∈ fields, field.Keeps P) {items : List Draft} {record result : α}
    (hrecord : P record)
    (h : shape.decodeItems closed total place record fields items = .ok result) : P result := by
  induction fields generalizing place record items with
  | nil =>
      cases items with
      | nil =>
          rw [decodeItems] at h
          split at h
          next => exact Except.ok.inj h ▸ hrecord
          next => cases h
      | cons item rest => cases h
  | cons field fields ih =>
      obtain ⟨hfield, hfields⟩ := List.forall_mem_cons.mp hstore
      cases items with
      | nil =>
          rw [decodeItems] at h
          split at h
          next => cases h
          next =>
            split at h
            next => cases h
            next => exact ih hfields hrecord h
      | cons item rest =>
          rw [decodeItems] at h
          split at h
          next next hnext => exact ih hfields (hfield hrecord hnext) h
          next => cases h

/-- What holds of the blank record and is kept by every field holds of a record that is decoded. -/
theorem decode_keeps (hblank : P shape.blank) (hstore : ∀ field ∈ shape.fields, field.Keeps P)
    {draft : Draft} {record : α} (h : shape.decode draft = .ok record) : P record := by
  unfold decode at h
  split at h
  next =>
    split at h
    next => cases h
    next => exact decodeMembers_keeps hstore hblank h
  next =>
    split at h
    next => cases h
    next => exact decodeItems_keeps hstore hblank h
  next => exact absurd h Draft.refuse_ne_ok

/-- A member that no field is named after is passed over. -/
theorem decodeMembers_of_unknown {closed : Bool} {seen : List String} {record : α} {key : String}
    {rest : List (Option String × Draft)} (hfind : shape.fields.find? (·.name = key) = none)
    (v : Json) : shape.decodeMembers closed record seen ((some key, .ofJson v) :: rest) =
      shape.decodeMembers closed record seen rest := by
  rw [decodeMembers, hfind]
  dsimp only
  rw [Draft.skip_ofJson]

/-- A member is stored by the field that is named after it, if it is the first of its name. -/
theorem decodeMembers_of_known {closed : Bool} {seen : List String} {record next : α}
    {field : RecordField α} {key : String} {item : Draft} {rest : List (Option String × Draft)}
    (hfind : shape.fields.find? (·.name = key) = some field) (hnew : key ∉ seen)
    (hnext : field.store item record = .ok next) :
    shape.decodeMembers closed record seen ((some key, item) :: rest) =
      shape.decodeMembers closed next (key :: seen) rest := by
  have hunseen : seen.contains key = false := by simpa using hnew
  rw [decodeMembers, hfind]
  dsimp only
  rw [hunseen, hnext]
  rfl

/-- A record is decoded from members with distinct keys if every field can store its member, where
it has one, and every field that is required has one. What is known of the record after the fields
that were seen is carried along. -/
theorem decodeMembers_of_stored {Q : List String → α → Prop} {members : Fields}
    {seen : List String} {record : α}
    (hstore : ∀ field ∈ shape.fields, ∀ v, (field.name, v) ∈ members → ∀ seen record,
      Q seen record → ∃ next, field.store (.ofJson v) record = .ok next ∧
        Q (field.name :: seen) next)
    (hneeded : ∀ field ∈ shape.fields, field.required = true →
      field.name ∈ seen ∨ field.name ∈ members.map Prod.fst)
    (hkeys : (members.map Prod.fst).Nodup) (hnew : ∀ key ∈ seen, key ∉ members.map Prod.fst)
    (hrecord : Q seen record) :
    ∃ result met, shape.decodeMembers true record seen (Draft.ofMembers members) = .ok result ∧
      Q met result ∧ ∀ field ∈ shape.fields,
        field.name ∈ seen ∨ field.name ∈ members.map Prod.fst → field.name ∈ met := by
  induction members generalizing seen record with
  | nil =>
      have hnone : shape.missing? seen = none := by
        rw [missing?, Option.map_eq_none_iff, List.find?_eq_none]
        intro field hfield
        simpa using hneeded field hfield
      refine ⟨record, seen, ?_, hrecord, fun field _ hmet => by simpa using hmet⟩
      simp [Draft.ofMembers, decodeMembers, hnone]
  | cons member rest ih =>
      obtain ⟨key, v⟩ := member
      obtain ⟨hkey, hrest⟩ := List.nodup_cons.mp hkeys
      have hunmet : ∀ name ∈ seen, name ∉ rest.map Prod.fst :=
        fun name hname hmem => hnew name hname (List.mem_cons_of_mem _ hmem)
      have hlater : ∀ field ∈ shape.fields, ∀ u, (field.name, u) ∈ rest → ∀ seen record,
          Q seen record → ∃ next, field.store (.ofJson u) record = .ok next ∧
            Q (field.name :: seen) next :=
        fun field hfield u hmem => hstore field hfield u (List.mem_cons_of_mem _ hmem)
      rw [Draft.ofMembers]
      cases hfind : shape.fields.find? (·.name = key) with
      | none =>
          -- A member that no field is named after is passed over.
          have hback : ∀ field ∈ shape.fields, field.name ∈ seen ∨
              field.name ∈ ((key, v) :: rest).map Prod.fst →
                field.name ∈ seen ∨ field.name ∈ rest.map Prod.fst := by
            intro field hfield hmet
            have hne : field.name ≠ key := by simpa using List.find?_eq_none.mp hfind field hfield
            exact hmet.imp_right fun hmem => (List.mem_cons.mp hmem).resolve_left hne
          obtain ⟨result, met, hdecoded, hresult, hmet⟩ := ih hlater
            (fun field hfield hrequired => hback field hfield (hneeded field hfield hrequired))
            hrest hunmet hrecord
          rw [decodeMembers_of_unknown hfind]
          exact ⟨result, met, hdecoded, hresult,
            fun field hfield h => hmet field hfield (hback field hfield h)⟩
      | some field =>
          obtain rfl : field.name = key := by simpa using List.find?_some hfind
          obtain ⟨next, hnext, hheld⟩ := hstore field (List.mem_of_find?_eq_some hfind) v
            List.mem_cons_self seen record hrecord
          have hback : ∀ name, name ∈ seen ∨ name ∈ ((field.name, v) :: rest).map Prod.fst →
              name ∈ field.name :: seen ∨ name ∈ rest.map Prod.fst := by
            intro name hmet
            simp only [List.map_cons, List.mem_cons] at hmet ⊢
            exact or_assoc.mpr (or_left_comm.mp hmet)
          obtain ⟨result, met, hdecoded, hresult, hmet⟩ := ih hlater
            (fun other hother hrequired => hback _ (hneeded other hother hrequired))
            hrest (List.forall_mem_cons.mpr ⟨hkey, hunmet⟩) hheld
          rw [decodeMembers_of_known hfind (fun hseen => hnew _ hseen List.mem_cons_self) hnext]
          exact ⟨result, met, hdecoded, hresult,
            fun other hother h => hmet other hother (hback _ h)⟩

/-- An object with distinct keys is decoded if its members can be stored and none that is required
is missing. -/
theorem decode_of_stored (shape : RecordShape α) {Q : List String → α → Prop} {members : Fields}
    (hblank : Q [] shape.blank) (hkeys : (members.map Prod.fst).Nodup)
    (hneeded : ∀ field ∈ shape.fields, field.required = true →
      field.name ∈ members.map Prod.fst)
    (hstore : ∀ field ∈ shape.fields, ∀ v, (field.name, v) ∈ members → ∀ seen record,
      Q seen record → ∃ next, field.store (.ofJson v) record = .ok next ∧
        Q (field.name :: seen) next) :
    ∃ result met, shape.decode (.ofJson (.obj members)) = .ok result ∧ Q met result ∧
      ∀ field ∈ shape.fields, field.name ∈ members.map Prod.fst → field.name ∈ met := by
  obtain ⟨result, met, hdecoded, hresult, hmet⟩ := decodeMembers_of_stored hstore
    (fun field hfield hrequired => .inr (hneeded field hfield hrequired)) hkeys (by simp) hblank
  exact ⟨result, met, hdecoded, hresult, fun field hfield hmem => hmet field hfield (.inr hmem)⟩

/-- A part of a record that a single field stores comes from the member of its name, if there is
one. No later member can change it, since a name stands for one member. -/
theorem decodeMembers_part (name : String) (part : α → β) (read : Json → β)
    (hknown : ∃ field ∈ shape.fields, field.name = name)
    (hfield : ∀ field ∈ shape.fields, field.name = name → ∀ v record next,
      field.store (.ofJson v) record = .ok next → part next = read v)
    (hothers : ∀ field ∈ shape.fields, field.name ≠ name →
      ∀ record, field.Keeps fun next => part next = part record)
    {members : Fields} {seen : List String} {record result : α}
    (h : shape.decodeMembers true record seen (Draft.ofMembers members) = .ok result) :
    part result =
      if name ∈ seen then part record else ((members.value? name).map read).getD (part record) := by
  induction members generalizing record seen with
  | nil => simp [Fields.value?, eq_of_decodeMembers_nil h]
  | cons member rest ih =>
      obtain ⟨key, v⟩ := member
      rcases decodeMembers_cons h with
        ⟨hunknown, hrest⟩ | ⟨field, hmem, next, hkey, hnew, hnext, hrest⟩
      · have hne : key ≠ name := by
          rintro rfl
          obtain ⟨field, hmem, hname⟩ := hknown
          exact hunknown field hmem hname
        rw [ih hrest, Fields.value?, if_neg hne]
      · rw [ih hrest]
        by_cases hname : key = name
        · -- The member is stored here, and a later one of its name would be seen again.
          rw [if_pos (by simp [hname]), if_neg (hname ▸ hnew), Fields.value?, if_pos hname]
          exact hfield field hmem (hkey.trans hname) v record next hnext
        · have hsame : part next = part record :=
            hothers field hmem (hkey ▸ hname) record rfl hnext
          rw [hsame, Fields.value?, if_neg hname]
          simp [Ne.symm hname]

end RecordShape

end DataflowEditor
