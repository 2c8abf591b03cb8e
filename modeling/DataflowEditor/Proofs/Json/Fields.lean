import DataflowEditor.Graph.Edit
import DataflowEditor.Json.Canonical
import DataflowEditor.Proofs.Text.Integer
import Mathlib.Data.List.Basic
import Mathlib.Data.List.Nodup

/-! # Laws of members

What an object says is which values each key has. Setting a member and leaving one out change the
values of one key, so a chain of both is known by the values it leaves. Two objects in which every
key has the same values differ only in the order of members, and have one canonical form.
-/

namespace DataflowEditor

namespace Fields

/-! ## Setting and leaving out -/

variable (fields : Fields) (key other : String) (value again : Json)

@[simp]
theorem without_put_self : (fields.put key value).without key = fields.without key := by
  induction fields with
  | nil => simp [put, without]
  | cons member rest ih =>
      obtain ⟨k, v⟩ := member
      by_cases hk : k = key
      · simp [put, hk, without]
      · simpa [put, hk, without] using ih

theorem without_comm :
    (fields.without key).without other = (fields.without other).without key := by
  simp only [without, List.filter_filter, Bool.and_comm]

theorem without_put_of_ne (h : key ≠ other) :
    (fields.put key value).without other = (fields.without other).put key value := by
  induction fields with
  | nil => simp [put, without, h]
  | cons member rest ih =>
      obtain ⟨k, v⟩ := member
      by_cases hk : k = key
      · subst hk
        simp [put, without, h, List.filter_filter, Bool.and_comm]
      · by_cases hother : k = other
        · subst hother
          simpa [put, hk, without] using ih
        · simpa [put, hk, without, hother] using ih

/-- Of two values for a key the later counts. -/
@[simp]
theorem put_put_self : (fields.put key value).put key again = fields.put key again := by
  induction fields with
  | nil => simp [put, without]
  | cons member rest ih =>
      obtain ⟨k, v⟩ := member
      by_cases hk : k = key
      · simp [put, hk, without]
      · simpa [put, hk] using ih

/-- Members are set in any order, if one of them is there already. -/
theorem put_comm (hne : key ≠ other) (hkey : fields.has key = true) :
    (fields.put key value).put other again = (fields.put other again).put key value := by
  induction fields with
  | nil => cases hkey
  | cons member rest ih =>
      obtain ⟨k, v⟩ := member
      by_cases hk : k = key
      · subst hk
        simp [put, hne, without_put_of_ne _ _ _ _ (Ne.symm hne)]
      · by_cases hother : k = other
        · subst hother
          simp [put, hk, without_put_of_ne _ _ _ _ hne]
        · have hrest : has rest key = true := by simpa [has, value?, hk] using hkey
          simp [put, hk, hother, ih hrest]

/-! ## The values of a key -/

/-- The members with a key. -/
def members (fields : Fields) (key : String) : Fields :=
  fields.filter fun member => member.1 = key

/-- The values that a key has, in order. -/
def values (fields : Fields) (key : String) : List Json :=
  (fields.members key).map Prod.snd

theorem members_eq : fields.members key = (fields.values key).map (key, ·) := by
  rw [values, List.map_map]
  refine ((List.map_congr_left fun member hmember => ?_).trans (List.map_id _)).symm
  have hkey : member.1 = key := by simpa using (List.mem_filter.mp hmember).2
  rw [← hkey]
  rfl

theorem value?_eq_head? : fields.value? key = (fields.values key).head? := by
  induction fields with
  | nil => rfl
  | cons member rest ih =>
      obtain ⟨k, v⟩ := member
      by_cases hk : k = key
      · simp [value?, values, members, hk]
      · simpa [value?, values, members, hk] using ih

theorem values_without : (fields.without key).values other =
    if other = key then [] else fields.values other := by
  induction fields with
  | nil => simp [values, members, without]
  | cons member rest ih =>
      obtain ⟨k, v⟩ := member
      simp only [values, members, without, List.filter_cons] at ih ⊢
      grind

/-- Once it is set, a key has one value, and the values of other keys stay. -/
theorem values_put : (fields.put key value).values other =
    if other = key then [value] else fields.values other := by
  induction fields with
  | nil => by_cases h : key = other <;> simp [values, members, put, h, eq_comm]
  | cons member rest ih =>
      obtain ⟨k, v⟩ := member
      by_cases hk : k = key
      · subst hk
        have hwithout := values_without rest k other
        simp only [values, members, put, if_true, List.filter_cons] at hwithout ⊢
        grind
      · simp only [values, members, put, hk, if_false, List.filter_cons] at ih ⊢
        grind

theorem has_eq_of_values : fields.has key = !(fields.values key).isEmpty := by
  rw [has, value?_eq_head?]
  cases fields.values key <;> rfl

variable {fields key other value}

theorem values_eq_nil (h : fields.has key = false) : fields.values key = [] := by
  simpa [has_eq_of_values] using h

theorem has_put_of_ne (h : other ≠ key) : (fields.put key value).has other = fields.has other := by
  rw [has, has, value?_put_of_ne _ _ _ _ h]

/-- Setting the value that a key has, and has once, changes nothing. -/
theorem put_eq_self (h : fields.values key = [value]) :
    fields.put key value = fields := by
  induction fields with
  | nil => cases h
  | cons member rest ih =>
      obtain ⟨k, v⟩ := member
      by_cases hk : k = key
      · subst hk
        simp only [values, members, List.filter_cons, decide_true, if_true, List.map_cons,
          List.cons.injEq, List.map_eq_nil_iff, List.filter_eq_nil_iff, decide_eq_true_eq] at h
        obtain ⟨rfl, hrest⟩ := h
        have hwithout : without rest k = rest :=
          List.filter_eq_self.mpr fun other hother => decide_eq_true (hrest other hother)
        rw [put, if_pos rfl, hwithout]
      · rw [put, if_neg hk, ih (by simpa [values, members, hk] using h)]

/-! ## Texts and attributes -/

theorem text_congr {again : Fields} (h : fields.value? key = again.value? key) :
    fields.text key = again.text key := by
  rw [text, text, h]

theorem bind_asString?_eq_some {member : Option Json} {text : String} :
    member.bind Json.asString? = some text ↔ member = some (.str text) := by
  cases member with
  | none => simp
  | some value => cases value <;> simp [Json.asString?]

/-- A key has a text other than the empty one exactly if its value is that text. -/
theorem text_eq_iff {name : String} (hname : name ≠ "") :
    fields.text key = name ↔ (fields.value? key).bind Json.asString? = some name := by
  rw [text]
  cases (fields.value? key).bind Json.asString? with
  | none => simpa using hname.symm
  | some found => simp

/-- A change of the attributes leaves the other members as they are. -/
theorem value?_modifyAttributes_of_ne (change : Fields → Fields) (h : key ≠ "attributes") :
    (fields.modifyAttributes change).value? key = fields.value? key :=
  value?_put_of_ne _ _ _ _ h

/-- The attributes change as they are told to, from nothing if there were none. -/
theorem attributes_modifyAttributes (change : Fields → Fields) :
    ((fields.modifyAttributes change).value? "attributes").bind Json.asObject? =
      some (change (((fields.value? "attributes").bind Json.asObject?).getD [])) := by
  rw [modifyAttributes, value?_put_self]
  rfl

theorem modifyAttributes_modifyAttributes (first second : Fields → Fields) :
    (fields.modifyAttributes first).modifyAttributes second =
      fields.modifyAttributes fun attributes => second (first attributes) := by
  rw [modifyAttributes, attributes_modifyAttributes, modifyAttributes, put_put_self]
  rfl

end Fields

/-! ## Fields that hold a number -/

namespace Json

/-- A document is read as an integer exactly if it is one of 64 bits. -/
theorem asInt?_eq_some {document : Json} {i : Int} :
    document.asInt? = some i ↔ document = .int i ∧ IsSignedWord i := by
  constructor
  · intro h
    unfold asInt? at h
    split at h
    · split at h
      next hword =>
        cases h
        exact ⟨rfl, hword⟩
      next => cases h
    · cases h
  · rintro ⟨rfl, hword⟩
    exact if_pos hword

/-- A document is read as a number from zero up exactly if it is one that fits a word. -/
theorem asNat?_eq_some {document : Json} {n : Nat} :
    document.asNat? = some n ↔ document = .nat n ∧ n < wordCount := by
  constructor
  · intro h
    unfold asNat? at h
    split at h
    · split at h
      next hbounds =>
        cases h
        obtain ⟨n, rfl⟩ := Int.eq_ofNat_of_zero_le hbounds.1
        exact ⟨rfl, Int.ofNat_lt.mp hbounds.2⟩
      next => cases h
    · cases h
  · rintro ⟨rfl, hlt⟩
    rw [nat, asNat?, if_pos ⟨Int.natCast_nonneg n, Int.ofNat_lt.mpr hlt⟩, Int.toNat_natCast]

theorem asIndex?_lt {document : Json} {place : Nat} (h : document.asIndex? = some place) :
    place < wordCount := by
  unfold asIndex? at h
  split at h
  next text =>
    cases hread : Text.readUnsigned (wordCount - 1) text.toList with
    | error =>
        rw [hread] at h
        cases h
    | ok n =>
        rw [hread] at h
        cases h
        have hle := Text.readUnsigned_le hread
        simp only [wordCount] at hle ⊢
        omega
  next => exact (asNat?_eq_some.mp h).2

theorem asIndex?_decimal {n : Nat} (h : n < wordCount) :
    (Json.str (Text.decimal n)).asIndex? = some n := by
  rw [asIndex?, Text.readUnsigned_decimal (Nat.le_sub_one_of_lt h)]
  rfl

theorem asIndex?_reindexed (document : Json) {place : Nat} (h : place < wordCount) :
    (document.reindexed place).asIndex? = some place := by
  unfold reindexed
  split
  · exact asIndex?_decimal h
  · change (nat place).asNat? = some place
    exact asNat?_eq_some.mpr ⟨rfl, h⟩

/-- Of two places put in one after the other the later counts. -/
theorem reindexed_reindexed (document : Json) (place next : Nat) :
    (document.reindexed place).reindexed next = document.reindexed next := by
  cases document <;> rfl

end Json

namespace Fields

variable {fields : Fields} {key other : String} {first second : Nat → Option Nat}
  {dangling : Option Json}

/-- Renaming the element that a field names leaves the other fields as they are. -/
theorem value?_renameIndex_of_ne (name : Nat → Option Nat) (dangling : Option Json)
    (h : key ≠ other) :
    (fields.renameIndex other name dangling).value? key = fields.value? key := by
  unfold renameIndex
  repeat' split
  all_goals first | rfl | exact value?_put_of_ne _ _ _ _ h | exact value?_without_of_ne _ _ _ h

theorem renameIndex_some : fields.renameIndex key some dangling = fields := by
  unfold renameIndex
  repeat' split
  all_goals grind

/-- Renaming twice is renaming by both names in turn, if no place is ever raised. -/
theorem renameIndex_renameIndex (hfirst : ∀ place next, first place = some next → next ≤ place)
    (hsecond : ∀ place next, second place = some next → next ≤ place)
    (hdangling : ∀ value, dangling = some value → value.asIndex? = none) :
    (fields.renameIndex key first dangling).renameIndex key second dangling =
      fields.renameIndex key (fun place => (first place).bind second) dangling := by
  cases hvalue : fields.value? key with
  | none => simp [renameIndex, hvalue]
  | some current =>
      cases hindex : current.asIndex? with
      | none => simp [renameIndex, hvalue, hindex]
      | some place =>
          cases hnext : first place with
          | none =>
              cases dangling with
              | none => simp [renameIndex, hvalue, hindex, hnext]
              | some value => simp [renameIndex, hvalue, hindex, hnext, hdangling value rfl]
          | some next =>
              -- A lowered place still fits the reader of indices, so the second renaming reads it.
              have hle := hfirst place next hnext
              by_cases hsame : next = place
              · subst hsame
                simp [renameIndex, hvalue, hindex, hnext]
              · have hfits := Json.asIndex?_lt hindex
                have hagain : (current.reindexed next).asIndex? = some next :=
                  Json.asIndex?_reindexed current (by omega)
                cases hlast : second next with
                | none =>
                    cases dangling with
                    | none => simp [renameIndex, hvalue, hindex, hnext, hsame, hagain, hlast]
                    | some value => simp [renameIndex, hvalue, hindex, hnext, hsame, hagain, hlast]
                | some last =>
                    have hlower := hsecond next last hlast
                    have hne : last ≠ place := by omega
                    by_cases hstays : last = next
                    · subst hstays
                      simp [renameIndex, hvalue, hindex, hnext, hsame, hagain, hlast]
                    · simp [renameIndex, hvalue, hindex, hnext, hsame, hagain, hlast, hne, hstays,
                        Json.reindexed_reindexed]

/-- Renaming leaves a field as it is, sets it or drops it, and which it does depends on its value
alone. -/
theorem renameIndex_cases (fields : Fields) (key : String) (name : Nat → Option Nat)
    (dangling : Option Json) :
    (∀ again : Fields, again.value? key = fields.value? key →
      again.renameIndex key name dangling = again) ∨
    (fields.has key = true ∧ ∃ value, ∀ again : Fields, again.value? key = fields.value? key →
      again.renameIndex key name dangling = again.put key value) ∨
    (∀ again : Fields, again.value? key = fields.value? key →
      again.renameIndex key name dangling = again.without key) := by
  cases hvalue : fields.value? key with
  | none => exact .inl fun again hagain => by simp [renameIndex, hagain]
  | some current =>
      have hhas : fields.has key = true := by rw [has, hvalue]; rfl
      cases hindex : current.asIndex? with
      | none => exact .inl fun again hagain => by simp [renameIndex, hagain, hindex]
      | some place =>
          cases hnext : name place with
          | none =>
              cases dangling with
              | none =>
                  exact .inr (.inr fun again hagain => by
                    simp [renameIndex, hagain, hindex, hnext])
              | some value =>
                  exact .inr (.inl ⟨hhas, value, fun again hagain => by
                    simp [renameIndex, hagain, hindex, hnext]⟩)
          | some next =>
              by_cases hsame : next = place
              · exact .inl fun again hagain => by simp [renameIndex, hagain, hindex, hnext, hsame]
              · exact .inr (.inl ⟨hhas, current.reindexed next, fun again hagain => by
                  simp [renameIndex, hagain, hindex, hnext, hsame]⟩)

/-- Fields of different keys are renamed in any order. -/
theorem renameIndex_comm (hne : key ≠ other) :
    (fields.renameIndex key first dangling).renameIndex other second dangling =
      (fields.renameIndex other second dangling).renameIndex key first dangling := by
  have hkey : (fields.renameIndex other second dangling).value? key = fields.value? key :=
    value?_renameIndex_of_ne _ _ hne
  have hother : (fields.renameIndex key first dangling).value? other = fields.value? other :=
    value?_renameIndex_of_ne _ _ hne.symm
  rcases renameIndex_cases fields key first dangling with h | ⟨hhas, value, h⟩ | h <;>
    rcases renameIndex_cases fields other second dangling with h' | ⟨hhas', value', h'⟩ | h' <;>
    rw [h _ hkey, h' _ hother, h _ rfl, h' _ rfl]
  · exact put_comm _ _ _ _ _ hne hhas
  · exact without_put_of_ne _ _ _ _ hne
  · exact (without_put_of_ne _ _ _ _ hne.symm).symm
  · exact without_comm _ _ _

/-- The value of a field after the element that it names by its place was renamed: the new place, or
`dangling` if the element is gone. A value that is no place stays. -/
inductive Follows (name : Nat → Option Nat) (dangling : Option Json) :
    Option Json → Option Json → Prop
  | free {value : Option Json} : value.bind Json.asIndex? = none → Follows name dangling value value
  | kept {value again : Option Json} {place next : Nat} :
      value.bind Json.asIndex? = some place → name place = some next →
      again.bind Json.asIndex? = some next → Follows name dangling value again
  | lost {value : Option Json} {place : Nat} :
      value.bind Json.asIndex? = some place → name place = none →
      Follows name dangling value dangling

/-- The members of some keys follow the elements that they name, and all others stay. -/
structure Following (keys : List String) (name : Nat → Option Nat) (dangling : Option Json)
    (before after : Fields) : Prop where
  named : ∀ key ∈ keys, Follows name dangling (before.value? key) (after.value? key)
  others : ∀ key ∉ keys, after.value? key = before.value? key

/-- After a renaming the field names the same element, or says that it is gone. -/
theorem renameIndex_follows (hfirst : ∀ place next, first place = some next → next ≤ place) :
    Follows first dangling (fields.value? key)
      ((fields.renameIndex key first dangling).value? key) := by
  cases hvalue : fields.value? key with
  | none =>
      have hsame : (fields.renameIndex key first dangling).value? key = none := by
        simp [renameIndex, hvalue]
      rw [hsame]
      exact .free rfl
  | some current =>
      cases hindex : current.asIndex? with
      | none =>
          have hsame : (fields.renameIndex key first dangling).value? key = some current := by
            simp [renameIndex, hvalue, hindex]
          rw [hsame]
          exact .free hindex
      | some place =>
          cases hnext : first place with
          | none =>
              have hlost : (fields.renameIndex key first dangling).value? key = dangling := by
                cases dangling <;> simp [renameIndex, hvalue, hindex, hnext]
              rw [hlost]
              exact .lost hindex hnext
          | some next =>
              have hle := hfirst place next hnext
              have hfits := Json.asIndex?_lt hindex
              refine .kept hindex hnext ?_
              by_cases hsame : next = place
              · simp [renameIndex, hvalue, hindex, hnext, hsame]
              · simp [renameIndex, hvalue, hindex, hnext, hsame,
                  Json.asIndex?_reindexed current (show next < wordCount by omega)]

end Fields

/-! ## Documents that say the same -/

namespace Fields

/-- Every key has the same values, up to the order of members inside them. -/
def Same (first second : Fields) : Prop :=
  ∀ key, (first.values key).map Json.canonical = (second.values key).map Json.canonical

end Fields

namespace Json

theorem canonicalItems_eq (items : List Json) : canonicalItems items = items.map canonical := by
  induction items with
  | nil => rfl
  | cons item rest ih => rw [canonicalItems, ih, List.map_cons]

theorem canonicalMembers_eq (fields : Fields) :
    canonicalMembers fields = fields.map (Prod.map id canonical) := by
  induction fields with
  | nil => rfl
  | cons member rest ih => rw [canonicalMembers, ih, List.map_cons]; rfl

/-- The order of keys is transitive, in the form in which sorting asks for it. -/
theorem keyOrder_trans {α : Type} (a b c : String × α) (hab : decide (a.1 ≤ b.1) = true)
    (hbc : decide (b.1 ≤ c.1) = true) : decide (a.1 ≤ c.1) = true := by
  rw [decide_eq_true_eq] at hab hbc ⊢
  exact String.le_trans hab hbc

/-- Two keys are in order one way or the other, in the form in which sorting asks for it. -/
theorem keyOrder_total {α : Type} (a b : String × α) :
    (decide (a.1 ≤ b.1) || decide (b.1 ≤ a.1)) = true := by
  rw [Bool.or_eq_true, decide_eq_true_eq, decide_eq_true_eq]
  exact String.le_total a.1 b.1

/-- Sorted members have their keys in ascending order. -/
theorem sortMembers_pairwise (fields : Fields) :
    (sortMembers fields).Pairwise fun a b => a.1 ≤ b.1 := by
  have hsorted := List.pairwise_mergeSort keyOrder_trans keyOrder_total fields
  exact hsorted.imp of_decide_eq_true

/-- Sorting is stable: the members with one key keep their order. -/
theorem members_sortMembers (fields : Fields) (key : String) :
    Fields.members (sortMembers fields) key = fields.members key := by
  have hkey : ∀ member ∈ fields.members key, member.1 = key := fun member hmember => by
    simpa using (List.mem_filter.mp hmember).2
  have hordered : (fields.members key).Pairwise fun a b => decide (a.1 ≤ b.1) = true := by
    apply List.pairwise_of_forall_mem_list
    intro a ha b hb
    rw [hkey a ha, hkey b hb]
    exact decide_eq_true (String.le_refl key)
  have hsublist : (fields.members key).Sublist (sortMembers fields) :=
    List.sublist_mergeSort keyOrder_trans keyOrder_total hordered List.filter_sublist
  have hfiltered := hsublist.filter fun member => decide (member.1 = key)
  have hself : (fields.members key).filter (fun member => decide (member.1 = key)) =
      fields.members key :=
    List.filter_eq_self.mpr fun member hmember => decide_eq_true (hkey member hmember)
  rw [hself] at hfiltered
  refine (hfiltered.eq_of_length ?_).symm
  exact ((List.mergeSort_perm fields _).filter _).length_eq.symm

/-- A list of members in the order of their keys is known by the members with each key. -/
theorem eq_of_members {first second : Fields} (hfirst : first.Pairwise fun a b => a.1 ≤ b.1)
    (hsecond : second.Pairwise fun a b => a.1 ≤ b.1)
    (h : ∀ key, first.members key = second.members key) : first = second := by
  induction first generalizing second with
  | nil =>
      cases second with
      | nil => rfl
      | cons member rest => simpa [Fields.members] using h member.1
  | cons member rest ih =>
      cases second with
      | nil => simpa [Fields.members] using h member.1
      | cons other behind =>
          obtain ⟨hleast, hrest⟩ := List.pairwise_cons.mp hfirst
          obtain ⟨hleast', hbehind⟩ := List.pairwise_cons.mp hsecond
          -- Either head also occurs in the other list, so neither key is below the other.
          have hmem : member ∈ other :: behind := by
            have hself : member ∈ Fields.members (member :: rest) member.1 := by
              simp [Fields.members]
            rw [h] at hself
            exact (List.mem_filter.mp hself).1
          have hmem' : other ∈ member :: rest := by
            have hself : other ∈ Fields.members (other :: behind) other.1 := by
              simp [Fields.members]
            rw [← h] at hself
            exact (List.mem_filter.mp hself).1
          have hle : other.1 ≤ member.1 := by
            rcases List.mem_cons.mp hmem with heq | hmem
            · exact heq ▸ String.le_refl _
            · exact hleast' member hmem
          have hle' : member.1 ≤ other.1 := by
            rcases List.mem_cons.mp hmem' with heq | hmem'
            · exact heq ▸ String.le_refl _
            · exact hleast other hmem'
          have hkey : member.1 = other.1 := String.le_antisymm hle' hle
          have hhead : member = other := by
            have hsame := h member.1
            simp only [Fields.members, List.filter_cons, decide_true, if_true, hkey] at hsame
            exact (List.cons.inj hsame).1
          subst hhead
          refine congrArg _ (ih hrest hbehind fun key => ?_)
          have hsame := h key
          simp only [Fields.members, List.filter_cons] at hsame ⊢
          split at hsame
          · exact (List.cons.inj hsame).2
          · exact hsame

theorem Same.rfl {document : Json} : Same document document :=
  Eq.refl _

/-- Arrays are the same if their items are, one by one. -/
theorem Same.arr {first second : List Json}
    (h : first.map canonical = second.map canonical) : Same (.arr first) (.arr second) := by
  rw [Same, canonical, canonical, canonicalItems_eq, canonicalItems_eq, h]

/-- Objects are the same if their members are, up to order. -/
theorem Same.obj {first second : Fields} (h : first.Same second) :
    Same (.obj first) (.obj second) := by
  have hmembers : ∀ (fields : Fields) (key : String),
      Fields.members (canonicalMembers fields) key =
        ((fields.values key).map canonical).map (key, ·) := by
    intro fields key
    rw [canonicalMembers_eq, Fields.members, List.filter_map, List.map_map]
    have hsplit := congrArg (List.map (Prod.map id canonical)) (Fields.members_eq fields key)
    rw [List.map_map] at hsplit
    exact hsplit
  rw [Same, canonical, canonical]
  refine congrArg _ (eq_of_members (sortMembers_pairwise _) (sortMembers_pairwise _) ?_)
  intro key
  rw [members_sortMembers, members_sortMembers, hmembers, hmembers, h key]

/-- Arrays built from the same items are the same if their items come out the same. -/
theorem same_mapIdx_of {α β : Type} {items : List α} {change : Nat → α → β}
    {first : Nat → β → Json} {second : Nat → α → Json}
    (h : ∀ index item, items[index]? = some item →
      Same (first index (change index item)) (second index item)) :
    Same (.arr ((items.mapIdx change).mapIdx first)) (.arr (items.mapIdx second)) := by
  refine Same.arr (List.ext_getElem? fun index => ?_)
  simp only [List.getElem?_map, List.getElem?_mapIdx, Option.map_map]
  cases hitem : items[index]? with
  | none => rfl
  | some item => exact congrArg some (h index item hitem)

theorem same_mapIdx {α β : Type} {items : List α} {change : Nat → α → β}
    {first : Nat → β → Json} {second : Nat → α → Json}
    (h : ∀ index item, Same (first index (change index item)) (second index item)) :
    Same (.arr ((items.mapIdx change).mapIdx first)) (.arr (items.mapIdx second)) :=
  same_mapIdx_of fun index item _ => h index item

end Json

namespace Fields

/-- Members with different keys say the same in every order. -/
theorem same_of_perm {first second : Fields} (h : first.Perm second)
    (hkeys : (first.map Prod.fst).Nodup) : first.Same second := by
  intro key
  have hmembers : (first.members key).Perm (second.members key) := h.filter _
  -- One key has one member at most, so there is nothing to reorder.
  have hshort : (first.members key).length ≤ 1 := by
    have hcount := List.nodup_iff_count_le_one.mp hkeys key
    rwa [List.count_eq_countP, List.countP_map, List.countP_eq_length_filter] at hcount
  have hsame : first.members key = second.members key := by
    match hlist : first.members key with
    | [] =>
        rw [hlist] at hmembers
        exact hmembers.nil_eq
    | [member] =>
        rw [hlist] at hmembers
        exact List.singleton_perm.mp hmembers
    | _ :: _ :: _ => simp [hlist] at hshort
  rw [values, values, hsame]

theorem Same.refl (fields : Fields) : fields.Same fields :=
  fun _ => rfl

/-- The same members stay the same when the same value is set for one key. -/
theorem Same.put {first second : Fields} (h : first.Same second) (key : String)
    {value again : Json} (hvalue : Json.Same value again) :
    (first.put key value).Same (second.put key again) := by
  intro wanted
  simp only [values_put]
  split
  · exact congrArg (fun document => [document]) hvalue
  · exact h wanted

variable {fields : Fields} {key : String}

/-- A member that occurs once is set to what it says already. -/
theorem put_same {value old : Json} (h : fields.values key = [old])
    (hvalue : Json.Same value old) : (fields.put key value).Same fields := by
  intro wanted
  rw [values_put]
  split
  next heq =>
    rw [heq, h]
    exact congrArg (fun document => [document]) hvalue
  next => rfl

/-- Members that are left out and set again come last, with their new values. -/
theorem same_renewed {left right : String} {value other again more : Json}
    (hvalue : Json.Same value again) (hother : Json.Same other more) :
    ((((fields.without left).without right).put left value).put right other).Same
      ((fields.put left again).put right more) := by
  intro wanted
  simp only [values_put, values_without]
  split
  · exact congrArg (fun document => [document]) hother
  · split
    · exact congrArg (fun document => [document]) hvalue
    · rfl

/-- A member of the attributes that is left out and set again has its new value. -/
theorem modifyAttributes_same {value other : Json} (h : Json.Same value other) :
    (fields.modifyAttributes fun attributes => (without attributes key).put key value).Same
      (fields.modifyAttributes fun attributes => put attributes key other) := by
  have hchange : ∀ attributes : Fields,
      ((attributes.without key).put key value).Same (attributes.put key other) := by
    intro attributes wanted
    simp only [values_put, values_without]
    split
    · exact congrArg (fun document => [document]) h
    · rfl
  intro wanted
  simp only [modifyAttributes, values_put]
  split
  · exact congrArg (fun document => [document]) (Json.Same.obj (hchange _))
  · rfl

end Fields

end DataflowEditor
