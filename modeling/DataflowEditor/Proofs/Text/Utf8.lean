import DataflowEditor.Text.Utf8
import Mathlib.Tactic.SplitIfs

/-! # Texts as octets

The octets of a text are read as the characters of the text, one after the other, and therefore as
the text. No octet of a character is a line break unless the character is one, so that a text
without a line break is one line of octets. Octets that are no text are read as well: an octet below
128 at the front is a character of its own, and any other octet there begins a character that is
none of the first 128.
-/

namespace DataflowEditor.Text

variable {read : List (Option Char)} {owed low high code tail : Nat}

/-- An octet that continues a character adds six bits to its code point. -/
theorem step_continuation (htail : tail < 64) (hlow : low ≤ tail + 128)
    (hhigh : tail + 128 ≤ high) :
    Utf8State.step ⟨read, some ⟨owed, low, high, code⟩⟩ (UInt8.ofNat (tail + 128)) =
      if owed = 1 then ⟨some (Char.ofNat (code * 64 + tail)) :: read, none⟩
      else ⟨read, some ⟨owed - 1, 0x80, 0xBF, code * 64 + tail⟩⟩ := by
  have hoctet : (UInt8.ofNat (tail + 128)).toNat = tail + 128 := by
    rw [UInt8.toNat_ofNat']
    omega
  rw [Utf8State.step, hoctet]
  simp only [hlow, hhigh, and_self, if_true, Nat.add_sub_cancel]

theorem step_first {octet : Nat} {current : Partial} (hoctet : octet < 256)
    (hlarge : 0x80 ≤ octet) (h : Partial.ofFirst octet = some current) :
    Utf8State.step ⟨read, none⟩ (UInt8.ofNat octet) = ⟨read, some current⟩ := by
  have hvalue : (UInt8.ofNat octet).toNat = octet := by
    rw [UInt8.toNat_ofNat']
    omega
  rw [Utf8State.step, hvalue, Utf8State.start, if_neg (by omega), h]

/-- The first octet of a character of two. -/
theorem ofFirst_two {n : Nat} (hlow : 0x80 ≤ n) (hhigh : n ≤ 0x7FF) :
    Partial.ofFirst (n / 64 % 32 + 192) = some ⟨1, 0x80, 0xBF, n / 64⟩ := by
  have hcode : n / 64 % 32 + 192 - 0xC0 = n / 64 := by omega
  rw [Partial.ofFirst, if_pos (by omega), hcode]

/-- The first octet of a character of three leaves room for the second one, since the character is
no half of a surrogate pair. -/
theorem exists_ofFirst_three {n : Nat} (hlow : 0x800 ≤ n) (hhigh : n ≤ 0xFFFF)
    (hvalid : n.isValidChar) :
    ∃ low high, Partial.ofFirst (n / 4096 % 16 + 224) = some ⟨2, low, high, n / 4096⟩ ∧
      low ≤ n / 64 % 64 + 128 ∧ n / 64 % 64 + 128 ≤ high := by
  have hcode : n / 4096 % 16 + 224 - 0xE0 = n / 4096 := by omega
  rw [Nat.isValidChar] at hvalid
  rw [Partial.ofFirst, if_neg (by omega)]
  split_ifs with hfirst hsurrogate hother
  · rw [show n / 4096 = 0 by omega]
    exact ⟨_, _, rfl, by omega, by omega⟩
  · rw [show n / 4096 = 0xD by omega]
    exact ⟨_, _, rfl, by omega, by omega⟩
  · rw [hcode]
    exact ⟨_, _, rfl, by omega, by omega⟩
  all_goals omega

/-- The first octet of a character of four leaves room for the second one too, since no code point
is larger than U+10FFFF. -/
theorem exists_ofFirst_four {n : Nat} (hlow : 0x10000 ≤ n) (hvalid : n.isValidChar) :
    ∃ low high, Partial.ofFirst (n / 262144 % 8 + 240) = some ⟨3, low, high, n / 262144⟩ ∧
      low ≤ n / 4096 % 64 + 128 ∧ n / 4096 % 64 + 128 ≤ high := by
  have hcode : n / 262144 % 8 + 240 - 0xF0 = n / 262144 := by
    rw [Nat.isValidChar] at hvalid
    omega
  rw [Nat.isValidChar] at hvalid
  rw [Partial.ofFirst, if_neg (by omega), if_neg (by omega), if_neg (by omega), if_neg (by omega)]
  split_ifs with hfirst hlast hother
  · rw [show n / 262144 = 0 by omega]
    exact ⟨_, _, rfl, by omega, by omega⟩
  · rw [show n / 262144 = 4 by omega]
    exact ⟨_, _, rfl, by omega, by omega⟩
  · rw [hcode]
    exact ⟨_, _, rfl, by omega, by omega⟩
  all_goals omega

/-- The octets of a character are read as the character. -/
theorem foldl_utf8EncodeChar (c : Char) (read : List (Option Char)) :
    (String.utf8EncodeChar c).foldl Utf8State.step ⟨read, none⟩ = ⟨some c :: read, none⟩ := by
  have hvalid : c.toNat.isValidChar := c.valid
  have hchar : Char.ofNat c.toNat = c := Char.ofNat_toNat c
  have hlimit : c.toNat < 1114112 := by
    rw [Nat.isValidChar] at hvalid
    omega
  have hnat : c.val.toNat = c.toNat := rfl
  simp only [String.utf8EncodeChar, hnat]
  -- One case for each number of octets.
  split_ifs with hone htwo hthree
  · have hoctet : (UInt8.ofNat c.toNat).toNat = c.toNat := by
      rw [UInt8.toNat_ofNat']
      omega
    rw [List.foldl_cons, List.foldl_nil, Utf8State.step, hoctet, Utf8State.start,
      if_pos (by omega), hchar]
  · rw [List.foldl_cons, step_first (by omega) (by omega) (ofFirst_two (by omega) htwo),
      List.foldl_cons, step_continuation (by omega) (by omega) (by omega), if_pos rfl,
      List.foldl_nil, Nat.div_add_mod', hchar]
  · obtain ⟨low, high, hfirst, hlow, hhigh⟩ := exists_ofFirst_three (by omega) hthree hvalid
    have hcode : (c.toNat / 4096 * 64 + c.toNat / 64 % 64) * 64 + c.toNat % 64 = c.toNat := by
      omega
    rw [List.foldl_cons, step_first (by omega) (by omega) hfirst, List.foldl_cons,
      step_continuation (by omega) hlow hhigh, if_neg (by decide), List.foldl_cons,
      step_continuation (by omega) (by omega) (by omega), if_pos rfl, List.foldl_nil, hcode, hchar]
  · obtain ⟨low, high, hfirst, hlow, hhigh⟩ := exists_ofFirst_four (by omega) hvalid
    have hcode : ((c.toNat / 262144 * 64 + c.toNat / 4096 % 64) * 64 + c.toNat / 64 % 64) * 64 +
        c.toNat % 64 = c.toNat := by
      omega
    rw [List.foldl_cons, step_first (by omega) (by omega) hfirst, List.foldl_cons,
      step_continuation (by omega) hlow hhigh, if_neg (by decide), List.foldl_cons,
      step_continuation (by omega) (by omega) (by omega), if_neg (by decide), List.foldl_cons,
      step_continuation (by omega) (by omega) (by omega), if_pos rfl, List.foldl_nil, hcode, hchar]

/-- The octets of a text are those of its characters, in order. -/
theorem octets_eq (text : String) : octets text = text.toList.flatMap String.utf8EncodeChar := by
  rw [octets, String.toUTF8, ← String.utf8Encode_toList, List.utf8Encode,
    List.toList_data_toByteArray]

/-- The octets of a text are read as its characters. -/
theorem characters_octets (text : String) : characters (octets text) = text.toList.map some := by
  have hfold : ∀ (chars : List Char) (read : List (Option Char)),
      (chars.flatMap String.utf8EncodeChar).foldl Utf8State.step ⟨read, none⟩ =
        ⟨(chars.map some).reverse ++ read, none⟩ := by
    intro chars
    induction chars with
    | nil => intro read; rfl
    | cons c rest ih =>
        intro read
        rw [List.flatMap_cons, List.foldl_append, foldl_utf8EncodeChar, ih, List.map_cons,
          List.reverse_cons, List.append_assoc, List.singleton_append]
  rw [characters, octets_eq, hfold, List.append_nil]
  exact List.reverse_reverse _

/-- The octets of a text are read as the text. -/
theorem ofOctets?_octets (text : String) : ofOctets? (octets text) = some text := by
  have hall : ∀ chars : List Char, (chars.map some).mapM id = some chars := by
    intro chars
    induction chars with
    | nil => rfl
    | cons c rest ih => simp [ih]
  rw [ofOctets?, characters_octets, hall, Option.map_some, String.ofList_toList]

theorem ofNat_ne_lineBreak {octet : Nat} (hoctet : octet < 256) (h : octet ≠ 10) :
    UInt8.ofNat octet ≠ 0x0a := by
  intro heq
  have hvalue : (UInt8.ofNat octet).toNat = 10 := by
    rw [heq]
    rfl
  rw [UInt8.toNat_ofNat'] at hvalue
  omega

/-- No octet of a character is a line break unless the character is one. -/
theorem lineBreak_notMem_utf8EncodeChar {c : Char} (h : c ≠ '\n') :
    0x0a ∉ String.utf8EncodeChar c := by
  have hcode : c.toNat ≠ 10 := fun heq => h (by rw [← Char.ofNat_toNat c, heq])
  have hnat : c.val.toNat = c.toNat := rfl
  simp only [String.utf8EncodeChar, hnat]
  split_ifs
  -- An octet that does not stand alone is 0x80 at least.
  all_goals
    simp only [List.mem_cons, List.not_mem_nil, or_false, not_or]
    repeat' apply And.intro
  all_goals exact (ofNat_ne_lineBreak (by omega) (by omega)).symm

/-- A text without line breaks has none among its octets. -/
theorem lineBreak_notMem_octets {text : String} (h : '\n' ∉ text.toList) :
    0x0a ∉ octets text := by
  rw [octets_eq, List.mem_flatMap]
  rintro ⟨c, hc, hmem⟩
  exact lineBreak_notMem_utf8EncodeChar (fun heq => h (heq ▸ hc)) hmem

/-! ## Octet by octet -/

/-- The characters of the octets behind those that began a character. -/
def charactersBehind (current : Option Partial) : List UInt8 → List (Option Char)
  | [] => if current.isSome then [none] else []
  | octet :: rest =>
    let state := Utf8State.step ⟨[], current⟩ octet
    state.read.reverse ++ charactersBehind state.current rest

theorem step_read (read : List (Option Char)) (current : Option Partial) (octet : UInt8) :
    Utf8State.step ⟨read, current⟩ octet =
      ⟨(Utf8State.step ⟨[], current⟩ octet).read ++ read,
        (Utf8State.step ⟨[], current⟩ octet).current⟩ := by
  have hstart : ∀ read : List (Option Char), Utf8State.start ⟨read, none⟩ octet.toNat =
      ⟨(Utf8State.start ⟨[], none⟩ octet.toNat).read ++ read,
        (Utf8State.start ⟨[], none⟩ octet.toNat).current⟩ := by
    intro read
    rw [Utf8State.start, Utf8State.start]
    split_ifs
    · rfl
    · cases Partial.ofFirst octet.toNat <;> rfl
  cases current with
  | none => exact hstart read
  | some current =>
      simp only [Utf8State.step]
      split_ifs
      · rfl
      · rfl
      · rw [hstart (none :: read), hstart [none], List.append_assoc, List.singleton_append]

/-- The characters read when the octets end here. -/
def Utf8State.ended (state : Utf8State) : List (Option Char) :=
  state.read.reverse ++ if state.current.isSome then [none] else []

theorem ended_foldl_step (octets : List UInt8) (read : List (Option Char))
    (current : Option Partial) : (octets.foldl Utf8State.step ⟨read, current⟩).ended =
      read.reverse ++ charactersBehind current octets := by
  induction octets generalizing read current with
  | nil => rw [List.foldl_nil, Utf8State.ended, charactersBehind]
  | cons octet rest ih =>
      rw [List.foldl_cons, step_read, ih, List.reverse_append, List.append_assoc, charactersBehind]

theorem characters_eq (octets : List UInt8) : characters octets = charactersBehind none octets := by
  have hended : characters octets = (octets.foldl Utf8State.step ⟨[], none⟩).ended := by
    rw [characters, Utf8State.ended]
    cases (octets.foldl Utf8State.step ⟨[], none⟩).current with
    | none => exact (List.append_nil _).symm
    | some => exact List.reverse_cons
  rw [hended, ended_foldl_step, List.reverse_nil, List.nil_append]

/-- An octet of ASCII is a character of its own, whatever follows. -/
theorem characters_cons {octet : UInt8} (h : octet.toNat < 0x80) (rest : List UInt8) :
    characters (octet :: rest) = some (Char.ofNat octet.toNat) :: characters rest := by
  rw [characters_eq, characters_eq, charactersBehind, Utf8State.step, Utf8State.start, if_pos h]
  rfl

/-- A character that is none of the first 128, apart from the very first. -/
def Foreign (c : Option Char) : Prop :=
  ∀ d, c = some d → d.toNat = 0 ∨ 0x80 ≤ d.toNat

theorem foreign_ofNat {code : Nat} (h : 0x80 ≤ code) : Foreign (some (Char.ofNat code)) := by
  intro d heq
  obtain rfl := Option.some.inj heq
  by_cases hvalid : code.isValidChar
  · rw [Char.ofNat, dif_pos hvalid]
    exact .inr h
  · rw [Char.ofNat, dif_neg hvalid]
    exact .inl rfl

/-- The bounds of the octets that are owed lead beyond the first 128 code points. -/
def Partial.Large (current : Partial) : Prop :=
  2 ≤ if current.owed = 1 then current.code else current.code * 64 + (current.low - 0x80)

theorem Partial.large_ofFirst {octet : Nat} {current : Partial}
    (h : Partial.ofFirst octet = some current) : current.Large := by
  rw [ofFirst] at h
  split_ifs at h with htwo
  all_goals
    obtain rfl := Option.some.inj h
    simp only [Large]
    split_ifs <;> omega

/-- A character of several octets is not one of the first 128, if it is one at all. -/
theorem foreign_charactersBehind {current : Partial} (h : current.Large) (octets : List UInt8) :
    ∃ c more, charactersBehind (some current) octets = c :: more ∧ Foreign c := by
  have hnone : Foreign none := by
    intro d heq
    cases heq
  induction octets generalizing current with
  | nil => exact ⟨none, [], rfl, hnone⟩
  | cons octet rest ih =>
      rw [charactersBehind, Utf8State.step]
      rw [Partial.Large] at h
      simp only
      split_ifs with hbounds howed
      · rw [if_pos howed] at h
        exact ⟨_, _, rfl, foreign_ofNat (by omega)⟩
      · rw [if_neg howed] at h
        refine ih ?_
        rw [Partial.Large]
        simp only
        split_ifs <;> omega
      · -- The character breaks off, and the octet is read anew.
        rw [Utf8State.start]
        split_ifs
        · exact ⟨none, _, rfl, hnone⟩
        · cases Partial.ofFirst octet.toNat <;> exact ⟨none, _, rfl, hnone⟩

/-- An octet of 128 or more does not begin with one of the first 128 characters. -/
theorem foreign_characters {octet : UInt8} (h : 0x80 ≤ octet.toNat) (rest : List UInt8) :
    ∃ c more, characters (octet :: rest) = c :: more ∧ Foreign c := by
  rw [characters_eq, charactersBehind, Utf8State.step, Utf8State.start, if_neg (by omega)]
  cases hfirst : Partial.ofFirst octet.toNat with
  | none =>
      refine ⟨none, _, rfl, ?_⟩
      intro d heq
      cases heq
  | some current => exact foreign_charactersBehind (Partial.large_ofFirst hfirst) rest

end DataflowEditor.Text
