import DataflowEditor.Json.Depth
import DataflowEditor.Json.Printer
import DataflowEditor.Proofs.Json.Records
import DataflowEditor.Proofs.Text.Integer
import Mathlib.Data.List.TakeWhile
import Mathlib.Tactic.SplitIfs

/-! # Printed documents read back

The compact text of a document is read as that document, provided that each of its numbers is
written in digits that read as itself and that it is not nested too deep for the reader. Every
integer that a document can hold is written so. Nothing has to be known of the characters of its
texts: what stands for something else in a text is escaped, and an escape is undone by the reader.
-/

namespace DataflowEditor

namespace Json

/-! ## The characters of a printed document -/

/-- The characters of a text between quotes. -/
def quotedChars (text : String) : List Char :=
  '"' :: (text.toList.flatMap escapedChar ++ ['"'])

mutual

/-- The characters of the compact text of a document. -/
def chars : Json → List Char
  | .null => ['n', 'u', 'l', 'l']
  | .bool true => ['t', 'r', 'u', 'e']
  | .bool false => ['f', 'a', 'l', 's', 'e']
  | .num n => (numberText n).toList
  | .str s => quotedChars s
  | .arr items => '[' :: (itemChars true items ++ [']'])
  | .obj members => '\x7b' :: (memberChars true members ++ ['\x7d'])

def itemChars (isFirst : Bool) : List Json → List Char
  | [] => []
  | v :: rest => (if isFirst then [] else [',']) ++ (v.chars ++ itemChars false rest)

def memberChars (isFirst : Bool) : List (String × Json) → List Char
  | [] => []
  | (k, v) :: rest =>
    (if isFirst then [] else [',']) ++
      (quotedChars k ++ ':' :: (v.chars ++ memberChars false rest))

end

@[simp]
theorem itemChars_singleton (v : Json) : itemChars true [v] = v.chars := by
  simp [itemChars]

@[simp]
theorem itemChars_cons_cons (v w : Json) (rest : List Json) :
    itemChars true (v :: w :: rest) = v.chars ++ ',' :: itemChars true (w :: rest) := by
  simp [itemChars]

@[simp]
theorem memberChars_singleton (key : String) (v : Json) :
    memberChars true [(key, v)] = quotedChars key ++ ':' :: v.chars := by
  simp [memberChars]

@[simp]
theorem memberChars_cons_cons (key : String) (v : Json) (next : String × Json)
    (rest : List (String × Json)) : memberChars true ((key, v) :: next :: rest) =
      quotedChars key ++ ':' :: (v.chars ++ ',' :: memberChars true (next :: rest)) := by
  simp [memberChars]

theorem toList_foldl_push (chars : List Char) (out : String) :
    (chars.foldl String.push out).toList = out.toList ++ chars := by
  induction chars generalizing out with
  | nil => rw [List.foldl_nil, List.append_nil]
  | cons c rest ih =>
      rw [List.foldl_cons, ih, String.toList_push, List.append_assoc, List.singleton_append]

theorem toList_foldl_escapedChar (chars : List Char) (out : String) :
    (chars.foldl (fun out c => (escapedChar c).foldl String.push out) out).toList =
      out.toList ++ chars.flatMap escapedChar := by
  induction chars generalizing out with
  | nil => rw [List.foldl_nil, List.flatMap_nil, List.append_nil]
  | cons c rest ih =>
      rw [List.foldl_cons, ih, toList_foldl_push, List.flatMap_cons, List.append_assoc]

@[simp]
theorem toList_appendText (out text : String) :
    (appendText out text).toList = out.toList ++ quotedChars text := by
  rw [appendText, String.foldl_eq_foldl_toList, String.toList_push, toList_foldl_escapedChar,
    String.toList_push, quotedChars]
  simp only [List.append_assoc, List.cons_append, List.nil_append]

mutual

/-- What is appended for a document does not depend on the text before it. -/
@[simp]
theorem toList_append : ∀ (document : Json) (out : String),
    (append out document).toList = out.toList ++ document.chars
  | .null, out => by simp [append, chars]
  | .bool true, out => by simp [append, chars]
  | .bool false, out => by simp [append, chars]
  | .num n, out => by simp [append, chars]
  | .str s, out => by rw [append, toList_appendText, chars]
  | .arr items, out => by simp [append, chars, toList_appendItems items]
  | .obj members, out => by simp [append, chars, toList_appendMembers members]

@[simp]
theorem toList_appendItems : ∀ (items : List Json) (isFirst : Bool) (out : String),
    (appendItems out isFirst items).toList = out.toList ++ itemChars isFirst items
  | [], _, out => by simp [appendItems, itemChars]
  | v :: rest, isFirst, out => by
      rw [appendItems, toList_appendItems rest, toList_append v, itemChars]
      cases isFirst <;> simp

@[simp]
theorem toList_appendMembers : ∀ (members : List (String × Json)) (isFirst : Bool) (out : String),
    (appendMembers out isFirst members).toList = out.toList ++ memberChars isFirst members
  | [], _, out => by simp [appendMembers, memberChars]
  | (k, v) :: rest, isFirst, out => by
      rw [appendMembers, toList_appendMembers rest, toList_append v, memberChars]
      cases isFirst <;> simp

end

/-- The compact text of a document has the characters of the document. -/
theorem toList_print (document : Json) : document.print.toList = document.chars := by
  rw [print, toList_append, String.toList_empty, List.nil_append]

end Json

namespace Draft

/-! ## Texts -/

/-- The four digits of a control: two zeros, then its own. -/
theorem replicate_append_hexadecimal {n : Nat} (h : n < 32) :
    List.replicate (4 - (Text.hexadecimal n).length) '0' ++ Text.hexadecimal n =
      ['0', '0', Nat.digitChar (n / 16), Nat.digitChar (n % 16)] := by
  revert n
  decide

theorem hexValue?_digitChar {n : Nat} (h : n < 16) : hexValue? (Nat.digitChar n) = some n := by
  revert n
  decide

/-- The reader of a text takes a character that was written for a text, escaped or not. -/
theorem readText_escapedChar (c : Char) (before : List Char) (rest : Source) :
    readText ⟨before, true, none, .outside⟩ ((Json.escapedChar c).map some ++ rest) =
      readText ⟨c :: before, true, none, .outside⟩ rest := by
  unfold Json.escapedChar
  split_ifs with hquote hslash hb hf hn hr ht hcontrol
  · subst hquote; rfl
  · subst hslash; rfl
  · subst hb; rfl
  · subst hf; rfl
  · subst hn; rfl
  · subst hr; rfl
  · subst ht; rfl
  · -- The digits come to the code of the control, which is no half of a surrogate pair.
    have hhigh := hexValue?_digitChar (n := c.toNat / 16) (by omega)
    have hlow := hexValue?_digitChar (n := c.toNat % 16) (by omega)
    have hcode : 16 * (c.toNat / 16) + c.toNat % 16 = c.toNat := by omega
    have hunit : TextState.addUnit ⟨before, true, none, .hex 1 (c.toNat / 16)⟩ c.toNat =
        ⟨c :: before, true, none, .outside⟩ := by
      simp [TextState.addUnit, TextState.add, show ¬ 0xD800 ≤ c.toNat by omega,
        show ¬ 0xDC00 ≤ c.toNat by omega]
    simp only [List.append_assoc, replicate_append_hexadecimal hcontrol, List.map_append,
      List.map_cons, List.map_nil]
    simp [readText, TextState.step, hhigh, hlow, hcode, hunit,
      show hexValue? '0' = some 0 from rfl]
  · have hstep : TextState.step ⟨before, true, none, .outside⟩ (some c) =
        some ⟨c :: before, true, none, .outside⟩ := by
      simp [TextState.step, hcontrol, TextState.add]
    simp [readText, hquote, hstep]

/-- Quoted characters are read back up to the closing quote, by induction on them. -/
theorem readText_flatMap (chars before : List Char) (rest : Source) :
    readText ⟨before, true, none, .outside⟩
        ((chars.flatMap Json.escapedChar ++ ['"']).map some ++ rest) =
      some (some (String.ofList (before.reverse ++ chars)), rest) := by
  induction chars generalizing before with
  | nil => simp [readText, TextState.finish]
  | cons c more ih =>
      rw [List.flatMap_cons, List.append_assoc, List.map_append, List.append_assoc,
        readText_escapedChar, ih, List.reverse_cons, List.append_assoc, List.singleton_append]

/-- What was written between quotes for a text is read as that text. -/
theorem readText_text (text : String) (rest : Source) :
    readText .start ((text.toList.flatMap Json.escapedChar ++ ['"']).map some ++ rest) =
      some (some text, rest) := by
  have hread := readText_flatMap text.toList [] rest
  rwa [List.reverse_nil, List.nil_append, String.ofList_toList] at hread

/-! ## Numbers -/

/-- The source goes on with something that cannot belong to a number, or not at all. -/
def Ends (source : Source) : Prop :=
  ∀ c ∈ source.head?, c = some ',' ∨ c = some ']' ∨ c = some '\x7d'

theorem Ends.cons {c : Char} {source : Source} (h : c = ',' ∨ c = ']' ∨ c = '\x7d') :
    Ends (some c :: source) := by
  intro head hhead
  cases hhead
  simpa using h

theorem ends_nil : Ends [] :=
  nofun

/-- What follows a number starts with no character of a number. -/
theorem Ends.ne_cons {c : Char} {source more : Source} (hends : Ends source)
    (hc : c ∉ [',', ']', '\x7d']) : source ≠ some c :: more := by
  rintro rfl
  have hhead := hends (some c) rfl
  simp only [Option.some.injEq] at hhead
  exact hc (by simpa using hhead)

/-- A piece of source and what follows it start with the character only where the piece does. -/
theorem append_ne_cons {c : Option Char} {source rest : Source}
    (hsource : ∀ more, source ≠ c :: more) (hrest : ∀ more, rest ≠ c :: more) (more : Source) :
    source ++ rest ≠ c :: more := by
  cases source with
  | nil => exact hrest more
  | cons d others =>
      intro h
      rw [List.cons_append, List.cons.injEq] at h
      exact hsource others (by rw [h.1])

section Ending

variable {source tail rest : Source} (hends : Ends rest)
include hends

/-- What follows the digits, and is no digit, is left over. -/
theorem digits_append :
    digits (source ++ rest) = ((digits source).1, (digits source).2 ++ rest) := by
  have hstop : ∀ c ∈ rest.head?, isDigit c = false := by
    intro c hc
    rcases hends c hc with rfl | rfl | rfl <;> rfl
  induction source with
  | nil =>
      cases rest with
      | nil => rfl
      | cons c more => simp [digits, hstop c rfl]
  | cons c more ih =>
      cases hdigit : isDigit c with
      | false => simp [digits, hdigit]
      | true =>
          simp only [digits, Prod.mk.injEq] at ih
          simp only [digits, List.cons_append, List.takeWhile_cons, hdigit, if_true,
            List.dropWhile_cons, List.filterMap_cons, ih.1, ih.2]

/-- A fraction is read alike, whatever ends the number behind it. -/
theorem fractionPart_append {found : List Char} (h : fractionPart source = some (found, tail)) :
    fractionPart (source ++ rest) = some (found, tail ++ rest) := by
  unfold fractionPart at h
  split at h
  next more =>
    simp only [List.cons_append, fractionPart, digits_append hends] at h ⊢
    split at h
    next => cases h
    next hfound =>
      cases h
      rw [if_neg hfound]
  next hpoint =>
    cases h
    have hne := append_ne_cons hpoint fun _ => hends.ne_cons (by decide)
    unfold fractionPart
    split
    next hsource => exact absurd hsource (hne _)
    next => rfl

theorem exponentDigits_append {negative : Bool} {found : Option (Bool × List Char)}
    (h : exponentDigits negative source = some (found, tail)) :
    exponentDigits negative (source ++ rest) = some (found, tail ++ rest) := by
  simp only [exponentDigits, digits_append hends] at h ⊢
  split at h
  next => cases h
  next hfound =>
    cases h
    rw [if_neg hfound]

theorem exponentSign_append {found : Option (Bool × List Char)}
    (h : exponentSign source = some (found, tail)) :
    exponentSign (source ++ rest) = some (found, tail ++ rest) := by
  unfold exponentSign at h
  split at h
  next => exact exponentDigits_append hends h
  next => exact exponentDigits_append hends h
  next hplus hminus =>
    have hplus := append_ne_cons hplus fun _ => hends.ne_cons (by decide)
    have hminus := append_ne_cons hminus fun _ => hends.ne_cons (by decide)
    unfold exponentSign
    split
    next hsource => exact absurd hsource (hplus _)
    next hsource => exact absurd hsource (hminus _)
    next => exact exponentDigits_append hends h

/-- An exponent is read alike, whatever ends the number behind it. -/
theorem exponentPart_append {found : Option (Bool × List Char)}
    (h : exponentPart source = some (found, tail)) :
    exponentPart (source ++ rest) = some (found, tail ++ rest) := by
  unfold exponentPart at h
  split at h
  next => exact exponentSign_append hends h
  next => exact exponentSign_append hends h
  next hsmall hlarge =>
    cases h
    have hsmall := append_ne_cons hsmall fun _ => hends.ne_cons (by decide)
    have hlarge := append_ne_cons hlarge fun _ => hends.ne_cons (by decide)
    unfold exponentPart
    split
    next hsource => exact absurd hsource (hsmall _)
    next hsource => exact absurd hsource (hlarge _)
    next => rfl

/-- A number is read alike, whatever ends it. -/
theorem readMagnitude_append {negative : Bool} {literal : Literal}
    (h : readMagnitude negative source = some (literal, tail)) :
    readMagnitude negative (source ++ rest) = some (literal, tail ++ rest) := by
  simp only [readMagnitude, digits_append hends] at h ⊢
  split at h
  next => cases h
  next hwhole =>
    rw [if_neg hwhole]
    obtain ⟨⟨fraction, more⟩, hfraction, h⟩ := Option.bind_eq_some_iff.mp h
    obtain ⟨⟨exponent, others⟩, hexponent, h⟩ := Option.bind_eq_some_iff.mp h
    cases h
    rw [fractionPart_append hends hfraction, Option.bind_eq_bind, Option.bind_some,
      exponentPart_append hends hexponent]
    rfl

/-- A number is read whatever goes on behind it. -/
theorem readLiteral_append {literal : Literal} (h : readLiteral source = some (literal, tail)) :
    readLiteral (source ++ rest) = some (literal, tail ++ rest) := by
  unfold readLiteral at h
  split at h
  next => exact readMagnitude_append hends h
  next hminus =>
    have hminus := append_ne_cons hminus fun _ => hends.ne_cons (by decide)
    unfold readLiteral
    split
    next hsource => exact absurd hsource (hminus _)
    next => exact readMagnitude_append hends h

end Ending

theorem digits_map {chars : List Char} (h : ∀ c ∈ chars, c.isDigit = true) :
    digits (chars.map some) = (chars, []) := by
  have hall : ∀ c ∈ chars.map some, isDigit c = true := List.forall_mem_map.mpr h
  have hkept : (chars.map some).filterMap id = chars := by
    rw [List.filterMap_map]
    exact List.filterMap_some
  rw [digits, List.takeWhile_eq_self_iff.mpr hall, List.dropWhile_eq_nil_iff.mpr hall, hkept]

/-- What a number starts with is not among characters that start none. -/
theorem notMem_of_startsNumber {c : Char} {others : List Char} (h : c = '-' ∨ c.isDigit = true)
    (hothers : others.all (fun d => d != '-' && !d.isDigit) = true) : c ∉ others := by
  intro hmem
  have hother := List.all_eq_true.mp hothers c hmem
  rcases h with rfl | hdigit
  · cases hother
  · simp [hdigit] at hother

/-- A number starts with a minus sign or a digit. -/
theorem exists_of_readLiteral {source tail : Source} {literal : Literal}
    (h : readLiteral source = some (literal, tail)) :
    ∃ c more, source = some c :: more ∧ (c = '-' ∨ c.isDigit = true) := by
  unfold readLiteral at h
  split at h
  next => exact ⟨_, _, rfl, .inl rfl⟩
  next =>
    cases source with
    | nil => cases h
    | cons c more =>
        cases hdigit : isDigit c with
        | false => simp [readMagnitude, digits, hdigit] at h
        | true =>
            cases c with
            | none => cases hdigit
            | some c => exact ⟨c, more, rfl, .inr hdigit⟩

end Draft

namespace Number

/-- The number is read from the characters it is written with. -/
def Legible (n : Number) : Prop :=
  ∃ literal, Draft.readLiteral ((Json.numberText n).toList.map some) = some (literal, []) ∧
    read? literal = some n

/-- No number but zero has a zero in front. -/
theorem head?_toDigits_ne {n : Nat} (h : 0 < n) : (Nat.toDigits 10 n).head? ≠ some '0' := by
  induction n using Nat.strongRecOn with
  | _ n ih =>
      rcases Nat.lt_or_ge n 10 with hsmall | hlarge
      · have hdigit : ∀ n < 10, 0 < n → [Nat.digitChar n].head? ≠ some '0' := by decide
        rw [Nat.toDigits_of_lt_base hsmall]
        exact hdigit n hsmall h
      · rw [Nat.toDigits_of_base_le (by omega) hlarge, List.head?_append,
          Option.or_of_isSome (by simp [Nat.toDigits_ne_nil])]
        exact ih (n / 10) (by omega) (by omega)

/-- The digits of a number have its value. -/
theorem digitsValue_decimal (n : Nat) : digitsValue (Text.decimal n).toList = n := by
  rw [Text.decimal, String.toList_ofList]
  exact Nat.ofDigitChars_toDigits (by omega) (by omega)

/-- Decimal digits are read as a whole number, without fraction and exponent. -/
theorem readMagnitude_decimal (negative : Bool) (n : Nat) :
    Draft.readMagnitude negative ((Text.decimal n).toList.map some) =
      some (⟨negative, (Text.decimal n).toList, [], none⟩, []) := by
  rw [Text.decimal, String.toList_ofList]
  have hdigits : Draft.digits ((Nat.toDigits 10 n).map some) = (Nat.toDigits 10 n, []) :=
    Draft.digits_map fun c hc => Nat.isDigit_of_mem_toDigits (by omega) (by omega) hc
  have hfront : ((Nat.toDigits 10 n).head? = some '0' && 1 < (Nat.toDigits 10 n).length) =
      false := by
    rcases Nat.eq_zero_or_pos n with rfl | hpos
    · decide
    · simp [head?_toDigits_ne hpos]
  simp [Draft.readMagnitude, hdigits, hfront, Nat.toDigits_ne_nil, Draft.fractionPart,
    Draft.exponentPart]

/-- Every integer that fits 64 bits, with or without a sign, is legible. -/
theorem legible_int {i : Int} (hlow : -(halfWordCount : Int) ≤ i) (hhigh : i < wordCount) :
    Legible (.int i) := by
  cases i with
  | ofNat n =>
      refine ⟨⟨false, (Text.decimal n).toList, [], none⟩, ?_, ?_⟩
      · have hread := readMagnitude_decimal false n
        obtain ⟨c, rest, htext, hdigit⟩ := Text.exists_digit_decimal n
        have hminus : c ≠ '-' := by
          rintro rfl
          simp at hdigit
        rw [htext] at hread
        simpa [Json.numberText, Text.decimalInt, htext, Draft.readLiteral, hminus] using hread
      · have hfits : n < wordCount := Int.ofNat_lt.mp hhigh
        simp only [read?, digitsValue_decimal, hfits]
        rfl
  | negSucc n =>
      refine ⟨⟨true, (Text.decimal (n + 1)).toList, [], none⟩, ?_, ?_⟩
      · rw [Json.numberText, Text.toList_decimalInt_negSucc]
        exact readMagnitude_decimal true (n + 1)
      · have hfits : n + 1 ≤ halfWordCount := by omega
        simp only [read?, digitsValue_decimal, hfits]
        rfl

end Number

/-! ## Documents -/

namespace Json

mutual

/-- Every number in the document is legible. -/
def Legible : Json → Prop
  | .num n => n.Legible
  | .arr items => ItemsLegible items
  | .obj members => MembersLegible members
  | _ => True

def ItemsLegible : List Json → Prop
  | [] => True
  | v :: rest => v.Legible ∧ ItemsLegible rest

def MembersLegible : List (String × Json) → Prop
  | [] => True
  | (_, v) :: rest => v.Legible ∧ MembersLegible rest

end

/-- The text of a document starts with neither a blank nor the end of an array. -/
theorem exists_chars {document : Json} (h : document.Legible) :
    ∃ c more, document.chars = c :: more ∧ c ∉ [' ', '\t', '\n', '\r', ']'] := by
  cases document with
  | null => exact ⟨_, _, rfl, by decide⟩
  | bool value => cases value <;> exact ⟨_, _, rfl, by decide⟩
  | num n =>
      obtain ⟨literal, hread, _⟩ := h
      obtain ⟨c, more, hsource, hc⟩ := Draft.exists_of_readLiteral hread
      obtain ⟨_, others, htext, hhead, _⟩ := List.map_eq_cons_iff.mp hsource
      cases hhead
      exact ⟨c, others, htext, Draft.notMem_of_startsNumber hc (by decide)⟩
  | str s => exact ⟨_, _, rfl, by decide⟩
  | arr items => exact ⟨_, _, rfl, by decide⟩
  | obj members => exact ⟨_, _, rfl, by decide⟩

end Json

namespace Draft

variable {limit fuel depth : Nat} {rest : Source}

theorem skipSpace_cons {c : Char} {more : Source} (h : c ∉ [' ', '\t', '\n', '\r']) :
    skipSpace (some c :: more) = some c :: more := by
  have hspace : isSpace (some c) = false := by
    simpa [isSpace, not_or, and_assoc] using h
  rw [skipSpace, List.dropWhile_cons_of_neg (by simp [hspace])]

/-- A legible number is read back if what follows ends it. -/
theorem readValue_number {n : Number} (h : n.Legible) (hends : Ends rest) :
    readValue limit (fuel + 1) depth ((Json.numberText n).toList.map some ++ rest) =
      (.number (some n), rest) := by
  obtain ⟨literal, hliteral, hnumber⟩ := h
  obtain ⟨c, more, hsource, hc⟩ := exists_of_readLiteral hliteral
  have hread := readLiteral_append hends hliteral
  rw [hsource, List.cons_append] at hread ⊢
  have hother : c ∉ ['[', '\x7b', '"', 'n', 't', 'f'] := notMem_of_startsNumber hc (by decide)
  rw [readValue, skipSpace_cons (notMem_of_startsNumber hc (by decide))]
  split
  iterate 6
    next heq =>
      cases heq
      simp at hother
  next =>
    simp only [hread, hnumber]
    rfl

/-- An array that is not empty is read item by item. -/
theorem readValue_array {c : Char} {more : Source} (hc : c ∉ [' ', '\t', '\n', '\r', ']']) :
    readValue limit (fuel + 1) depth (some '[' :: some c :: more) =
      readItems limit fuel depth [] (some c :: more) := by
  simp only [List.mem_cons, List.not_mem_nil, or_false, not_or] at hc
  have hblank : c ∉ [' ', '\t', '\n', '\r'] := by simp [hc]
  simp [readValue, skipSpace_cons, hblank, hc]

/-- An object that is not empty is read member by member. -/
theorem readValue_object {more : Source} :
    readValue limit (fuel + 1) depth (some '\x7b' :: some '"' :: more) =
      readMembers limit fuel depth [] (some '"' :: more) := by
  simp [readValue, skipSpace_cons]

/-! A document is a draft that goes on, so the reader of an array or object takes it as a part. -/

section Parts

variable {source more : Source} {v : Json} {before : List Draft}

theorem readItems_comma
    (h : readValue limit fuel (depth + 1) source = (ofJson v, some ',' :: more)) :
    readItems limit (fuel + 1) depth before source =
      readItems limit fuel depth (ofJson v :: before) more := by
  rw [readItems, h]
  cases v <;> simp [ofJson, goesOn, skipSpace_cons]

theorem readItems_close
    (h : readValue limit fuel (depth + 1) source = (ofJson v, some ']' :: more)) :
    readItems limit (fuel + 1) depth before source =
      (.array (limit ≤ depth) (ofJson v :: before).reverse true, more) := by
  rw [readItems, h]
  cases v <;> simp [ofJson, goesOn, skipSpace_cons]

variable {key : String} {before : List (Option String × Draft)}

/-- A member is read up to its value, and what follows decides how it goes on. -/
theorem readMembers_member
    (h : readValue limit fuel (depth + 1) source = (ofJson v, more)) :
    readMembers limit (fuel + 1) depth before
        ((Json.quotedChars key).map some ++ some ':' :: source) =
      match skipSpace more with
      | some ',' :: rest => readMembers limit fuel depth ((some key, ofJson v) :: before) rest
      | some '\x7d' :: rest =>
        (.object (limit ≤ depth) ((some key, ofJson v) :: before).reverse true, rest)
      | _ => (.object (limit ≤ depth) ((some key, ofJson v) :: before).reverse false, []) := by
  have hkey := readText_text key (some ':' :: source)
  rw [Json.quotedChars, List.map_cons, List.cons_append, readMembers, skipSpace_cons (by decide)]
  simp only [hkey, skipSpace_cons (c := ':') (by decide), h]
  cases v <;> rfl

theorem readMembers_comma
    (h : readValue limit fuel (depth + 1) source = (ofJson v, some ',' :: more)) :
    readMembers limit (fuel + 1) depth before
        ((Json.quotedChars key).map some ++ some ':' :: source) =
      readMembers limit fuel depth ((some key, ofJson v) :: before) more := by
  rw [readMembers_member h, skipSpace_cons (by decide)]
  rfl

theorem readMembers_close
    (h : readValue limit fuel (depth + 1) source = (ofJson v, some '\x7d' :: more)) :
    readMembers limit (fuel + 1) depth before
        ((Json.quotedChars key).map some ++ some ':' :: source) =
      (.object (limit ≤ depth) ((some key, ofJson v) :: before).reverse true, more) := by
  rw [readMembers_member h, skipSpace_cons (by decide)]
  rfl

end Parts

mutual

/-- A document is read from its compact text. Each character pays for two steps of the reader. -/
theorem readValue_chars : ∀ {v : Json} {fuel depth : Nat} {rest : Source}, v.Legible →
    2 * v.chars.length ≤ fuel → depth + v.depth ≤ limit → Ends rest →
      readValue limit fuel depth (v.chars.map some ++ rest) = (ofJson v, rest)
  | v, 0, _, _, hlegible, hfuel, _, _ => by
      obtain ⟨c, more, hchars, _⟩ := Json.exists_chars hlegible
      simp [hchars] at hfuel
  | .null, fuel + 1, _, _, _, _, _, _ => by
      simp [readValue, Json.chars, skipSpace_cons, ofWord, behind?, ofJson]
  | .bool value, fuel + 1, _, _, _, _, _, _ => by
      cases value <;> simp [readValue, Json.chars, skipSpace_cons, ofWord, behind?, ofJson]
  | .num n, fuel + 1, _, _, hlegible, _, _, hends => readValue_number hlegible hends
  | .str s, fuel + 1, _, rest, _, _, _, _ => by
      have htext := readText_text s rest
      rw [Json.chars, Json.quotedChars, List.map_cons, List.cons_append, readValue,
        skipSpace_cons (by decide)]
      simp only [htext, ofJson]
  | .arr [], fuel + 1, depth, rest, _, _, hdepth, _ => by
      have hshallow : ¬ limit ≤ depth := by
        simp only [Json.depth, Json.depthItems] at hdepth
        omega
      simp [Json.chars, Json.itemChars, readValue, skipSpace_cons, ofJson, ofItems, hshallow]
  | .arr (v :: items), fuel + 1, depth, rest, hlegible, hfuel, hdepth, _ => by
      simp only [Json.chars, List.length_cons, List.length_append] at hfuel
      rw [Json.depth] at hdepth
      have hitems : readItems limit fuel depth []
          ((Json.itemChars true (v :: items)).map some ++ some ']' :: rest) =
            (.array (limit ≤ depth) (ofItems (v :: items)) true, rest) :=
        readItems_chars (List.cons_ne_nil v items) hlegible (by omega) (by omega)
      have hshallow : ¬ limit ≤ depth := by omega
      -- The reader looks for the end of the array first, and no item starts with it.
      obtain ⟨c, more, hchars, hc⟩ := Json.exists_chars hlegible.1
      have hstart : Json.itemChars true (v :: items) =
          c :: (more ++ Json.itemChars false items) := by
        simp [Json.itemChars, hchars]
      rw [hstart] at hitems
      rw [Json.chars, hstart]
      simpa [readValue_array hc, hshallow, ofJson] using hitems
  | .obj [], fuel + 1, depth, rest, _, _, hdepth, _ => by
      have hshallow : ¬ limit ≤ depth := by
        simp only [Json.depth, Json.depthMembers] at hdepth
        omega
      simp [Json.chars, Json.memberChars, readValue, skipSpace_cons, ofJson, ofMembers, hshallow]
  | .obj ((key, v) :: members), fuel + 1, depth, rest, hlegible, hfuel, hdepth, _ => by
      simp only [Json.chars, List.length_cons, List.length_append] at hfuel
      rw [Json.depth] at hdepth
      have hmembers : readMembers limit fuel depth []
          ((Json.memberChars true ((key, v) :: members)).map some ++ some '\x7d' :: rest) =
            (.object (limit ≤ depth) (ofMembers ((key, v) :: members)) true, rest) :=
        readMembers_chars (List.cons_ne_nil _ _) hlegible (by omega) (by omega)
      have hshallow : ¬ limit ≤ depth := by omega
      rw [Json.chars, Json.memberChars]
      rw [Json.memberChars] at hmembers
      simpa [Json.quotedChars, readValue_object, hshallow, ofJson] using hmembers

/-- The items of an array are read back up to the bracket. -/
theorem readItems_chars : ∀ {items : List Json} {fuel depth : Nat} {before : List Draft}
    {rest : Source}, items ≠ [] → Json.ItemsLegible items →
    2 * (Json.itemChars true items).length < fuel → depth + Json.depthItems items < limit →
      readItems limit fuel depth before
          ((Json.itemChars true items).map some ++ some ']' :: rest) =
        (.array (limit ≤ depth) (before.reverse ++ ofItems items) true, rest)
  | [], _, _, _, _, hne, _, _, _ => absurd rfl hne
  | v :: items, 0, _, _, _, _, _, hfuel, _ => by omega
  | [v], fuel + 1, depth, before, rest, _, hlegible, hfuel, hdepth => by
      simp only [Json.itemChars_singleton, Json.depthItems] at hfuel hdepth ⊢
      have hv : readValue limit fuel (depth + 1) (v.chars.map some ++ some ']' :: rest) =
          (ofJson v, some ']' :: rest) :=
        readValue_chars hlegible.1 (by omega) (by omega) (.cons (by decide))
      rw [readItems_close hv, List.reverse_cons]
      rfl
  | v :: w :: items, fuel + 1, depth, before, rest, _, hlegible, hfuel, hdepth => by
      rw [Json.depthItems] at hdepth
      simp only [Json.itemChars_cons_cons, List.length_append, List.length_cons, List.map_append,
        List.map_cons, List.append_assoc, List.cons_append] at hfuel ⊢
      have hv : readValue limit fuel (depth + 1) (v.chars.map some ++ some ',' ::
            ((Json.itemChars true (w :: items)).map some ++ some ']' :: rest)) =
          (ofJson v, some ',' ::
            ((Json.itemChars true (w :: items)).map some ++ some ']' :: rest)) :=
        readValue_chars hlegible.1 (by omega) (by omega) (.cons (by decide))
      rw [readItems_comma hv, readItems_chars (List.cons_ne_nil w items) hlegible.2 (by omega)
        (by omega), List.reverse_cons, List.append_assoc]
      rfl

/-- The members of an object are read back up to the brace. -/
theorem readMembers_chars : ∀ {members : List (String × Json)} {fuel depth : Nat}
    {before : List (Option String × Draft)} {rest : Source}, members ≠ [] →
    Json.MembersLegible members → 2 * (Json.memberChars true members).length < fuel →
      depth + Json.depthMembers members < limit →
        readMembers limit fuel depth before
            ((Json.memberChars true members).map some ++ some '\x7d' :: rest) =
          (.object (limit ≤ depth) (before.reverse ++ ofMembers members) true, rest)
  | [], _, _, _, _, hne, _, _, _ => absurd rfl hne
  | _ :: _, 0, _, _, _, _, _, hfuel, _ => by omega
  | [(key, v)], fuel + 1, depth, before, rest, _, hlegible, hfuel, hdepth => by
      simp only [Json.memberChars_singleton, Json.depthMembers, List.length_append,
        List.length_cons, List.map_append, List.map_cons, List.append_assoc,
        List.cons_append] at hfuel hdepth ⊢
      have hv : readValue limit fuel (depth + 1) (v.chars.map some ++ some '\x7d' :: rest) =
          (ofJson v, some '\x7d' :: rest) :=
        readValue_chars hlegible.1 (by omega) (by omega) (.cons (by decide))
      rw [readMembers_close hv, List.reverse_cons]
      rfl
  | (key, v) :: next :: members, fuel + 1, depth, before, rest, _, hlegible, hfuel, hdepth => by
      rw [Json.depthMembers] at hdepth
      simp only [Json.memberChars_cons_cons, List.length_append, List.length_cons,
        List.map_append, List.map_cons, List.append_assoc, List.cons_append] at hfuel ⊢
      have hv : readValue limit fuel (depth + 1) (v.chars.map some ++ some ',' ::
            ((Json.memberChars true (next :: members)).map some ++ some '\x7d' :: rest)) =
          (ofJson v, some ',' ::
            ((Json.memberChars true (next :: members)).map some ++ some '\x7d' :: rest)) :=
        readValue_chars hlegible.1 (by omega) (by omega) (.cons (by decide))
      rw [readMembers_comma hv, readMembers_chars (List.cons_ne_nil next members) hlegible.2
        (by omega) (by omega), List.reverse_cons, List.append_assoc]
      rfl

end

/-- The compact text of a document spells the draft of the document and nothing else. -/
theorem read_print {document : Json} (hlegible : document.Legible)
    (hdepth : document.depth ≤ limit) :
    read limit (document.print.toList.map some) = (ofJson document, true) := by
  have hvalue : readValue limit (2 * document.chars.length + 2) 0
      (document.chars.map some ++ []) = (ofJson document, []) :=
    readValue_chars hlegible (by omega) (by omega) ends_nil
  rw [List.append_nil] at hvalue
  rw [Json.toList_print, read, List.length_map, hvalue]
  cases document <;> rfl

end Draft

/-- What is decoded from a document is decoded from its compact text. -/
theorem Source.decodeAs_print {α : Type} {decode : Decoder α} {document : Json} {value : α}
    (hlegible : document.Legible) (hdepth : document.depth ≤ Json.depthLimit)
    (hvalue : document.decodeAs decode = .ok value) :
    Source.decodeAs decode (document.print.toList.map some) = .ok value := by
  rw [Json.decodeAs] at hvalue
  rw [Source.decodeAs, Draft.read_print hlegible hdepth]
  simp only [hvalue, if_true]

/-! ## One line

A line break in a text is escaped, and no number has one, so the compact text is a single line. -/

/-- The characters that a number is written with. -/
def IsNumeral (c : Char) : Prop :=
  c.isDigit = true ∨ c = '-' ∨ c = '.' ∨ c = 'e'

theorem IsNumeral.ne_lineBreak {c : Char} (h : IsNumeral c) : c ≠ '\n' := by
  rintro rfl
  rcases h with h | h | h | h <;> cases h

namespace Text

theorem isNumeral_decimal {n : Nat} : ∀ c ∈ (decimal n).toList, IsNumeral c := by
  intro c hc
  rw [decimal, String.toList_ofList] at hc
  exact .inl (Nat.isDigit_of_mem_toDigits (by omega) (by omega) hc)

theorem isNumeral_decimalInt {i : Int} : ∀ c ∈ (decimalInt i).toList, IsNumeral c := by
  cases i with
  | ofNat n => exact isNumeral_decimal
  | negSucc n =>
      rw [toList_decimalInt_negSucc, List.forall_mem_cons]
      exact ⟨.inr (.inl rfl), isNumeral_decimal⟩

end Text

namespace Double

theorem isNumeral_shortest (d : Double) : ∀ c ∈ d.shortest.1, IsNumeral c := by
  intro c hc
  rw [shortest] at hc
  dsimp only at hc
  split at hc
  next =>
    rw [List.mem_singleton.mp hc]
    exact .inl rfl
  next value step _ =>
    have hdigits : c ∈ Nat.toDigits 10 value :=
      List.mem_reverse.mp ((List.dropWhile_sublist _).mem (List.mem_reverse.mp hc))
    exact .inl (Nat.isDigit_of_mem_toDigits (by omega) (by omega) hdigits)

theorem isNumeral_positionalText {digits : List Char} {point : Int}
    (h : ∀ c ∈ digits, IsNumeral c) : ∀ c ∈ positionalText digits point, IsNumeral c := by
  have hzero : IsNumeral '0' := .inl rfl
  have hpoint : IsNumeral '.' := .inr (.inr (.inl rfl))
  have hzeros : ∀ count, ∀ c ∈ List.replicate count '0', IsNumeral c := by
    intro count c hc
    rwa [List.eq_of_mem_replicate hc]
  unfold positionalText
  split_ifs
  · simp only [List.forall_mem_append, List.forall_mem_cons]
    exact ⟨⟨⟨hzero, hpoint, nofun⟩, hzeros _⟩, h⟩
  · simp only [List.forall_mem_append, List.forall_mem_cons]
    exact ⟨⟨h, hzeros _⟩, hpoint, hzero, nofun⟩
  · simp only [List.forall_mem_append, List.forall_mem_cons]
    exact ⟨fun c hc => h c (List.mem_of_mem_take hc), hpoint,
      fun c hc => h c (List.mem_of_mem_drop hc)⟩

theorem isNumeral_exponentText {digits : List Char} {point : Int}
    (h : ∀ c ∈ digits, IsNumeral c) : ∀ c ∈ exponentText digits point, IsNumeral c := by
  have hpoint : IsNumeral '.' := .inr (.inr (.inl rfl))
  have hmark : IsNumeral 'e' := .inr (.inr (.inr rfl))
  unfold exponentText
  dsimp only
  split
  next first second rest =>
    simp only [List.forall_mem_append, List.forall_mem_cons] at h ⊢
    exact ⟨⟨h.1, hpoint, h.2⟩, hmark, Text.isNumeral_decimalInt⟩
  next =>
    simp only [List.forall_mem_append, List.forall_mem_cons]
    exact ⟨h, hmark, Text.isNumeral_decimalInt⟩

/-- In every layout a double is written in the characters of numbers. -/
theorem isNumeral_write (layout : Layout) (d : Double) :
    ∀ c ∈ (d.write layout).toList, IsNumeral c := by
  have hsign : ∀ c ∈ if d.isNegative then ['-'] else [], IsNumeral c := by
    split
    · simp [IsNumeral]
    · exact nofun
  have hdigits := isNumeral_shortest d
  unfold write
  dsimp only
  split
  · simp only [String.toList_ofList, List.forall_mem_append]
    refine ⟨hsign, ?_⟩
    simp [IsNumeral]
  · simp only [String.toList_ofList, List.forall_mem_append]
    refine ⟨hsign, ?_⟩
    split
    · exact isNumeral_positionalText hdigits
    · exact isNumeral_exponentText hdigits

end Double

namespace Json

theorem isNumeral_numberText (n : Number) : ∀ c ∈ (numberText n).toList, IsNumeral c := by
  cases n with
  | int i => exact Text.isNumeral_decimalInt
  | double d => exact Double.isNumeral_write doubleLayout d

/-- A line break is escaped, and no escape holds one. -/
theorem lineBreak_notMem_escapedChar (c : Char) : '\n' ∉ escapedChar c := by
  unfold escapedChar
  split_ifs with hquote hslash hb hf hn hr ht hcontrol
  · decide
  · decide
  · decide
  · decide
  · decide
  · decide
  · decide
  · have hdigits : ∀ n < 32, '\n' ∉ ['\\', 'u'] ++
        List.replicate (4 - (Text.hexadecimal n).length) '0' ++ Text.hexadecimal n := by decide
    exact hdigits c.toNat hcontrol
  · rw [List.mem_singleton]
    exact Ne.symm hn

/-- A quoted text does not break a line. -/
theorem lineBreak_notMem_quotedChars (text : String) : '\n' ∉ quotedChars text := by
  have htext : '\n' ∉ text.toList.flatMap escapedChar := by
    rw [List.mem_flatMap]
    rintro ⟨c, _, hc⟩
    exact lineBreak_notMem_escapedChar c hc
  simp [quotedChars, htext]

mutual

/-- The compact text of a document stands on one line. -/
theorem lineBreak_notMem_chars : ∀ document : Json, '\n' ∉ document.chars
  | .null => by decide
  | .bool true => by decide
  | .bool false => by decide
  | .num n => fun h => (isNumeral_numberText n _ h).ne_lineBreak rfl
  | .str s => lineBreak_notMem_quotedChars s
  | .arr items => by simp [chars, lineBreak_notMem_itemChars items]
  | .obj members => by simp [chars, lineBreak_notMem_memberChars members]

theorem lineBreak_notMem_itemChars : ∀ (items : List Json) (isFirst : Bool),
    '\n' ∉ itemChars isFirst items
  | [], _ => nofun
  | v :: rest, isFirst => by
      rw [itemChars]
      cases isFirst <;> simp [lineBreak_notMem_chars v, lineBreak_notMem_itemChars rest]

theorem lineBreak_notMem_memberChars : ∀ (members : List (String × Json)) (isFirst : Bool),
    '\n' ∉ memberChars isFirst members
  | [], _ => nofun
  | (key, v) :: rest, isFirst => by
      rw [memberChars]
      cases isFirst <;> simp [lineBreak_notMem_quotedChars key, lineBreak_notMem_chars v,
        lineBreak_notMem_memberChars rest]

end

/-- The compact text of a document is a single line. -/
theorem lineBreak_notMem_print (document : Json) : '\n' ∉ document.print.toList := by
  rw [toList_print]
  exact lineBreak_notMem_chars document

end Json

end DataflowEditor
