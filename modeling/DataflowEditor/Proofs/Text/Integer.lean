import DataflowEditor.Text.Integer

/-! # Laws of integers in text

A number that is read keeps to the limit it is read with, so an integer with a sign fits a signed
word. What is read as a number without a sign is a run of digits behind a plus sign or none; with a
sign, the run may stand behind a minus sign too. The digits that a number is written with are read
as that number again, as long as it keeps to the limit. No two numbers have one text.
-/

namespace DataflowEditor

/-- The integer has 64 bits with a sign. -/
def IsSignedWord (i : Int) : Prop :=
  -(halfWordCount : Int) ≤ i ∧ i < halfWordCount

instance (i : Int) : Decidable (IsSignedWord i) :=
  inferInstanceAs (Decidable (_ ∧ _))

theorem isSignedWord_of_le {i : Int} (hlow : -1 ≤ i) (hhigh : i < halfWordCount) :
    IsSignedWord i := by
  refine ⟨?_, hhigh⟩
  rw [halfWordCount]
  omega

namespace Text

theorem readDigits_le {limit value n : Nat} {overflow : IntegerFault} {digits : List Char}
    (h : readDigits limit overflow value digits = .ok n) (hvalue : value ≤ limit) : n ≤ limit := by
  induction digits generalizing value with
  | nil =>
      cases h
      exact hvalue
  | cons c rest ih =>
      unfold readDigits at h
      split at h
      · split at h
        next hfits => exact ih h hfits
        next => cases h
      · cases h

theorem readMagnitude_le {limit n : Nat} {overflow : IntegerFault} {digits : List Char}
    (h : readMagnitude limit overflow digits = .ok n) : n ≤ limit := by
  unfold readMagnitude at h
  split at h
  · cases h
  · exact readDigits_le h (Nat.zero_le limit)

theorem readUnsigned_le {limit n : Nat} {text : List Char} (h : readUnsigned limit text = .ok n) :
    n ≤ limit := by
  unfold readUnsigned at h
  split at h
  · cases h
  · exact readMagnitude_le h
  · exact readMagnitude_le h

theorem map_readMagnitude_eq_ok {limit : Nat} {overflow : IntegerFault} {digits : List Char}
    {sign : Nat → Int} {i : Int} : (readMagnitude limit overflow digits).map sign = .ok i ↔
      ∃ n, readMagnitude limit overflow digits = .ok n ∧ sign n = i := by
  cases readMagnitude limit overflow digits <;> simp [Except.map]

/-- A signed number that is read is a signed word. -/
theorem readSigned_bounds {text : List Char} {i : Int} (h : readSigned text = .ok i) :
    -(halfWordCount : Int) ≤ i ∧ i < halfWordCount := by
  unfold readSigned at h
  split at h
  · cases h
  all_goals
    obtain ⟨n, hread, rfl⟩ := map_readMagnitude_eq_ok.mp h
    have hn := readMagnitude_le hread
    simp only [halfWordCount, Int.ofNat_eq_natCast] at hn ⊢
    omega

/-! ## What is read -/

theorem le_ofDigitChars (digits : List Char) (value : Nat) :
    value ≤ Nat.ofDigitChars 10 digits value := by
  induction digits generalizing value with
  | nil => exact Nat.le_refl value
  | cons c rest ih =>
      rw [Nat.ofDigitChars_cons]
      exact Nat.le_trans (by omega) (ih _)

/-- A number is read if all its characters are digits and it keeps to the limit. -/
theorem readDigits_eq_ok {limit value n : Nat} {overflow : IntegerFault} {digits : List Char}
    (hvalue : value ≤ limit) : readDigits limit overflow value digits = .ok n ↔
      (∀ c ∈ digits, c.isDigit = true) ∧ Nat.ofDigitChars 10 digits value = n ∧ n ≤ limit := by
  induction digits generalizing value with
  | nil =>
      rw [readDigits, Except.ok.injEq]
      constructor
      · rintro rfl
        exact ⟨by simp, rfl, hvalue⟩
      · exact fun h => h.2.1
  | cons c rest ih =>
      rw [readDigits, List.forall_mem_cons, Nat.ofDigitChars_cons]
      split
      next hdigit =>
        split
        next hfits =>
          rw [ih hfits, digitValue]
          simp [hdigit]
        next hfits =>
          -- The digits behind one that is too much cannot bring the number down again.
          have hgrows := le_ofDigitChars rest (10 * value + digitValue c)
          simp only [reduceCtorEq, false_iff]
          rintro ⟨_, rfl, hlimit⟩
          exact hfits (Nat.le_trans hgrows hlimit)
      next hdigit => simp [hdigit]

/-- A number is read from one or more digits that keep to the limit. -/
theorem readMagnitude_eq_ok {limit n : Nat} {overflow : IntegerFault} {digits : List Char} :
    readMagnitude limit overflow digits = .ok n ↔ digits ≠ [] ∧ (∀ c ∈ digits, c.isDigit = true) ∧
      Nat.ofDigitChars 10 digits 0 = n ∧ n ≤ limit := by
  cases digits with
  | nil => simp [readMagnitude]
  | cons c rest =>
      rw [readMagnitude, readDigits_eq_ok (Nat.zero_le limit)]
      · simp
      · exact fun h => List.cons_ne_nil c rest h

/-- A number is read from digits with at most a plus sign, up to the limit. -/
theorem readUnsigned_eq_ok {limit n : Nat} {text : List Char} :
    readUnsigned limit text = .ok n ↔ ∃ sign digits, text = sign ++ digits ∧
      (sign = [] ∨ sign = ['+']) ∧ digits ≠ [] ∧ (∀ c ∈ digits, c.isDigit = true) ∧
      Nat.ofDigitChars 10 digits 0 = n ∧ n ≤ limit := by
  unfold readUnsigned
  split
  next => simp
  next digits =>
    rw [readMagnitude_eq_ok]
    constructor
    · intro h
      exact ⟨['+'], digits, rfl, .inr rfl, h⟩
    · rintro ⟨sign, others, htext, rfl | rfl, hfound⟩
      · obtain rfl : '+' :: digits = others := htext
        exact absurd (hfound.2.1 '+' List.mem_cons_self) (by decide)
      · obtain rfl : digits = others := List.tail_eq_of_cons_eq htext
        exact hfound
  next hempty hplus =>
    rw [readMagnitude_eq_ok]
    constructor
    · intro h
      exact ⟨[], text, rfl, .inl rfl, h⟩
    · rintro ⟨sign, others, htext, rfl | rfl, hfound⟩
      · obtain rfl : text = others := htext
        exact hfound
      · exact absurd htext (hplus others)

/-- The text spells the integer: a sign or none, then one or more digits. -/
inductive Spells : List Char → Int → Prop
  | plain {digits : List Char} : digits ≠ [] → (∀ c ∈ digits, c.isDigit = true) →
      Spells digits (Nat.ofDigitChars 10 digits 0)
  | plus {digits : List Char} : digits ≠ [] → (∀ c ∈ digits, c.isDigit = true) →
      Spells ('+' :: digits) (Nat.ofDigitChars 10 digits 0)
  | minus {digits : List Char} : digits ≠ [] → (∀ c ∈ digits, c.isDigit = true) →
      Spells ('-' :: digits) (-(Nat.ofDigitChars 10 digits 0 : Int))

/-- A signed word is read from exactly the texts that spell it. -/
theorem readSigned_eq_ok {text : List Char} {i : Int} :
    readSigned text = .ok i ↔ Spells text i ∧ IsSignedWord i := by
  constructor
  · intro h
    refine ⟨?_, readSigned_bounds h⟩
    unfold readSigned at h
    split at h
    · cases h
    all_goals
      obtain ⟨n, hread, rfl⟩ := map_readMagnitude_eq_ok.mp h
      obtain ⟨hsome, hdigits, rfl, _⟩ := readMagnitude_eq_ok.mp hread
    · exact .minus hsome hdigits
    · exact .plus hsome hdigits
    · exact .plain hsome hdigits
  · rintro ⟨hspells, hlow, hhigh⟩
    cases hspells with
    | @plain _ hsome hdigits =>
        have hread : readMagnitude (halfWordCount - 1) .tooLarge text =
            .ok (Nat.ofDigitChars 10 text 0) :=
          readMagnitude_eq_ok.mpr ⟨hsome, hdigits, rfl, by omega⟩
        -- A text of digits starts with neither sign.
        obtain ⟨c, rest, rfl⟩ := List.exists_cons_of_ne_nil hsome
        have hdigit := hdigits c List.mem_cons_self
        unfold readSigned
        split
        next heq => cases heq
        next heq =>
          cases heq
          exact absurd hdigit (by decide)
        next heq =>
          cases heq
          exact absurd hdigit (by decide)
        next =>
          rw [hread]
          rfl
    | plus hsome hdigits =>
        rw [readSigned, readMagnitude_eq_ok.mpr ⟨hsome, hdigits, rfl, by omega⟩]
        rfl
    | minus hsome hdigits =>
        rw [readSigned, readMagnitude_eq_ok.mpr ⟨hsome, hdigits, rfl, by omega⟩]
        rfl

/-! ## Reading what was written -/

theorem readDigits_append {limit value : Nat} {overflow : IntegerFault} (front back : List Char) :
    readDigits limit overflow value (front ++ back) =
      (readDigits limit overflow value front).bind fun next =>
        readDigits limit overflow next back := by
  induction front generalizing value with
  | nil => rfl
  | cons c rest ih =>
      rw [List.cons_append, readDigits, readDigits]
      split
      · split
        · exact ih
        · rfl
      · rfl

theorem readDigits_digitChar {limit digit : Nat} {overflow : IntegerFault} (value : Nat)
    (hdigit : digit < 10) (hlimit : 10 * value + digit ≤ limit) :
    readDigits limit overflow value [digit.digitChar] = .ok (10 * value + digit) := by
  have hvalue : digitValue digit.digitChar = digit :=
    Nat.toNat_digitChar_sub_48_of_lt_ten hdigit
  simp [readDigits, hvalue, Nat.isDigit_digitChar, hdigit, hlimit]

/-- The digits of a number within the limit are read back. -/
theorem readDigits_toDigits {limit n : Nat} {overflow : IntegerFault} (h : n ≤ limit) :
    readDigits limit overflow 0 (Nat.toDigits 10 n) = .ok n := by
  induction n using Nat.strongRecOn with
  | ind n ih =>
      by_cases hsmall : n < 10
      · rw [Nat.toDigits_of_lt_base hsmall]
        simpa using readDigits_digitChar 0 hsmall (by omega)
      · have hquotient := ih (n / 10) (by omega) (by omega)
        rw [Nat.toDigits_of_base_le (by omega) (by omega), readDigits_append, hquotient]
        have hlast : readDigits limit overflow (n / 10) [(n % 10).digitChar] =
            .ok (10 * (n / 10) + n % 10) :=
          readDigits_digitChar (n / 10) (Nat.mod_lt n (by omega)) (by omega)
        rwa [Nat.div_add_mod] at hlast

theorem exists_digit_decimal (n : Nat) :
    ∃ c rest, (decimal n).toList = c :: rest ∧ c.isDigit = true := by
  rw [decimal, String.toList_ofList]
  cases htext : Nat.toDigits 10 n with
  | nil => exact absurd htext Nat.toDigits_ne_nil
  | cons c rest =>
      exact ⟨c, rest, rfl, Nat.isDigit_of_mem_toDigits (by omega)
        (Nat.le_refl 10) (htext ▸ List.mem_cons_self)⟩

theorem readMagnitude_decimal {limit n : Nat} {overflow : IntegerFault} (h : n ≤ limit) :
    readMagnitude limit overflow (decimal n).toList = .ok n := by
  have hdigits : readDigits limit overflow 0 (decimal n).toList = .ok n := by
    rw [decimal, String.toList_ofList]
    exact readDigits_toDigits h
  obtain ⟨c, rest, htext, _⟩ := exists_digit_decimal n
  rw [htext] at hdigits ⊢
  exact hdigits

/-- The text of a number within the limit is read as that number. -/
theorem readUnsigned_decimal {limit n : Nat} (h : n ≤ limit) :
    readUnsigned limit (decimal n).toList = .ok n := by
  have hread : readMagnitude limit .tooLarge (decimal n).toList = .ok n := readMagnitude_decimal h
  obtain ⟨c, rest, htext, hdigit⟩ := exists_digit_decimal n
  have hplus : c ≠ '+' := by
    rintro rfl
    simp at hdigit
  rw [htext] at hread ⊢
  simpa [readUnsigned, hplus] using hread

theorem toList_decimalInt_negSucc (n : Nat) :
    (decimalInt (.negSucc n)).toList = '-' :: (decimal (n + 1)).toList := by
  rw [decimalInt, String.toList_append]
  rfl

/-- The text of a signed word is read as that word. -/
theorem readSigned_decimalInt {i : Int} (hlow : -(halfWordCount : Int) ≤ i)
    (hhigh : i < halfWordCount) : readSigned (decimalInt i).toList = .ok i := by
  cases i with
  | ofNat n =>
      have hread : readMagnitude (halfWordCount - 1) .tooLarge (decimal n).toList = .ok n :=
        readMagnitude_decimal (by simp only [Int.ofNat_eq_natCast] at hhigh; omega)
      obtain ⟨c, rest, htext, hdigit⟩ := exists_digit_decimal n
      have hminus : c ≠ '-' := by
        rintro rfl
        simp at hdigit
      have hplus : c ≠ '+' := by
        rintro rfl
        simp at hdigit
      rw [htext] at hread
      rw [decimalInt, htext, readSigned, hread]
      · rfl
      · simp
      · simpa using hminus
      · simpa using hplus
  | negSucc n =>
      have hread : readMagnitude halfWordCount .tooSmall (decimal (n + 1)).toList = .ok (n + 1) :=
        readMagnitude_decimal (by omega)
      rw [toList_decimalInt_negSucc, readSigned, hread]
      rfl

/-! ## Different numbers have different texts -/

/-- Different numbers have different texts. -/
theorem decimal_injective {m n : Nat} (h : decimal m = decimal n) : m = n := by
  have hm : readMagnitude (max m n) .tooLarge (decimal m).toList = .ok m :=
    readMagnitude_decimal (Nat.le_max_left m n)
  rw [h, readMagnitude_decimal (Nat.le_max_right m n)] at hm
  cases hm
  rfl

/-- Only the text of a negative number starts with a sign. -/
theorem decimalInt_ofNat_ne_negSucc (m n : Nat) :
    decimalInt (.ofNat m) ≠ decimalInt (.negSucc n) := by
  intro h
  obtain ⟨c, rest, htext, hdigit⟩ := exists_digit_decimal m
  have hlist := congrArg String.toList h
  rw [toList_decimalInt_negSucc, decimalInt, htext] at hlist
  rw [(List.cons.inj hlist).1] at hdigit
  simp at hdigit

theorem decimalInt_injective : Function.Injective decimalInt := by
  intro i j h
  cases i with
  | ofNat m =>
      cases j with
      | ofNat n => rw [decimal_injective h]
      | negSucc n => exact absurd h (decimalInt_ofNat_ne_negSucc m n)
  | negSucc m =>
      cases j with
      | ofNat n => exact absurd h.symm (decimalInt_ofNat_ne_negSucc n m)
      | negSucc n =>
          have hlist := congrArg String.toList h
          rw [toList_decimalInt_negSucc, toList_decimalInt_negSucc] at hlist
          have hdigits := decimal_injective (String.toList_inj.mp (List.cons.inj hlist).2)
          rw [Nat.succ.inj hdigits]

end Text

end DataflowEditor
