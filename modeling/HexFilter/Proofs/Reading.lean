import HexFilter.Json.Record
import HexFilter.Summary.Json

/-! Single values as they are written, in front of a reader. A reader takes a
written value up to its last character and leaves the text after it alone, so
what is read does not depend on what follows. -/
namespace HexFilter.Json

/-- A place where no value can go on: the end of the text, or a character that
separates values or closes what they stand in. -/
inductive Delimited : List Char → Prop where
  | ended : Delimited []
  | comma (rest : List Char) : Delimited (',' :: rest)
  | colon (rest : List Char) : Delimited (':' :: rest)
  | bracket (rest : List Char) : Delimited (']' :: rest)
  | brace (rest : List Char) : Delimited ('}' :: rest)

/-- The text does not go on with a digit. -/
def Undigited (rest : List Char) : Prop := ∀ c ∈ rest.head?, c.isDigit = false

/-- Where a value may end no digit follows. -/
theorem Delimited.undigited {rest : List Char} (h : Delimited rest) : Undigited rest := by
  cases h <;> simp [Undigited]

namespace Reader

variable {α β : Type}

/-- Wherever a value may end, this text is read as this value and no more of
the text is used up. -/
def Takes (read : Reader α) (cs : List Char) (value : α) : Prop :=
  ∀ rest : List Char, Delimited rest → read (cs ++ rest) = .ok (value, rest)

/-- What is made of a value that was read changes nothing in how it is read. -/
theorem Takes.return {read : Reader α} {cs : List Char} {value : α} (h : Takes read cs value)
    (f : α → β) : Takes (do return f (← read)) cs (f value) := by
  intro rest hRest
  rw [bind_apply, h rest hRest]
  rfl

/-- A text that is one written value is read as a whole. -/
theorem Takes.whole {read : Reader α} {cs : List Char} {value : α} (h : Takes read cs value) :
    whole read (String.ofList cs) = .ok value := by
  have hRead : read cs = .ok (value, []) := by simpa using h [] .ended
  simp [Reader.whole, hRead]

section Tokens

theorem token_cons {c : Char} (rest : List Char) (h : isBlank c = false) :
    token (c :: rest) = .ok (c, c :: rest) := by
  simp [token, h]

theorem expect_cons {c : Char} (rest : List Char) (h : isBlank c = false) :
    expect c (c :: rest) = .ok ((), rest) := by
  simp [expect, token_cons rest h, drop]

theorem isBlank_of_isDigit {c : Char} (h : c.isDigit) : isBlank c = false := by
  cases hBlank : isBlank c
  · rfl
  · simp only [isBlank, Bool.or_eq_true, decide_eq_true_eq] at hBlank
    rcases hBlank with ((rfl | rfl) | rfl) | rfl <;> exact absurd h (by decide)

end Tokens

section Texts

/-- A character that stands for itself in a text. -/
def isPlain (c : Char) : Bool := c ≠ '"' && c ≠ '\\' && ¬c < ' '

/-- A plain character stands for itself. -/
theorem textAfter_cons {c : Char} (rest : List Char) (h : isPlain c) :
    textAfter none (c :: rest) = prepend c (textAfter none rest) := by
  simp only [isPlain, Bool.and_eq_true, decide_eq_true_eq] at h
  obtain ⟨⟨hQuote, hEscape⟩, hControl⟩ := h
  rw [textAfter, if_neg hControl]
  all_goals simp_all

/-- A name is read as it is written, up to its closing quotation mark. -/
theorem text_append {cs : List Char} (rest : List Char) (h : cs.all isPlain) :
    text (cs ++ '"' :: rest) = .ok (cs, rest) := by
  show textAfter none (cs ++ '"' :: rest) = .ok (cs, rest)
  induction cs with
  | nil => rfl
  | cons c cs ih =>
    rw [List.all_cons, Bool.and_eq_true] at h
    rw [List.cons_append, textAfter_cons _ h.1, ih h.2]
    rfl

theorem drop_name (key : String) (rest : List Char) :
    drop (name key ++ rest) = .ok ((), key.toList ++ '"' :: rest) := by
  simp [drop, name]

/-- A known name in quotation marks is read as what it stands for. -/
theorem choiceOf_name {known : List (String × α)} {key : String} {value : α} (rest : List Char)
    (hPlain : key.toList.all isPlain)
    (hKnown : known.find? (fun entry => entry.1.toList = key.toList) = some (key, value)) :
    choiceOf known (name key ++ rest) = .ok (value, rest) := by
  have hToken : token (name key ++ rest) = .ok ('"', name key ++ rest) := token_cons _ rfl
  have hText := text_append rest hPlain
  simp [choiceOf, knownName, hToken, drop_name, hText, hKnown]

end Texts

section Numbers

theorem natural_of_lt {n : Nat} (h : n < 10) : natural n = [n.digitChar] :=
  Nat.toDigits_of_lt_base h

/-- The last digit of a number is what division by ten leaves of it. -/
theorem natural_of_le {n : Nat} (h : 10 ≤ n) :
    natural n = natural (n / 10) ++ [(n % 10).digitChar] :=
  Nat.toDigits_of_base_le (by decide) h

theorem isDigit_of_mem_natural {n : Nat} {c : Char} (h : c ∈ natural n) : c.isDigit :=
  Nat.isDigit_of_mem_toDigits (by decide) (by decide) h

/-- The values of written digits. -/
def values (cs : List Char) : List Nat := cs.map fun c => c.toNat - '0'.toNat

/-- Digits are read up to the first character that is none. -/
theorem digits_append {cs rest : List Char} (hDigits : ∀ c ∈ cs, c.isDigit)
    (hRest : Undigited rest) : digits (cs ++ rest) = .ok (values cs, rest) := by
  have hEnds : rest.takeWhile Char.isDigit = [] ∧ rest.dropWhile Char.isDigit = rest := by
    cases rest with
    | nil => exact ⟨rfl, rfl⟩
    | cons c rest => simp [hRest c rfl]
  rw [digits, List.takeWhile_append_of_pos hDigits, List.dropWhile_append_of_pos hDigits, hEnds.1,
    hEnds.2, List.append_nil]
  rfl

theorem someDigits_append (ended : Fault) {cs rest : List Char} (hSome : cs ≠ [])
    (hDigits : ∀ c ∈ cs, c.isDigit) (hRest : Undigited rest) :
    someDigits ended (cs ++ rest) = .ok (values cs, rest) := by
  simp [someDigits, digits_append hDigits hRest, values, hSome]

theorem values_digitChar {n : Nat} (h : n < 10) : values [n.digitChar] = [n] := by
  rw [values, List.map_singleton]
  exact congrArg (fun value => [value]) (Nat.toNat_digitChar_sub_48_of_lt_ten h)

theorem values_natural_of_le {n : Nat} (h : 10 ≤ n) :
    values (natural n) = values (natural (n / 10)) ++ [n % 10] := by
  rw [natural_of_le h, values, List.map_append]
  exact congrArg (values (natural (n / 10)) ++ ·) (values_digitChar (Nat.mod_lt _ (by decide)))

/-- The digits of a number that fits into 64 bits are all taken. -/
theorem takeWhole_natural {n : Nat} (h : n < Numeral.wordLimit) :
    Numeral.takeWhole (values (natural n)) = (n, 0) := by
  induction n using Nat.strongRecOn with
  | ind n ih =>
    by_cases hBase : n < 10
    · rw [natural_of_lt hBase, values_digitChar hBase]
      simp [Numeral.takeWhole, h]
    · have hDigits := values_natural_of_le (Nat.le_of_not_lt hBase)
      have hRest := ih (n / 10) (by omega) (by omega)
      rw [hDigits, Numeral.takeWhole, List.foldl_append]
      rw [Numeral.takeWhole] at hRest
      rw [hRest]
      have hValue : n / 10 * 10 + n % 10 = n := Nat.div_add_mod' n 10
      simp [hValue, h]

theorem natural_ne_nil (n : Nat) : natural n ≠ [] := Nat.toDigits_ne_nil

/-- Only zero is written with a zero in front. -/
theorem eq_zero_of_head?_values {n : Nat} (h : (values (natural n)).head? = some 0) : n = 0 := by
  induction n using Nat.strongRecOn with
  | ind n ih =>
    by_cases hBase : n < 10
    · rw [natural_of_lt hBase, values_digitChar hBase] at h
      exact Option.some.inj h
    · have hNonempty : values (natural (n / 10)) ≠ [] := by simp [values, natural_ne_nil]
      obtain ⟨first, others, hCons⟩ := List.exists_cons_of_ne_nil hNonempty
      rw [values_natural_of_le (Nat.le_of_not_lt hBase), hCons] at h
      -- All digits but the last are those of the tenth, so they start alike.
      have hZero : n / 10 = 0 := ih (n / 10) (by omega) (hCons ▸ h)
      omega

/-- A written number starts with a digit. -/
theorem natural_eq_cons (n : Nat) : ∃ c cs, natural n = c :: cs ∧ c.isDigit := by
  obtain ⟨c, cs, hCons⟩ := List.exists_cons_of_ne_nil (natural_ne_nil n)
  exact ⟨c, cs, hCons, isDigit_of_mem_natural (hCons ▸ List.mem_cons_self)⟩

/-- A whole part is read to its end, if a zero in front of it is all there is of
it. -/
theorem wholePart_append (ended : Fault) {cs rest : List Char} (hSome : cs ≠ [])
    (hDigits : ∀ c ∈ cs, c.isDigit) (hZero : (values cs).head? = some 0 → (values cs).length = 1)
    (hRest : Undigited rest) : wholePart ended (cs ++ rest) = .ok (values cs, rest) := by
  simp only [wholePart, bind_apply, someDigits_append ended hSome hDigits hRest]
  rw [if_neg fun h => h.2 (hZero h.1)]
  rfl

/-- A written number has no zero in front and is read as a whole part. -/
theorem wholePart_natural (ended : Fault) (n : Nat) {rest : List Char} (hRest : Delimited rest) :
    wholePart ended (natural n ++ rest) = .ok (values (natural n), rest) := by
  refine wholePart_append ended (natural_ne_nil n) (fun c => isDigit_of_mem_natural) ?_
    hRest.undigited
  intro h
  rw [eq_zero_of_head?_values h]
  rfl

theorem fractionPart_delimited (ended : Fault) {rest : List Char} (hRest : Delimited rest) :
    fractionPart ended rest = .ok (none, rest) := by
  cases hRest <;> rfl

theorem exponentPart_delimited (ended : Fault) {rest : List Char} (hRest : Delimited rest) :
    exponentPart ended rest = .ok (none, rest) := by
  cases hRest <;> rfl

/-- A number below the limit of words is read as a number without fraction or
exponent. -/
theorem number_natural {n : Nat} (h : n < Numeral.wordLimit) :
    Takes number (natural n) (.natural n) := by
  intro rest hRest
  have hSign : minusSign (natural n ++ rest) = .ok (false, natural n ++ rest) := by
    obtain ⟨c, cs, hCons, hDigit⟩ := natural_eq_cons n
    have hMinus : c ≠ '-' := by
      rintro rfl
      exact absurd hDigit (by decide)
    simp [minusSign, peek, hCons, hMinus]
  have hNumeral : numeral .unfinished (natural n ++ rest) =
      .ok (⟨false, values (natural n), none, none⟩, rest) := by
    simp [numeral, hSign, wholePart_natural, hRest, fractionPart_delimited, exponentPart_delimited]
  simp [number, hNumeral, Numeral.value, takeWhole_natural h]

/-- A number in range passes the check of its range. -/
theorem takes_wordBelow {limit n : Nat} (expected : String) (hLimit : limit ≤ Numeral.wordLimit)
    (h : n < limit) : Takes (wordBelow limit expected) (natural n) n := by
  intro rest hRest
  have hNumber := number_natural (Nat.lt_of_lt_of_le h hLimit) rest hRest
  have hAny : anyNumber expected (natural n ++ rest) = .ok (.natural n, rest) := by
    obtain ⟨c, cs, hCons, hDigit⟩ := natural_eq_cons n
    rw [hCons, List.cons_append] at hNumber ⊢
    simp [anyNumber, token_cons _ (isBlank_of_isDigit hDigit), hDigit, hNumber]
  simp [wordBelow, hAny, h]

theorem takes_word64 {n : Nat} (h : n < UInt64.size) : Takes word64 (natural n) n :=
  takes_wordBelow "u64" (Nat.le_refl _) h

theorem takes_word32 {n : Nat} (h : n < UInt32.size) : Takes word32 (natural n) n :=
  takes_wordBelow "u32" (by decide) h

end Numbers

theorem takes_boolean (b : Bool) : Takes boolean (Json.boolean b) b := by
  intro rest hRest
  cases b <;> rfl

end Reader

end HexFilter.Json
