import Mathlib
import RayTracer.Proofs.Text.Numerals
import RayTracer.Text.Blank

/-! The grammar of binary64 numerals: a sign or none, then a decimal number or a name. Reading accepts exactly
these texts, and gives the number nearest to the decimal one, also where blanks stand around the numeral. -/

namespace RayTracer.Text

inductive WritesSign : List Char → Bool → Prop
  | absent : WritesSign [] false
  | plus : WritesSign ['+'] false
  | minus : WritesSign ['-'] true

/-- The exponents: none, or a mark, a sign or none, and at least one digit. -/
inductive WritesExponent : List Char → Int → Prop
  | absent : WritesExponent [] 0
  | present {mark : Char} {sign digits : List Char} {negative : Bool} (hMark : mark = 'e' ∨ mark = 'E')
      (hSign : WritesSign sign negative) (hSome : digits ≠ []) (hDigits : AllDigits digits) :
      WritesExponent (mark :: (sign ++ digits)) (if negative then -(Nat.ofDigitChars 10 digits 0 : Int)
        else Nat.ofDigitChars 10 digits 0)

/-- The decimal numbers: digits with a point before, among or behind them or without one, and an exponent. -/
inductive WritesDecimal (negative : Bool) : List Char → Decimal → Prop
  | mk {whole point fraction exponent : List Char} {power : Int} (hWhole : AllDigits whole)
      (hFraction : AllDigits fraction) (hSome : whole ≠ [] ∨ fraction ≠ [])
      (hPoint : point = ['.'] ∨ point = [] ∧ fraction = []) (hExponent : WritesExponent exponent power) :
      WritesDecimal negative (whole ++ (point ++ (fraction ++ exponent)))
        ⟨negative, Nat.ofDigitChars 10 (whole ++ fraction) 0, power - fraction.length⟩

/-- The binary64 numerals. Names are written in either case. -/
inductive WritesFloat : List Char → Float → Prop
  | decimal {sign body : List Char} {negative : Bool} {d : Decimal} (hSign : WritesSign sign negative)
      (hBody : WritesDecimal negative body d) : WritesFloat (sign ++ body) d.toFloat
  | infinity {sign name : List Char} {negative : Bool} (hSign : WritesSign sign negative)
      (hName : name.map Char.toLower = "inf".toList ∨ name.map Char.toLower = "infinity".toList) :
      WritesFloat (sign ++ name) (if negative then -Float.ofBits 0x7ff0000000000000
        else Float.ofBits 0x7ff0000000000000)
  | notANumber {sign name : List Char} {negative : Bool} (hSign : WritesSign sign negative)
      (hName : name.map Char.toLower = "nan".toList) :
      WritesFloat (sign ++ name) (Float.ofBits 0x7ff8000000000000)

def isSign (c : Char) : Bool := c == '+' || c == '-'

/-- A text that does not begin with a character of a class. -/
def HeadNot (p : Char → Bool) (text : List Char) : Prop := ∀ c rest, text = c :: rest → p c = false

/-- A sign is taken off what does not begin with one itself. -/
theorem takeSign_append {sign body : List Char} {negative : Bool} (hSign : WritesSign sign negative)
    (hBody : HeadNot isSign body) :
    takeSign (sign ++ body) = (negative, body) := by
  cases hSign with
  | absent =>
      rw [List.nil_append]
      unfold takeSign
      split
      next rest => exact absurd (hBody '-' rest rfl) (by decide)
      next rest => exact absurd (hBody '+' rest rfl) (by decide)
      next => rfl
  | plus => rfl
  | minus => rfl

/-- Whatever a text begins with, what is taken off it writes the sign that is told. -/
theorem exists_takeSign (text : List Char) :
    ∃ sign, WritesSign sign (takeSign text).1 ∧ text = sign ++ (takeSign text).2 := by
  unfold takeSign
  split
  next rest => exact ⟨['-'], WritesSign.minus, rfl⟩
  next rest => exact ⟨['+'], WritesSign.plus, rfl⟩
  next => exact ⟨[], WritesSign.absent, rfl⟩

/-- Digits are taken up to the first character that is none. -/
theorem takeWhile_isDigit_append {digits rest : List Char} (hDigits : AllDigits digits)
    (hRest : HeadNot Char.isDigit rest) :
    (digits ++ rest).takeWhile Char.isDigit = digits ∧
      (digits ++ rest).dropWhile Char.isDigit = rest := by
  rw [List.takeWhile_append_of_pos hDigits, List.dropWhile_append_of_pos hDigits]
  cases rest with
  | nil => exact ⟨List.append_nil digits, rfl⟩
  | cons c rest =>
      have hHead : c.isDigit = false := hRest c rest rfl
      simp [hHead]

theorem allDigits_takeWhile (text : List Char) : AllDigits (text.takeWhile Char.isDigit) :=
  fun _ hMem => List.mem_takeWhile_imp hMem

theorem isSign_eq_false_of_isDigit {c : Char} (hDigit : c.isDigit = true) : isSign c = false := by
  have hPlus : c ≠ '+' := by
    rintro rfl
    exact absurd hDigit (by decide)
  have hMinus : c ≠ '-' := by
    rintro rfl
    exact absurd hDigit (by decide)
  simp [isSign, hPlus, hMinus]

/-- A text of digits does not begin with a sign. -/
theorem AllDigits.headNot_isSign {digits : List Char} (hDigits : AllDigits digits) :
    HeadNot isSign digits := by
  rintro c rest rfl
  exact isSign_eq_false_of_isDigit (hDigits c List.mem_cons_self)

/-- The reader of exponents accepts the grammar of exponents, nothing of the text left over. -/
theorem readExponent?_eq_some_iff {text : List Char} {power : Int} :
    readExponent? text = some power ↔ WritesExponent text power := by
  constructor
  · intro hRead
    cases text with
    | nil =>
        obtain rfl : 0 = power := Option.some.inj hRead
        exact WritesExponent.absent
    | cons mark rest =>
        obtain ⟨sign, hSign, hRest⟩ := exists_takeSign rest
        simp only [readExponent?, digitsValue_eq, Bool.and_eq_true, decide_eq_true_eq, all_isDigit_iff,
          Option.ite_none_right_eq_some, Option.some.injEq] at hRead
        generalize (takeSign rest).1 = negative at hRead hSign
        generalize (takeSign rest).2 = digits at hRead hRest
        obtain ⟨hMark, ⟨hSome, hDigits⟩, rfl⟩ := hRead
        rw [hRest]
        exact WritesExponent.present hMark hSign hSome hDigits
  · intro hWrites
    cases hWrites with
    | absent => rfl
    | @present mark sign digits negative hMark hSign hSome hDigits =>
        have hTake := takeSign_append hSign hDigits.headNot_isSign
        have hRun : (digits ≠ [] && digits.all Char.isDigit) = true := by
          rw [Bool.and_eq_true, decide_eq_true_eq, all_isDigit_iff]
          exact ⟨hSome, hDigits⟩
        rw [readExponent?, if_pos hMark, hTake, ← digitsValue_eq]
        exact if_pos hRun

/-- An exponent begins with its letter, where there is one. -/
theorem WritesExponent.headNot {text : List Char} {power : Int} (h : WritesExponent text power)
    {p : Char → Bool} (hLower : p 'e' = false) (hUpper : p 'E' = false) : HeadNot p text := by
  rintro c rest hText
  cases h with
  | absent => cases hText
  | present hMark hSign hSome hDigits =>
      obtain rfl := (List.cons.inj hText).1
      rcases hMark with rfl | rfl
      · exact hLower
      · exact hUpper

/-- What follows the digits before the point is the point or the exponent. -/
theorem WritesExponent.headNot_isDigit_append {point fraction exponent : List Char} {power : Int}
    (hPoint : point = ['.'] ∨ point = [] ∧ fraction = []) (h : WritesExponent exponent power) :
    HeadNot Char.isDigit (point ++ (fraction ++ exponent)) := by
  rcases hPoint with rfl | ⟨rfl, rfl⟩
  · intro c rest hText
    obtain rfl := (List.cons.inj hText).1
    decide
  · exact h.headNot (by decide) (by decide)

/-- A fraction is taken off behind a point, and without a point there is none. -/
theorem exists_takeFraction (text : List Char) :
    ∃ point, text = point ++ ((takeFraction text).1 ++ (takeFraction text).2) ∧
      (point = ['.'] ∨ point = [] ∧ (takeFraction text).1 = []) ∧ AllDigits (takeFraction text).1 := by
  unfold takeFraction
  split
  next after =>
      exact ⟨['.'], congrArg (List.cons '.') List.takeWhile_append_dropWhile.symm, Or.inl rfl,
        allDigits_takeWhile after⟩
  next => exact ⟨[], rfl, Or.inr ⟨rfl, rfl⟩, by simp [AllDigits]⟩

/-- The fraction that is written is the one that is taken, up to the exponent. -/
theorem takeFraction_append {point fraction exponent : List Char} {power : Int}
    (hPoint : point = ['.'] ∨ point = [] ∧ fraction = []) (hFraction : AllDigits fraction)
    (hExponent : WritesExponent exponent power) :
    takeFraction (point ++ (fraction ++ exponent)) = (fraction, exponent) := by
  rcases hPoint with rfl | ⟨rfl, rfl⟩
  · obtain ⟨hTake, hDrop⟩ := takeWhile_isDigit_append hFraction (hExponent.headNot (by decide) (by decide))
    change ((fraction ++ exponent).takeWhile Char.isDigit,
      (fraction ++ exponent).dropWhile Char.isDigit) = _
    rw [hTake, hDrop]
  · have hHead : HeadNot (fun c => c == '.') exponent := hExponent.headNot (by decide) (by decide)
    rw [List.nil_append, List.nil_append]
    unfold takeFraction
    split
    next after => exact absurd (hHead '.' after rfl) (by decide)
    next => rfl

/-- The reader of decimal numbers accepts their grammar. -/
theorem readUnsigned?_eq_some_iff {negative : Bool} {text : List Char} {d : Decimal} :
    readUnsigned? negative text = some d ↔ WritesDecimal negative text d := by
  constructor
  · intro hRead
    have hWhole := allDigits_takeWhile text
    have hSplit : text.takeWhile Char.isDigit ++ text.dropWhile Char.isDigit = text :=
      List.takeWhile_append_dropWhile
    simp only [readUnsigned?, digitsValue_eq] at hRead
    generalize text.takeWhile Char.isDigit = whole at hRead hWhole hSplit
    generalize text.dropWhile Char.isDigit = rest at hRead hSplit
    obtain ⟨point, hRest, hPoint, hFraction⟩ := exists_takeFraction rest
    generalize takeFraction rest = parts at hRead hRest hPoint hFraction
    obtain ⟨fraction, tail⟩ := parts
    split at hRead
    next => cases hRead
    next hSome =>
        obtain ⟨power, hPower, rfl⟩ := Option.map_eq_some_iff.mp hRead
        rw [← hSplit, hRest]
        refine WritesDecimal.mk hWhole hFraction ?_ hPoint (readExponent?_eq_some_iff.mp hPower)
        rw [Bool.and_eq_true, decide_eq_true_eq, decide_eq_true_eq, not_and_or] at hSome
        exact hSome
  · intro hWrites
    cases hWrites with
    | @mk whole point fraction exponent power hWhole hFraction hSome hPoint hExponent =>
        obtain ⟨hTake, hDrop⟩ :=
          takeWhile_isDigit_append hWhole (hExponent.headNot_isDigit_append hPoint)
        have hNotNone : ¬(whole = [] && fraction = []) = true := by
          rw [Bool.and_eq_true, decide_eq_true_eq, decide_eq_true_eq, not_and_or]
          exact hSome
        simp only [readUnsigned?, hTake, hDrop, takeFraction_append hPoint hFraction hExponent,
          digitsValue_eq, readExponent?_eq_some_iff.mpr hExponent]
        rw [if_neg hNotNone]
        rfl

/-- A decimal number begins with a digit or a point. -/
theorem WritesDecimal.exists_head {negative : Bool} {text : List Char} {d : Decimal}
    (h : WritesDecimal negative text d) :
    ∃ c rest, text = c :: rest ∧ (c.isDigit = true ∨ c = '.') := by
  cases h with
  | @mk whole point fraction exponent power hWhole hFraction hSome hPoint hExponent =>
      cases whole with
      | cons c rest => exact ⟨c, _, rfl, Or.inl (hWhole c List.mem_cons_self)⟩
      | nil =>
          rcases hPoint with rfl | ⟨-, hNone⟩
          · exact ⟨'.', _, rfl, Or.inr rfl⟩
          · exact absurd hNone (hSome.resolve_left (not_not.mpr rfl))

/-- Only the capital letters have another character in lower case. -/
theorem toNat_toLower (c : Char) :
    c.toLower.toNat = if 65 ≤ c.toNat ∧ c.toNat ≤ 90 then c.toNat + 32 else c.toNat := by
  have hRange : c.val ≥ 'A'.val ∧ c.val ≤ 'Z'.val ↔ 65 ≤ c.toNat ∧ c.toNat ≤ 90 := Iff.rfl
  unfold Char.toLower
  by_cases hCapital : 65 ≤ c.toNat ∧ c.toNat ≤ 90
  · rw [dif_pos (hRange.mpr hCapital), if_pos hCapital]
    change (c.val + 32).toNat = c.val.toNat + 32
    have hCode : c.val.toNat ≤ 90 := hCapital.2
    rw [UInt32.toNat_add, Nat.mod_eq_of_lt]
    · rfl
    · change c.val.toNat + 32 < 2 ^ 32
      omega
  · rw [dif_neg (mt hRange.mp hCapital), if_neg hCapital]

/-- A letter is neither a digit nor the point nor a sign. -/
theorem not_letter {c : Char} (h : (c.isDigit = true ∨ c = '.') ∨ c = '+' ∨ c = '-') :
    c.toLower.toNat < 97 := by
  have hCode : c.toNat < 65 := by
    rcases h with (hDigit | rfl) | rfl | rfl
    · simp only [Char.isDigit, Bool.and_eq_true, decide_eq_true_eq, UInt32.le_iff_toNat_le] at hDigit
      exact Nat.lt_of_le_of_lt hDigit.2 (by decide)
    · decide
    · decide
    · decide
  rw [toNat_toLower, if_neg (by omega)]
  omega

/-- A name begins with a letter, whatever its case. -/
theorem headNot_isSign_of_name {text name : List Char} {first : Char}
    (h : text.map Char.toLower = first :: name) (hLetter : 97 ≤ first.toNat) :
    HeadNot isSign text := by
  rintro c rest rfl
  have hFirst : c.toLower = first := (List.cons.inj h).1
  by_contra hSign
  rw [Bool.not_eq_false, isSign, Bool.or_eq_true, beq_iff_eq, beq_iff_eq] at hSign
  have hLow := not_letter (Or.inr hSign)
  rw [hFirst] at hLow
  omega

theorem isInfinity_iff {name : List Char} :
    (name.map Char.toLower = "inf".toList || name.map Char.toLower = "infinity".toList) = true ↔
      name.map Char.toLower = "inf".toList ∨ name.map Char.toLower = "infinity".toList := by
  rw [Bool.or_eq_true, decide_eq_true_eq, decide_eq_true_eq]

/-- The numerals are exactly what is read, and each is read as the number that it writes. -/
theorem readFloat?_eq_some_iff {text : List Char} {value : Float} :
    readFloat? text = some value ↔ WritesFloat text value := by
  constructor
  · intro hRead
    obtain ⟨sign, hSign, hText⟩ := exists_takeSign text
    simp only [readFloat?] at hRead
    generalize takeSign text = parts at hRead hSign hText
    obtain ⟨negative, body⟩ := parts
    rw [hText]
    split at hRead
    next hName =>
        obtain rfl := Option.some.inj hRead
        exact WritesFloat.infinity hSign (isInfinity_iff.mp hName)
    next =>
        split at hRead
        next hName =>
            obtain rfl := Option.some.inj hRead
            exact WritesFloat.notANumber hSign hName
        next =>
            obtain ⟨d, hDecimal, rfl⟩ := Option.map_eq_some_iff.mp hRead
            exact WritesFloat.decimal hSign (readUnsigned?_eq_some_iff.mp hDecimal)
  · intro hWrites
    cases hWrites with
    | @decimal sign body negative d hSign hBody =>
        obtain ⟨c, rest, hHead, hStart⟩ := hBody.exists_head
        have hLow := not_letter (Or.inl hStart)
        have hNoSign : HeadNot isSign body := by
          intro first tail hBodyIs
          obtain rfl : c = first := (List.cons.inj (hHead.symm.trans hBodyIs)).1
          rcases hStart with hDigit | rfl
          · exact isSign_eq_false_of_isDigit hDigit
          · decide
        have hNoName {first : Char} {name : List Char} (hLetter : 97 ≤ first.toNat) :
            body.map Char.toLower ≠ first :: name := by
          intro hName
          rw [hHead, List.map_cons] at hName
          rw [(List.cons.inj hName).1] at hLow
          omega
        have hInfinity := mt isInfinity_iff.mp
          (not_or.mpr ⟨hNoName (show 97 ≤ 'i'.toNat by decide), hNoName (show 97 ≤ 'i'.toNat by decide)⟩)
        have hNotANumber : body.map Char.toLower ≠ "nan".toList := hNoName (by decide)
        simp only [readFloat?, takeSign_append hSign hNoSign]
        rw [if_neg hInfinity, if_neg hNotANumber, readUnsigned?_eq_some_iff.mpr hBody]
        rfl
    | @infinity sign name negative hSign hName =>
        have hNoSign : HeadNot isSign name := by
          rcases hName with hShort | hLong
          · exact headNot_isSign_of_name hShort (by decide)
          · exact headNot_isSign_of_name hLong (by decide)
        simp only [readFloat?, takeSign_append hSign hNoSign]
        rw [if_pos (isInfinity_iff.mpr hName)]
    | @notANumber sign name negative hSign hName =>
        have hNoSign := headNot_isSign_of_name hName (by decide)
        have hInfinity : ¬(name.map Char.toLower = "inf".toList ||
            name.map Char.toLower = "infinity".toList) = true := by
          rw [hName]
          decide
        simp only [readFloat?, takeSign_append hSign hNoSign]
        rw [if_neg hInfinity, if_pos hName]

/-- The visible characters of ASCII. -/
def IsVisible (c : Char) : Prop := 33 ≤ c.toNat ∧ c.toNat < 128

/-- What is visible is no blank. -/
theorem IsVisible.isBlank_eq_false {c : Char} (h : IsVisible c) : isBlank c = false := by
  obtain ⟨hLow, hHigh⟩ := h
  simp only [isBlank, Bool.or_eq_false_iff, Bool.and_eq_false_iff, decide_eq_false_iff_not,
    beq_eq_false_iff_ne, ne_eq]
  omega

theorem isVisible_of_isDigit {c : Char} (hDigit : c.isDigit = true) : IsVisible c := by
  simp only [Char.isDigit, Bool.and_eq_true, decide_eq_true_eq, ge_iff_le,
    UInt32.le_iff_toNat_le] at hDigit
  exact ⟨Nat.le_trans (by decide) hDigit.1, Nat.lt_of_le_of_lt hDigit.2 (by decide)⟩

/-- The letters of names are visible in either case. -/
theorem isVisible_of_name {text name : List Char} (hName : text.map Char.toLower = name)
    (hLetters : ∀ c ∈ name, 97 ≤ c.toNat ∧ c.toNat < 128) : ∀ c ∈ text, IsVisible c := by
  intro c hMem
  have hLower := hLetters c.toLower (hName ▸ List.mem_map_of_mem hMem)
  rw [toNat_toLower] at hLower
  unfold IsVisible
  split at hLower <;> omega

theorem WritesSign.isVisible {text : List Char} {negative : Bool} (h : WritesSign text negative) :
    ∀ c ∈ text, IsVisible c := by
  cases h with
  | absent => simp
  | plus => simp [IsVisible]
  | minus => simp [IsVisible]

theorem WritesExponent.isVisible {text : List Char} {power : Int} (h : WritesExponent text power) :
    ∀ c ∈ text, IsVisible c := by
  cases h with
  | absent => simp
  | present hMark hSign hSome hDigits =>
      intro c hMem
      rw [List.mem_cons, List.mem_append] at hMem
      rcases hMem with rfl | hMem | hMem
      · rcases hMark with rfl | rfl <;> exact ⟨by decide, by decide⟩
      · exact hSign.isVisible c hMem
      · exact isVisible_of_isDigit (hDigits c hMem)

/-- A decimal number has no blanks in it. -/
theorem WritesDecimal.isVisible {negative : Bool} {text : List Char} {d : Decimal}
    (h : WritesDecimal negative text d) : ∀ c ∈ text, IsVisible c := by
  cases h with
  | mk hWhole hFraction hSome hPoint hExponent =>
      intro c hMem
      rw [List.mem_append, List.mem_append, List.mem_append] at hMem
      rcases hMem with hMem | hMem | hMem | hMem
      · exact isVisible_of_isDigit (hWhole c hMem)
      · rcases hPoint with rfl | ⟨rfl, -⟩
        · obtain rfl := List.mem_singleton.mp hMem
          exact ⟨by decide, by decide⟩
        · exact absurd hMem List.not_mem_nil
      · exact isVisible_of_isDigit (hFraction c hMem)
      · exact hExponent.isVisible c hMem

/-- A numeral has neither blanks in it nor characters beyond ASCII. -/
theorem WritesFloat.isVisible {text : List Char} {value : Float} (h : WritesFloat text value) :
    ∀ c ∈ text, IsVisible c := by
  have hBoth {sign body : List Char} {negative : Bool} (hSign : WritesSign sign negative)
      (hBody : ∀ c ∈ body, IsVisible c) : ∀ c ∈ sign ++ body, IsVisible c := by
    intro c hMem
    rcases List.mem_append.mp hMem with hMem | hMem
    · exact hSign.isVisible c hMem
    · exact hBody c hMem
  cases h with
  | decimal hSign hBody => exact hBoth hSign hBody.isVisible
  | infinity hSign hName =>
      rcases hName with hShort | hLong
      · exact hBoth hSign (isVisible_of_name hShort (by simp))
      · exact hBoth hSign (isVisible_of_name hLong (by simp))
  | notANumber hSign hName => exact hBoth hSign (isVisible_of_name hName (by simp))

/-- No number is written by an empty text. -/
theorem WritesFloat.ne_nil {text : List Char} {value : Float} (h : WritesFloat text value) :
    text ≠ [] := by
  rintro rfl
  have hRead := readFloat?_eq_some_iff.mpr h
  exact absurd hRead (by simp [readFloat?, takeSign, readUnsigned?, takeFraction])

theorem dropWhile_isBlank_eq_self {text : List Char} (h : ∀ c ∈ text, isBlank c = false) :
    text.dropWhile isBlank = text := by
  cases text with
  | nil => rfl
  | cons c rest => rw [List.dropWhile_cons_of_neg (by simp [h c List.mem_cons_self])]

/-- Only blanks are taken off a text that is trimmed. -/
theorem exists_trim (text : List Char) :
    ∃ left right, text = left ++ (trim text ++ right) ∧ (∀ c ∈ left, isBlank c = true) ∧
      ∀ c ∈ right, isBlank c = true := by
  let inner := text.dropWhile isBlank
  have hOuter : text.takeWhile isBlank ++ inner = text := List.takeWhile_append_dropWhile
  have hInner : inner.reverse.takeWhile isBlank ++ inner.reverse.dropWhile isBlank = inner.reverse :=
    List.takeWhile_append_dropWhile
  have hReverse : trim text ++ (inner.reverse.takeWhile isBlank).reverse = inner := by
    rw [trim, ← List.reverse_append, hInner, List.reverse_reverse]
  refine ⟨text.takeWhile isBlank, (inner.reverse.takeWhile isBlank).reverse, ?_, ?_, ?_⟩
  · rw [hReverse, hOuter]
  · exact fun c hMem => List.mem_takeWhile_imp hMem
  · exact fun c hMem => List.mem_takeWhile_imp (List.mem_reverse.mp hMem)

/-- The blanks around a text without blanks are all taken off. -/
theorem trim_append {left core right : List Char} (hLeft : ∀ c ∈ left, isBlank c = true)
    (hRight : ∀ c ∈ right, isBlank c = true) (hSome : core ≠ [])
    (hCore : ∀ c ∈ core, isBlank c = false) : trim (left ++ (core ++ right)) = core := by
  have hHead : (core ++ right).dropWhile isBlank = core ++ right := by
    cases core with
    | nil => exact absurd rfl hSome
    | cons c rest =>
        rw [List.cons_append, List.dropWhile_cons_of_neg (by simp [hCore c List.mem_cons_self])]
  have hBlank : ∀ c ∈ right.reverse, isBlank c = true := fun c hMem =>
    hRight c (List.mem_reverse.mp hMem)
  have hKept : ∀ c ∈ core.reverse, isBlank c = false := fun c hMem =>
    hCore c (List.mem_reverse.mp hMem)
  rw [trim, List.dropWhile_append_of_pos hLeft, hHead, List.reverse_append,
    List.dropWhile_append_of_pos hBlank, dropWhile_isBlank_eq_self hKept, List.reverse_reverse]

/-- A trimmed text is read as a number exactly when it is a numeral with blanks around it. -/
theorem readFloat?_trim_eq_some_iff {text : List Char} {value : Float} :
    readFloat? (trim text) = some value ↔
      ∃ left numeral right, text = left ++ (numeral ++ right) ∧ (∀ c ∈ left, isBlank c = true) ∧
        (∀ c ∈ right, isBlank c = true) ∧ WritesFloat numeral value := by
  constructor
  · intro hRead
    obtain ⟨left, right, hText, hLeft, hRight⟩ := exists_trim text
    exact ⟨left, trim text, right, hText, hLeft, hRight, readFloat?_eq_some_iff.mp hRead⟩
  · rintro ⟨left, numeral, right, rfl, hLeft, hRight, hWrites⟩
    have hVisible : ∀ c ∈ numeral, isBlank c = false := fun c hMem =>
      (hWrites.isVisible c hMem).isBlank_eq_false
    rw [trim_append hLeft hRight hWrites.ne_nil hVisible]
    exact readFloat?_eq_some_iff.mpr hWrites

end RayTracer.Text
