import ToolWrappers.Usage.Call

/-! The values of the arguments in an example call. Numbers are a grammar of their own: the texts that
denote one are decimal numbers, and the words for infinite values and for no value. -/

namespace ToolWrappers

namespace Text

/-! ### Decimal numbers -/

/-- No sign or one. -/
inductive Sign : List Char → Prop
  | absent : Sign []
  | plus : Sign ['+']
  | minus : Sign ['-']

def Digits (s : List Char) : Prop := ∀ c ∈ s, c.isDigit = true

/-- Digits, one at least, with or without a point. -/
inductive Mantissa : List Char → Prop
  | whole {digits : List Char} : Digits digits → digits ≠ [] → Mantissa digits
  | pointed {whole fraction : List Char} : Digits whole → Digits fraction → whole ++ fraction ≠ [] →
      Mantissa (whole ++ '.' :: fraction)

/-- A sign or none, and digits. -/
inductive Power : List Char → Prop
  | mk {sign digits : List Char} : Sign sign → Digits digits → digits ≠ [] → Power (sign ++ digits)

/-- No exponent or one with digits. -/
inductive Exponent : List Char → Prop
  | absent : Exponent []
  | present {mark : Char} {power : List Char} : mark = 'e' ∨ mark = 'E' → Power power →
      Exponent (mark :: power)

/-- A decimal number. -/
inductive Decimal : List Char → Prop
  | mk {sign mantissa exponent : List Char} : Sign sign → Mantissa mantissa → Exponent exponent →
      Decimal (sign ++ (mantissa ++ exponent))

/-- A value without digits: an infinite one, or none, in any case and with or without a sign. -/
inductive Wordy : List Char → Prop
  | mk {sign word : List Char} : Sign sign → word.map Char.toLower ∈ namedNumbers → Wordy (sign ++ word)

variable {s sign rest digits : List Char} {c : Char}

theorem Sign.dropSign_append (h : Sign sign) (unsigned : ∀ c ∈ rest.head?, isSign c = false) :
    dropSign (sign ++ rest) = rest := by
  cases h with
  | plus => rfl
  | minus => rfl
  | absent =>
      cases rest with
      | nil => rfl
      | cons c rest => exact if_neg (Bool.eq_false_iff.mp (unsigned c rfl))

theorem exists_sign (s : List Char) : ∃ sign, Sign sign ∧ s = sign ++ dropSign s := by
  cases s with
  | nil => exact ⟨[], .absent, rfl⟩
  | cons c s =>
      by_cases signed : isSign c = true
      · rw [dropSign, if_pos signed]
        rw [isSign, Bool.or_eq_true, decide_eq_true_eq, decide_eq_true_eq] at signed
        rcases signed with rfl | rfl
        · exact ⟨['+'], .plus, rfl⟩
        · exact ⟨['-'], .minus, rfl⟩
      · rw [dropSign, if_neg signed]
        exact ⟨[], .absent, rfl⟩

theorem isSign_of_isDigit (digit : c.isDigit = true) : isSign c = false := by
  apply Bool.eq_false_iff.mpr
  intro signed
  rw [isSign, Bool.or_eq_true, decide_eq_true_eq, decide_eq_true_eq] at signed
  rcases signed with rfl | rfl
  · exact absurd digit (by decide)
  · exact absurd digit (by decide)

theorem isExponent_iff : isExponent s = true ↔ Power s := by
  constructor
  · intro h
    obtain ⟨sign, signed, shape⟩ := exists_sign s
    rw [isExponent, Bool.and_eq_true, List.all_eq_true] at h
    rw [shape]
    exact .mk signed h.2 (by simpa using h.1)
  · rintro ⟨signed, decimal, filled⟩
    rename_i sign digits
    have unsigned : ∀ c ∈ digits.head?, isSign c = false := fun c first =>
      isSign_of_isDigit (decimal c (List.mem_of_head? first))
    rw [isExponent, signed.dropSign_append unsigned, Bool.and_eq_true, List.all_eq_true]
    exact ⟨by simpa using filled, decimal⟩

/-- Digits are read up to what is no digit. -/
theorem Digits.span (h : Digits digits) (stop : ∀ c ∈ rest.head?, c.isDigit = false) :
    (digits ++ rest).takeWhile Char.isDigit = digits ∧ (digits ++ rest).dropWhile Char.isDigit = rest := by
  rw [List.takeWhile_append_of_pos h, List.dropWhile_append_of_pos h]
  cases rest with
  | nil => exact ⟨List.append_nil digits, rfl⟩
  | cons c rest =>
      have other := Bool.eq_false_iff.mp (stop c rfl)
      rw [List.takeWhile_cons_of_neg other, List.dropWhile_cons_of_neg other]
      exact ⟨List.append_nil digits, rfl⟩

theorem Exponent.head? {exponent : List Char} (h : Exponent exponent) :
    ∀ c ∈ exponent.head?, c.isDigit = false ∧ c ≠ '.' := by
  cases h with
  | absent => simp
  | present marked power =>
      rcases marked with rfl | rfl
      · simp
      · simp

theorem exponent_iff : Exponent s ↔
    (match s with
      | [] => true
      | c :: rest => (c = 'e' || c = 'E') && isExponent rest) = true := by
  cases s with
  | nil => simp [Exponent.absent]
  | cons c rest =>
      simp only [Bool.and_eq_true, Bool.or_eq_true, decide_eq_true_eq, isExponent_iff]
      constructor
      · rintro (_ | ⟨marked, power⟩)
        exact ⟨marked, power⟩
      · rintro ⟨marked, power⟩
        exact .present marked power

theorem isUnsignedDecimal_whole {whole : List Char} (decimal : Digits whole)
    (stop : ∀ c ∈ rest.head?, c.isDigit = false ∧ c ≠ '.') :
    isUnsignedDecimal (whole ++ rest) = true ↔ whole ≠ [] ∧ Exponent rest := by
  obtain ⟨taken, left⟩ := decimal.span fun c first => (stop c first).1
  rw [isUnsignedDecimal, taken, left, exponent_iff]
  dsimp only
  split
  · exact absurd rfl (stop '.' rfl).2
  · rw [Bool.and_eq_true]
    exact and_congr_left fun _ => by simp

theorem isUnsignedDecimal_pointed {whole fraction : List Char} (decimal : Digits whole)
    (behind : Digits fraction) (stop : ∀ c ∈ rest.head?, c.isDigit = false) :
    isUnsignedDecimal (whole ++ '.' :: (fraction ++ rest)) = true ↔
      whole ++ fraction ≠ [] ∧ Exponent rest := by
  have point : ∀ c ∈ ('.' :: (fraction ++ rest)).head?, c.isDigit = false := by
    intro c first
    obtain rfl := Option.some.inj first
    rfl
  obtain ⟨taken, left⟩ := decimal.span point
  obtain ⟨taken', left'⟩ := behind.span stop
  rw [isUnsignedDecimal, taken, left]
  simp only [taken', left', Bool.and_eq_true, exponent_iff]
  refine and_congr_left fun _ => ?_
  cases whole with
  | nil => simp
  | cons c whole => simp

theorem isUnsignedDecimal_iff : isUnsignedDecimal s = true ↔
    ∃ mantissa exponent, Mantissa mantissa ∧ Exponent exponent ∧ s = mantissa ++ exponent := by
  constructor
  · intro h
    obtain ⟨whole, after, rfl, -, -, decimal, stop⟩ := exists_span Char.isDigit s
    by_cases pointed : after.head? = some '.'
    · obtain ⟨later, rfl⟩ := List.head?_eq_some_iff.mp pointed
      obtain ⟨fraction, rest, rfl, -, -, behind, stop'⟩ := exists_span Char.isDigit later
      obtain ⟨filled, raised⟩ := (isUnsignedDecimal_pointed decimal behind stop').mp h
      exact ⟨whole ++ '.' :: fraction, rest, .pointed decimal behind filled, raised, by simp⟩
    · have stop' : ∀ c ∈ after.head?, c.isDigit = false ∧ c ≠ '.' := by
        intro c first
        refine ⟨stop c first, ?_⟩
        rintro rfl
        exact pointed first
      obtain ⟨filled, raised⟩ := (isUnsignedDecimal_whole decimal stop').mp h
      exact ⟨whole, after, .whole decimal filled, raised, rfl⟩
  · rintro ⟨mantissa, exponent, valued, raised, rfl⟩
    cases valued with
    | whole decimal filled => exact (isUnsignedDecimal_whole decimal raised.head?).mpr ⟨filled, raised⟩
    | pointed decimal behind filled =>
        rw [List.append_assoc, List.cons_append]
        exact (isUnsignedDecimal_pointed decimal behind fun c first => (raised.head? c first).1).mpr
          ⟨filled, raised⟩

theorem Mantissa.exists_cons {mantissa : List Char} (h : Mantissa mantissa) :
    ∃ c rest, mantissa = c :: rest ∧ (c.isDigit = true ∨ c = '.') := by
  cases h with
  | whole decimal filled =>
      obtain ⟨c, rest, rfl⟩ := List.exists_cons_of_ne_nil filled
      exact ⟨c, rest, rfl, .inl (decimal c List.mem_cons_self)⟩
  | @pointed whole fraction decimal _ _ =>
      cases whole with
      | nil => exact ⟨'.', fraction, rfl, .inr rfl⟩
      | cons c whole => exact ⟨c, _, rfl, .inl (decimal c List.mem_cons_self)⟩

theorem decimal_iff : Decimal s ↔ isUnsignedDecimal (dropSign s) = true := by
  rw [isUnsignedDecimal_iff]
  constructor
  · rintro ⟨signed, valued, raised⟩
    rename_i sign mantissa exponent
    refine ⟨mantissa, exponent, valued, raised, signed.dropSign_append ?_⟩
    obtain ⟨c, rest, rfl, digit | rfl⟩ := valued.exists_cons
    · rintro first same
      obtain rfl := Option.some.inj same
      exact isSign_of_isDigit digit
    · rintro first same
      obtain rfl := Option.some.inj same
      rfl
  · rintro ⟨mantissa, exponent, valued, raised, split⟩
    obtain ⟨sign, signed, shape⟩ := exists_sign s
    rw [shape, split]
    exact .mk signed valued raised

/-- Only letters become letters in lower case. -/
theorem isAlpha_of_toLower (lower : c.toLower.isAlpha = true) : c.isAlpha = true := by
  by_cases upper : c.isUpper = true
  · change (c.isUpper || c.isLower) = true
    rw [upper, Bool.true_or]
  · have same : c.toLower = c := by
      refine dif_neg fun inside => upper ?_
      delta Char.isUpper
      simpa using inside
    rwa [same] at lower

/-- The words for values are made of letters. -/
theorem isAlpha_of_named {word : List Char} (named : word.map Char.toLower ∈ namedNumbers) :
    ∀ c ∈ word, c.isAlpha = true := by
  intro c member
  have letters : (namedNumbers.all fun name => name.all Char.isAlpha) = true := by decide
  have lower := List.all_eq_true.mp (List.all_eq_true.mp letters _ named)
  exact isAlpha_of_toLower (lower _ (List.mem_map_of_mem member))

theorem wordy_iff : Wordy s ↔ (dropSign s).map Char.toLower ∈ namedNumbers := by
  constructor
  · rintro ⟨signed, named⟩
    rename_i sign word
    have unsigned : ∀ c ∈ word.head?, isSign c = false := by
      intro c first
      have letter := isAlpha_of_named named c (List.mem_of_head? first)
      apply Bool.eq_false_iff.mpr
      intro mark
      rw [isSign, Bool.or_eq_true, decide_eq_true_eq, decide_eq_true_eq] at mark
      rcases mark with rfl | rfl
      · exact absurd letter (by decide)
      · exact absurd letter (by decide)
    rwa [signed.dropSign_append unsigned]
  · intro named
    obtain ⟨sign, signed, shape⟩ := exists_sign s
    rw [shape]
    exact .mk signed named

theorem isNumber_iff : isNumber s = true ↔ Decimal s ∨ Wordy s := by
  rw [isNumber, Bool.or_eq_true, List.contains_iff_mem, decimal_iff, wordy_iff, or_comm]

theorem isAlpha_of_isDigit (digit : c.isDigit = true) : c.isAlpha = false := by
  apply Bool.eq_false_iff.mpr
  intro letter
  delta Char.isDigit at digit
  delta Char.isAlpha Char.isUpper Char.isLower at letter
  simp only [Bool.and_eq_true, Bool.or_eq_true, decide_eq_true_eq] at digit letter
  rcases letter with upper | lower
  · exact absurd (UInt32.le_trans upper.1 digit.2) (by decide)
  · exact absurd (UInt32.le_trans lower.1 digit.2) (by decide)

/-- A decimal number is not a word with a sign. -/
theorem Decimal.not_wordy (h : Decimal s) : ¬Wordy s := by
  intro wordy
  rw [decimal_iff, isUnsignedDecimal_iff] at h
  obtain ⟨mantissa, exponent, valued, _, split⟩ := h
  obtain ⟨c, rest, rfl, first⟩ := valued.exists_cons
  have letter := isAlpha_of_named (wordy_iff.mp wordy) c (by simp [split])
  rcases first with digit | rfl
  · rw [isAlpha_of_isDigit digit] at letter
    cases letter
  · exact absurd letter (by decide)

/-! ### The characters of a number -/

/-- Letters, digits, signs and the point. -/
def isNumberChar (c : Char) : Bool := c.isAlphanum || isSign c || c = '.'

theorem isNumberChar_of_isDigit (digit : c.isDigit = true) : isNumberChar c = true := by
  rw [isNumberChar, Char.isAlphanum, digit, Bool.or_true, Bool.true_or, Bool.true_or]

theorem Sign.isNumberChar (h : Sign sign) : ∀ c ∈ sign, isNumberChar c = true := by
  cases h with
  | absent => exact List.forall_mem_nil _
  | plus => exact List.forall_mem_singleton.mpr rfl
  | minus => exact List.forall_mem_singleton.mpr rfl

theorem Mantissa.isNumberChar {mantissa : List Char} (h : Mantissa mantissa) :
    ∀ c ∈ mantissa, isNumberChar c = true := by
  intro c member
  cases h with
  | whole decimal filled => exact isNumberChar_of_isDigit (decimal c member)
  | pointed decimal behind filled =>
      rcases List.mem_append.mp member with before | after
      · exact isNumberChar_of_isDigit (decimal c before)
      · rcases List.mem_cons.mp after with rfl | inside
        · rfl
        · exact isNumberChar_of_isDigit (behind c inside)

theorem Exponent.isNumberChar {exponent : List Char} (h : Exponent exponent) :
    ∀ c ∈ exponent, isNumberChar c = true := by
  intro c member
  cases h with
  | absent => cases member
  | present marked power =>
      rcases List.mem_cons.mp member with rfl | inside
      · rcases marked with rfl | rfl
        · rfl
        · rfl
      · obtain ⟨signed, decimal, _⟩ := power
        rcases List.mem_append.mp inside with mark | digit
        · exact signed.isNumberChar c mark
        · exact isNumberChar_of_isDigit (decimal c digit)

theorem isNumberChar_of_isNumber (h : isNumber s = true) : ∀ c ∈ s, isNumberChar c = true := by
  intro c member
  rcases isNumber_iff.mp h with ⟨signed, valued, raised⟩ | ⟨signed, named⟩
  · rcases List.mem_append.mp member with mark | unsigned
    · exact signed.isNumberChar c mark
    · rcases List.mem_append.mp unsigned with inside | inside
      · exact valued.isNumberChar c inside
      · exact raised.isNumberChar c inside
  · rcases List.mem_append.mp member with mark | letter
    · exact signed.isNumberChar c mark
    · rw [Text.isNumberChar, Char.isAlphanum, isAlpha_of_named named c letter]
      rfl

theorem not_mem_of_isNumber (h : isNumber s = true) (other : isNumberChar c = false) : c ∉ s := by
  intro member
  rw [isNumberChar_of_isNumber h c member] at other
  cases other

end Text

namespace Usage

/-- Text in double quotes without one inside, or a decimal number. -/
inductive Constant : List Char → Prop
  | quoted {text : List Char} : '"' ∉ text → Constant ('"' :: text ++ ['"'])
  | decimal {number : List Char} : Text.Decimal number → Constant number

/-- How the value of a flag is written in the call. What denotes a number stands as it is; any other text
is quoted without its own quotes. -/
inductive Writes (value : List Char) : List Char → Prop
  | decimal : Text.Decimal value → Writes value value
  | wordy : Text.Wordy value → Writes value value
  | quoted : ¬Text.Decimal value → ¬Text.Wordy value →
      Writes value ('"' :: (value.filter fun c => c ≠ '"' ∧ c ≠ '\'') ++ ['"'])

variable {value written : List Char}

/-- Single quotes as double quotes. -/
def requoted (value : List Char) : List Char := value.map fun c => if c = '\'' then '"' else c

theorem requoted_of_not_mem (unquoted : '\'' ∉ value) : requoted value = value := by
  refine (List.map_congr_left fun c member => ?_).trans (List.map_id value)
  exact if_neg (ne_of_mem_of_not_mem member unquoted)

theorem isNumber_requoted : Text.isNumber (requoted value) = Text.isNumber value := by
  by_cases quote : '\'' ∈ value
  · have double : '"' ∈ requoted value := List.mem_map.mpr ⟨'\'', quote, rfl⟩
    have number : Text.isNumber value = false := Bool.eq_false_iff.mpr fun h =>
      Text.not_mem_of_isNumber h (by decide) quote
    rw [number]
    exact Bool.eq_false_iff.mpr fun h => Text.not_mem_of_isNumber h (by decide) double
  · rw [requoted_of_not_mem quote]

theorem filter_requoted : (requoted value).filter (· ≠ '"') =
    value.filter fun c => c ≠ '"' ∧ c ≠ '\'' := by
  induction value with
  | nil => rfl
  | cons c value ih =>
      by_cases quote : c = '\''
      · subst quote
        exact ih
      · have same : requoted (c :: value) = c :: requoted value := by
          rw [requoted, List.map_cons, if_neg quote]
          rfl
        rw [same, List.filter_cons, List.filter_cons, ih]
        simp [quote]

theorem quoteValue_eq (value : List Char) : quoteValue value =
    if Text.isNumber value then .ofList value
    else "\"" ++ .ofList (value.filter fun c => c ≠ '"' ∧ c ≠ '\'') ++ "\"" := by
  have shape : quoteValue value = if Text.isNumber (requoted value) then .ofList (requoted value)
    else "\"" ++ .ofList ((requoted value).filter (· ≠ '"')) ++ "\"" := rfl
  rw [shape, isNumber_requoted, filter_requoted]
  split
  · rename_i number
    rw [requoted_of_not_mem (Text.not_mem_of_isNumber number (by decide))]
  · rfl

theorem writes_quoteValue (value : List Char) : Writes value (quoteValue value).toList := by
  rw [quoteValue_eq]
  split
  · rename_i number
    rw [String.toList_ofList]
    rcases Text.isNumber_iff.mp number with decimal | wordy
    · exact .decimal decimal
    · exact .wordy wordy
  · rename_i text
    rw [Text.isNumber_iff, not_or] at text
    simp only [String.toList_append, String.toList_ofList]
    exact .quoted text.1 text.2

/-- Only words are written as what is no constant. -/
theorem Writes.constant_iff (h : Writes value written) : Constant written ↔ ¬Text.Wordy value := by
  cases h with
  | decimal number => exact ⟨fun _ => number.not_wordy, fun _ => .decimal number⟩
  | wordy word =>
      refine ⟨fun constant _ => ?_, fun other => absurd word other⟩
      have number := Text.isNumber_iff.mpr (.inr word)
      cases constant with
      | quoted => exact Text.not_mem_of_isNumber number (by decide) List.mem_cons_self
      | decimal number => exact number.not_wordy word
  | quoted _ text => exact ⟨fun _ => text, fun _ => .quoted (by simp)⟩

/-- Every argument of a call has the value of an item of the command, which is written as a constant,
unless it is a word for an infinite value or for none: that word is left without quotes, although R knows
no more of them than `Inf` and `NaN`. -/
theorem argument_values_constant (wrapper command : String) :
    call wrapper command = wrapper ++ "(" ++
        String.join ((arguments command).map fun a => a.name ++ "=" ++ a.value ++ ", ") ++
        "verbose_mode=TRUE)" ∧
      ∀ a ∈ arguments command, ∃ item ∈ Text.splitOn "--".toList command.toList, ∃ value,
        (Text.pieces '=' (Text.trim item))[1]? = some value ∧ Writes value a.value.toList ∧
          (Constant a.value.toList ↔ ¬Text.Wordy value) := by
  refine ⟨rfl, ?_⟩
  intro a member
  obtain ⟨trimmed, listed, found⟩ := List.mem_filterMap.mp member
  obtain ⟨item, inside, rfl⟩ := List.mem_map.mp listed
  unfold argument? at found
  split at found
  · cases found
  · split at found
    · rename_i name value rest cut
      obtain rfl := Option.some.inj found
      have written := writes_quoteValue value
      exact ⟨item, inside, value, by rw [cut]; rfl, written, written.constant_iff⟩
    · cases found

/-- An infinite value is passed as a word, which is no constant. -/
theorem infinite_value_bare :
    call "w" "--x=inf" = "w(x=inf, verbose_mode=TRUE)" ∧
      ¬∀ a ∈ arguments "--x=inf", Constant a.value.toList := by
  refine ⟨by decide +kernel, ?_⟩
  intro constant
  have listed : ⟨"x", "inf"⟩ ∈ arguments "--x=inf" := by decide +kernel
  have word : Text.Wordy "inf".toList := Text.wordy_iff.mpr (by decide)
  have written : Writes "inf".toList "inf".toList := .wordy word
  exact written.constant_iff.mp (constant _ listed) word

end Usage

end ToolWrappers
