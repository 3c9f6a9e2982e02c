import ToolWrappers.Text.Search

/-! The texts that denote a floating-point number: an optional sign, then a named value or decimal
digits with an optional point and an optional exponent. Nothing may surround the number. -/

namespace ToolWrappers.Text

def isSign (c : Char) : Bool := c = '+' || c = '-'

def dropSign : List Char → List Char
  | c :: s => if isSign c then s else c :: s
  | [] => []

/-- The names of values without digits, in lower case; they are read in any case. -/
def namedNumbers : List (List Char) := ["inf".toList, "infinity".toList, "nan".toList]

/-- An optional sign and at least one digit. -/
def isExponent (s : List Char) : Bool :=
  let digits := dropSign s
  !digits.isEmpty && digits.all Char.isDigit

/-- Digits with an optional point, a digit on one side of it at least, then an optional exponent. -/
def isUnsignedDecimal (s : List Char) : Bool :=
  let whole := s.takeWhile Char.isDigit
  let afterWhole := s.dropWhile Char.isDigit
  let (fraction, rest) :=
    match afterWhole with
    | '.' :: r => (r.takeWhile Char.isDigit, r.dropWhile Char.isDigit)
    | r => ([], r)
  !(whole.isEmpty && fraction.isEmpty) &&
    match rest with
    | [] => true
    | c :: r => (c = 'e' || c = 'E') && isExponent r

/-- Whether the whole text denotes a floating-point number, infinite values and `nan` included. -/
def isNumber (s : List Char) : Bool :=
  let body := dropSign s
  namedNumbers.contains (body.map Char.toLower) || isUnsignedDecimal body

example : isNumber "degrees".toList = false := by decide

example : isNumber "-.5e+3".toList = true := by decide

end ToolWrappers.Text
