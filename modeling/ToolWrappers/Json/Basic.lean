/-! JSON values as they are written: members keep their order and repetitions, numbers their
digits, and texts that no Unicode string can hold are marked as such. -/

namespace ToolWrappers

/-- The digits of a number without its sign: `digits` times ten to the power `exponent`. -/
structure Json.Number where
  digits : Nat
  exponent : Int
deriving DecidableEq, Repr

/-- A text is `none` if its escapes name half of a surrogate pair. -/
inductive Json
  | null
  | bool (value : Bool)
  | number (value : Json.Number)
  | string (text : Option String)
  | array (items : List Json)
  | object (members : List (Option String × Json))

namespace Json

/-- The smallest value that rounds to infinity in double precision. -/
def Number.overflow : Nat := Nat.pow 2 1024 - Nat.pow 2 970

/-- Whether a number stays finite in double precision. No huge power is computed: a value of ten
to the power 400 is too large, and a divisor with more digits than the value makes it small. -/
def Number.isFinite (n : Number) : Bool :=
  n.digits = 0 ||
    match n.exponent with
    | .ofNat e => e ≤ 400 && n.digits * Nat.pow 10 e < overflow
    | .negSucc e => n.digits < overflow * Nat.pow 10 (min (e + 1) (Nat.log2 n.digits + 1))

/-- How many arrays and objects may be open at once in a value that is stored. -/
def maxDepth : Nat := 127

mutual
/-- Whether a value can be stored with `room` levels left: its texts are Unicode, its numbers
finite, and it nests no deeper. -/
def isStorable (room : Nat) : Json → Bool
  | .null | .bool _ => true
  | .number n => n.isFinite
  | .string text => text.isSome
  | .array items => 0 < room && allStorable (room - 1) items
  | .object members => 0 < room && membersStorable (room - 1) members

def allStorable (room : Nat) : List Json → Bool
  | [] => true
  | v :: rest => isStorable room v && allStorable room rest

def membersStorable (room : Nat) : List (Option String × Json) → Bool
  | [] => true
  | (name, v) :: rest => name.isSome && isStorable room v && membersStorable room rest
end

def text? : Json → Option String
  | .string text => text
  | _ => none

/-- The texts of an array of texts. -/
def texts? : Json → Option (List String)
  | .array items => items.mapM text?
  | _ => none

/-- The values of the members called `name`, in order. -/
def membersNamed (name : String) (members : List (Option String × Json)) : List Json :=
  members.filterMap fun (n, v) => if n = some name then some v else none

/-- The value of the only member called `name`; a missing or repeated member has none. -/
def member? (name : String) (members : List (Option String × Json)) : Option Json :=
  match membersNamed name members with
  | [v] => some v
  | _ => none

/-- As `member?`, but a missing member stands for an empty array. -/
def memberOrEmpty? (name : String) (members : List (Option String × Json)) : Option Json :=
  match membersNamed name members with
  | [] => some (.array [])
  | [v] => some v
  | _ => none

end Json

end ToolWrappers
