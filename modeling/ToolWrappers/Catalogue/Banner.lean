/-! Banners: comment lines that announce a toolbox, such as `# Data Tools #`. -/

namespace ToolWrappers.Banner

/-- Space and tab; no other blank counts in a banner. -/
def isBlank (c : Char) : Bool := c = ' ' || c = '\t'

/-- Whether the text ends with a blank and a number sign. -/
def closes (s : List Char) : Bool :=
  match s.reverse with
  | '#' :: c :: _ => isBlank c
  | _ => false

/-- A number sign, blanks, a text that begins with neither, blanks, a number sign. The text may hold
further number signs and blanks. -/
def isBanner : List Char → Bool
  | '#' :: c :: rest =>
    isBlank c &&
      match rest.dropWhile isBlank with
      | first :: rest => first ≠ '#' && closes rest
      | [] => false
  | _ => false

end ToolWrappers.Banner
