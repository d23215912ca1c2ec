/-
  QueryLint.Command.Style

  Coloured text for terminals.
-/
namespace QueryLint.Command

/-- Colours of text. -/
inductive Colour where
  | red
  | green
  | yellow
  | cyan
  | brightBlue
  deriving DecidableEq, Repr

/-- The code that switches a colour on. -/
def Colour.code : Colour → String
  | red => "31"
  | green => "32"
  | yellow => "33"
  | cyan => "36"
  | brightBlue => "94"

/-- How text looks. -/
structure Style where
  bold : Bool := false
  colour : Option Colour := none
  deriving DecidableEq, Repr

/-- The codes of a style, boldness first. -/
def Style.codes (s : Style) : List String :=
  (if s.bold then ["1"] else []) ++ (s.colour.map Colour.code).toList

/-- Text in a style. It stays as it is if the output shows no colours. -/
def paint (colours : Bool) (s : Style) (text : String) : String :=
  if colours then "\x1b[" ++ ";".intercalate s.codes ++ "m" ++ text ++ "\x1b[0m" else text

/-- Text in a colour. -/
def tint (colours : Bool) (c : Colour) (text : String) : String :=
  paint colours ⟨false, some c⟩ text

end QueryLint.Command
