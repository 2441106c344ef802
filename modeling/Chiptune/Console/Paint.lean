/-
  Coloured text for a terminal.

  Painted text is put between a sequence that begins its style and one that ends
  every style.  Where text inside has ended its own style, the outer one begins
  again.
-/
set_option autoImplicit false

namespace Chiptune.Console

/-- The colours in use. -/
inductive Colour where
  | red
  | yellow
  | green
  | cyan
  | brightRed
  | brightGreen
  | brightYellow
  | brightCyan
  deriving DecidableEq, Repr, Inhabited

/-- The number of a colour on a terminal. -/
def Colour.code : Colour → String
  | red => "31"
  | green => "32"
  | yellow => "33"
  | cyan => "36"
  | brightRed => "91"
  | brightGreen => "92"
  | brightYellow => "93"
  | brightCyan => "96"

/-- How text is painted. -/
structure Style where
  bold : Bool
  colour : Option Colour
  deriving DecidableEq, Repr, Inhabited

/-- The sequence that ends every style. -/
def endSequence : List Char := ['\x1b', '[', '0', 'm']

/-- The sequence that begins a style. -/
def Style.beginSequence (style : Style) : List Char :=
  let codes := (if style.bold then ["1"] else []) ++ (style.colour.map Colour.code).toList
  ['\x1b', '['] ++ (";".intercalate codes).toList ++ ['m']

/-- Begins a style again wherever styles were ended. -/
def resume (opening : List Char) : List Char → List Char
  | '\x1b' :: '[' :: '0' :: 'm' :: rest => endSequence ++ opening ++ resume opening rest
  | c :: rest => c :: resume opening rest
  | [] => []

/-- Paints text, if painting is wanted. -/
def paint (colours : Bool) (style : Style) (text : String) : String :=
  if colours then
    let opening := style.beginSequence
    String.ofList (opening ++ resume opening text.toList ++ endSequence)
  else text

/-- Paints text in a colour. -/
def tint (colours : Bool) (colour : Colour) (text : String) : String :=
  paint colours ⟨false, some colour⟩ text

/-- Paints text in bold letters of a colour. -/
def tintBold (colours : Bool) (colour : Colour) (text : String) : String :=
  paint colours ⟨true, some colour⟩ text

/-- A style inside another one ends only itself. -/
example : paint true ⟨false, some .red⟩ "a\x1b[0mb" = "\x1b[31ma\x1b[0m\x1b[31mb\x1b[0m" := by
  decide +kernel

end Chiptune.Console
