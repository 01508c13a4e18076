import NetworkCompiler.Text.Split

/-!
# Terminal styles

Coloured text for terminals. A style is a list of display codes; `Style.paint` wraps a text in
the sequence that switches them on and the one that resets them. A reset inside the text is
followed by the style again, so that the style lasts to the end.
-/

namespace NetworkCompiler.Terminal

/-- A way to display text, by its codes in ascending order. -/
structure Style where
  codes : List Nat
  deriving DecidableEq, Repr

namespace Style

def bold : Style := ⟨[1]⟩
def dimmed : Style := ⟨[2]⟩
def red : Style := ⟨[31]⟩
def green : Style := ⟨[32]⟩
def yellow : Style := ⟨[33]⟩
def blue : Style := ⟨[34]⟩
def magenta : Style := ⟨[35]⟩
def cyan : Style := ⟨[36]⟩
def boldGreen : Style := ⟨[1, 32]⟩
def boldYellow : Style := ⟨[1, 33]⟩
def boldCyan : Style := ⟨[1, 36]⟩

/-- The sequence that switches every style off. -/
def reset : String := "\x1b[0m"

/-- The sequence that switches a style on. -/
def start (s : Style) : String :=
  "\x1b[" ++ Text.joinWith ";" (s.codes.map toString) ++ "m"

/-- Puts `again` behind every occurrence of `found`. -/
def resume (found again : List Char) : Nat → List Char → List Char
  | _, [] => []
  | 0, c :: cs =>
    match Text.Chars.after? found (c :: cs) with
    | some _ => c :: resume found again (found.length - 1) cs
    | none => c :: resume found again 0 cs
  | n + 1, c :: cs =>
    if n = 0 then c :: (again ++ resume found again 0 cs) else c :: resume found again n cs

/-- A text in a style, or as it is when colour is off. -/
def paint (s : Style) (color : Bool) (text : String) : String :=
  if color then
    s.start ++ String.ofList (resume reset.toList s.start.toList 0 text.toList) ++ reset
  else text

end Style

end NetworkCompiler.Terminal
