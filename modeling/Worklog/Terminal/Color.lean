/-!
# Colours

The control sequences that set and end a colour in text for a terminal.
-/

namespace Worklog.Terminal

inductive Color where
  | red
  | green
  | yellow
  | magenta
  | blue
deriving DecidableEq, Repr

namespace Color

/-- Switches to the colour, in bold. -/
def start : Color → String
  | red => "\x1b[31;1m"
  | green => "\x1b[32;1m"
  | yellow => "\x1b[33;1m"
  | magenta => "\x1b[35;1m"
  | blue => "\x1b[34;1m"

/-- Switches back to plain text. -/
def reset : String := "\x1b[0m"

/-- The text in this colour, and plain text after it. -/
def paint (color : Color) (text : String) : String := color.start ++ text ++ reset

end Color

end Worklog.Terminal
