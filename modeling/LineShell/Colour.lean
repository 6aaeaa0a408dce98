import LineShell.Text.Utf8
import LineShell.Variables

/-!
Coloured diagnostics. Whether a terminal shows colour is judged from the environment once, when the
shell is set up; a diagnostic is then either plain or bold red. The test for colour and the two
texts around a bold red message are not the shell's own: they are those of the `inksac` package.
-/
namespace LineShell

/-- Terminal names that promise full colour wherever they occur in `TERM`. -/
def fullColourTerminals : List String :=
  ["xterm-truecolor", "konsole", "tmux", "screen-truecolor", "alacritty", "kitty", "terminator",
    "terminology", "eterm", "rxvt-unicode", "xterm-ghostty", "vte", "termious"]

def colourTerminals : List String :=
  ["256", "color", "ansi", "xterm", "screen"]

def colourPrograms : List String :=
  ["iTerm.app", "Apple_Terminal", "Hyper"]

def containsText (part : String) : List Char → Bool
  | [] => part.isEmpty
  | c :: text => part.toList.isPrefixOf (c :: text) || containsText part text

/-- Lower case as far as an ASCII name can show in it: besides the ASCII letters, the Kelvin sign
becomes `k` and the dotted capital I becomes `i` under a combining dot. -/
def lowered (text : List Char) : List Char :=
  text.flatMap fun c =>
    if c = '\u212A' then ['k'] else if c = '\u0130' then ['i', '\u0307'] else [c.toLower]

/-- A variable's value as text; one that is not text counts as unset. -/
def Variables.text? (vars : Variables) (name : String) : Option String :=
  (vars.get? (Bytes.ofString name)).bind Utf8.decode?

def showsColour (vars : Variables) : Bool :=
  let text name := vars.text? name
  let terminal := lowered ((text "TERM").getD "").toList
  let colours := ((text "COLORTERM").getD "").toList
  if (text "NO_COLOR").isSome then false
  else if text "CLICOLOR" = some "0" then false
  else
    ["truecolor", "24bit"].any (containsText · colours) ||
    fullColourTerminals.any (containsText · terminal) ||
    colourPrograms.any (fun program => text "TERM_PROGRAM" = some program) ||
    colourTerminals.any (containsText · terminal) ||
    text "CLICOLOR_FORCE" = some "1"

inductive Highlighter where
  | plain
  | boldRed
  deriving DecidableEq, Repr

namespace Highlighter

def ofTerminal (terminal : Bool) (vars : Variables) : Highlighter :=
  if terminal && showsColour vars then boldRed else plain

def apply : Highlighter → String → String
  | plain, text => text
  | boldRed, text => "\x1b[31m\x1b[1m" ++ text ++ "\x1b[0m"

end Highlighter
end LineShell
