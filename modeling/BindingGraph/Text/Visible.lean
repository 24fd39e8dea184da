/-!
# What shows on a terminal

Terminals take escape sequences and control characters for commands. What shows of a text is the
rest: its printable characters, with blanks and line breaks. A text without commands shows as it is
(`visible_eq_self`), and so does one that is only made to stand out (`visible_standOut`).

A command string reaches up to the next escape sequence, so one that is not ended swallows line
breaks and all else in between.
-/

namespace BindingGraph.Text

/-- How far a terminal is in an escape sequence: in none, behind the character that starts one, or
behind signs that one more character follows; in a control sequence, which a letter or another sign
from `@` on ends; in a command string for the operating system, which a bell ends; at the start of a
command string for a device, in its parameters, or behind signs that its last sign follows; or in
the text of any other command string, which the terminator ends. -/
inductive EscapeState where
  | outside
  | opened
  | intermediate
  | control
  | systemString
  | deviceStart
  | deviceParameters
  | deviceSigns
  | commandText
  deriving DecidableEq

/-- Whether a control character only moves on in the text. -/
def isSpacing (c : Char) : Bool := c == '\t' || c == '\n' || c == '\x0c' || c == '\r'

/-- Whether a character is no control character of ASCII. -/
def isGraphic (c : Char) : Bool := ' ' ≤ c && c != '\x7f'

/-- Whether a character lies between two others, both included. -/
def isBetween (first last c : Char) : Bool := first ≤ c && c ≤ last

/-- Whether one of the bytes of a character is the one that terminates command strings. -/
def hasTerminator (c : Char) : Bool := (String.utf8EncodeChar c).contains 0x9c

namespace EscapeState

/-- Whether control characters that only move on in the text keep this meaning. -/
def keepsSpacing : EscapeState → Bool
  | outside | opened | intermediate | control => true
  | systemString | deviceStart | deviceParameters | deviceSigns | commandText => false

/-- Whether a character shows. -/
def shows (state : EscapeState) (c : Char) : Bool :=
  (state == outside && isGraphic c) || (state.keepsSpacing && isSpacing c)

/-- The kind of escape sequence that a character behind the starting one makes. -/
def ofSecond (c : Char) : EscapeState :=
  if c == '[' then control
  else if c == ']' then systemString
  else if c == 'P' then deviceStart
  else if c == 'X' || c == '^' || c == '_' then commandText
  else if isBetween ' ' '/' c then intermediate
  else if isBetween '0' '~' c then outside
  else opened

/-- How far the terminal is after a character that neither shows nor breaks off a sequence. -/
def advance : EscapeState → Char → EscapeState
  | outside, _ => outside
  | opened, c => ofSecond c
  | intermediate, c => if isBetween '0' '~' c then outside else intermediate
  | control, c => if isBetween '@' '~' c then outside else control
  | systemString, c => if c == '\x07' then outside else systemString
  | deviceStart, c =>
    if isBetween ' ' '/' c then deviceSigns
    else if isBetween '0' '?' c then deviceParameters
    else if isBetween '@' '~' c then commandText
    else deviceStart
  | deviceParameters, c =>
    if isBetween ' ' '/' c then deviceSigns
    else if isBetween '<' '~' c then commandText
    else deviceParameters
  | deviceSigns, c => if isBetween '0' '~' c then commandText else deviceSigns
  | commandText, c => if hasTerminator c then outside else commandText

/-- How far the terminal is after a character. -/
def next (state : EscapeState) (c : Char) : EscapeState :=
  if c == '\x1b' then opened
  else if c == '\x18' || c == '\x1a' || state.shows c then outside
  else state.advance c

end EscapeState

/-- What shows of characters when the terminal is in some state before them. -/
def visibleFrom (state : EscapeState) : List Char → List Char
  | [] => []
  | c :: cs =>
    if state.shows c then c :: visibleFrom (state.next c) cs else visibleFrom (state.next c) cs

/-- What shows of a text. -/
def visible (text : String) : String := String.ofList (visibleFrom .outside text.toList)

/-- A text that a terminal makes stand out. -/
def standOut (text : String) : String := "\x1b[1m" ++ text ++ "\x1b[0m"

/-- A character that shows does not start an escape sequence. -/
theorem next_of_shows {c : Char} (h : EscapeState.outside.shows c) :
    EscapeState.outside.next c = .outside := by
  have hne : c ≠ '\x1b' := by
    rintro rfl
    exact absurd h (by decide)
  simp [EscapeState.next, hne, h]

/-- Characters that all show are shown, and what follows them is not affected. -/
theorem visibleFrom_append {cs : List Char} (h : ∀ c ∈ cs, EscapeState.outside.shows c)
    (rest : List Char) : visibleFrom .outside (cs ++ rest) = cs ++ visibleFrom .outside rest := by
  induction cs with
  | nil => rfl
  | cons c cs ih =>
    have hc := h c List.mem_cons_self
    have hrest := ih fun d hd => h d (List.mem_cons_of_mem c hd)
    simp [visibleFrom, hc, next_of_shows hc, hrest]

/-- A text all of whose characters show is shown as it is. -/
theorem visible_eq_self {text : String} (h : ∀ c ∈ text.toList, EscapeState.outside.shows c) :
    visible text = text := by
  have hchars := visibleFrom_append h []
  simp only [List.append_nil, visibleFrom] at hchars
  simp [visible, hchars]

/-- Standing out is no matter of characters. -/
theorem visible_standOut {text : String} (h : ∀ c ∈ text.toList, EscapeState.outside.shows c) :
    visible (standOut text) = text := by
  have hopen : ∀ cs, visibleFrom .outside ("\x1b[1m".toList ++ cs) = visibleFrom .outside cs :=
    fun _ => rfl
  have hclose : visibleFrom .outside "\x1b[0m".toList = [] := rfl
  have hchars := visibleFrom_append h "\x1b[0m".toList
  rw [hclose, List.append_nil] at hchars
  simp only [visible, standOut, String.toList_append, List.append_assoc, hopen, hchars,
    String.ofList_toList]

end BindingGraph.Text
