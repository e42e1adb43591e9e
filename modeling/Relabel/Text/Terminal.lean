/-
**Text on terminals.**

A terminal acts on control characters and on control sequences, which begin with the escape
character, instead of showing them. Text from outside is therefore shielded where it stands in a log
line, and messages that are not read on a terminal lose their control sequences.

* `Terminal.shielded`: the text with escapes in place of the characters that a terminal acts on.
* `Terminal.emphasized`: the text between control sequences that make it stand out.
* `Terminal.visible`: the text without control characters and control sequences.
-/

import Relabel.Encoding.Utf8

namespace Relabel.Terminal

/-! ### Shielding -/

/-- Whether a terminal acts on a character of ASCII, or on what follows it: bell, backspace, form
feed, escape and delete. -/
def isAction (c : Char) : Bool :=
  ['\x07', '\x08', '\x0c', '\x1b', '\x7f'].contains c

/-- A character as it appears in shielded text. -/
def shieldedChar (c : Char) : Text :=
  if isAction c then "\\x" ++ Text.padZeros 2 (Text.hex c.toNat)
  else if 0x80 ≤ c.toNat && c.toNat ≤ 0x9F then "\\u\x7b" ++ Text.hex c.toNat ++ "\x7d"
  else [c]

/-- The text with escapes in place of the characters that a terminal acts on. Line ends and tabs
stay as they are. -/
def shielded (text : Text) : Text :=
  text.flatMap shieldedChar

/-! ### Emphasis -/

/-- The text between control sequences that make it stand out. -/
def emphasized (text : Text) : Text :=
  "\x1b[1m" ++ text ++ "\x1b[0m"

/-! ### Control sequences -/

/-- Where in a control sequence a character stands. -/
inductive Mode where
  /-- Outside all control sequences. -/
  | plain
  /-- Behind the escape character. -/
  | escape
  /-- Behind the escape character and a mark: one more character ends the sequence. -/
  | marked
  /-- Behind a bracket: parameters follow, and a letter ends the sequence. -/
  | parameters
  /-- In the parameters of a string for a device. -/
  | device
  /-- In a string that ends with the byte 9C. -/
  | string
  /-- In a command that ends with a bell. -/
  | command
  deriving DecidableEq, Repr

namespace Mode

/-- Whether white space in a control sequence is shown. -/
def showsBlanks : Mode → Bool
  | .plain | .escape | .marked | .parameters => true
  | .device | .string | .command => false

/-- The mode behind the character after the escape character. -/
def ofIntroducer (c : Char) : Mode :=
  if ' ' ≤ c && c ≤ '/' then .marked
  else if c = '[' then .parameters
  else if c = ']' then .command
  else if c = 'P' then .device
  else if c = 'X' || c = '^' || c = '_' then .string
  else .plain

/-- The mode behind a printable character of ASCII. -/
def next (c : Char) : Mode → Mode
  | .plain => .plain
  | .escape => ofIntroducer c
  | .marked => if ' ' ≤ c && c ≤ '/' then .marked else .plain
  | .parameters => if '@' ≤ c then .plain else .parameters
  | .device => if '@' ≤ c || c = ':' then .string else .device
  | .string => .string
  | .command => .command

/-- The mode behind a character beyond ASCII. -/
def nextBeyond (c : Char) : Mode → Mode
  | .string => if (Utf8.encodeChar c).contains 0x9C then .plain else .string
  | mode => mode

end Mode

/-- How text that may hold control sequences is read. -/
structure Reader where
  mode : Mode := .plain
  /-- Whether white space has interrupted a sequence. Text is shown again until the next control
  character, behind which the sequence goes on. -/
  interrupted : Bool := false
  deriving DecidableEq, Repr

namespace Reader

/-- Whether a character is white space of a line or between lines, other than the space. -/
def isBlankControl (c : Char) : Bool :=
  c == '\t' || c == '\n' || c == '\x0c' || c == '\r'

/-- Whether a character is shown outside control sequences. -/
def isVisible (c : Char) : Bool :=
  isBlankControl c || (0x20 ≤ c.toNat && c.toNat ≠ 0x7F)

/-- Reads a character while a sequence is interrupted. -/
def stepInterrupted (reader : Reader) (c : Char) : Reader × Bool :=
  if 0x80 ≤ c.toNat then ({}, true)
  else if isVisible c then (reader, true)
  else ({ reader with interrupted := false }, false)

/-- Reads a character in a control sequence. -/
def stepInside (mode : Mode) (c : Char) : Reader × Bool :=
  if isBlankControl c && mode.showsBlanks then ({ mode, interrupted := true }, true)
  else if c = '\x07' && mode = .command then ({}, false)
  else if 0x80 ≤ c.toNat then ({ mode := mode.nextBeyond c }, false)
  else if isVisible c && !isBlankControl c then ({ mode := mode.next c }, false)
  else ({ mode }, false)

/-- Reads a character, and tells whether it is shown. The escape character begins a sequence
anywhere, and the two cancelling characters end it. -/
def step (reader : Reader) (c : Char) : Reader × Bool :=
  if c = '\x1b' then ({ mode := .escape }, false)
  else if c = '\x18' || c = '\x1a' then ({}, false)
  else if reader.interrupted then reader.stepInterrupted c
  else if reader.mode = .plain then (reader, isVisible c)
  else stepInside reader.mode c

/-- The characters of a text that are shown. -/
def visible (reader : Reader) : Text → Text
  | [] => []
  | c :: rest =>
    match reader.step c with
    | (reader, true) => c :: reader.visible rest
    | (reader, false) => reader.visible rest

end Reader

/-- The text without control characters and control sequences. White space stays. -/
def visible (text : Text) : Text :=
  Reader.visible {} text

end Relabel.Terminal
