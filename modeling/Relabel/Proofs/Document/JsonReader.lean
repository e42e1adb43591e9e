/-
**Reading JSON.**

A text is read from left to right, character by character, together with the lists and objects that have been begun
and not ended. The reader knows the whole of JSON: it takes white space between any two marks and every form of a
character in a string, keeps numbers as they are written, and refuses a text that is not JSON.

* `Json.Value`: what a JSON text stands for.
* `Json.unquote?`: the text that stands between quotes.
* `Json.Reader.step`: what one more character leads to.
* `Json.read?`: the value of a text.
-/

import Relabel.Encoding.Utf16

namespace Relabel.Json

/-- What a JSON text stands for. Members of objects keep their order, and numbers the form in which they are
written. -/
inductive Value where
  | null
  | bool (value : Bool)
  | number (numeral : Text)
  | text (text : Text)
  | list (items : List Value)
  | object (members : List (Text × Value))
  deriving Repr

/-! ### Strings -/

/-- The character that is written by a letter or mark behind a backslash. -/
def escaped? (mark : Char) : Option Char :=
  if mark = '"' then some '"'
  else if mark = '\\' then some '\\'
  else if mark = '/' then some '/'
  else if mark = 'b' then some '\x08'
  else if mark = 'f' then some '\x0c'
  else if mark = 'n' then some '\n'
  else if mark = 'r' then some '\r'
  else if mark = 't' then some '\t'
  else none

/-- The unit of UTF-16 that hexadecimal digits write. -/
def unit? (digits : Text) : Option Nat :=
  if digits.all Text.isHexDigit then some (Text.ofDigits 16 digits) else none

/-- The text that stands between quotes. A character beyond the first 65536 may be written as two units. -/
def unquote? : Text → Option Text
  | [] => some []
  | '\\' :: 'u' :: a :: b :: c :: d :: rest =>
    match unit? [a, b, c, d] with
    | none => none
    | some unit =>
      match Utf16.single? unit, rest with
      | some c, rest => (unquote? rest).map (c :: ·)
      | none, '\\' :: 'u' :: a :: b :: c :: d :: rest =>
        ((unit? [a, b, c, d]).bind (Utf16.pair? unit)).bind fun c => (unquote? rest).map (c :: ·)
      | none, _ => none
  | '\\' :: mark :: rest => (escaped? mark).bind fun c => (unquote? rest).map (c :: ·)
  | c :: rest => if c.toNat < 0x20 || c = '"' || c = '\\' then none else (unquote? rest).map (c :: ·)

/-! ### Numbers and literals -/

/-- What follows the fraction at the beginning of a text, which may be missing. -/
def afterFraction? : Text → Option Text
  | '.' :: rest =>
    let (digits, rest) := rest.span Char.isDigit
    if digits = [] then none else some rest
  | text => some text

/-- Whether a text is an exponent or empty. -/
def isExponent : Text → Bool
  | [] => true
  | mark :: rest =>
    let digits := match rest with
      | '+' :: digits | '-' :: digits => digits
      | digits => digits
    (mark = 'e' || mark = 'E') && digits ≠ [] && digits.all Char.isDigit

/-- Whether a text is a number: digits without a zero in front of others, perhaps with a sign, a fraction and an
exponent. -/
def isNumber (text : Text) : Bool :=
  let (digits, rest) := ((Text.after? "-" text).getD text).span Char.isDigit
  digits ≠ [] && (digits.length = 1 || digits.head? ≠ some '0') && (afterFraction? rest).any isExponent

/-- Whether a character can be part of a number or a literal. -/
def isWordChar (c : Char) : Bool :=
  c.isAlphanum || c == '-' || c == '+' || c == '.'

/-- What a number or a literal stands for. -/
def wordValue? (word : Text) : Option Value :=
  if word = "null".toList then some .null
  else if word = "true".toList then some (.bool true)
  else if word = "false".toList then some (.bool false)
  else if isNumber word then some (.number word)
  else none

/-! ### The reader -/

/-- Whether a character may stand between the marks of a text. -/
def isSpace (c : Char) : Bool :=
  c == ' ' || c == '\t' || c == '\n' || c == '\r'

/-- A list or an object that has been begun, up to the value that is being read. What has been read comes last one
first. -/
inductive Frame where
  | list (items : List Value)
  | object (members : List (Text × Value)) (name : Text)

/-- What has been read of a text, by what comes next. The frames are those that are not ended, innermost first. -/
inductive Reader where
  /-- A value comes. -/
  | atValue (frames : List Frame)
  /-- The first item of a list comes, or its end. -/
  | atItem (frames : List Frame)
  /-- The name of a member comes. If it is the first, the end of the object may come instead. -/
  | atName (isFirst : Bool) (members : List (Text × Value)) (frames : List Frame)
  /-- The colon behind a name comes. -/
  | atColon (members : List (Text × Value)) (name : Text) (frames : List Frame)
  /-- What follows a value comes. -/
  | behind (value : Value) (frames : List Frame)
  /-- The rest of a number or literal comes. Its letters have been read last one first. -/
  | inWord (letters : Text) (frames : List Frame)
  /-- The rest of a string comes, which is the name of a member behind `members`, if there are any, and else a value.
  Its characters have been read last one first. -/
  | inText (members : Option (List (Text × Value))) (read : Text) (isEscaped : Bool) (frames : List Frame)

namespace Reader

/-- What a value begins with. -/
def begin? (frames : List Frame) (c : Char) : Option Reader :=
  if c = '"' then some (.inText none [] false frames)
  else if c = '[' then some (.atItem frames)
  else if c = '\x7b' then some (.atName true [] frames)
  else if isWordChar c then some (.inWord [c] frames)
  else none

/-- What follows a value. -/
def follow? (value : Value) (frames : List Frame) (c : Char) : Option Reader :=
  if isSpace c then some (.behind value frames)
  else
    match frames with
    | .list items :: frames =>
      if c = ',' then some (.atValue (.list (value :: items) :: frames))
      else if c = ']' then some (.behind (.list (value :: items).reverse) frames)
      else none
    | .object members name :: frames =>
      if c = ',' then some (.atName false ((name, value) :: members) frames)
      else if c = '\x7d' then some (.behind (.object ((name, value) :: members).reverse) frames)
      else none
    | [] => none

/-- What a string is, by its text. -/
def close (members : Option (List (Text × Value))) (frames : List Frame) (text : Text) : Reader :=
  match members with
  | some members => .atColon members text frames
  | none => .behind (.text text) frames

/-- What one more character leads to. -/
def step (reader : Reader) (c : Char) : Option Reader :=
  match reader with
  | .atValue frames => if isSpace c then some reader else begin? frames c
  | .atItem frames =>
    if isSpace c then some reader
    else if c = ']' then some (.behind (.list []) frames)
    else begin? (.list [] :: frames) c
  | .atName isFirst members frames =>
    if isSpace c then some reader
    else if c = '"' then some (.inText (some members) [] false frames)
    else if c = '\x7d' && isFirst then some (.behind (.object []) frames)
    else none
  | .atColon members name frames =>
    if isSpace c then some reader
    else if c = ':' then some (.atValue (.object members name :: frames))
    else none
  | .behind value frames => follow? value frames c
  | .inWord letters frames =>
    if isWordChar c then some (.inWord (c :: letters) frames)
    else (wordValue? letters.reverse).bind fun value => follow? value frames c
  | .inText members read isEscaped frames =>
    if isEscaped then some (.inText members (c :: read) false frames)
    else if c = '"' then (unquote? read.reverse).map (close members frames)
    else some (.inText members (c :: read) (c = '\\') frames)

/-- The value that has been read, if nothing has been begun and not ended. -/
def value? : Reader → Option Value
  | .behind value [] => some value
  | .inWord letters [] => wordValue? letters.reverse
  | _ => none

end Reader

/-- The value of a text. -/
def read? (text : Text) : Option Value :=
  (text.foldlM Reader.step (.atValue [])).bind Reader.value?

example : read? " [-1.5e3, \x7b\"a\\u00e9\": null,\n\"\": [ ]\x7d, \"\\ud83d\\ude00\"]\n"
    = some (.list [.number "-1.5e3", .object [("aé", .null), ([], .list [])], .text "😀"]) := by
  cbv

example : ∀ text ∈ ["[1,]", "01", "[1 2]", "\x7b\"a\": 1", "\"\\ud83d\"", "nul", "[\"\t\"]"], (read? text).isNone := by
  decide

end Relabel.Json
