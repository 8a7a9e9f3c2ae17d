import VisionApi.Foundation.Dict
import Mathlib.Data.Int.Notation
import Mathlib.Data.Nat.Notation

/-!
# JSON values and their text

The values of JSON as a dynamic language has them, a writer and a reader.  Text
is ASCII: other characters are written as escapes of their UTF-16 code units.
How floats are written is a parameter.

The writer is `json.dumps` with its default of `ensure_ascii`, in the two choices of
separators that occur: with a blank after each comma and colon, or without.  The
reader accepts blanks wherever JSON allows them, keeps the last of several members
with one key, and takes a number with a fraction or an exponent for a float.

The reader recurses on the depth of the text and is given fuel, of which the length
of the text is always enough; `loads` supplies it and asks that nothing is left over.
The partial accessors `len?`, `item?` and `text?` are the operations that Python would
allow on a value of any shape, with `none` where it raises a `TypeError`.
-/

namespace VisionApi.Foundation

/-- A value; the members of an object are a dictionary. -/
inductive Json (Number : Type) where
  | null
  | bool (value : Bool)
  | int (value : ℤ)
  | float (value : Number)
  | string (text : String)
  | array (items : List (Json Number))
  | object (members : List (String × Json Number))

namespace Json

variable {Number : Type}

/-- The items a loop takes from a value: an object gives its keys, a string its characters. -/
def iterate : Json Number → Option (List (Json Number))
  | .array items => some items
  | .object members => some (members.map fun member => .string member.1)
  | .string text => some (text.toList.map fun char => .string (String.singleton char))
  | _ => none

/-- The length of a value that has one. -/
def len? : Json Number → Option ℕ
  | .array items => some items.length
  | .object members => some members.length
  | .string text => some text.length
  | _ => none

/-- The item at a position from the start; the keys of an object are texts and no positions. -/
def item? : Json Number → ℕ → Option (Json Number)
  | .array items, position => items[position]?
  | .string text, position =>
      (text.toList[position]?).map fun char => .string (String.singleton char)
  | _, _ => none

/-- The text of a value that is one. -/
def text? : Json Number → Option String
  | .string text => some text
  | _ => none

/-- The text of a value that may be null instead. -/
def optionalText? : Json Number → Option (Option String)
  | .null => some none
  | value => value.text?.map some

/-- A list of texts as a value. -/
def texts (items : List String) : Json Number :=
  .array (items.map .string)

/-- A list of texts has a length. -/
@[simp]
theorem len?_texts (items : List String) :
    (texts items : Json Number).len? = some items.length := by
  simp [texts, len?]

@[simp]
theorem item?_texts (items : List String) (position : ℕ) :
    (texts items : Json Number).item? position = (items[position]?).map .string := by
  simp [texts, item?]

/-- Why a text has no value. -/
inductive LoadsError where
  | invalid
  /-- The text is nested too deeply. -/
  | recursion

/-! ## Characters of a string -/

/-- The two-character escapes. -/
def shortEscapes : List (Char × Char) :=
  [('"', '"'), ('\\', '\\'), ('\n', 'n'), ('\r', 'r'), ('\t', 't'), ('\x0c', 'f'), ('\x08', 'b')]

/-- The escape of a UTF-16 code unit. -/
def writeUnit (unit : ℕ) : List Char :=
  ['\\', 'u', Nat.digitChar (unit / 4096), Nat.digitChar (unit / 256 % 16),
    Nat.digitChar (unit / 16 % 16), Nat.digitChar (unit % 16)]

/-- A character within quotes: as it is, by a short escape, or by its UTF-16 code units. -/
def writeChar (char : Char) : List Char :=
  match Dict.get? shortEscapes char with
  | some escape => ['\\', escape]
  | none =>
      if ' ' ≤ char ∧ char ≤ '~' then [char]
      else if char.toNat < 65536 then writeUnit char.toNat
      else
        writeUnit (55296 + (char.toNat - 65536) / 1024) ++
          writeUnit (56320 + (char.toNat - 65536) % 1024)

/-- A text in quotes. -/
def writeString (text : String) : List Char :=
  '"' :: (text.toList.flatMap writeChar ++ ['"'])

/-- The value of a hexadecimal digit of either case. -/
def hexValue (char : Char) : Option ℕ :=
  if char.isDigit then some (char.toNat - '0'.toNat)
  else if 'a' ≤ char ∧ char ≤ 'f' then some (char.toNat - 'a'.toNat + 10)
  else if 'A' ≤ char ∧ char ≤ 'F' then some (char.toNat - 'A'.toNat + 10)
  else none

/-- Four hexadecimal digits. -/
def readUnit : List Char → Option (ℕ × List Char)
  | a :: b :: c :: d :: rest => do
      let a ← hexValue a
      let b ← hexValue b
      let c ← hexValue c
      let d ← hexValue d
      some (a * 4096 + b * 256 + c * 16 + d, rest)
  | _ => none

/-- What follows `\u`: one code unit, or two that are a surrogate pair.  A lone surrogate is no
character. -/
def readUnicode (chars : List Char) : Option (Char × List Char) := do
  let (high, rest) ← readUnit chars
  if 55296 ≤ high ∧ high < 56320 then
    match rest with
    | '\\' :: 'u' :: rest => do
        let (low, rest) ← readUnit rest
        if 56320 ≤ low ∧ low < 57344 then
          some (Char.ofNat (65536 + (high - 55296) * 1024 + (low - 56320)), rest)
        else none
    | _ => none
  else if 56320 ≤ high ∧ high < 57344 then none
  else some (Char.ofNat high, rest)

/-- The characters that have a two-character escape, and the solidus. -/
def readEscape (escape : Char) : Option Char :=
  if escape = '/' then some '/'
  else (shortEscapes.find? fun entry => entry.2 = escape).map Prod.fst

/-- One character of a string. -/
def readChar : List Char → Option (Char × List Char)
  | '\\' :: 'u' :: rest => readUnicode rest
  | '\\' :: escape :: rest => (readEscape escape).map fun char => (char, rest)
  | char :: rest => if char.toNat < 32 then none else some (char, rest)
  | [] => none

/-- The characters up to the closing quote. -/
def readChars : ℕ → List Char → Option (List Char × List Char)
  | 0, _ => none
  | _ + 1, '"' :: rest => some ([], rest)
  | fuel + 1, chars => do
      let (char, rest) ← readChar chars
      let (text, rest) ← readChars fuel rest
      some (char :: text, rest)

/-- A text up to its closing quote, and what comes after it. -/
def readString (chars : List Char) : Option (String × List Char) :=
  (readChars (chars.length + 1) chars).map fun read => (String.ofList read.1, read.2)

/-! ## Numbers -/

/-- How floats are written and read. -/
structure FloatText (Number : Type) where
  write : Number → List Char
  read : List Char → Option Number

/-- A character that can occur in a number. -/
def isNumberChar (char : Char) : Bool :=
  char.isDigit || char ∈ ['-', '+', '.', 'e', 'E']

/-- Digits without a leading zero. -/
def readNat (digits : List Char) : Option ℕ :=
  if digits.all Char.isDigit && digits ≠ [] && (digits.head? ≠ some '0' || digits.length = 1) then
    some (Nat.ofDigitChars 10 digits 0)
  else none

/-- An integer, with or without a sign. -/
def readInt : List Char → Option ℤ
  | '-' :: digits => (readNat digits).map fun value : ℕ => -(value : ℤ)
  | digits => (readNat digits).map fun value : ℕ => (value : ℤ)

/-- A number is an int if it is written as one. -/
def readNumber (floats : FloatText Number) (chars : List Char) :
    Option (Json Number × List Char) :=
  let token := chars.takeWhile isNumberChar
  let rest := chars.dropWhile isNumberChar
  match readInt token with
  | some value => some (.int value, rest)
  | none => (floats.read token).map fun value => (.float value, rest)

/-! ## Values -/

/-- Whether a space follows each comma and colon. -/
inductive Separators where
  | spaced
  | compact

/-- What follows a comma or a colon. -/
def Separators.gap : Separators → List Char
  | .spaced => [' ']
  | .compact => []

/-- Texts with commas between them. -/
def join (separators : Separators) (texts : List (List Char)) : List Char :=
  List.intercalate (',' :: separators.gap) texts

/-- A key and the text of its value. -/
def writeMember (separators : Separators) (key : String) (value : List Char) : List Char :=
  writeString key ++ ':' :: separators.gap ++ value

mutual

/-- The text of a value. -/
def write (floats : FloatText Number) (separators : Separators) : Json Number → List Char
  | .null => ['n', 'u', 'l', 'l']
  | .bool true => ['t', 'r', 'u', 'e']
  | .bool false => ['f', 'a', 'l', 's', 'e']
  | .int value => (toString value).toList
  | .float value => floats.write value
  | .string text => writeString text
  | .array items => '[' :: (join separators (writeItems floats separators items) ++ [']'])
  | .object members => '{' :: (join separators (writeMembers floats separators members) ++ ['}'])

/-- The texts of the items of an array. -/
def writeItems (floats : FloatText Number) (separators : Separators) :
    List (Json Number) → List (List Char)
  | [] => []
  | item :: items => write floats separators item :: writeItems floats separators items

/-- The texts of the members of an object. -/
def writeMembers (floats : FloatText Number) (separators : Separators) :
    List (String × Json Number) → List (List Char)
  | [] => []
  | (key, value) :: members =>
      writeMember separators key (write floats separators value) ::
        writeMembers floats separators members

end

/-- A blank between tokens. -/
def isSpace (char : Char) : Bool :=
  char ∈ [' ', '\t', '\n', '\r']

/-- The text from its first token on. -/
def skipSpace (chars : List Char) : List Char :=
  chars.dropWhile isSpace

/-- Items separated by commas, up to a closing character. -/
def readSequence {Item : Type} (read : List Char → Option (Item × List Char)) (close : Char) :
    ℕ → List Char → Option (List Item × List Char)
  | 0, _ => none
  | fuel + 1, chars => do
      let (item, rest) ← read chars
      match skipSpace rest with
      | [] => none
      | char :: rest =>
          if char = close then some ([item], rest)
          else if char = ',' then do
            let (items, rest) ← readSequence read close fuel rest
            some (item :: items, rest)
          else none

/-- A key, a colon and a value. -/
def readMember {Value : Type} (read : List Char → Option (Value × List Char))
    (chars : List Char) : Option ((String × Value) × List Char) :=
  match skipSpace chars with
  | '"' :: rest => do
      let (key, rest) ← readString rest
      match skipSpace rest with
      | ':' :: rest => do
          let (value, rest) ← read rest
          some ((key, value), rest)
      | _ => none
  | _ => none

/-- A later member with the same key replaces an earlier one. -/
def ofMembers {Value : Type} (members : List (String × Value)) : List (String × Value) :=
  members.foldl (fun dict member => Dict.set dict member.1 member.2) []

/-- The first value of a text, and what comes after it; `fuel` bounds the depth. -/
def readValue (floats : FloatText Number) : ℕ → List Char → Option (Json Number × List Char)
  | 0, _ => none
  | fuel + 1, chars =>
      match skipSpace chars with
      | 'n' :: 'u' :: 'l' :: 'l' :: rest => some (.null, rest)
      | 't' :: 'r' :: 'u' :: 'e' :: rest => some (.bool true, rest)
      | 'f' :: 'a' :: 'l' :: 's' :: 'e' :: rest => some (.bool false, rest)
      | '"' :: rest => (readString rest).map fun read => (.string read.1, read.2)
      | '[' :: rest =>
          match skipSpace rest with
          | ']' :: rest => some (.array [], rest)
          | rest =>
              (readSequence (readValue floats fuel) ']' fuel rest).map fun read =>
                (.array read.1, read.2)
      | '{' :: rest =>
          match skipSpace rest with
          | '}' :: rest => some (.object [], rest)
          | rest =>
              (readSequence (readMember (readValue floats fuel)) '}' fuel rest).map fun read =>
                (.object (ofMembers read.1), read.2)
      | chars => readNumber floats chars

/-- Write a value as a text. -/
def dumps (floats : FloatText Number) (separators : Separators) (value : Json Number) : String :=
  String.ofList (write floats separators value)

/-- Read a text that holds one value and nothing else. -/
def loads (floats : FloatText Number) (text : String) : Option (Json Number) :=
  match readValue floats (text.toList.length + 1) text.toList with
  | some (value, rest) => if skipSpace rest = [] then some value else none
  | none => none

end Json

end VisionApi.Foundation
