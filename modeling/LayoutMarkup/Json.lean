/-!
# JSON values

The JSON values that reports are written as, and their two written forms: compact, on one line
without blanks, and indented, with two spaces for each level. Objects keep the order of their
fields.

## Main definitions

* `Json` — a JSON value
* `Json.escape`, `Json.quoted` — how a text is written
* `Json.compact`, `Json.indented` — the two written forms
-/

namespace LayoutMarkup

/-- A JSON value. Numbers are natural numbers. -/
inductive Json
  | bool (value : Bool)
  | number (value : Nat)
  | text (value : String)
  | array (elements : List Json)
  | object (fields : List (String × Json))
  deriving Repr

namespace Json

/-- A character inside quotation marks. Quotation marks, backslashes and characters below the space
are escaped, the latter by a letter where JSON has one; all others stand for themselves. -/
def escape (c : Char) : List Char :=
  if c = '"' then ['\\', '"']
  else if c = '\\' then ['\\', '\\']
  else if c = '\x08' then ['\\', 'b']
  else if c = '\t' then ['\\', 't']
  else if c = '\n' then ['\\', 'n']
  else if c = '\x0c' then ['\\', 'f']
  else if c = '\r' then ['\\', 'r']
  else if c.toNat < 0x20 then
    ['\\', 'u', '0', '0', Nat.digitChar (c.toNat / 16), Nat.digitChar (c.toNat % 16)]
  else [c]

/-- A text in quotation marks. -/
def quoted (text : String) : String :=
  String.ofList ('"' :: (text.toList.flatMap escape ++ ['"']))

/-- The brace that an object begins with. -/
def openBrace : String := String.singleton '{'

/-- The brace that an object ends with. -/
def closeBrace : String := String.singleton '}'

mutual

/-- A value on one line. -/
def compact : Json → String
  | bool value => if value then "true" else "false"
  | number value => toString value
  | text value => quoted value
  | array elements => "[" ++ ",".intercalate (compactElements elements) ++ "]"
  | object fields => openBrace ++ ",".intercalate (compactFields fields) ++ closeBrace

/-- Values, each on one line. -/
def compactElements : List Json → List String
  | [] => []
  | value :: rest => compact value :: compactElements rest

/-- Fields, each on one line. -/
def compactFields : List (String × Json) → List String
  | [] => []
  | (name, value) :: rest => (quoted name ++ ":" ++ compact value) :: compactFields rest

end

/-- The beginning of a new line that stands `depth` levels deep. -/
def newLine (depth : Nat) : String := String.ofList ('\n' :: List.replicate (2 * depth) ' ')

/-- Parts between brackets that stand `depth` levels deep, each part on lines of its own. -/
def block (depth : Nat) (opening closing : String) (parts : List String) : String :=
  if parts = [] then opening ++ closing
  else
    opening ++ newLine (depth + 1) ++ ("," ++ newLine (depth + 1)).intercalate parts
      ++ newLine depth ++ closing

mutual

/-- A value that stands `depth` levels deep, over several lines. -/
def indentedAt (depth : Nat) : Json → String
  | bool value => if value then "true" else "false"
  | number value => toString value
  | text value => quoted value
  | array elements => block depth "[" "]" (indentedElements (depth + 1) elements)
  | object fields => block depth openBrace closeBrace (indentedFields (depth + 1) fields)

/-- Values that stand `depth` levels deep. -/
def indentedElements (depth : Nat) : List Json → List String
  | [] => []
  | value :: rest => indentedAt depth value :: indentedElements depth rest

/-- Fields that stand `depth` levels deep. -/
def indentedFields (depth : Nat) : List (String × Json) → List String
  | [] => []
  | (name, value) :: rest =>
    (quoted name ++ ": " ++ indentedAt depth value) :: indentedFields depth rest

end

/-- A value over several lines. -/
def indented (value : Json) : String := indentedAt 0 value

/-- Texts as an array. -/
def texts (values : List String) : Json := array (values.map text)

end Json

end LayoutMarkup
