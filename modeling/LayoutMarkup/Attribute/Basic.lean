import LayoutMarkup.Text.Blank
import LayoutMarkup.Text.Decimal
import LayoutMarkup.Text.Position

/-!
# Attributes

The attribute text of a tag is read as a list of items: attributes, malformed attributes, and
characters between them. The grammar of an attribute is

* a flag, `name`, not followed by `=`;
* a text, `name="value"`, where the value is not empty and holds no quotation mark;
* a number, `name={digits}`, whose value fits into 32 bits,

and a name is a word character followed by word characters and by hyphens that stand in front of a
letter or digit. Anything else after a name and `=` is malformed. It is skipped as one item: a quoted
or braced value through its first closing mark, any other value up to the next gap.

## Main definitions

* `PropValue` — the value of an attribute
* `Attribute` — a name with a value
* `Attribute.Item` — a piece of attribute text as it is written
* `Attribute.Item.source`, `Attribute.Item.attribute?` — its written form and what it says
* `Attribute.written` — an attribute in written form
* `bracedText` — a text in braces
-/

namespace LayoutMarkup

open Text

/-- The value of an attribute. A flag is an attribute that only has a name. -/
inductive PropValue
  | flag
  | text (value : String)
  | number (value : UInt32)
  deriving DecidableEq, Repr

namespace PropValue

/-- Whether the value is that of a bare flag. -/
def isFlag : PropValue → Bool
  | flag => true
  | _ => false

/-- The value as plain text; a flag reads `true`. -/
def plain : PropValue → String
  | flag => "true"
  | text value => value
  | number value => String.ofList (Decimal.write value.toNat)

@[simp] theorem isFlag_eq_true_iff {value : PropValue} : value.isFlag = true ↔ value = flag := by
  cases value <;> simp [isFlag]

end PropValue

/-- A name with a value. -/
structure Attribute where
  name : String
  value : PropValue
  deriving DecidableEq, Repr

namespace Attribute

/-- A piece of attribute text: a character that no attribute begins with, an attribute, or a
malformed attribute with all that is skipped behind its name. -/
inductive Item
  | filler (c : Char)
  | flag (name : List Char)
  | quoted (name value : List Char)
  | braced (name digits : List Char)
  | malformed (name skipped : List Char)
  deriving DecidableEq, Repr

namespace Item

/-- The text of an item. -/
def source : Item → List Char
  | filler c => [c]
  | flag name => name
  | quoted name value => name ++ '=' :: '"' :: (value ++ ['"'])
  | braced name digits => name ++ '=' :: '{' :: (digits ++ ['}'])
  | malformed name skipped => name ++ skipped

/-- The attribute that an item states, if it states one. -/
def attribute? : Item → Option Attribute
  | filler _ => none
  | flag name => some ⟨String.ofList name, .flag⟩
  | quoted name value => some ⟨String.ofList name, .text (String.ofList value)⟩
  | braced name digits =>
    some ⟨String.ofList name, .number (UInt32.ofNat (Decimal.value digits))⟩
  | malformed _ _ => none

/-- The item that states an attribute. -/
def ofAttribute (entry : Attribute) : Item :=
  match entry.value with
  | .flag => flag entry.name.toList
  | .text value => quoted entry.name.toList value.toList
  | .number value => braced entry.name.toList (Decimal.write value.toNat)

end Item

/-- An attribute written out, with a space in front. -/
def written (entry : Attribute) : List Char := ' ' :: (Item.ofAttribute entry).source

end Attribute

/-- A text in braces, as a number is written in an attribute. -/
def bracedText (text : String) : String := String.ofList ('{' :: (text.toList ++ ['}']))

@[simp] theorem toList_bracedText (text : String) :
    (bracedText text).toList = '{' :: (text.toList ++ ['}']) := String.toList_ofList

end LayoutMarkup
