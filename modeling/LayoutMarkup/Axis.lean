import LayoutMarkup.Text.Decimal

/-!
# Style axes and their class tables

A style axis is a dimension of layout that a prop can set: the gap between children, the padding,
the alignment across and along the main direction, and the number of columns. Each axis has a table
from the keys that the prop accepts to utility classes, one class a key.

## Main definitions

* `Axis`, `Axis.prop`, `Axis.ofProp?` — the axes and the props that set them
* `ClassTable`, `Axis.table` — the class of each key of an axis
* `columnClass?` — the class of a number of columns, which may exceed the table

## Main results

* `Axis.ofProp?_prop` — an axis is found by its prop
* `columnClass?_eq_some_iff` — which class a number of columns has
* `columnClass?_of_lt` — the table of columns agrees with `columnClass?`
-/

namespace LayoutMarkup

/-- The classes of the keys of an axis, in order. -/
abbrev ClassTable := List (String × String)

namespace ClassTable

/-- The class of a key. -/
def get? (table : ClassTable) (key : String) : Option String :=
  (table.find? (·.1 = key)).map Prod.snd

/-- The first key with a given class. -/
def keyOf? (table : ClassTable) (token : String) : Option String :=
  (table.find? (·.2 = token)).map Prod.fst

/-- The keys, in order. -/
def keys (table : ClassTable) : List String := table.map Prod.fst

/-- The classes, in order. -/
def tokens (table : ClassTable) : List String := table.map Prod.snd

end ClassTable

/-- A dimension of layout that a prop can set. -/
inductive Axis
  | gap
  | padding
  | align
  | justify
  | cols
  deriving DecidableEq, Repr

namespace Axis

/-- The axes, in order. -/
def all : List Axis := [gap, padding, align, justify, cols]

/-- The prop that sets an axis. -/
def prop : Axis → String
  | gap => "gap"
  | padding => "padding"
  | align => "align"
  | justify => "justify"
  | cols => "cols"

/-- The axis that a prop sets. -/
def ofProp? (name : String) : Option Axis := all.find? (·.prop = name)

/-- The classes of an axis. -/
def table : Axis → ClassTable
  | gap =>
    [("none", "gap-0"), ("xs", "gap-1"), ("sm", "gap-2"), ("md", "gap-4"), ("lg", "gap-6"),
      ("xl", "gap-8"), ("2xl", "gap-12"), ("3xl", "gap-16")]
  | padding =>
    [("none", "p-0"), ("xs", "p-1"), ("sm", "p-2"), ("md", "p-4"), ("lg", "p-6"), ("xl", "p-8"),
      ("2xl", "p-12")]
  | align =>
    [("start", "items-start"), ("center", "items-center"), ("end", "items-end"),
      ("stretch", "items-stretch"), ("baseline", "items-baseline")]
  | justify =>
    [("start", "justify-start"), ("center", "justify-center"), ("end", "justify-end"),
      ("between", "justify-between"), ("around", "justify-around"), ("evenly", "justify-evenly")]
  | cols =>
    [("1", "grid-cols-1"), ("2", "grid-cols-2"), ("3", "grid-cols-3"), ("4", "grid-cols-4"),
      ("5", "grid-cols-5"), ("6", "grid-cols-6"), ("7", "grid-cols-7"), ("8", "grid-cols-8"),
      ("9", "grid-cols-9"), ("10", "grid-cols-10"), ("11", "grid-cols-11"), ("12", "grid-cols-12")]

theorem mem_all (axis : Axis) : axis ∈ all := by
  cases axis <;> decide

theorem ofProp?_prop (axis : Axis) : ofProp? axis.prop = some axis := by
  cases axis <;> rfl

theorem prop_of_ofProp? {name : String} {axis : Axis} (h : ofProp? name = some axis) :
    axis.prop = name := by
  simpa using List.find?_some h

end Axis

/-- What the class of every number of columns begins with. -/
def columnStem : String := "grid-cols-"

/-- The class of a number of columns. There is none for no columns, and there is one for numbers
that the table of `Axis.cols` does not hold. -/
def columnClass? (n : UInt32) : Option String :=
  if n = 0 then none else some (columnStem ++ String.ofList (Text.Decimal.write n.toNat))

theorem columnClass?_zero : columnClass? 0 = none := rfl

theorem columnClass?_of_ne_zero {n : UInt32} (h : n ≠ 0) :
    columnClass? n = some (columnStem ++ String.ofList (Text.Decimal.write n.toNat)) :=
  if_neg h

/-- Every number of columns from one on has a class, in which it is written out. -/
theorem columnClass?_eq_some_iff {n : UInt32} {token : String} :
    columnClass? n = some token ↔ 1 ≤ n ∧ columnStem ++ toString n.toNat = token := by
  have hpos : 1 ≤ n ↔ n ≠ 0 := by
    rw [UInt32.le_iff_toNat_le, ne_eq, ← UInt32.toNat_inj]
    exact Nat.one_le_iff_ne_zero
  rw [hpos, columnClass?, Option.ite_none_left_eq_some, Option.some.injEq]
  rfl

/-- A number of columns that the table holds has the class of the table. -/
theorem columnClass?_of_lt :
    ∀ n : Fin 12, Axis.cols.table.get? (String.ofList (Text.Decimal.write (n + 1))) =
      columnClass? (UInt32.ofNat (n + 1)) := by
  decide

end LayoutMarkup
