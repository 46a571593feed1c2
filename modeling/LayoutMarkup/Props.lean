import LayoutMarkup.Attribute.Reading
import LayoutMarkup.Tag

/-!
# Props

The props of a tag are its attributes by name, in order of first mention. A name occurs once;
inserting it again changes its value and keeps its place. When props are made from the attributes of
a tag, a valued attribute always wins over a bare flag of the same name, and of several valued ones
the last wins.

## Main definitions

* `Props` — attributes with different names, in order
* `Props.get?`, `Props.hasFlag`, `Props.text?`, `Props.number?` — what is known of a name
* `Props.insert`, `Props.insertNew`, `Props.ofList`, `Props.ofAttributes` — making props
* `Props.read`, `Props.written` — props from attribute text, and back
* `Tag.props` — the props of a tag

## Main results

* `Props.names_insert` — a name is inserted in its old place, or at the end
* `Props.get?_insert` — a name has the value it was last given
* `Props.entries_ofList` — attributes with different names are props as they stand
-/

namespace LayoutMarkup

/-- Attributes with different names, in order of first mention. -/
structure Props where
  entries : List Attribute
  nodup_names : (entries.map Attribute.name).Nodup

namespace Props

theorem ext {p q : Props} (h : p.entries = q.entries) : p = q := by
  cases p
  cases q
  cases h
  rfl

instance : DecidableEq Props := fun p q =>
  decidable_of_iff (p.entries = q.entries) ⟨ext, fun h => h ▸ rfl⟩

/-- No props. -/
def empty : Props := ⟨[], List.nodup_nil⟩

/-- The names of the props, in order. -/
def names (p : Props) : List String := p.entries.map Attribute.name

/-- The number of props. -/
def size (p : Props) : Nat := p.entries.length

/-- Whether there are no props. -/
def isEmpty (p : Props) : Bool := p.entries.isEmpty

/-- The value of a prop, if it is given. -/
def get? (p : Props) (name : String) : Option PropValue :=
  (p.entries.find? (·.name = name)).map Attribute.value

/-- Whether a prop is given. -/
def contains (p : Props) (name : String) : Bool := (p.get? name).isSome

/-- Whether a prop is given as a bare flag. -/
def hasFlag (p : Props) (name : String) : Bool := p.get? name = some .flag

/-- The text of a prop that is given as text. -/
def text? (p : Props) (name : String) : Option String :=
  match p.get? name with
  | some (.text value) => some value
  | _ => none

/-- The number of a prop that is given as a number. -/
def number? (p : Props) (name : String) : Option UInt32 :=
  match p.get? name with
  | some (.number value) => some value
  | _ => none

/-- The names of the props that are bare flags, in order. -/
def flags (p : Props) : List String :=
  (p.entries.filter (·.value.isFlag)).map Attribute.name

/-- The props that are not bare flags, in order. -/
def valued (p : Props) : List Attribute := p.entries.filter (!·.value.isFlag)

/-! ### Inserting -/

/-- An attribute in the place of the one of its name, or at the end if there is none. -/
def put (entry : Attribute) : List Attribute → List Attribute
  | [] => [entry]
  | e :: rest => if e.name = entry.name then entry :: rest else e :: put entry rest

variable (entry : Attribute) (entries : List Attribute)

theorem map_name_put : (put entry entries).map Attribute.name =
    if entry.name ∈ entries.map Attribute.name then entries.map Attribute.name
    else entries.map Attribute.name ++ [entry.name] := by
  induction entries with
  | nil => rfl
  | cons e rest ih =>
    rw [put]
    by_cases h : e.name = entry.name
    · simp [h]
    · have h' : entry.name ≠ e.name := fun heq => h heq.symm
      simp only [h, ↓reduceIte, List.map_cons, ih, List.mem_cons, h', false_or]
      split <;> simp

theorem nodup_map_name_put (h : (entries.map Attribute.name).Nodup) :
    ((put entry entries).map Attribute.name).Nodup := by
  rw [map_name_put]
  split
  · exact h
  · rename_i hmem
    rw [List.nodup_append]
    refine ⟨h, by simp, ?_⟩
    intro a ha b hb
    rw [List.mem_singleton] at hb
    subst hb
    exact fun heq => hmem (heq ▸ ha)

/-- The props with one more, or with a new value for one of them. -/
def insert (p : Props) (entry : Attribute) : Props :=
  ⟨put entry p.entries, nodup_map_name_put entry p.entries p.nodup_names⟩

/-- The props with one more, unless its name is already given. -/
def insertNew (p : Props) (entry : Attribute) : Props :=
  if entry.name ∈ p.names then p else p.insert entry

/-- The props with several more, inserted in order. -/
def insertAll (p : Props) (entries : List Attribute) : Props := entries.foldl insert p

/-- The props made by inserting attributes in order. -/
def ofList (entries : List Attribute) : Props := empty.insertAll entries

/-- The props of a tag with these attributes: first those with a value, then the flags that are not
among them. -/
def ofAttributes (attributes : List Attribute) : Props :=
  (attributes.filter (·.value.isFlag)).foldl insertNew
    (ofList (attributes.filter (!·.value.isFlag)))

/-- A name that is inserted keeps its place if it has one, and comes last if not. -/
theorem names_insert (p : Props) : (p.insert entry).names =
    if entry.name ∈ p.names then p.names else p.names ++ [entry.name] :=
  map_name_put entry p.entries

theorem find?_put (name : String) : (put entry entries).find? (·.name = name) =
    if entry.name = name then some entry else entries.find? (·.name = name) := by
  induction entries with
  | nil =>
    rw [put, List.find?_cons]
    by_cases h : entry.name = name <;> simp [h]
  | cons e rest ih =>
    rw [put]
    by_cases h : e.name = entry.name <;> by_cases hn : entry.name = name <;>
      by_cases he : e.name = name <;> simp_all

/-- A prop has the value it was last given. -/
theorem get?_insert (p : Props) (name : String) : (p.insert entry).get? name =
    if entry.name = name then some entry.value else p.get? name := by
  rw [get?, insert, find?_put]
  split <;> rfl

theorem put_eq_append (h : entry.name ∉ entries.map Attribute.name) :
    put entry entries = entries ++ [entry] := by
  induction entries with
  | nil => rfl
  | cons e rest ih =>
    rw [List.map_cons, List.mem_cons, not_or] at h
    rw [put, if_neg (fun heq => h.1 heq.symm), ih h.2, List.cons_append]

theorem entries_insertAll (p : Props) (h : ((p.entries ++ entries).map Attribute.name).Nodup) :
    (p.insertAll entries).entries = p.entries ++ entries := by
  induction entries generalizing p with
  | nil => simp [insertAll]
  | cons e rest ih =>
    have hput : (p.insert e).entries = p.entries ++ [e] := by
      refine put_eq_append e p.entries fun hmem => ?_
      rw [List.map_append, List.map_cons, List.nodup_append] at h
      exact h.2.2 _ hmem _ List.mem_cons_self rfl
    have hrest := ih (p.insert e) (by rw [hput]; simpa using h)
    rw [hput, List.append_assoc] at hrest
    exact hrest

/-- Attributes with different names are props as they stand. -/
theorem entries_ofList (h : (entries.map Attribute.name).Nodup) :
    (ofList entries).entries = entries :=
  entries_insertAll entries empty h

/-! ### Written form -/

/-- The props of attribute text. -/
def read (text : List Char) : Props := ofAttributes (Attribute.read text)

/-- The props as attribute text, each with a space in front. -/
def written (p : Props) : List Char := p.entries.flatMap Attribute.written

end Props

/-- The props of a tag. -/
def Tag.props (tag : Tag) : Props := Props.read tag.attrs

end LayoutMarkup
