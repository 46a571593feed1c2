import LayoutMarkup.Attribute.Basic

/-!
# Reading attribute text

Attribute text is read from left to right, one item at a time. No text is refused: a character that
begins no attribute is an item of its own. The written forms of the items, put together, are the
text.

## Main definitions

* `Attribute.readName` — the longest name at the front of a text
* `Attribute.skipValue` — a value of no accepted form, up to where reading goes on
* `Attribute.Item.read?` — the item at the front of a text
* `Attribute.items` — attribute text as items
* `Attribute.scan` — the attributes of a text with the stretches they cover

## Main results

* `Attribute.Item.source_append_of_read?` — an item that is read, put back in front of the rest, is
  the text
* `Attribute.flatMap_source_items` — the items of a text spell the text
-/

namespace LayoutMarkup.Attribute

open Text

/-! ### Names and values -/

/-- Whether a text begins with a letter or a digit. -/
def startsAlphanum : List Char → Bool
  | [] => false
  | c :: _ => c.isAlphanum

/-- The longest name at the front of a text, with the text behind it. A hyphen belongs to the name
only in front of a letter or a digit. -/
def readName : List Char → List Char × List Char
  | [] => ([], [])
  | c :: text =>
    if isWordChar c || (c = '-' && startsAlphanum text) then
      (c :: (readName text).1, (readName text).2)
    else ([], c :: text)

/-- A text cut behind the first character `close`, or at its end. -/
def cutBehind (close : Char) : List Char → List Char × List Char
  | [] => ([], [])
  | c :: text =>
    if c = close then ([c], text)
    else (c :: (cutBehind close text).1, (cutBehind close text).2)

/-- The character that closes a value beginning with `c`, if it is a bracket or a quotation mark. -/
def closerOf? (c : Char) : Option Char :=
  if c = '"' then some '"'
  else if c = '\'' then some '\''
  else if c = '{' then some '}'
  else none

/-- A text cut behind a value: through the closing character of a bracketed or quoted value, else in
front of the first gap. -/
def cutValue : List Char → List Char × List Char
  | [] => ([], [])
  | c :: text =>
    match closerOf? c with
    | some close => (c :: (cutBehind close text).1, (cutBehind close text).2)
    | none => ((c :: text).takeWhile (!isGap ·), (c :: text).dropWhile (!isGap ·))

/-- A text cut behind the value at its front, which gaps may precede. -/
def skipValue (text : List Char) : List Char × List Char :=
  (text.takeWhile isGap ++ (cutValue (text.dropWhile isGap)).1, (cutValue (text.dropWhile isGap)).2)

/-- The text attribute `name` whose value, from its quotation mark on, is at the front of a text. -/
def readQuoted? (name text : List Char) : Option (Item × List Char) :=
  match text.dropWhile (· ≠ '"') with
  | '"' :: rest =>
    if text.takeWhile (· ≠ '"') = [] then none
    else some (.quoted name (text.takeWhile (· ≠ '"')), rest)
  | _ => none

/-- The number attribute `name` whose value, from its first digit on, is at the front of a text. -/
def readBraced? (name text : List Char) : Option (Item × List Char) :=
  match text.dropWhile Char.isDigit with
  | '}' :: rest =>
    if (Decimal.read? (text.takeWhile Char.isDigit)).isSome then
      some (.braced name (text.takeWhile Char.isDigit), rest)
    else none
  | _ => none

/-- The attribute `name` of an accepted form whose value is at the front of a text. -/
def readValue? (name : List Char) : List Char → Option (Item × List Char)
  | '"' :: text => readQuoted? name text
  | '{' :: text => readBraced? name text
  | _ => none

/-! ### Items -/

/-- The item that `name` begins, with the text behind it. A value has to stand right behind `=`, and
`=` right behind the name, to be accepted. -/
def Item.readAfterName (name text : List Char) : Item × List Char :=
  match text.dropWhile isGap with
  | '=' :: behind =>
    match if text.takeWhile isGap = [] then readValue? name behind else none with
    | some read => read
    | none =>
      (.malformed name (text.takeWhile isGap ++ '=' :: (skipValue behind).1), (skipValue behind).2)
  -- The gaps that were looked past are read again as fillers.
  | _ => (.flag name, text)

/-- The item at the front of a text, with the text behind it. Only the empty text has none. -/
def Item.read? : List Char → Option (Item × List Char)
  | [] => none
  | c :: text =>
    if isWordChar c then
      some (Item.readAfterName (readName (c :: text)).1 (readName (c :: text)).2)
    else some (.filler c, text)

variable {rest name : List Char} {item : Item}

theorem readName_append (text : List Char) : (readName text).1 ++ (readName text).2 = text := by
  induction text with
  | nil => rfl
  | cons c text ih =>
    rw [readName]
    split
    · simp [ih]
    · rfl

theorem readName_ne_nil {c : Char} (text : List Char) (h : isWordChar c = true) :
    (readName (c :: text)).1 ≠ [] := by
  simp [readName, h]

theorem cutBehind_append (close : Char) (text : List Char) :
    (cutBehind close text).1 ++ (cutBehind close text).2 = text := by
  induction text with
  | nil => rfl
  | cons c text ih =>
    rw [cutBehind]
    split
    · rfl
    · simp [ih]

theorem cutValue_append (text : List Char) : (cutValue text).1 ++ (cutValue text).2 = text := by
  unfold cutValue
  split
  · rfl
  · split
    · simp [cutBehind_append]
    · exact List.takeWhile_append_dropWhile

theorem skipValue_append (text : List Char) : (skipValue text).1 ++ (skipValue text).2 = text := by
  simp [skipValue, List.append_assoc, cutValue_append]

variable {text : List Char}

theorem append_of_readQuoted? (h : readQuoted? name text = some (item, rest)) :
    item.source ++ rest = name ++ '=' :: '"' :: text := by
  unfold readQuoted? at h
  split at h
  · rename_i hdrop
    split at h
    · cases h
    · cases h
      simp [Item.source, ← hdrop]
  · cases h

theorem append_of_readBraced? (h : readBraced? name text = some (item, rest)) :
    item.source ++ rest = name ++ '=' :: '{' :: text := by
  unfold readBraced? at h
  split at h
  · rename_i hdrop
    split at h
    · cases h
      simp [Item.source, ← hdrop]
    · cases h
  · cases h

theorem append_of_readValue? (h : readValue? name text = some (item, rest)) :
    item.source ++ rest = name ++ '=' :: text := by
  unfold readValue? at h
  split at h
  · exact append_of_readQuoted? h
  · exact append_of_readBraced? h
  · cases h

theorem exists_source_eq_of_readValue? (h : readValue? name text = some (item, rest)) :
    ∃ value, item.source = name ++ '=' :: value := by
  unfold readValue? at h
  split at h
  · unfold readQuoted? at h
    split at h
    · split at h <;> cases h
      exact ⟨_, rfl⟩
    · cases h
  · unfold readBraced? at h
    split at h
    · split at h <;> cases h
      exact ⟨_, rfl⟩
    · cases h
  · cases h

theorem length_le_of_readValue? (h : readValue? name text = some (item, rest)) :
    rest.length ≤ text.length := by
  obtain ⟨value, hvalue⟩ := exists_source_eq_of_readValue? h
  have := congrArg List.length (append_of_readValue? h)
  rw [hvalue] at this
  simp only [List.length_append, List.length_cons] at this
  omega

theorem Item.source_readAfterName_append (name text : List Char) :
    (readAfterName name text).1.source ++ (readAfterName name text).2 = name ++ text := by
  unfold readAfterName
  split
  · rename_i behind hdrop
    have htext : text = text.takeWhile isGap ++ '=' :: behind := by
      rw [← hdrop, List.takeWhile_append_dropWhile]
    split
    · rename_i read hread
      split at hread
      · rename_i hgap
        rw [append_of_readValue? hread, htext, hgap]
        rfl
      · cases hread
    · simp only [Item.source, List.append_assoc, List.cons_append, skipValue_append]
      rw [← htext]
  · rfl

/-- Reading behind a name leaves no more than the text behind it. -/
theorem Item.length_readAfterName_le (name text : List Char) :
    (readAfterName name text).2.length ≤ text.length := by
  unfold readAfterName
  split
  · rename_i behind hdrop
    have hbehind : behind.length < text.length := by
      have := (List.dropWhile_sublist isGap (l := text)).length_le
      rw [hdrop] at this
      exact this
    split
    · rename_i read hread
      split at hread
      · exact Nat.le_trans (length_le_of_readValue? hread) (Nat.le_of_lt hbehind)
      · cases hread
    · have := congrArg List.length (skipValue_append behind)
      rw [List.length_append] at this
      show (skipValue behind).2.length ≤ text.length
      omega
  · exact Nat.le_refl _

/-- An item that is read, put back in front of the rest, is the text. -/
theorem Item.source_append_of_read? (h : Item.read? text = some (item, rest)) :
    item.source ++ rest = text := by
  unfold Item.read? at h
  split at h
  · cases h
  · rename_i c text
    split at h
    · have happend := Item.source_readAfterName_append (readName (c :: text)).1
        (readName (c :: text)).2
      rw [Option.some.inj h, readName_append] at happend
      exact happend
    · cases h
      rfl

/-- Reading an item leaves a shorter text. -/
theorem Item.length_lt_of_read? (h : Item.read? text = some (item, rest)) :
    rest.length < text.length := by
  unfold Item.read? at h
  split at h
  · cases h
  · rename_i c text
    split at h
    · rename_i hc
      have hname := List.length_pos_iff.mpr (readName_ne_nil text hc)
      have happend := congrArg List.length (readName_append (c :: text))
      have hle := Item.length_readAfterName_le (readName (c :: text)).1 (readName (c :: text)).2
      rw [List.length_append] at happend
      rw [Option.some.inj h] at hle
      change rest.length ≤ _ at hle
      omega
    · cases h
      exact Nat.lt_succ_self _

/-- Attribute text as items. -/
def items (text : List Char) : List Item :=
  match h : Item.read? text with
  | none => []
  | some (item, rest) =>
    have := Item.length_lt_of_read? h
    item :: items rest
termination_by text.length
decreasing_by exact this

@[simp] theorem items_nil : items [] = [] := by
  rw [items]
  split
  · rfl
  · rename_i h
    cases h

theorem items_of_read? (h : Item.read? text = some (item, rest)) :
    items text = item :: items rest := by
  rw [items]
  split
  · rename_i h'
    rw [h] at h'
    cases h'
  · rename_i h'
    rw [h] at h'
    cases h'
    rfl

/-- The items of a text spell the text. -/
theorem flatMap_source_items (text : List Char) : (items text).flatMap Item.source = text := by
  fun_induction items text with
  | case1 text h =>
    cases text with
    | nil => rfl
    | cons c text => rw [Item.read?] at h; split at h <;> cases h
  | case2 text item rest h _ ih => rw [List.flatMap_cons, ih, Item.source_append_of_read? h]

/-! ### Attributes with their places -/

/-- The attributes among items that stand at `p`. -/
def located (p : Position) : List Item → List (Attribute × Span)
  | [] => []
  | item :: rest =>
    match item.attribute? with
    | some found => (found, .over p item.source) :: located (p.after item.source) rest
    | none => located (p.after item.source) rest

/-- The attributes of a text with the stretches they cover, in order. -/
def scan (text : List Char) : List (Attribute × Span) := located .start (items text)

/-- The attributes of a text, in order. -/
def read (text : List Char) : List Attribute := (items text).filterMap Item.attribute?

theorem map_fst_located (p : Position) (items : List Item) :
    (located p items).map Prod.fst = items.filterMap Item.attribute? := by
  induction items generalizing p with
  | nil => rfl
  | cons item rest ih =>
    rw [located, List.filterMap_cons]
    cases item.attribute? <;> simp [ih]

theorem map_fst_scan (text : List Char) : (scan text).map Prod.fst = read text :=
  map_fst_located _ _

end LayoutMarkup.Attribute
