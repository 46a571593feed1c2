import LayoutMarkup.Proofs.Attribute.Value

/-!
# Expressions in braces

Only a number can stand in braces. Any other expression is skipped, and skipping ends at the first
closing brace. If the expression has no braces of its own, that is its end, and nothing of it is
read. If it has, the text behind its first closing brace is left over, and is read as attribute text
in its own right: the words in it can be taken for flags. What stands behind the expression is read
as if the expression were not there.

## Main definitions

* `Attribute.Balanced` — a text whose braces match
* `Attribute.closesAll` — matching braces by counting
* `Attribute.inBraces` — an attribute with an expression in braces
* `Attribute.skippedPart`, `Attribute.leftOver` — what is skipped of an expression, and what is not
* `Attribute.skippedInBraces` — the attribute up to where skipping ends

## Main results

* `Attribute.balanced_iff` — a text is balanced just if it closes all it opens
* `Attribute.heads_inBraces` — where skipping an expression ends
* `Attribute.items_append_of_closed` — a text that ends in a brace is read without what follows
* `Attribute.scan_inBraces` — what is read of an expression and of the text behind it
* `Attribute.not_forall_inBraces_skipped` — a word of an expression can be read as a flag
-/

namespace LayoutMarkup.Attribute

open Text

variable {name expression text left rest behind skipped digits : List Char} {item : Item}

/-! ### Matching braces -/

/-- A text whose braces match. -/
inductive Balanced : List Char → Prop
  | nil : Balanced []
  | cons {c : Char} {text : List Char} :
      c ≠ '{' → c ≠ '}' → Balanced text → Balanced (c :: text)
  | braces {inner text : List Char} :
      Balanced inner → Balanced text → Balanced ('{' :: (inner ++ '}' :: text))

/-- Whether a text closes `depth` braces, and each brace that it opens itself. -/
def closesAll : Nat → List Char → Bool
  | depth, [] => depth == 0
  | depth, c :: text =>
    if c = '{' then closesAll (depth + 1) text
    else if c = '}' then depth != 0 && closesAll (depth - 1) text
    else closesAll depth text

/-- Balanced parts, `depth` of them with a closing brace behind, and one more. -/
def BalancedParts : Nat → List Char → Prop
  | 0, text => Balanced text
  | depth + 1, text =>
    ∃ inner behind, text = inner ++ '}' :: behind ∧ Balanced inner ∧ BalancedParts depth behind

/-- A balanced text closes just what it opens. -/
theorem Balanced.closesAll_append (h : Balanced text) (depth : Nat) (rest : List Char) :
    closesAll depth (text ++ rest) = closesAll depth rest := by
  induction h generalizing depth rest with
  | nil => rfl
  | cons hopen hclose _ ih => rw [List.cons_append, closesAll, if_neg hopen, if_neg hclose, ih]
  | @braces inner text _ _ ihinner ihtext =>
    rw [List.cons_append, List.append_assoc, closesAll, if_pos rfl, ihinner, List.cons_append,
      closesAll, if_neg (by decide), if_pos rfl, Nat.add_sub_cancel, ihtext]
    rfl

/-- What can stand in front of any balanced text can stand in front of balanced parts. -/
theorem BalancedParts.append {depth : Nat} (h : BalancedParts depth rest) (left : List Char)
    (hfront : ∀ text, Balanced text → Balanced (left ++ text)) :
    BalancedParts depth (left ++ rest) := by
  cases depth with
  | zero => exact hfront _ h
  | succ depth =>
    obtain ⟨inner, behind, rfl, hinner, hbehind⟩ := h
    exact ⟨left ++ inner, behind, (List.append_assoc _ _ _).symm, hfront _ hinner, hbehind⟩

theorem BalancedParts.of_closesAll {depth : Nat} (h : closesAll depth text = true) :
    BalancedParts depth text := by
  fun_induction closesAll depth text with
  | case1 depth =>
    obtain rfl : depth = 0 := by simpa using h
    exact .nil
  | case2 depth text ih =>
    -- The brace that opens here is closed behind the first part.
    obtain ⟨inner, behind, rfl, hinner, hbehind⟩ := ih h
    have hfront := hbehind.append ('{' :: (inner ++ ['}'])) fun text htext => by
      have hbraces := Balanced.braces hinner htext
      simpa using hbraces
    simpa using hfront
  | case3 depth text _ ih =>
    obtain ⟨hdepth, hclosed⟩ := Bool.and_eq_true_iff.mp h
    obtain ⟨depth, rfl⟩ := Nat.exists_eq_succ_of_ne_zero (by simpa using hdepth)
    exact ⟨[], text, rfl, .nil, ih hclosed⟩
  | case4 depth c text hopen hclose ih =>
    exact (ih h).append [c] fun _ htext => .cons hopen hclose htext

theorem balanced_iff : Balanced text ↔ closesAll 0 text = true := by
  refine ⟨fun h => ?_, BalancedParts.of_closesAll⟩
  rw [← List.append_nil text, h.closesAll_append]
  rfl

instance : DecidablePred Balanced := fun _ => decidable_of_iff _ balanced_iff.symm

/-! ### Skipping an expression -/

/-- An attribute with an expression in braces, and a space in front. -/
def inBraces (name expression : List Char) : List Char :=
  ' ' :: (name ++ '=' :: '{' :: (expression ++ ['}']))

/-- What is skipped of an expression and the brace that closes it. -/
def skippedPart (expression : List Char) : List Char :=
  (cutBehind '}' (expression ++ ['}'])).1

/-- What is left of an expression and the brace that closes it. -/
def leftOver (expression : List Char) : List Char :=
  (cutBehind '}' (expression ++ ['}'])).2

theorem skippedPart_append_leftOver (expression : List Char) :
    skippedPart expression ++ leftOver expression = expression ++ ['}'] :=
  cutBehind_append _ _

/-- Skipping ends at the first closing brace. -/
theorem exists_skippedPart_eq (expression : List Char) :
    ∃ body, '}' ∉ body ∧ skippedPart expression = body ++ ['}'] := by
  have hmem : '}' ∈ expression ++ ['}'] := List.mem_append_right _ List.mem_cons_self
  obtain ⟨body, left, hsplit, hbody⟩ := List.eq_append_cons_of_mem hmem
  exact ⟨body, hbody, by rw [skippedPart, hsplit, cutBehind_append_cons hbody]⟩

/-- Nothing is left of an expression without braces. -/
theorem leftOver_eq_nil (h : '}' ∉ expression) : leftOver expression = [] := by
  rw [leftOver, cutBehind_append_cons h]

/-- An expression without an opening brace has no closing one either. -/
theorem Balanced.notMem_of_notMem (h : Balanced expression) (hopen : '{' ∉ expression) :
    '}' ∉ expression := by
  induction h with
  | nil => exact List.not_mem_nil
  | cons _ hc _ ih =>
    rw [List.mem_cons, not_or] at hopen ⊢
    exact ⟨Ne.symm hc, ih hopen.2⟩
  | braces _ _ _ _ => exact absurd List.mem_cons_self hopen

/-- Digits up to a closing brace are all of an expression, as its first brace is an opening one. -/
theorem Balanced.eq_of_digits (h : Balanced expression) (hdigits : ∀ c ∈ digits, c.isDigit = true)
    (heq : digits ++ '}' :: left = expression ++ '}' :: rest) : digits = expression := by
  induction h generalizing digits with
  | nil =>
    cases digits with
    | nil => rfl
    | cons d digits =>
      obtain rfl : d = '}' := (List.cons.inj heq).1
      exact absurd (hdigits _ List.mem_cons_self) (by decide)
  | @cons c text _ hc _ ih =>
    cases digits with
    | nil => exact absurd (List.cons.inj heq).1 (Ne.symm hc)
    | cons d digits =>
      obtain ⟨rfl, htail⟩ := List.cons.inj heq
      rw [ih (fun d hd => hdigits d (List.mem_cons_of_mem _ hd)) htail]
  | braces _ _ _ _ =>
    cases digits with
    | nil => exact absurd (List.cons.inj heq).1 (by decide)
    | cons d digits =>
      obtain rfl : d = '{' := (List.cons.inj heq).1
      exact absurd (hdigits _ List.mem_cons_self) (by decide)

/-- An expression that is no number is no accepted value. -/
theorem Balanced.not_accepted (h : Balanced expression) (hnumeral : ¬ IsNumeral expression)
    (rest : List Char) : ¬ Accepted ('{' :: (expression ++ '}' :: rest)) := by
  generalize htext : '{' :: (expression ++ '}' :: rest) = text
  intro haccepted
  cases haccepted with
  | quoted _ _ => exact absurd (List.cons.inj htext).1 (by decide)
  | braced left hdigits =>
    refine hnumeral ?_
    rwa [← h.eq_of_digits hdigits.2.1 (List.cons.inj htext).2.symm]

/-- An expression that is no number is skipped through its first closing brace. -/
theorem heads_inBraces (hname : IsName name) (hbalanced : Balanced expression)
    (hnumeral : ¬ IsNumeral expression) (rest : List Char) :
    Item.Heads (name ++ '=' :: '{' :: (expression ++ '}' :: rest))
      (.malformed name ('=' :: '{' :: skippedPart expression)) (leftOver expression ++ rest) := by
  obtain ⟨body, hbody, hskipped⟩ := exists_skippedPart_eq expression
  have hsplit : expression ++ '}' :: rest = body ++ '}' :: (leftOver expression ++ rest) := by
    have happend := skippedPart_append_leftOver expression
    rw [hskipped, List.append_assoc] at happend
    rw [← List.singleton_append, ← List.append_assoc, ← happend]
    simp
  have hskips : Skips ('{' :: (expression ++ '}' :: rest)) ('{' :: skippedPart expression)
      (leftOver expression ++ rest) := by
    rw [hsplit, hskipped]
    exact .closed _ (List.forall_mem_nil _) .brace hbody
  exact .malformed hname (List.forall_mem_nil _)
    (fun _ => hbalanced.not_accepted hnumeral rest) hskips

/-! ### Reading in two parts

A text that ends in a closing brace, and has no quotation marks, is read to its end whatever stands
behind it, if only a gap comes first: a name cannot go on over the brace, and a value ends at the
brace or at the gap. -/

/-- A text without quotation marks of either kind. -/
def IsUnquoted (text : List Char) : Prop := '"' ∉ text ∧ '\'' ∉ text

instance (text : List Char) : Decidable (IsUnquoted text) := inferInstanceAs (Decidable (_ ∧ _))

/-- A text that is empty or begins with a gap. -/
def BeginsWithGap (text : List Char) : Prop :=
  text = [] ∨ ∃ c behind, text = c :: behind ∧ isGap c = true

theorem IsUnquoted.of_append (h : IsUnquoted (left ++ text)) : IsUnquoted text :=
  ⟨fun hmem => h.1 (List.mem_append_right _ hmem), fun hmem => h.2 (List.mem_append_right _ hmem)⟩

theorem getLast?_of_append {c : Char} (h : (left ++ text).getLast? = some c) (hne : text ≠ []) :
    text.getLast? = some c := by
  obtain ⟨d, text, rfl⟩ := List.exists_cons_of_ne_nil hne
  rwa [List.getLast?_append, List.getLast?_cons, Option.some_or, ← List.getLast?_cons] at h

/-- If a text ends in a brace and its front does not, its back does. -/
theorem getLast?_of_getLast?_ne (h : (left ++ text).getLast? = some '}')
    (hleft : left.getLast? ≠ some '}') : text.getLast? = some '}' := by
  refine getLast?_of_append h ?_
  rintro rfl
  rw [List.append_nil] at h
  exact hleft h

theorem IsName.getLast?_ne (h : IsName name) : name.getLast? ≠ some '}' := by
  intro hlast
  exact absurd (h.isNameTail.isWordChar_of_mem_getLast? _ hlast) (by decide)

/-- A name does not go on behind a text that ends in a brace. -/
theorem goesOn_append_of_closed (h : goesOn left = false) (hclosed : left.getLast? = some '}')
    (rest : List Char) : goesOn (left ++ rest) = false := by
  cases left with
  | nil => cases hclosed
  | cons c left =>
    cases left with
    | nil =>
      obtain rfl : c = '}' := by simpa using hclosed
      rfl
    | cons d left => exact h

/-- A value that is accepted in front of another text is accepted without it. -/
theorem Accepted.of_append (h : Accepted (text ++ rest)) (hclosed : text.getLast? = some '}')
    (hunquoted : IsUnquoted text) : Accepted text := by
  obtain ⟨c, text, rfl⟩ := List.exists_cons_of_ne_nil (List.ne_nil_of_mem
    (List.mem_of_getLast? hclosed))
  generalize hwhole : c :: text ++ rest = whole at h
  cases h with
  | quoted _ _ =>
    obtain rfl : c = '"' := (List.cons.inj hwhole).1
    exact absurd List.mem_cons_self hunquoted.1
  | @braced digits left hdigits =>
    obtain ⟨rfl, htail⟩ := List.cons.inj hwhole
    have hmem : '}' ∈ text := by
      have hlast := List.mem_of_getLast? hclosed
      simpa using hlast
    -- The first closing brace of the text is the one behind the digits.
    obtain ⟨front, behind, rfl, hfront⟩ := List.eq_append_cons_of_mem hmem
    have hdigit : '}' ∉ digits := fun hmem => absurd (hdigits.2.1 _ hmem) (by decide)
    have hcut := congrArg (cutBehind '}') htail
    change cutBehind '}' (front ++ '}' :: behind ++ rest) = _ at hcut
    rw [List.append_assoc, List.cons_append, cutBehind_append_cons hfront,
      cutBehind_append_cons hdigit] at hcut
    obtain rfl : front = digits := by simpa using congrArg Prod.fst hcut
    exact .braced behind hdigits

/-- A value that is skipped in a text that ends in a brace is skipped so in front of a gap too. -/
theorem Skips.append (h : Skips text skipped left) (hclosed : text.getLast? = some '}')
    (hunquoted : IsUnquoted text) (hrest : BeginsWithGap rest) :
    Skips (text ++ rest) skipped (left ++ rest) := by
  cases h with
  | @closed gap body opening closing left hgap hencl hbody =>
    have hskips : Skips (gap ++ opening :: (body ++ closing :: (left ++ rest)))
        (gap ++ opening :: (body ++ [closing])) (left ++ rest) := .closed _ hgap hencl hbody
    simpa using hskips
  | @unclosed gap body opening closing hgap hencl hbody =>
    cases hencl with
    | quote => exact absurd (List.mem_append_right gap List.mem_cons_self) hunquoted.1
    | apostrophe => exact absurd (List.mem_append_right gap List.mem_cons_self) hunquoted.2
    | brace =>
      -- The brace at the end would close the value.
      have hlast : body.getLast? = some '}' := by
        rw [List.append_cons] at hclosed
        exact getLast?_of_getLast?_ne hclosed (by simp)
      exact absurd (List.mem_of_getLast? hlast) hbody
  | @bare gap word left hgap hword hhead hleft =>
    have hskips : Skips (gap ++ (word ++ (left ++ rest))) (gap ++ word) (left ++ rest) := by
      refine .bare hgap hword hhead ?_
      rcases hleft with rfl | ⟨hne, c, behind, rfl, hc⟩
      · rcases hrest with rfl | hrest
        · exact Or.inl rfl
        · refine Or.inr ⟨?_, hrest⟩
          rintro rfl
          simp only [List.append_nil] at hclosed
          exact absurd (hgap _ (List.mem_of_getLast? hclosed)) (by decide)
      · exact Or.inr ⟨hne, c, behind ++ rest, rfl, hc⟩
    simpa using hskips

/-- The item at the front of a text that ends in a brace is there in front of a gap too. -/
theorem Item.Heads.append (h : Heads text item left) (hclosed : text.getLast? = some '}')
    (hunquoted : IsUnquoted text) (hrest : BeginsWithGap rest) :
    Heads (text ++ rest) item (left ++ rest) := by
  cases h with
  | filler left hc => exact .filler (left ++ rest) hc
  | @flag name left hname hends heq =>
    have hclosed' := getLast?_of_getLast?_ne hclosed hname.getLast?_ne
    rw [List.append_assoc]
    refine .flag hname ?_ ?_
    · rw [hname.endsName_iff] at hends ⊢
      exact goesOn_append_of_closed hends hclosed' rest
    · -- Behind the gaps stands a character of the text itself, the brace if no other.
      intro gap behind hgap happend
      have hbrace : ∃ c ∈ left, isGap c = false := ⟨_, List.mem_of_getLast? hclosed', by decide⟩
      obtain ⟨c, more, hmore, -⟩ := exists_dropWhile_eq_cons hbrace
      have hfirst := congrArg (List.dropWhile isGap) happend
      rw [dropWhile_append_of_exists hbrace, hmore,
        dropWhile_append_of_stopsAt hgap (stopsAt_cons_iff.mpr (by decide))] at hfirst
      obtain rfl : c = '=' := (List.cons.inj hfirst).1
      refine heq (left.takeWhile isGap) more (fun c hc => List.mem_takeWhile_imp hc) ?_
      rw [← hmore, List.takeWhile_append_dropWhile]
  | quoted _ _ _ => simp [IsUnquoted] at hunquoted
  | @braced name digits left hname hdigits =>
    have hheads : Heads (name ++ '=' :: '{' :: (digits ++ '}' :: (left ++ rest)))
        (.braced name digits) (left ++ rest) := .braced _ hname hdigits
    simpa using hheads
  | @malformed name gap behind skipped left hname hgap haccepted hskips =>
    rw [← List.append_assoc, List.append_cons] at hclosed hunquoted
    have hclosed' := getLast?_of_getLast?_ne hclosed (by simp)
    have hunquoted' := hunquoted.of_append
    have hheads : Heads (name ++ (gap ++ '=' :: (behind ++ rest)))
        (.malformed name (gap ++ '=' :: skipped)) (left ++ rest) := by
      refine .malformed hname hgap (fun hnil haccepted' => ?_)
        (hskips.append hclosed' hunquoted' hrest)
      exact haccepted hnil (haccepted'.of_append hclosed' hunquoted')
    simpa using hheads

/-- A text that ends in a brace is read to its end if a gap, or nothing, stands behind it. -/
theorem items_append_of_closed (hclosed : text ≠ [] → text.getLast? = some '}')
    (hunquoted : IsUnquoted text) (hrest : BeginsWithGap rest) :
    items (text ++ rest) = items text ++ items rest := by
  -- By induction on the reading: what is left behind an item ends in the brace too.
  have hreading := reading_items text
  generalize items text = list at hreading
  induction hreading with
  | nil => rfl
  | @cons text left item list hheads _ ih =>
    have hsource := Item.source_append_of_read? hheads.read?_eq
    have hne : text ≠ [] := by
      rintro rfl
      cases hheads.read?_eq
    have hheads' := hheads.append (hclosed hne) hunquoted hrest
    rw [items_of_read? hheads'.read?_eq, ih ?_ ?_, List.cons_append]
    · intro hleft
      have hlast := hclosed hne
      rw [← hsource] at hlast
      exact getLast?_of_append hlast hleft
    · rw [← hsource] at hunquoted
      exact hunquoted.of_append

/-! ### What is read of an expression -/

/-- An attribute and its stretch when `before` is put in front of the text. -/
def shifted (before : List Char) (found : Attribute × Span) : Attribute × Span :=
  (found.1, found.2.shift before)

/-- What is left of an expression is read to its end. -/
theorem items_leftOver_append (hunquoted : IsUnquoted expression) (hrest : BeginsWithGap rest) :
    items (leftOver expression ++ rest) = items (leftOver expression) ++ items rest := by
  have happend := skippedPart_append_leftOver expression
  refine items_append_of_closed (fun hne => ?_) ?_ hrest
  · have hlast : (skippedPart expression ++ leftOver expression).getLast? = some '}' := by
      rw [happend, List.getLast?_concat]
    exact getLast?_of_append hlast hne
  · have hwhole : IsUnquoted (skippedPart expression ++ leftOver expression) := by
      rw [happend]
      exact ⟨by simpa using hunquoted.1, by simpa using hunquoted.2⟩
    exact hwhole.of_append

/-- The part of an attribute with an expression in braces that is skipped. -/
def skippedInBraces (name expression : List Char) : List Char :=
  ' ' :: (name ++ '=' :: '{' :: skippedPart expression)

theorem skippedInBraces_append_leftOver (name expression : List Char) :
    skippedInBraces name expression ++ leftOver expression = inBraces name expression := by
  rw [inBraces, ← skippedPart_append_leftOver]
  simp [skippedInBraces]

/-- The items of that part. -/
def skippedItems (name expression : List Char) : List Item :=
  [.filler ' ', .malformed name ('=' :: '{' :: skippedPart expression)]

theorem flatMap_source_skippedItems (name expression : List Char) :
    (skippedItems name expression).flatMap Item.source = skippedInBraces name expression := by
  simp [skippedItems, skippedInBraces, Item.source]

/-- They state no attribute. -/
theorem located_skippedItems_append (name expression : List Char) (list : List Item) :
    located .start (skippedItems name expression ++ list) =
      (located .start list).map (shifted (skippedInBraces name expression)) := by
  rw [located_append_shift _ _ _ (flatMap_source_skippedItems name expression)]
  rfl

theorem items_inBraces (hname : IsName name) (hbalanced : Balanced expression)
    (hnumeral : ¬ IsNumeral expression) (rest : List Char) :
    items (inBraces name expression ++ rest) =
      skippedItems name expression ++ items (leftOver expression ++ rest) := by
  have hspace : Item.Heads (inBraces name expression ++ rest) (.filler ' ')
      (name ++ '=' :: '{' :: (expression ++ '}' :: rest)) := by
    have hheads : Item.Heads (' ' :: (name ++ '=' :: '{' :: (expression ++ '}' :: rest)))
        (.filler ' ') _ := .filler _ (by decide)
    simpa [inBraces] using hheads
  have hvalue := heads_inBraces hname hbalanced hnumeral rest
  rw [items_of_read? hspace.read?_eq, items_of_read? hvalue.read?_eq]
  rfl

/-- An expression in braces that is no number is skipped through its first closing brace, and what
is left of it is read together with the text behind it. If the expression has no braces of its own,
nothing is left. If it has, and no quotation marks, and a gap or nothing comes behind it, then the
attributes that the left text states are read in front of those of the text behind. So the
expression is skipped as a whole just if the left text states no attribute. -/
theorem scan_inBraces (hname : IsName name) (hbalanced : Balanced expression)
    (hnumeral : ¬ IsNumeral expression) (rest : List Char) :
    scan (inBraces name expression ++ rest) =
        (scan (leftOver expression ++ rest)).map (shifted (skippedInBraces name expression)) ∧
      ('{' ∉ expression → scan (inBraces name expression ++ rest) =
        (scan rest).map (shifted (inBraces name expression))) ∧
      (IsUnquoted expression → BeginsWithGap rest →
        scan (inBraces name expression ++ rest) =
            (scan (leftOver expression)).map (shifted (skippedInBraces name expression)) ++
              (scan rest).map (shifted (inBraces name expression)) ∧
          (scan (inBraces name expression ++ rest) =
              (scan rest).map (shifted (inBraces name expression)) ↔
            scan (leftOver expression) = [])) := by
  have hitems := items_inBraces hname hbalanced hnumeral rest
  have hscan : scan (inBraces name expression ++ rest) =
      (scan (leftOver expression ++ rest)).map (shifted (skippedInBraces name expression)) := by
    rw [scan, hitems, located_skippedItems_append]
    rfl
  refine ⟨hscan, fun hopen => ?_, fun hunquoted hrest => ?_⟩
  · have hleft := leftOver_eq_nil (hbalanced.notMem_of_notMem hopen)
    rw [hscan, ← skippedInBraces_append_leftOver, hleft, List.nil_append, List.append_nil]
  · have hparts : scan (inBraces name expression ++ rest) =
        (scan (leftOver expression)).map (shifted (skippedInBraces name expression)) ++
          (scan rest).map (shifted (inBraces name expression)) := by
      have hsource : (skippedItems name expression ++ items (leftOver expression)).flatMap
          Item.source = inBraces name expression := by
        rw [List.flatMap_append, flatMap_source_skippedItems, flatMap_source_items,
          skippedInBraces_append_leftOver]
      rw [scan, hitems, items_leftOver_append hunquoted hrest, ← List.append_assoc,
        located_append_shift _ _ _ hsource, located_skippedItems_append]
      rfl
    exact ⟨hparts, by rw [hparts, List.append_left_eq_self, List.map_eq_nil_iff]⟩

/-- A choice between an object and a word, with an attribute behind it. The word is what is left of
it, and it is read as a flag in front of that attribute. -/
theorem scan_inBraces_choice :
    IsName "value".toList ∧ Balanced "a ? {b: 1} : fill".toList ∧
      ¬ IsNumeral "a ? {b: 1} : fill".toList ∧
      IsUnquoted "a ? {b: 1} : fill".toList ∧ BeginsWithGap "\twrap".toList ∧
      scan (inBraces "value".toList "a ? {b: 1} : fill".toList ++ "\twrap".toList) =
        [(⟨"fill", .flag⟩, ⟨⟨21, 1, 22⟩, ⟨25, 1, 26⟩⟩),
          (⟨"wrap", .flag⟩, ⟨⟨27, 1, 28⟩, ⟨31, 1, 32⟩⟩)] ∧
      scan (inBraces "value".toList "a ? {b: 1} : fill".toList ++ "\twrap".toList) ≠
        (scan "\twrap".toList).map
          (shifted (inBraces "value".toList "a ? {b: 1} : fill".toList)) := by
  have hname : IsName "value".toList := by decide
  have hbalanced : Balanced "a ? {b: 1} : fill".toList := by decide
  have hnumeral : ¬ IsNumeral "a ? {b: 1} : fill".toList :=
    fun h => absurd (h.2.1 'a' List.mem_cons_self) (by decide)
  have hunquoted : IsUnquoted "a ? {b: 1} : fill".toList := by decide
  have hrest : BeginsWithGap "\twrap".toList := Or.inr ⟨'\t', "wrap".toList, rfl, by decide⟩
  obtain ⟨-, -, hparts⟩ := scan_inBraces hname hbalanced hnumeral "\twrap".toList
  obtain ⟨hscan, hskipped⟩ := hparts hunquoted hrest
  exact ⟨hname, hbalanced, hnumeral, hunquoted, hrest, hscan.trans (by decide +kernel),
    fun h => absurd (hskipped.mp h) (by decide +kernel)⟩

/-- An expression is not always skipped as a whole. -/
theorem not_forall_inBraces_skipped :
    ¬ ∀ name expression rest : List Char, IsName name → Balanced expression →
      IsUnquoted expression → '<' ∉ expression → '>' ∉ expression → ¬ IsNumeral expression →
        BeginsWithGap rest →
          scan (inBraces name expression ++ rest) =
            (scan rest).map (shifted (inBraces name expression)) := by
  intro h
  have hnumeral : ¬ IsNumeral "a ? {b: 1} : fill".toList :=
    fun h => absurd (h.2.1 'a' List.mem_cons_self) (by decide)
  have hscan := h "value".toList "a ? {b: 1} : fill".toList [] (by decide) (by decide)
    (by decide) (by decide) (by decide) hnumeral (Or.inl rfl)
  exact absurd hscan (by decide +kernel)

end LayoutMarkup.Attribute
