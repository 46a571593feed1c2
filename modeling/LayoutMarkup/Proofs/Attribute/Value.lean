import LayoutMarkup.Proofs.Attribute.Scan

/-!
# Quoted values and what names them

A quoted value behind `=` belongs to the name in front of the `=`, and then no word of it is read as
a flag: the value is taken or skipped as a whole. If no name stands there, as behind a bracket or a
hyphen, the `=` and the quotation mark are passed over like any other character between attributes,
and the value is read as if it were attribute text.

## Main definitions

* `Attribute.endsInName` — whether a text ends in a name, but for gaps
* `Attribute.HasFlagBetween` — a flag in a stretch of a text

## Main results

* `Attribute.items_append_eq` — reading up to the first `=`
* `Attribute.scan_value` — what is read of a quoted value, with and without a name
* `Attribute.not_forall_value_free` — a value that nothing names can be read as a flag
-/

namespace LayoutMarkup.Attribute

open Text
open Position (byteLength byteLength_append byteLength_cons byteLength_nil)

variable {text before behind value rest name gap : List Char} {item : Item}

/-! ### Reading up to the first `=` -/

/-- Whether a text ends in a character of a name, but for gaps behind it. -/
def endsInName (text : List Char) : Bool := (text.reverse.dropWhile isGap).head?.any isWordChar

theorem endsInName_name_append (hname : IsName name) (hgap : ∀ c ∈ gap, isGap c = true) :
    endsInName (name ++ gap) = true := by
  have hne : name ≠ [] := by
    obtain ⟨c, tail, rfl, -⟩ := hname
    exact List.cons_ne_nil c tail
  obtain ⟨front, c, rfl⟩ := List.eq_nil_or_concat name |>.resolve_left hne
  have hc : isWordChar c = true :=
    hname.isNameTail.isWordChar_of_mem_getLast? c (by simp)
  have hgap' : ∀ d ∈ gap.reverse, isGap d = true := fun d hd => hgap d (List.mem_reverse.mp hd)
  have hstop : StopsAt isGap (c :: front.reverse) := by
    rw [stopsAt_cons_iff, ← Bool.not_eq_true]
    intro hcgap
    rw [isWordChar_eq_false_of_isGap hcgap] at hc
    contradiction
  rw [endsInName, List.reverse_append, List.concat_eq_append, List.reverse_concat,
    dropWhile_append_of_stopsAt hgap' hstop]
  exact hc

/-- What is in front of a character that is no gap does not matter. -/
theorem endsInName_append (before : List Char) (h : ∃ c ∈ text, isGap c = false) :
    endsInName (before ++ text) = endsInName text := by
  have hreverse : ∃ c ∈ text.reverse, isGap c = false := by
    simpa only [List.mem_reverse] using h
  obtain ⟨c, more, hmore, -⟩ := exists_dropWhile_eq_cons hreverse
  rw [endsInName, endsInName, List.reverse_append, dropWhile_append_of_exists hreverse, hmore]
  rfl

/-- A character that is no word character does not end a name. -/
theorem endsInName_cons {c : Char} (hc : isWordChar c = false) (text : List Char) :
    endsInName (c :: text) = endsInName text := by
  by_cases h : ∃ d ∈ text, isGap d = false
  · exact endsInName_append [c] h
  · have hgap : ∀ d ∈ text.reverse, isGap d = true := by
      intro d hd
      rw [← Bool.not_eq_false]
      exact fun hfalse => h ⟨d, List.mem_reverse.mp hd, hfalse⟩
    have hnil : text.reverse.dropWhile isGap = [] := List.dropWhile_eq_nil_iff.mpr hgap
    rw [endsInName, endsInName, List.reverse_cons, List.dropWhile_append_of_pos hgap, hnil]
    by_cases hcgap : isGap c = true
    · rw [List.dropWhile_cons_of_pos hcgap]
      rfl
    · rw [List.dropWhile_cons_of_neg hcgap]
      exact hc

/-- An `=` behind a text that goes on with no name does not make it go on. -/
theorem goesOn_append_eq (h : goesOn rest = false) (behind : List Char) :
    goesOn (rest ++ '=' :: behind) = false := by
  cases rest with
  | nil => rfl
  | cons c rest =>
    cases rest with
    | nil => exact h
    | cons d rest => exact h

/-- Text without `=` begins with a name and gaps and nothing else, or with a filler or a flag that is
there whatever stands behind an `=` further on. -/
theorem exists_heads_append_eq (hne : before ≠ []) (heq : '=' ∉ before) :
    (∃ name gap, before = name ++ gap ∧ IsName name ∧ ∀ c ∈ gap, isGap c = true) ∨
      ∃ item rest, item.source ++ rest = before ∧ endsInName rest = endsInName before ∧
        Item.Heads before item rest ∧
        ∀ behind, Item.Heads (before ++ '=' :: behind) item (rest ++ '=' :: behind) := by
  obtain ⟨item, rest, hheads⟩ := Item.exists_heads hne
  cases hheads with
  | filler rest hc =>
    exact Or.inr ⟨_, rest, rfl, (endsInName_cons hc rest).symm, .filler rest hc,
      fun behind => .filler _ hc⟩
  | @flag name rest hname hends hflag =>
    by_cases hgap : ∀ c ∈ rest, isGap c = true
    · exact Or.inl ⟨name, rest, rfl, hname, hgap⟩
    · have hword : ∃ c ∈ rest, isGap c = false := by
        simpa only [not_forall, Bool.not_eq_true, exists_prop] using hgap
      refine Or.inr ⟨.flag name, rest, rfl, (endsInName_append name hword).symm,
        .flag hname hends hflag, fun behind => ?_⟩
      rw [List.append_assoc]
      refine .flag hname ?_ ?_
      · rw [hname.endsName_iff] at hends ⊢
        exact goesOn_append_eq hends behind
      · -- Behind the gaps stands a character of the text itself, which is no `=`.
        intro gap more hgaps happend
        obtain ⟨c, _, hdrop, hc⟩ := exists_dropWhile_eq_cons hword
        have hfirst := congrArg (List.dropWhile isGap) happend
        rw [dropWhile_append_of_exists hword, hdrop,
          dropWhile_append_of_stopsAt hgaps (stopsAt_cons_iff.mpr (by decide))] at hfirst
        obtain rfl : c = '=' := (List.cons.inj hfirst).1
        exact heq (List.mem_append_right name hc)
  | quoted rest _ _ => simp at heq
  | braced rest _ _ => simp at heq
  | malformed _ _ _ _ => simp at heq

/-- Reading comes to the name in front of the first `=`, if there is one, and else to the `=`. -/
theorem items_append_eq (heq : '=' ∉ before) :
    (endsInName before = true ∧ ∃ list name gap,
        list.flatMap Item.source ++ (name ++ gap) = before ∧ IsName name ∧
          (∀ c ∈ gap, isGap c = true) ∧
          ∀ behind, items (before ++ '=' :: behind) =
            list ++ items (name ++ (gap ++ '=' :: behind))) ∨
      (endsInName before = false ∧ ∀ behind, items (before ++ '=' :: behind) =
        items before ++ .filler '=' :: items behind) := by
  induction hlen : before.length using Nat.strong_induction_on generalizing before with
  | h n ih =>
    subst hlen
    rcases eq_or_ne before [] with rfl | hne
    · refine Or.inr ⟨rfl, fun behind => ?_⟩
      have hfiller : Item.Heads ('=' :: behind) (.filler '=') behind := .filler behind (by decide)
      rw [List.nil_append, items_of_read? hfiller.read?_eq, items_nil, List.nil_append]
    rcases exists_heads_append_eq hne heq with
      ⟨name, gap, rfl, hname, hgap⟩ | ⟨item, rest, rfl, hends, hheads, hheads'⟩
    · refine Or.inl ⟨endsInName_name_append hname hgap, [], name, gap, rfl, hname, hgap, ?_⟩
      intro behind
      rw [List.append_assoc, List.nil_append]
    · have hlt := Item.length_lt_of_read? hheads.read?_eq
      have heq' : '=' ∉ rest := fun hmem => heq (List.mem_append_right _ hmem)
      rw [← hends]
      rcases ih rest.length hlt heq' rfl with
        ⟨htrue, list, name, gap, rfl, hname, hgap, hitems⟩ | ⟨hfalse, hitems⟩
      · refine Or.inl ⟨htrue, item :: list, name, gap, ?_, hname, hgap, fun behind => ?_⟩
        · rw [List.flatMap_cons, List.append_assoc]
        · rw [items_of_read? (hheads' behind).read?_eq, hitems behind, List.cons_append]
      · refine Or.inr ⟨hfalse, fun behind => ?_⟩
        rw [items_of_read? (hheads' behind).read?_eq, hitems behind,
          items_of_read? hheads.read?_eq, List.cons_append]

/-! ### The value -/

/-- Two quotation marks next to each other are no accepted value. -/
theorem not_accepted_empty (behind : List Char) : ¬ Accepted ('"' :: '"' :: behind) := by
  generalize htext : '"' :: '"' :: behind = text
  intro haccepted
  cases haccepted with
  | @quoted value rest hvalue =>
    obtain ⟨c, value, rfl⟩ := List.exists_cons_of_ne_nil hvalue.1
    obtain rfl : '"' = c := (List.cons.inj (List.cons.inj htext).2).1
    exact hvalue.2 List.mem_cons_self
  | braced rest _ => exact absurd (List.cons.inj htext).1 (by decide)

/-- A quoted value that a name is in front of is one item with it, and this is no flag. -/
theorem exists_heads_value (hname : IsName name) (hgap : ∀ c ∈ gap, isGap c = true)
    (hvalue : '"' ∉ value) (behind : List Char) :
    ∃ item, Item.Heads (name ++ (gap ++ '=' :: '"' :: (value ++ '"' :: behind))) item behind ∧
      item.source = name ++ (gap ++ '=' :: '"' :: (value ++ ['"'])) ∧
      ∀ flag, item.attribute? ≠ some ⟨flag, .flag⟩ := by
  by_cases h : gap = [] ∧ value ≠ []
  · obtain ⟨rfl, hne⟩ := h
    exact ⟨.quoted name value, .quoted behind hname ⟨hne, hvalue⟩, rfl, by simp [Item.attribute?]⟩
  · -- Behind gaps, or if it is empty, the value is skipped.
    have haccepted : gap = [] → ¬ Accepted ('"' :: (value ++ '"' :: behind)) := by
      intro hnil
      obtain rfl : value = [] := by
        by_contra hne
        exact h ⟨hnil, hne⟩
      exact not_accepted_empty behind
    have hskips : Skips ('"' :: (value ++ '"' :: behind)) ('"' :: (value ++ ['"'])) behind :=
      .closed behind (List.forall_mem_nil _) .quote hvalue
    exact ⟨_, .malformed hname hgap haccepted hskips, rfl, by simp [Item.attribute?]⟩

/-- A flag among the attributes of a text that stands between two offsets. -/
def HasFlagBetween (text : List Char) (start stop : Nat) : Prop :=
  ∃ flag span, (⟨flag, .flag⟩, span) ∈ scan text ∧ start ≤ span.start.offset ∧
    span.stop.offset ≤ stop

theorem mem_scan_iff {entry : Attribute} {span : Span} : (entry, span) ∈ scan text ↔
    ∃ item, (item, span) ∈ placed Item.source .start (items text) ∧
      item.attribute? = some entry := by
  rw [scan, located_eq_filterMap_placed, List.mem_filterMap]
  constructor
  · rintro ⟨⟨item, span'⟩, hmem, hstated⟩
    obtain ⟨entry', hentry, heq⟩ := Option.map_eq_some_iff.mp hstated
    cases heq
    exact ⟨item, hmem, hentry⟩
  · rintro ⟨item, hmem, hstated⟩
    exact ⟨(item, span), hmem, by rw [hstated, Option.map_some]⟩

/-- No flag stands in the stretch of an item that is none. -/
theorem not_hasFlagBetween {list more : List Item} (hitems : items text = list ++ item :: more)
    (hitem : ∀ flag, item.attribute? ≠ some ⟨flag, .flag⟩) {start stop : Nat}
    (hstart : byteLength (list.flatMap Item.source) ≤ start)
    (hstop : stop ≤ byteLength (list.flatMap Item.source) + byteLength item.source) :
    ¬ HasFlagBetween text start stop := by
  rintro ⟨flag, span, hscan, hstart', hstop'⟩
  obtain ⟨found, hmem, hstated⟩ := mem_scan_iff.mp hscan
  have hfound : found ∈ items text := by
    rw [← map_fst_placed Item.source .start (items text)]
    exact List.mem_map_of_mem hmem
  have hzero : Position.start.offset = 0 := rfl
  have hlt := start_lt_stop_of_mem_placed hmem ((reading_items text).source_ne_nil found hfound)
  rw [hitems, placed_append, placed, List.mem_append, List.mem_cons] at hmem
  rcases hmem with hmem | hmem | hmem
  · -- The flag ends in front of the stretch.
    have hle := stop_offset_le_of_mem_placed hmem
    omega
  · obtain rfl : found = item := congrArg Prod.fst hmem
    exact hitem flag hstated
  · -- The flag begins behind the stretch.
    have hle := offset_le_of_mem_placed hmem
    rw [Position.after_offset, Position.after_offset] at hle
    omega

/-- Attributes behind other items, and behind another text. -/
theorem located_append_shift (list more : List Item) (front : List Char)
    (hfront : list.flatMap Item.source = front) :
    located .start (list ++ more) = located .start list ++
      (located .start more).map fun part => (part.1, part.2.shift front) := by
  subst hfront
  rw [located_eq_filterMap_placed, located_eq_filterMap_placed, located_eq_filterMap_placed,
    placed_append, List.filterMap_append, ← Position.shift_start, placed_shift _ _ _ (Nat.le_refl 1),
    List.filterMap_map, List.map_filterMap]
  congr 2
  funext part
  rw [Option.map_map]
  rfl

/-- No word of a quoted value is read as a flag if a name is in front of its `=`, but for gaps. If no
name is there, the attributes are those in front of the `=` and those that the value gives with the
text behind it, in their places, as if no quotation mark had opened it. -/
theorem scan_value (before value behind : List Char) (heq : '=' ∉ before) (hvalue : '"' ∉ value) :
    (endsInName before = true →
        ¬ HasFlagBetween (before ++ '=' :: '"' :: (value ++ '"' :: behind))
          (byteLength (before ++ ['=', '"'])) (byteLength (before ++ '=' :: '"' :: value))) ∧
      (endsInName before = false →
        scan (before ++ '=' :: '"' :: (value ++ '"' :: behind)) =
          scan before ++ (scan (value ++ '"' :: behind)).map fun part =>
            (part.1, part.2.shift (before ++ ['=', '"']))) := by
  rcases items_append_eq heq with
    ⟨hends, list, name, gap, hbefore, hname, hgap, hitems⟩ | ⟨hends, hitems⟩
  · refine ⟨fun _ => ?_, fun hfalse => Bool.noConfusion (hends.symm.trans hfalse)⟩
    obtain ⟨item, hheads, hsource, hitem⟩ := exists_heads_value hname hgap hvalue behind
    have hsplit := hitems ('"' :: (value ++ '"' :: behind))
    rw [items_of_read? hheads.read?_eq] at hsplit
    refine not_hasFlagBetween hsplit hitem ?_ ?_
    · rw [← hbefore]
      simp only [byteLength_append]
      omega
    · rw [← hbefore, hsource]
      simp only [byteLength_append, byteLength_cons]
      omega
  · refine ⟨fun htrue => Bool.noConfusion (hends.symm.trans htrue), fun _ => ?_⟩
    have hquote : Item.Heads ('"' :: (value ++ '"' :: behind)) (.filler '"')
        (value ++ '"' :: behind) := .filler _ (by decide)
    have hfront : (items before ++ [Item.filler '=', .filler '"']).flatMap Item.source =
        before ++ ['=', '"'] := by
      rw [List.flatMap_append, flatMap_source_items]
      rfl
    have hfillers : located .start (items before ++ [Item.filler '=', .filler '"']) =
        scan before := by
      rw [located_append_shift _ _ _ rfl]
      exact List.append_nil _
    have hsplit : items (before ++ '=' :: '"' :: (value ++ '"' :: behind)) =
        (items before ++ [Item.filler '=', .filler '"']) ++ items (value ++ '"' :: behind) := by
      rw [hitems, items_of_read? hquote.read?_eq, List.append_assoc]
      rfl
    rw [scan, hsplit, located_append_shift _ _ _ hfront, hfillers]
    rfl

/-- A name, and a value that is skipped because gaps are in front of its `=`. -/
theorem scan_value_data :
    '=' ∉ " [x] data-n\n".toList ∧ '"' ∉ "center fill".toList ∧
      endsInName " [x] data-n\n".toList = true ∧
      ¬ HasFlagBetween " [x] data-n\n=\"center fill\" wrap".toList 14 25 := by
  have heq : '=' ∉ " [x] data-n\n".toList := by decide
  have hvalue : '"' ∉ "center fill".toList := by decide
  have hends : endsInName " [x] data-n\n".toList = true := by decide
  exact ⟨heq, hvalue, hends,
    (scan_value " [x] data-n\n".toList "center fill".toList " wrap".toList heq hvalue).1 hends⟩

/-- A word of a value is read as a flag if a bracket stands between the name and `=`. -/
theorem not_forall_value_free :
    ¬ ∀ before value behind : List Char,
      (∀ c ∈ before, c ≠ '"' ∧ c ≠ '\'' ∧ c ≠ '{' ∧ c ≠ '=') → '"' ∉ value →
        ¬ HasFlagBetween (before ++ '=' :: '"' :: (value ++ '"' :: behind))
          (byteLength (before ++ ['=', '"'])) (byteLength (before ++ '=' :: '"' :: value)) := by
  intro h
  refine h "[style]".toList "center".toList [] (by simp) (by decide)
    ⟨"center", ⟨⟨9, 1, 10⟩, ⟨15, 1, 16⟩⟩, ?_, by decide, by decide⟩
  decide +kernel

end LayoutMarkup.Attribute
