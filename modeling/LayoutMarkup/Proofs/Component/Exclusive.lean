import LayoutMarkup.Proofs.Component.Sources
import LayoutMarkup.Proofs.Lint.Rules

/-!
# Classes that exclude each other

Two gaps, two paddings or two numbers of columns contradict each other, and so do two alignments. As
long as no class list is given, an axis comes to one class: that of the prop's value, or that of the
default if there is no value. For gaps, paddings and columns nothing else brings classes in, so a
component has one of each at most. The alignment of a stack has a second source, the flag that
centers it. There are two alignments only if both are given, and that is what a lint rule warns of.

## Main definitions

* `Component.axisClass?` — the class that an axis comes to

## Main results

* `ClassSource.names_or_axisClass?` — a class of an axis is named by the rule, or is that class
* `Component.exists_conflictingCenterAlign_iff` — when a stack is warned of
* `Component.contradictions_excluded` — contradictory classes are excluded, or there is a warning
-/

namespace LayoutMarkup

variable {component : Component} {props : Props} {axis : Axis} {key token other : String}

/-- Of members that differ from each other, at most one has a property that tells one member. -/
theorem length_filter_le_one {l : List String} {p : String → Bool} (hnodup : l.Nodup)
    (h : ∀ a ∈ l, ∀ b ∈ l, p a = true → p b = true → a = b) : (l.filter p).length ≤ 1 := by
  rcases hfilter : l.filter p with _ | ⟨a, rest⟩
  · exact Nat.zero_le 1
  · have hmem {b : String} (hb : b ∈ a :: rest) : b ∈ l ∧ p b = true := by
      rwa [← hfilter, List.mem_filter] at hb
    have hfirst := hmem List.mem_cons_self
    have hall : ∀ b ∈ a :: rest, b = a := fun b hb =>
      h b (hmem hb).1 a hfirst.1 (hmem hb).2 hfirst.2
    have hreplicate := hnodup.filter p
    rw [hfilter, List.eq_replicate_of_mem hall] at hreplicate
    exact List.nodup_replicate.mp hreplicate

/-! ### The class of an axis -/

/-- The default key of an axis is the one that the rule lists. -/
theorem Rule.axisDefault?_eq_some (h : (axis, key) ∈ component.rule.axisDefaults) :
    component.rule.axisDefault? axis = some key := by
  have hall : ∀ entry ∈ component.rule.axisDefaults,
      component.rule.axisDefault? entry.1 = some entry.2 := by
    cases component <;> decide
  exact hall _ h

namespace Component

/-- The class that an axis comes to: that of the value of its prop, or that of its default if the
prop has no value and the component is not centered. -/
def axisClass? (component : Component) (props : Props) (axis : Axis) : Option String :=
  match props.get? axis.prop with
  | some (.text key) => axis.table.get? key
  | some (.number n) => if axis = .cols then columnClass? n else none
  | _ =>
    if component.isCentered props then none
    else (component.rule.axisDefault? axis).bind axis.table.get?

theorem axisClass?_of_text (h : props.text? axis.prop = some key) :
    component.axisClass? props axis = axis.table.get? key := by
  rw [axisClass?, Props.get?_eq_some_iff.mpr (Props.text?_eq_some_iff.mp h)]

theorem axisClass?_of_number {n : UInt32} (h : props.number? Axis.cols.prop = some n) :
    component.axisClass? props .cols = columnClass? n := by
  rw [axisClass?, Props.get?_eq_some_iff.mpr (Props.number?_eq_some_iff.mp h)]
  exact if_pos rfl

theorem axisClass?_of_isValued_eq_false (h : props.isValued axis.prop = false) :
    component.axisClass? props axis =
      if component.isCentered props then none
      else (component.rule.axisDefault? axis).bind axis.table.get? := by
  rw [Props.isValued_eq_false_iff, Props.text?, Props.number?] at h
  unfold axisClass?
  rcases hvalue : props.get? axis.prop with _ | _ | value | n
  · rfl
  · rfl
  · simp [hvalue] at h
  · simp [hvalue] at h

end Component

/-- When no class list was given, a class with the stem of an axis is named by the rule, or it is
the class that the axis comes to. -/
theorem ClassSource.names_or_axisClass? (hclass : props.text? classNameProp = none)
    (hstem : axis.stem.toList <+: token.toList) (h : ClassSource component props token) :
    component.Names props token ∨ component.axisClass? props axis = some token := by
  rcases h.names_or_of_stem_isPrefix hstem with
    hnames | ⟨value, hvalue, -⟩ | ⟨key, hkey, htoken⟩ | ⟨rfl, n, hn, htoken⟩ |
      ⟨key, hentry, htoken, hvalued, hcentered⟩
  · exact Or.inl hnames
  · rw [hclass] at hvalue
    cases hvalue
  · rw [Component.axisClass?_of_text hkey, htoken]
    exact Or.inr rfl
  · rw [Component.axisClass?_of_number hn, htoken]
    exact Or.inr rfl
  · rw [Component.axisClass?_of_isValued_eq_false hvalued, hcentered,
      Rule.axisDefault?_eq_some hentry]
    exact Or.inr htoken

namespace Component

/-! ### One class at most -/

/-- A class of an exclusive axis is the one that the axis comes to. -/
theorem axisClass?_eq_some_of_stem (haxis : axis ∈ Axis.exclusive)
    (hclass : props.text? classNameProp = none) (hstem : axis.stem.toList <+: token.toList)
    (h : token ∈ (component.resolve props).classes) :
    component.axisClass? props axis = some token := by
  refine ((mem_classes_iff.mp h).names_or_axisClass? hclass hstem).resolve_left ?_
  exact ClassSource.not_names_of_stem_isPrefix haxis hstem

/-- Of the classes that begin as those of an exclusive axis do, a component has one at most. -/
theorem length_filter_classes_le_one (component : Component) {axis : Axis}
    (haxis : axis ∈ Axis.exclusive)
    (hclass : props.text? classNameProp = none) {p : String → Bool}
    (hp : ∀ token, p token = true → axis.stem.toList <+: token.toList) :
    ((component.resolve props).classes.filter p).length ≤ 1 := by
  refine length_filter_le_one (nodup_classes component props) ?_
  intro token htoken other hother hptoken hpother
  have hfirst := axisClass?_eq_some_of_stem haxis hclass (hp token hptoken) htoken
  have hsecond := axisClass?_eq_some_of_stem haxis hclass (hp other hpother) hother
  exact Option.some.inj (hfirst.symm.trans hsecond)

/-! ### The alignment of a stack -/

/-- The only alignment that the rule of a stack names is that of the flag that centers it. -/
theorem eq_items_center_of_names (hstem : Axis.align.stem.toList <+: token.toList)
    (h : stack.Names props token) :
    token = "items-center" ∧ props.hasFlag centerFlag = true := by
  have hbase : ∀ token ∈ stack.rule.base, ¬ Axis.align.stem.toList <+: token.toList := by decide
  have heffects : ∀ entry ∈ stack.rule.effects, ∀ token ∈ entry.2.tokens,
      Axis.align.stem.toList <+: token.toList → token = "items-center" ∧ entry.1 = centerFlag := by
    decide
  rcases h with hmem | hmem | ⟨flag, effect, hentry, hflag, htoken⟩
  · exact absurd hstem (hbase token hmem)
  · cases hmem
  · obtain ⟨rfl, rfl⟩ := heffects _ hentry token htoken hstem
    exact ⟨rfl, hflag⟩

/-- A stack with two alignments is centered and is given an alignment. -/
theorem hasFlag_and_isValued_of_ne (hclass : props.text? classNameProp = none)
    (htoken : token ∈ (stack.resolve props).classes)
    (hother : other ∈ (stack.resolve props).classes)
    (hstem : Axis.align.stem.toList <+: token.toList)
    (hstem' : Axis.align.stem.toList <+: other.toList) (hne : token ≠ other) :
    props.hasFlag centerFlag = true ∧ props.isValued Axis.align.prop = true := by
  have hcentered := isCentered_eq (Or.inl rfl : stack = .stack ∨ stack = .row) props
  -- A centered stack without a value has the alignment of the flag alone.
  have hnone (hflag : props.hasFlag centerFlag = true)
      (hvalued : props.isValued Axis.align.prop = false) :
      stack.axisClass? props .align = none := by
    rw [axisClass?_of_isValued_eq_false hvalued, hcentered, hflag]
    rfl
  have hsource := (mem_classes_iff.mp htoken).names_or_axisClass? hclass hstem
  have hsource' := (mem_classes_iff.mp hother).names_or_axisClass? hclass hstem'
  rcases hsource with hnames | hfirst <;> rcases hsource' with hnames' | hsecond
  · exact absurd ((eq_items_center_of_names hstem hnames).1.trans
      (eq_items_center_of_names hstem' hnames').1.symm) hne
  · have hflag := (eq_items_center_of_names hstem hnames).2
    refine ⟨hflag, Bool.of_not_eq_false fun hvalued => ?_⟩
    rw [hnone hflag hvalued] at hsecond
    cases hsecond
  · have hflag := (eq_items_center_of_names hstem' hnames').2
    refine ⟨hflag, Bool.of_not_eq_false fun hvalued => ?_⟩
    rw [hnone hflag hvalued] at hfirst
    cases hfirst
  · exact absurd (Option.some.inj (hfirst.symm.trans hsecond)) hne

/-- A stack is warned of if it is centered and is given an alignment. -/
theorem exists_conflictingCenterAlign_iff {line : Nat} :
    (∃ warning ∈ lintProps .stack (stack.resolve props).props line,
        warning.rule = .conflictingCenterAlign) ↔
      props.hasFlag centerFlag = true ∧ props.isValued Axis.align.prop = true := by
  have hfound := (foundBy_lintProps .stack (stack.resolve props).props line).exists_rule_iff
    (by decide) (show (lintConflictingCenterAlign .stack (stack.resolve props).props line,
      LintRule.conflictingCenterAlign) ∈ _ by simp)
  have hflag : (stack.resolve props).props.hasFlag centerFlag = props.hasFlag centerFlag :=
    hasFlag_recordedProps_of_isSome props rfl
  have hvalued : (stack.resolve props).props.contains "align" = props.isValued Axis.align.prop :=
    contains_prop_recordedProps stack props .align
  rw [lintProps, hfound, lintConflictingCenterAlign, hflag, hvalued]
  cases props.hasFlag centerFlag <;> cases props.isValued Axis.align.prop <;> simp

/-- When no class list was given, a component has one gap at most, one padding and one number of
columns. A stack with two alignments is warned of. -/
theorem contradictions_excluded (component : Component) (props : Props)
    (hclass : props.text? classNameProp = none) (line : Nat) :
    ((component.resolve props).classes.filter (· ∈ Axis.gap.table.tokens)).length ≤ 1 ∧
      ((component.resolve props).classes.filter (· ∈ Axis.padding.table.tokens)).length ≤ 1 ∧
      ((component.resolve props).classes.filter fun token =>
        columnStem.toList.isPrefixOf token.toList).length ≤ 1 ∧
      (component = .stack →
        (∃ token ∈ (component.resolve props).classes, ∃ other ∈ (component.resolve props).classes,
          token ∈ Axis.align.table.tokens ∧ other ∈ Axis.align.table.tokens ∧ token ≠ other) →
        ∃ warning ∈ lintProps component (component.resolve props).props line,
          warning.rule = .conflictingCenterAlign) := by
  refine ⟨?_, ?_, ?_, ?_⟩
  · refine length_filter_classes_le_one component
      (show Axis.gap ∈ Axis.exclusive by decide) hclass ?_
    intro token htoken
    exact Axis.stem_isPrefix_of_mem_tokens (of_decide_eq_true htoken)
  · refine length_filter_classes_le_one component
      (show Axis.padding ∈ Axis.exclusive by decide) hclass ?_
    intro token htoken
    exact Axis.stem_isPrefix_of_mem_tokens (of_decide_eq_true htoken)
  · refine length_filter_classes_le_one component
      (show Axis.cols ∈ Axis.exclusive by decide) hclass ?_
    intro token htoken
    exact List.isPrefixOf_iff_prefix.mp htoken
  · rintro rfl ⟨token, htoken, other, hother, hmem, hmem', hne⟩
    exact exists_conflictingCenterAlign_iff.mpr (hasFlag_and_isValued_of_ne hclass htoken hother
      (Axis.stem_isPrefix_of_mem_tokens hmem) (Axis.stem_isPrefix_of_mem_tokens hmem') hne)

/-- A centered stack with an alignment of its own has both alignments, and it is warned of. -/
theorem contradictions_excluded_centered :
    let props : Props := .ofList [⟨"align", .text "end"⟩, ⟨"className", .flag⟩,
      ⟨"cols", .number 40⟩, ⟨"center", .flag⟩, ⟨"gap", .text "none"⟩]
    props.text? classNameProp = none ∧
      (stack.resolve props).classes =
        ["flex", "flex-col", "items-center", "justify-center", "items-end", "grid-cols-40",
          "gap-0"] ∧
      ((stack.resolve props).classes.filter (· ∈ Axis.gap.table.tokens)).length ≤ 1 ∧
      ∃ warning ∈ lintProps .stack (stack.resolve props).props 1,
        warning.rule = .conflictingCenterAlign := by
  intro props
  have hclass : props.text? classNameProp = none := by decide
  obtain ⟨hgap, -, -, halign⟩ := contradictions_excluded .stack props hclass 1
  refine ⟨hclass, by decide +kernel, hgap, halign rfl ?_⟩
  exact ⟨"items-center", by decide +kernel, "items-end", by decide +kernel, by decide, by decide,
    by decide⟩

end Component

end LayoutMarkup
