import LayoutMarkup.Proofs.Component.Classes
import LayoutMarkup.Proofs.Component.Recorded

/-!
# The stages of a resolution

The flags of a component act one after the other on a growing list, and a flag that puts one class in
the place of another does so wherever that stands. No component declares a flag that adds a class
which another of its flags replaces, so in effect flags replace classes only among the base classes
and the classes that flags add stay as they are, in whatever order the flags are given. What decides
about the defaults is what is given, although the recorded props are asked.

## Main definitions

* `PropEffect.added`, `PropEffect.renamed` — an effect, class by class
* `Component.orderedClasses` — the classes of a component with props, stage by stage

## Main results

* `foldl_apply` — effects that do not touch what others add act on the given classes only
* `Component.stagedClasses_eq` — the stages that are made are those of `Component.orderedClasses`
* `Component.classes_resolve` — the classes of a resolution, in order
-/

namespace LayoutMarkup

open Text

/-! ### Effects -/

namespace PropEffect

/-- The classes that an effect adds at the end. -/
def added : PropEffect → List String
  | add tokens => tokens
  | replace _ _ => []

/-- The class that an effect leaves in the place of a class. -/
def renamed : PropEffect → String → String
  | add _, token => token
  | replace old new, token => if token = old then new else token

/-- The class that effects, one after the other, leave in the place of a class. -/
def renamedBy (effects : List PropEffect) (token : String) : String :=
  effects.foldl (fun token effect => effect.renamed token) token

variable {effects : List PropEffect}

theorem apply_eq (effect : PropEffect) (classes : List String) :
    effect.apply classes = classes.map effect.renamed ++ effect.added := by
  cases effect with
  | add tokens =>
    change classes ++ tokens = classes.map id ++ tokens
    rw [List.map_id]
  | replace old new => exact (List.append_nil _).symm

theorem renamedBy_eq_self {token : String} (h : ∀ effect ∈ effects, effect.renamed token = token) :
    renamedBy effects token = token := by
  induction effects with
  | nil => rfl
  | cons effect effects ih =>
    have hrest : renamedBy effects token = token :=
      ih fun later hlater => h later (List.mem_cons_of_mem _ hlater)
    rw [renamedBy, List.foldl_cons, h effect List.mem_cons_self]
    exact hrest

/-- Effects that leave alone what the others add act on the given classes, and what they add comes
behind. -/
theorem foldl_apply (classes : List String)
    (h : ∀ effect ∈ effects, ∀ token ∈ effect.added, ∀ other ∈ effects,
      other.renamed token = token) :
    effects.foldl (fun classes effect => effect.apply classes) classes =
      classes.map (renamedBy effects) ++ effects.flatMap added := by
  induction effects generalizing classes with
  | nil =>
    change classes = classes.map id ++ []
    rw [List.map_id, List.append_nil]
  | cons effect effects ih =>
    have hrest : ∀ later ∈ effects, ∀ token ∈ later.added, ∀ other ∈ effects,
        other.renamed token = token := fun later hlater token htoken other hother =>
      h later (List.mem_cons_of_mem _ hlater) token htoken other (List.mem_cons_of_mem _ hother)
    have hadded : effect.added.map (renamedBy effects) = effect.added := by
      conv => rhs; rw [← List.map_id effect.added]
      apply List.map_congr_left
      intro token htoken
      exact renamedBy_eq_self fun other hother =>
        h effect List.mem_cons_self token htoken other (List.mem_cons_of_mem _ hother)
    calc (effect :: effects).foldl (fun classes effect => effect.apply classes) classes
        = (effect.apply classes).map (renamedBy effects) ++ effects.flatMap added := ih _ hrest
      _ = (classes.map effect.renamed).map (renamedBy effects)
            ++ (effect.added ++ effects.flatMap added) := by
          rw [apply_eq, List.map_append, hadded, List.append_assoc]
      _ = classes.map (renamedBy (effect :: effects)) ++ (effect :: effects).flatMap added := by
          rw [List.map_map, List.flatMap_cons]
          rfl

end PropEffect

/-! ### Stages -/

/-- The classes that a prop with a value asks for: the words of a class list, the class of an axis
key, or the class of one column or more. -/
def Attribute.askedClasses (entry : Attribute) : List String :=
  match entry.value with
  | .flag => []
  | .text value =>
    if entry.name = classNameProp then (words value.toList).map String.ofList
    else
      (Axis.all.filter (·.prop = entry.name)).flatMap fun axis => (axis.table.get? value).toList
  | .number n =>
    if entry.name = Axis.cols.prop ∧ 1 ≤ n then [columnStem ++ toString n.toNat] else []

/-- No axis is set by the prop of a class list. -/
theorem Axis.prop_ne_className (axis : Axis) : axis.prop ≠ classNameProp := by
  cases axis <;> decide

theorem Axis.filter_prop_eq (name : String) :
    all.filter (·.prop = name) = (ofProp? name).toList := by
  cases hname : ofProp? name with
  | none =>
    rw [Option.toList_none, List.filter_eq_nil_iff]
    exact List.find?_eq_none.mp hname
  | some axis =>
    -- No two axes are set by the same prop.
    obtain rfl := prop_of_ofProp? hname
    cases axis <;> rfl

theorem valueClasses_eq (entry : Attribute) : valueClasses entry = entry.askedClasses := by
  obtain ⟨name, value⟩ := entry
  cases value with
  | flag => rfl
  | text value =>
    simp only [valueClasses, textClasses, Attribute.askedClasses, classTokens,
      Axis.filter_prop_eq]
    cases Axis.ofProp? name <;> simp
  | number n =>
    simp only [valueClasses, Attribute.askedClasses]
    by_cases hpos : 1 ≤ n
    · rw [columnClass?_eq_some_iff.mpr ⟨hpos, rfl⟩]
      simp only [hpos, and_true, Option.toList_some]
    · have hnone : columnClass? n = none := by
        rw [Option.eq_none_iff_forall_not_mem]
        exact fun token htoken => hpos (columnClass?_eq_some_iff.mp htoken).1
      simp only [hnone, hpos, and_false, if_false, Option.toList_none, ite_self]

namespace Component

variable (component : Component) (props : Props)

/-- What the flags among the props do that the component declares, in the order of the flags. -/
def effects : List PropEffect := props.flags.filterMap component.rule.effect?

/-- The classes of a component with props, stage by stage: the base classes, with some replaced by
flags; the classes that flags add; those that props with a value ask for; the fixed defaults, unless
a flag is given that keeps them away; and the default of every axis whose prop is given no value,
unless the component declares that it can be centered and is. -/
def orderedClasses : List String :=
  component.rule.base.map (PropEffect.renamedBy (component.effects props))
    ++ (component.effects props).flatMap PropEffect.added
    ++ props.valued.flatMap Attribute.askedClasses
    ++ (if component.rule.suppressedBy.any props.hasFlag then [] else component.rule.fixedDefaults)
    ++ (if (component.rule.effect? centerFlag).isSome && props.hasFlag centerFlag then []
      else
        component.rule.axisDefaults.flatMap fun (axis, key) =>
          if (props.text? axis.prop).isSome || (props.number? axis.prop).isSome then []
          else (axis.table.get? key).toList)

variable {component props}

/-- No component declares a flag that replaces a class which another flag adds. -/
theorem renamed_of_mem_added {entry other : String × PropEffect} {token : String}
    (hentry : entry ∈ component.rule.effects) (hother : other ∈ component.rule.effects)
    (htoken : token ∈ entry.2.added) : other.2.renamed token = token := by
  have hall : ∀ entry ∈ component.rule.effects, ∀ other ∈ component.rule.effects,
      ∀ token ∈ entry.2.added, other.2.renamed token = token := by
    cases component <;> decide
  exact hall entry hentry other hother token htoken

/-- What a declared flag does is an entry of the rule. -/
theorem exists_mem_of_mem_effects {effect : PropEffect} (h : effect ∈ component.effects props) :
    ∃ flag, (flag, effect) ∈ component.rule.effects := by
  obtain ⟨flag, -, hflag⟩ := List.mem_filterMap.mp h
  exact ⟨flag, mem_effects_of_effect? hflag⟩

theorem flagClasses_eq (component : Component) (props : Props) :
    component.flagClasses props =
      component.rule.base.map (PropEffect.renamedBy (component.effects props))
        ++ (component.effects props).flatMap PropEffect.added := by
  apply PropEffect.foldl_apply
  intro effect heffect token htoken other hother
  obtain ⟨flag, hflag⟩ := exists_mem_of_mem_effects heffect
  obtain ⟨flag', hflag'⟩ := exists_mem_of_mem_effects hother
  exact renamed_of_mem_added hflag hflag' htoken

/-- The flags that keep the fixed defaults away are declared. -/
theorem isSome_effect?_of_mem_suppressedBy {flag : String}
    (h : flag ∈ component.rule.suppressedBy) : (component.rule.effect? flag).isSome = true := by
  have hall : ∀ flag ∈ component.rule.suppressedBy,
      (component.rule.effect? flag).isSome = true := by
    cases component <;> decide
  exact hall flag h

theorem fixedClasses_recordedProps (component : Component) (props : Props) :
    component.fixedClasses (component.recordedProps props) =
      if component.rule.suppressedBy.any props.hasFlag then []
      else component.rule.fixedDefaults := by
  have hany : component.rule.suppressedBy.any (component.recordedProps props).hasFlag =
      component.rule.suppressedBy.any props.hasFlag := by
    rw [Bool.eq_iff_iff, List.any_eq_true, List.any_eq_true]
    refine exists_congr fun flag => and_congr_right fun hflag => ?_
    rw [hasFlag_recordedProps_of_isSome props (isSome_effect?_of_mem_suppressedBy hflag)]
  rw [fixedClasses, hany]

theorem axisClasses_recordedProps (component : Component) (props : Props) :
    component.axisClasses (component.recordedProps props) =
      if (component.rule.effect? centerFlag).isSome && props.hasFlag centerFlag then []
      else
        component.rule.axisDefaults.flatMap fun (axis, key) =>
          if (props.text? axis.prop).isSome || (props.number? axis.prop).isSome then []
          else (axis.table.get? key).toList := by
  simp only [axisClasses, hasFlag_recordedProps, contains_prop_recordedProps, Bool.and_comm]

/-- The stages of a resolution, in terms of the props that are given. -/
theorem stagedClasses_eq (component : Component) (props : Props) :
    component.stagedClasses props = component.orderedClasses props := by
  have hvalued : props.valued.flatMap valueClasses =
      props.valued.flatMap Attribute.askedClasses :=
    congrArg props.valued.flatMap (funext valueClasses_eq)
  rw [stagedClasses, orderedClasses, flagClasses_eq, hvalued, fixedClasses_recordedProps,
    axisClasses_recordedProps]

/-! ### The class list -/

/-- Keeping the first of repeated members leaves none twice. -/
theorem nodup_eraseDups (tokens : List String) : tokens.eraseDups.Nodup := by
  cases tokens with
  | nil => simp
  | cons token tokens =>
    rw [List.eraseDups_cons, List.nodup_cons]
    refine ⟨?_, nodup_eraseDups (tokens.filter fun other => !other == token)⟩
    rw [List.mem_eraseDups]
    simp
termination_by tokens.length
decreasing_by
  exact Nat.lt_succ_of_le (List.length_filter_le _ _)

theorem nodup_classes (component : Component) (props : Props) :
    (component.resolve props).classes.Nodup :=
  nodup_eraseDups _

/-- Every class is one word, whatever class list is given. -/
theorem isWord_of_mem_classes {token : String} (h : token ∈ (component.resolve props).classes) :
    token.toList ≠ [] ∧ ∀ c ∈ token.toList, isBlank c = false := by
  cases classOrigin_of_mem_classes h with
  | safelisted h => exact ⟨(isClass_of_mem_safelist h).ne_nil, (isClass_of_mem_safelist h).not_blank⟩
  | given _ h =>
    obtain ⟨word, hword, rfl⟩ := List.mem_map.mp h
    obtain ⟨hne, hchars⟩ := mem_words hword
    rw [String.toList_ofList]
    exact ⟨hne, fun c hc => (hchars c hc).2⟩
  | columns _ h =>
    exact ⟨(isClass_of_columnClass? h).ne_nil, (isClass_of_columnClass? h).not_blank⟩

/-- The classes of a component with props are those of all stages in order, the first of repeated
ones kept. None of them is there twice, and each is a word. -/
theorem classes_resolve (component : Component) (props : Props) :
    (component.resolve props).classes = (component.orderedClasses props).eraseDups ∧
      (component.resolve props).classes.Nodup ∧
      ∀ token ∈ (component.resolve props).classes,
        token ≠ "" ∧ ∀ c ∈ token.toList, isBlank c = false := by
  refine ⟨?_, nodup_classes component props, ?_⟩
  · rw [← stagedClasses_eq]
    rfl
  · intro token h
    obtain ⟨hne, hblank⟩ := isWord_of_mem_classes h
    exact ⟨by rintro rfl; exact hne rfl, hblank⟩

end Component

end LayoutMarkup
