import LayoutMarkup.Proofs.Component.Emitted

/-!
# Which classes a component has

The order of the classes of a component follows the order of its props. Which classes there are does
not: whether a class is among them can be told from single props, asked by name. Each class has a
source in the rule, in a table or in a class list that was given, and each source brings its class
in.

## Main definitions

* `ClassSource` — what brings a class of a component in
* `Props.isValued` — whether a prop is given with a value
* `Component.Names` — which classes a rule names, axis defaults apart

## Main results

* `Component.mem_classes_iff` — the classes of a component are those with a source
* `ClassSource.of_stem_isPrefix` — a gap, a padding or a number of columns has no other source than
  its own prop or default
-/

namespace LayoutMarkup

/-- Whether a prop is given as text or as a number. -/
def Props.isValued (props : Props) (name : String) : Bool :=
  (props.text? name).isSome || (props.number? name).isSome

theorem Props.isValued_eq_false_iff {props : Props} {name : String} :
    props.isValued name = false ↔ props.text? name = none ∧ props.number? name = none := by
  simp [isValued]

/-- Whether a component is centered by a flag that it declares. -/
def Component.isCentered (component : Component) (props : Props) : Bool :=
  (component.rule.effect? centerFlag).isSome && props.hasFlag centerFlag

/-- Whether the rule of a component names a class in another place than as the default of an axis:
as a base class, as a fixed default, or as a class that a given flag brings in. -/
def Component.Names (component : Component) (props : Props) (token : String) : Prop :=
  token ∈ component.rule.base ∨ token ∈ component.rule.fixedDefaults ∨
    ∃ flag effect, (flag, effect) ∈ component.rule.effects ∧ props.hasFlag flag = true ∧
      token ∈ effect.tokens

/-- What brings a class of a component with props in. -/
inductive ClassSource (component : Component) (props : Props) (token : String) : Prop
  /-- It is a base class, and no flag is given that replaces it. -/
  | base : token ∈ component.rule.base →
      (∀ flag new, (flag, .replace token new) ∈ component.rule.effects →
        props.hasFlag flag = false) → ClassSource component props token
  /-- A flag puts it in the place of a base class. -/
  | replacement {flag old : String} : (flag, .replace old token) ∈ component.rule.effects →
      props.hasFlag flag = true → ClassSource component props token
  /-- A flag adds it. -/
  | added {flag : String} {tokens : List String} : (flag, .add tokens) ∈ component.rule.effects →
      props.hasFlag flag = true → token ∈ tokens → ClassSource component props token
  /-- It is a word of the class list that was given. -/
  | word {value : String} : props.text? classNameProp = some value → token ∈ classTokens value →
      ClassSource component props token
  /-- It is the class of the key that an axis was given. -/
  | key {axis : Axis} {key : String} : props.text? axis.prop = some key →
      axis.table.get? key = some token → ClassSource component props token
  /-- It is the class of the number of columns that was given. -/
  | columns {n : UInt32} : props.number? Axis.cols.prop = some n → columnClass? n = some token →
      ClassSource component props token
  /-- It is a fixed default, and no flag is given that keeps it away. -/
  | fixedDefault : token ∈ component.rule.fixedDefaults →
      (∀ flag ∈ component.rule.suppressedBy, props.hasFlag flag = false) →
      ClassSource component props token
  /-- It is the default of an axis that was given no value, and the component is not centered. -/
  | axisDefault {axis : Axis} {key : String} : (axis, key) ∈ component.rule.axisDefaults →
      axis.table.get? key = some token → props.isValued axis.prop = false →
      component.isCentered props = false → ClassSource component props token

variable {component : Component} {props : Props} {token : String}

/-! ### Flags -/

namespace PropEffect

/-- Of effects that leave each other's results alone, one that replaces a class decides what becomes
of it. -/
theorem renamedBy_eq_of_mem {effects : List PropEffect} {old new : String}
    (hmem : .replace old new ∈ effects)
    (hold : ∀ effect ∈ effects, effect.renamed old = old ∨ effect = .replace old new)
    (hnew : ∀ effect ∈ effects, effect.renamed new = new) : renamedBy effects old = new := by
  induction effects with
  | nil => cases hmem
  | cons effect effects ih =>
    have hnew' : ∀ later ∈ effects, later.renamed new = new := fun later hlater =>
      hnew later (List.mem_cons_of_mem _ hlater)
    rw [renamedBy, List.foldl_cons]
    rcases hold effect List.mem_cons_self with hsame | rfl
    · rw [hsame]
      rcases List.mem_cons.mp hmem with rfl | hrest
      · -- The effect that replaces the class by another leaves it as it is: both are the same.
        obtain rfl : new = old := by simpa [renamed] using hsame
        exact renamedBy_eq_self hnew'
      · exact ih hrest (fun later hlater => hold later (List.mem_cons_of_mem _ hlater)) hnew'
    · have hfirst : (replace old new).renamed old = new := if_pos rfl
      rw [hfirst]
      exact renamedBy_eq_self hnew'

end PropEffect

namespace Component

open PropEffect

/-- What the given flags do is what the rule says of them. -/
theorem mem_effects_iff {effect : PropEffect} : effect ∈ component.effects props ↔
    ∃ flag, (flag, effect) ∈ component.rule.effects ∧ props.hasFlag flag = true := by
  simp only [effects, List.mem_filterMap, Props.mem_flags_iff]
  constructor
  · rintro ⟨flag, hflag, heffect⟩
    exact ⟨flag, mem_effects_of_effect? heffect, hflag⟩
  · rintro ⟨flag, heffect, hflag⟩
    exact ⟨flag, hflag, effect?_eq_some heffect⟩

/-- A component has at most one flag that replaces a class, and that by another class. -/
theorem eq_of_replace {flag flag' old old' new new' : String}
    (h : (flag, .replace old new) ∈ component.rule.effects)
    (h' : (flag', .replace old' new') ∈ component.rule.effects) :
    old' = old ∧ new' = new ∧ new ≠ old := by
  cases component <;> simp_all [rule]

/-- A given flag that replaces a class decides what becomes of it. -/
theorem renamedBy_effects_of_hasFlag {flag old new : String}
    (hreplace : (flag, .replace old new) ∈ component.rule.effects)
    (hflag : props.hasFlag flag = true) : renamedBy (component.effects props) old = new := by
  have hother : ∀ effect ∈ component.effects props,
      (∃ tokens, effect = .add tokens) ∨ effect = .replace old new := by
    intro effect heffect
    obtain ⟨other, hother, -⟩ := mem_effects_iff.mp heffect
    cases effect with
    | add tokens => exact Or.inl ⟨tokens, rfl⟩
    | replace old' new' =>
      obtain ⟨rfl, rfl, -⟩ := eq_of_replace hreplace hother
      exact Or.inr rfl
  refine renamedBy_eq_of_mem (mem_effects_iff.mpr ⟨flag, hreplace, hflag⟩) ?_ ?_
  · intro effect heffect
    rcases hother effect heffect with ⟨tokens, rfl⟩ | rfl
    · exact Or.inl rfl
    · exact Or.inr rfl
  · intro effect heffect
    rcases hother effect heffect with ⟨tokens, rfl⟩ | rfl
    · rfl
    · exact if_neg (eq_of_replace hreplace hreplace).2.2

/-- A class stays if no flag is given that replaces it. -/
theorem renamedBy_effects_eq_self
    (h : ∀ flag new, (flag, .replace token new) ∈ component.rule.effects →
      props.hasFlag flag = false) : renamedBy (component.effects props) token = token := by
  apply renamedBy_eq_self
  intro effect heffect
  obtain ⟨flag, hmem, hflag⟩ := mem_effects_iff.mp heffect
  cases effect with
  | add tokens => rfl
  | replace old new =>
    refine if_neg ?_
    rintro rfl
    rw [h flag new hmem] at hflag
    cases hflag

/-- The base classes, after the given flags have replaced some. -/
theorem mem_map_renamedBy_iff :
    token ∈ component.rule.base.map (renamedBy (component.effects props)) ↔
      (token ∈ component.rule.base ∧ ∀ flag new,
        (flag, .replace token new) ∈ component.rule.effects → props.hasFlag flag = false) ∨
      ∃ flag old, (flag, .replace old token) ∈ component.rule.effects ∧
        props.hasFlag flag = true := by
  rw [List.mem_map]
  constructor
  · rintro ⟨old, hbase, hrenamed⟩
    by_cases h : ∃ flag new, (flag, .replace old new) ∈ component.rule.effects ∧
        props.hasFlag flag = true
    · obtain ⟨flag, new, hreplace, hflag⟩ := h
      rw [renamedBy_effects_of_hasFlag hreplace hflag] at hrenamed
      exact Or.inr ⟨flag, old, hrenamed ▸ hreplace, hflag⟩
    · have hnone : ∀ flag new, (flag, .replace old new) ∈ component.rule.effects →
          props.hasFlag flag = false := fun flag new hreplace =>
        Bool.eq_false_iff.mpr fun hflag => h ⟨flag, new, hreplace, hflag⟩
      rw [renamedBy_effects_eq_self hnone] at hrenamed
      subst hrenamed
      exact Or.inl ⟨hbase, hnone⟩
  · rintro (⟨hbase, hnone⟩ | ⟨flag, old, hreplace, hflag⟩)
    · exact ⟨token, hbase, renamedBy_effects_eq_self hnone⟩
    · exact ⟨old, mem_base_of_replace hreplace, renamedBy_effects_of_hasFlag hreplace hflag⟩

/-! ### Values -/

/-- The classes that props with a value ask for. -/
theorem mem_askedClasses_iff : (∃ entry ∈ props.valued, token ∈ entry.askedClasses) ↔
    (∃ value, props.text? classNameProp = some value ∧ token ∈ classTokens value) ∨
      (∃ axis key, props.text? (Axis.prop axis) = some key ∧ axis.table.get? key = some token) ∨
      ∃ n, props.number? Axis.cols.prop = some n ∧ columnClass? n = some token := by
  simp only [Props.text?_eq_some_iff, Props.number?_eq_some_iff, ← valueClasses_eq]
  constructor
  · rintro ⟨⟨name, value⟩, hentry, htoken⟩
    have hmem := (List.mem_filter.mp hentry).1
    cases value with
    | flag => cases htoken
    | text value =>
      change token ∈ textClasses name value at htoken
      unfold textClasses at htoken
      split at htoken
      · subst name
        exact Or.inl ⟨value, hmem, htoken⟩
      · split at htoken
        · rename_i axis haxis
          obtain rfl := Axis.prop_of_ofProp? haxis
          exact Or.inr (Or.inl ⟨axis, value, hmem, Option.mem_toList.mp htoken⟩)
        · cases htoken
    | number n =>
      simp only [valueClasses] at htoken
      split at htoken
      · subst name
        exact Or.inr (Or.inr ⟨n, hmem, Option.mem_toList.mp htoken⟩)
      · cases htoken
  · have hvalued {entry : Attribute} (h : entry ∈ props.entries)
        (hflag : entry.value.isFlag = false) : entry ∈ props.valued :=
      List.mem_filter.mpr ⟨h, by rw [hflag]; rfl⟩
    rintro (⟨value, hentry, htoken⟩ | ⟨axis, key, hentry, htoken⟩ | ⟨n, hentry, htoken⟩)
    · refine ⟨_, hvalued hentry rfl, ?_⟩
      simpa [valueClasses, textClasses] using htoken
    · refine ⟨_, hvalued hentry rfl, ?_⟩
      simp [valueClasses, textClasses, axis.prop_ne_className, Axis.ofProp?_prop, htoken]
    · refine ⟨_, hvalued hentry rfl, ?_⟩
      simp [valueClasses, htoken]

/-! ### Defaults -/

theorem mem_fixedDefaults_iff :
    (token ∈ if component.rule.suppressedBy.any props.hasFlag then []
      else component.rule.fixedDefaults) ↔
      token ∈ component.rule.fixedDefaults ∧
        ∀ flag ∈ component.rule.suppressedBy, props.hasFlag flag = false := by
  by_cases h : component.rule.suppressedBy.any props.hasFlag = true
  · obtain ⟨flag, hmem, hflag⟩ := List.any_eq_true.mp h
    rw [if_pos h]
    refine ⟨nofun, fun ⟨_, hnone⟩ => ?_⟩
    rw [hnone flag hmem] at hflag
    cases hflag
  · rw [if_neg h]
    refine ⟨fun htoken => ⟨htoken, fun flag hmem => ?_⟩, And.left⟩
    exact Bool.eq_false_iff.mpr fun hflag => h (List.any_eq_true.mpr ⟨flag, hmem, hflag⟩)

theorem mem_axisDefaults_iff :
    (token ∈ if component.isCentered props then []
      else component.rule.axisDefaults.flatMap fun (axis, key) =>
        if props.isValued axis.prop then [] else (axis.table.get? key).toList) ↔
      component.isCentered props = false ∧ ∃ axis key, (axis, key) ∈ component.rule.axisDefaults ∧
        props.isValued axis.prop = false ∧ axis.table.get? key = some token := by
  cases component.isCentered props with
  | true => simp
  | false =>
    simp only [Bool.false_eq_true, if_false, List.mem_flatMap, Prod.exists, true_and]
    refine exists_congr fun axis => exists_congr fun key => and_congr_right fun _ => ?_
    cases props.isValued axis.prop <;> simp

/-! ### All classes -/

/-- The classes of a component are those with a source. -/
theorem mem_classes_iff : token ∈ (component.resolve props).classes ↔
    ClassSource component props token := by
  have hstages : token ∈ (component.resolve props).classes ↔
      token ∈ component.rule.base.map (renamedBy (component.effects props)) ∨
        (∃ effect ∈ component.effects props, token ∈ effect.added) ∨
        (∃ entry ∈ props.valued, token ∈ entry.askedClasses) ∨
        (token ∈ if component.rule.suppressedBy.any props.hasFlag then []
          else component.rule.fixedDefaults) ∨
        token ∈ if component.isCentered props then []
          else component.rule.axisDefaults.flatMap fun (axis, key) =>
            if props.isValued axis.prop then [] else (axis.table.get? key).toList := by
    rw [mem_classes_resolve, stagedClasses_eq, orderedClasses]
    simp only [List.mem_append, List.mem_flatMap, or_assoc]
    rfl
  rw [hstages, mem_map_renamedBy_iff, mem_askedClasses_iff, mem_fixedDefaults_iff,
    mem_axisDefaults_iff]
  constructor
  · rintro (h | ⟨effect, heffect, htoken⟩ | h | ⟨htoken, hnone⟩ | h)
    · rcases h with ⟨hbase, hnone⟩ | ⟨flag, old, hreplace, hflag⟩
      · exact .base hbase hnone
      · exact .replacement hreplace hflag
    · obtain ⟨flag, hmem, hflag⟩ := mem_effects_iff.mp heffect
      cases effect with
      | add tokens => exact .added hmem hflag htoken
      | replace old new => exact absurd htoken List.not_mem_nil
    · rcases h with ⟨value, hvalue, htoken⟩ | ⟨axis, key, hkey, htoken⟩ | ⟨n, hn, htoken⟩
      · exact .word hvalue htoken
      · exact .key hkey htoken
      · exact .columns hn htoken
    · exact .fixedDefault htoken hnone
    · obtain ⟨hcentered, axis, key, hentry, hvalued, htoken⟩ := h
      exact .axisDefault hentry htoken hvalued hcentered
  · intro h
    cases h with
    | base hbase hnone => exact Or.inl (Or.inl ⟨hbase, hnone⟩)
    | replacement hreplace hflag => exact Or.inl (Or.inr ⟨_, _, hreplace, hflag⟩)
    | added hmem hflag htoken =>
      exact Or.inr (Or.inl ⟨_, mem_effects_iff.mpr ⟨_, hmem, hflag⟩, htoken⟩)
    | word hvalue htoken => exact Or.inr (Or.inr (Or.inl (Or.inl ⟨_, hvalue, htoken⟩)))
    | key hkey htoken => exact Or.inr (Or.inr (Or.inl (Or.inr (Or.inl ⟨_, _, hkey, htoken⟩))))
    | columns hn htoken => exact Or.inr (Or.inr (Or.inl (Or.inr (Or.inr ⟨_, hn, htoken⟩))))
    | fixedDefault htoken hnone => exact Or.inr (Or.inr (Or.inr (Or.inl ⟨htoken, hnone⟩)))
    | axisDefault hentry htoken hvalued hcentered =>
      exact Or.inr (Or.inr (Or.inr (Or.inr ⟨hcentered, _, _, hentry, hvalued, htoken⟩)))

end Component

namespace ClassSource

/-- With the same declared flags a component has the same classes, but for those that values and the
lack of values bring in. -/
theorem of_flags_eq {q : Props} (hflags : ∀ flag, (component.rule.effect? flag).isSome = true →
      q.hasFlag flag = props.hasFlag flag) (h : ClassSource component props token) :
    ClassSource component q token ∨
      (∃ value, props.text? classNameProp = some value ∧ token ∈ classTokens value) ∨
      (∃ axis key, props.text? (Axis.prop axis) = some key ∧ axis.table.get? key = some token) ∨
      (∃ n, props.number? Axis.cols.prop = some n ∧ columnClass? n = some token) ∨
      ∃ axis key, (axis, key) ∈ component.rule.axisDefaults ∧ axis.table.get? key = some token ∧
        props.isValued axis.prop = false ∧ component.isCentered props = false := by
  have hdeclared {flag : String} {effect : PropEffect}
      (heffect : (flag, effect) ∈ component.rule.effects) :
      q.hasFlag flag = props.hasFlag flag :=
    hflags flag (by rw [Component.effect?_eq_some heffect, Option.isSome_some])
  cases h with
  | base hbase hnone =>
    exact Or.inl (.base hbase fun flag new hreplace =>
      (hdeclared hreplace).trans (hnone flag new hreplace))
  | replacement hreplace hflag =>
    exact Or.inl (.replacement hreplace ((hdeclared hreplace).trans hflag))
  | added hadd hflag htoken => exact Or.inl (.added hadd ((hdeclared hadd).trans hflag) htoken)
  | word hvalue htoken => exact Or.inr (Or.inl ⟨_, hvalue, htoken⟩)
  | key hkey htoken => exact Or.inr (Or.inr (Or.inl ⟨_, _, hkey, htoken⟩))
  | columns hn htoken => exact Or.inr (Or.inr (Or.inr (Or.inl ⟨_, hn, htoken⟩)))
  | fixedDefault hfixed hnone =>
    exact Or.inl (.fixedDefault hfixed fun flag hmem =>
      (hflags flag (Component.isSome_effect?_of_mem_suppressedBy hmem)).trans (hnone flag hmem))
  | axisDefault hentry htoken hvalued hcentered =>
    exact Or.inr (Or.inr (Or.inr (Or.inr ⟨_, _, hentry, htoken, hvalued, hcentered⟩)))

end ClassSource

/-! ### Classes of an axis -/

namespace Axis

theorem prop_injective {axis other : Axis} (h : other.prop = axis.prop) : other = axis := by
  have hfound := congrArg ofProp? h
  rw [ofProp?_prop, ofProp?_prop] at hfound
  exact Option.some.inj hfound

/-- What all classes of an axis begin with. -/
def stem : Axis → String
  | gap => "gap-"
  | padding => "p-"
  | align => "items-"
  | justify => "justify-"
  | cols => columnStem

/-- The axes whose classes no rule names but as a default. -/
def exclusive : List Axis := [gap, padding, cols]

theorem isSome_get?_table_iff {axis : Axis} {key : String} :
    (axis.table.get? key).isSome = true ↔ key ∈ axis.table.keys := by
  simp [ClassTable.get?, ClassTable.keys]

theorem mem_keys_of_get?_table {axis : Axis} {key : String}
    (h : axis.table.get? key = some token) : key ∈ axis.table.keys :=
  isSome_get?_table_iff.mp (by rw [h, Option.isSome_some])

/-- The table of columns has the classes in which its keys are written out. -/
theorem get?_cols_eq_some_iff {key : String} :
    cols.table.get? key = some token ↔
      key ∈ cols.table.keys ∧ columnStem ++ key = token := by
  have hall : ∀ key ∈ cols.table.keys,
      cols.table.get? key = some (columnStem ++ key) := by
    decide
  constructor
  · intro h
    have hkey := mem_keys_of_get?_table h
    exact ⟨hkey, Option.some.inj ((hall key hkey).symm.trans h)⟩
  · rintro ⟨hkey, rfl⟩
    exact hall key hkey

theorem stem_isPrefix_of_get?_table {axis : Axis} {key : String}
    (h : axis.table.get? key = some token) : axis.stem.toList <+: token.toList := by
  have hall : ∀ entry ∈ axis.table, axis.stem.toList <+: entry.2.toList := by
    cases axis <;> decide
  exact hall _ (mem_table_of_get? h)

theorem stem_isPrefix_of_mem_tokens {axis : Axis} (h : token ∈ axis.table.tokens) :
    axis.stem.toList <+: token.toList := by
  obtain ⟨⟨key, token⟩, hentry, rfl⟩ := List.mem_map.mp h
  exact stem_isPrefix_of_get?_table (Component.get?_table_eq_some hentry)

/-- The stem of a class in a table tells the axis. -/
theorem eq_of_stem_isPrefix {axis other : Axis} {key : String}
    (hstem : axis.stem.toList <+: token.toList) (h : other.table.get? key = some token) :
    other = axis := by
  have hall : ∀ axis ∈ all, ∀ other ∈ all, ∀ entry ∈ other.table,
      axis.stem.toList <+: entry.2.toList → other = axis := by
    decide
  exact hall axis axis.mem_all other other.mem_all _ (mem_table_of_get? h) hstem

/-- A number of columns has a class of the axis of columns. -/
theorem eq_cols_of_stem_isPrefix {axis : Axis} {n : UInt32}
    (hstem : axis.stem.toList <+: token.toList) (h : columnClass? n = some token) :
    axis = cols := by
  obtain ⟨-, rfl⟩ := columnClass?_eq_some_iff.mp h
  rw [String.toList_append] at hstem
  cases axis with
  | gap => simp [stem, columnStem] at hstem
  | padding => simp [stem, columnStem] at hstem
  | align => simp [stem, columnStem] at hstem
  | justify => simp [stem, columnStem] at hstem
  | cols => rfl

end Axis

namespace ClassSource

/-- A class with the stem of an axis is named by the rule, is a word of the class list that was
given, or comes from the prop of the axis or from its default. -/
theorem names_or_of_stem_isPrefix {axis : Axis} (hstem : axis.stem.toList <+: token.toList)
    (h : ClassSource component props token) :
    component.Names props token ∨
      (∃ value, props.text? classNameProp = some value ∧ token ∈ classTokens value) ∨
      (∃ key, props.text? axis.prop = some key ∧ axis.table.get? key = some token) ∨
      (axis = .cols ∧
        ∃ n, props.number? Axis.cols.prop = some n ∧ columnClass? n = some token) ∨
      ∃ key, (axis, key) ∈ component.rule.axisDefaults ∧ axis.table.get? key = some token ∧
        props.isValued axis.prop = false ∧ component.isCentered props = false := by
  cases h with
  | base hbase _ => exact Or.inl (Or.inl hbase)
  | replacement hreplace hflag =>
    exact Or.inl (Or.inr (Or.inr ⟨_, _, hreplace, hflag, List.mem_singleton_self _⟩))
  | added hadd hflag htoken => exact Or.inl (Or.inr (Or.inr ⟨_, _, hadd, hflag, htoken⟩))
  | word hvalue htoken => exact Or.inr (Or.inl ⟨_, hvalue, htoken⟩)
  | key hkey htoken =>
    obtain rfl := Axis.eq_of_stem_isPrefix hstem htoken
    exact Or.inr (Or.inr (Or.inl ⟨_, hkey, htoken⟩))
  | columns hn htoken =>
    exact Or.inr (Or.inr (Or.inr (Or.inl
      ⟨Axis.eq_cols_of_stem_isPrefix hstem htoken, _, hn, htoken⟩)))
  | fixedDefault hfixed _ => exact Or.inl (Or.inr (Or.inl hfixed))
  | axisDefault hentry htoken hvalued hcentered =>
    obtain rfl := Axis.eq_of_stem_isPrefix hstem htoken
    exact Or.inr (Or.inr (Or.inr (Or.inr ⟨_, hentry, htoken, hvalued, hcentered⟩)))

/-- No rule names a class of an exclusive axis but as its default. -/
theorem not_names_of_stem_isPrefix {axis : Axis} (haxis : axis ∈ Axis.exclusive)
    (hstem : axis.stem.toList <+: token.toList) :
    ¬ component.Names props token := by
  have hrule : ∀ axis ∈ Axis.exclusive, ∀ token ∈ component.rule.base
      ++ component.rule.effects.flatMap (·.2.tokens) ++ component.rule.fixedDefaults,
      ¬ axis.stem.toList <+: token.toList := by
    cases component <;> decide
  have hnot : token ∉ component.rule.base ++ component.rule.effects.flatMap (·.2.tokens)
      ++ component.rule.fixedDefaults := fun hmem => hrule axis haxis token hmem hstem
  simp only [List.mem_append, not_or, List.mem_flatMap, not_exists, not_and] at hnot
  rintro (hbase | hfixed | ⟨flag, effect, hentry, -, htoken⟩)
  · exact hnot.1.1 hbase
  · exact hnot.2 hfixed
  · exact hnot.1.2 _ hentry htoken

/-- A class of an exclusive axis is a word of the class list that was given, or what the prop of the
axis brings in, or the default of the axis. -/
theorem of_stem_isPrefix {axis : Axis} (haxis : axis ∈ Axis.exclusive)
    (hstem : axis.stem.toList <+: token.toList) (h : ClassSource component props token) :
    (∃ value, props.text? classNameProp = some value ∧ token ∈ classTokens value) ∨
      (∃ key, props.text? axis.prop = some key ∧ axis.table.get? key = some token) ∨
      (axis = .cols ∧
        ∃ n, props.number? Axis.cols.prop = some n ∧ columnClass? n = some token) ∨
      ∃ key, (axis, key) ∈ component.rule.axisDefaults ∧ axis.table.get? key = some token ∧
        props.isValued axis.prop = false ∧ component.isCentered props = false :=
  (h.names_or_of_stem_isPrefix hstem).resolve_left (not_names_of_stem_isPrefix haxis hstem)

end ClassSource

/-! ### Stacks and rows -/

namespace Component

/-- Stacks and rows are centered by a flag. -/
theorem isCentered_eq (h : component = .stack ∨ component = .row) (props : Props) :
    component.isCentered props = props.hasFlag centerFlag := by
  rcases h with rfl | rfl <;> exact Bool.true_and _

/-- Stacks and rows have the same default gap. -/
theorem gap_mem_axisDefaults_iff (h : component = .stack ∨ component = .row) {key : String} :
    (.gap, key) ∈ component.rule.axisDefaults ↔ key = "md" := by
  rcases h with rfl | rfl <;> simp [rule]

end Component

end LayoutMarkup
