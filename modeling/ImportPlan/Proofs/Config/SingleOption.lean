import Mathlib
import ImportPlan.Config
import ImportPlan.Proofs.Config.Options
import ImportPlan.Proofs.Text.Trimmed

namespace ImportPlan

/-!
# Options one by one

An option consists of a name and, behind an equals sign, a value. Whatever else is in a list of
options, it says something on its own or is refused for what is wrong with it.

* `Features.HasParts` — the name and the value of an option; `Features.hasParts_iff` — it is split
  into these.
* `Setting.Says`, `Setting.IsRefusedFor` — what an option says, and why it is refused.
* `Setting.ofOption_eq_ok_iff`, `Setting.ofOption_eq_error_iff` — that is how an option is read.
* `Features.run_applyInPlace` — an option that is refused leaves running features as they are.
-/

/-! ### The parts of an option -/

namespace Features

/-- The name and the value of an option: it is cut at its first equals sign, if there is one, and
the blank characters at the ends of its parts do not count. -/
inductive HasParts (option : String) : String → Option String → Prop
  | name {name : String} (h : '=' ∉ option.toList) (hname : Text.TrimsTo option name) :
    HasParts option name none
  | value {before after name value : String} (h : '=' ∉ before.toList)
    (hoption : option = before ++ "=" ++ after) (hname : Text.TrimsTo before name)
    (hvalue : Text.TrimsTo after value) : HasParts option name (some value)

variable {option name : String} {value : Option String}

/-- **An option is split into its parts.** -/
theorem hasParts_iff : HasParts option name value ↔ splitOption option = (name, value) := by
  constructor
  · rintro (⟨h, hname⟩ | ⟨h, rfl, hname, hvalue⟩)
    · rw [splitOption_of_not_mem h, Text.trim_eq_iff.2 hname]
    · rw [splitOption_append h, Text.trim_eq_iff.2 hname, Text.trim_eq_iff.2 hvalue]
  · intro hsplit
    by_cases hmem : '=' ∈ option.toList
    · obtain ⟨before, after, hbefore, rfl⟩ := Text.exists_append_of_mem hmem
      obtain ⟨rfl, rfl⟩ := Prod.mk.inj ((splitOption_append hbefore after).symm.trans hsplit)
      exact .value hbefore rfl (Text.trimsTo_trim before) (Text.trimsTo_trim after)
    · obtain ⟨rfl, rfl⟩ := Prod.mk.inj ((splitOption_of_not_mem hmem).symm.trans hsplit)
      exact .name hmem (Text.trimsTo_trim option)

/-- An option has no other parts. -/
theorem HasParts.unique {name' : String} {value' : Option String} (h : HasParts option name value)
    (h' : HasParts option name' value') : name = name' ∧ value = value' :=
  Prod.mk.inj ((hasParts_iff.1 h).symm.trans (hasParts_iff.1 h'))

/-- The option has the name of the feature. -/
def IsNamed (f : Feature) (option : String) : Prop := ∃ value, HasParts option f.optionName value

/-- The option has the name of the runtime's path, and a value. -/
def SetsRuntimePath (option : String) : Prop :=
  ∃ path, HasParts option Config.runtimePathOption (some path)

theorem isNamed_iff {f : Feature} : IsNamed f option ↔ (splitOption option).1 = f.optionName := by
  constructor
  · rintro ⟨value, h⟩
    rw [hasParts_iff.1 h]
  · intro h
    exact ⟨(splitOption option).2, hasParts_iff.2 (Prod.ext h rfl)⟩

end Features

/-! ### What an option says -/

namespace Setting

open Features (HasParts)

/-- What an option says, by its parts. A feature without a value or with an empty one is on. -/
inductive Says (option : String) : Setting → Prop
  | on {f : Feature} {value : Option String} (h : HasParts option f.optionName value)
    (hvalue : value ∈ [none, some "", some "true"]) : Says option (.switch f true)
  | off {f : Feature} (h : HasParts option f.optionName (some "false")) :
    Says option (.switch f false)
  | runtimePath {path : String} (h : HasParts option Config.runtimePathOption (some path))
    (hpath : Path.isValid path = true) : Says option (.runtimePath path)

/-- Why an option is refused: the path of the runtime is no import path, the name is none of an
option, or the value is none of a feature. Only with a value there is an option for the runtime. -/
inductive IsRefusedFor (option : String) : InputError → Prop
  | path {path : String} (h : HasParts option Config.runtimePathOption (some path))
    (hpath : Path.isValid path = false) : IsRefusedFor option (.invalidPath path)
  | name {name : String} {value : Option String} (h : HasParts option name value)
    (hfeature : ∀ f : Feature, name ≠ f.optionName)
    (hruntime : name = Config.runtimePathOption → value = none) :
    IsRefusedFor option (.unknownOption name)
  | value {f : Feature} {value : String} (h : HasParts option f.optionName (some value))
    (hvalue : value ∉ ["", "true", "false"]) :
    IsRefusedFor option (.invalidValue f.optionName value)

variable {option name path : String} {value : Option String} {setting : Setting} {e : InputError}
  {f : Feature}

/-- The name of an option tells its feature, if it has one. -/
theorem ofOptionName?_eq_some_iff : Feature.ofOptionName? name = some f ↔ name = f.optionName := by
  constructor
  · intro h
    have hname := List.find?_some h
    exact (beq_iff_eq.1 hname).symm
  · rintro rfl
    exact (optionName_spec f).2.2.2

theorem ofOptionName?_eq_none_iff :
    Feature.ofOptionName? name = none ↔ ∀ f : Feature, name ≠ f.optionName := by
  rw [← Option.not_isSome_iff_eq_none, Option.isSome_iff_exists, not_exists]
  exact forall_congr' fun f => not_congr ofOptionName?_eq_some_iff

/-- The values that turn a feature on or off, and those that are refused. -/
theorem parseSwitch_eq (option : String) (value : Option String) :
    Features.parseSwitch option value =
      if value ∈ [none, some "", some "true"] then .ok true
      else if value = some "false" then .ok false
      else .error (.invalidValue option (value.getD "")) := by
  unfold Features.parseSwitch
  split <;> simp_all

/-- An option with the name of a feature. -/
theorem ofOption_of_feature (h : HasParts option f.optionName value) :
    ofOption option =
      if value ∈ [none, some "", some "true"] then .ok (.switch f true)
      else if value = some "false" then .ok (.switch f false)
      else .error (.invalidValue f.optionName (value.getD "")) := by
  obtain ⟨-, -, hruntime, hfind⟩ := optionName_spec f
  -- it is not taken for an option of the runtime, with a value or without
  have hswitch : ofOption option = ofSwitch f.optionName value := by
    rw [ofOption, Features.hasParts_iff.1 h]
    cases value with
    | none => rfl
    | some path => exact if_neg hruntime
  rw [hswitch, ofSwitch, hfind]
  simp only [parseSwitch_eq]
  split
  · rfl
  · split <;> rfl

/-- An option with the name of the runtime and a value. -/
theorem ofOption_of_runtimePath (h : HasParts option Config.runtimePathOption (some path)) :
    ofOption option =
      if Path.isValid path = true then .ok (.runtimePath path) else .error (.invalidPath path) := by
  rw [ofOption, Features.hasParts_iff.1 h, ofParts, if_pos rfl, Redirection.checkPath]
  split <;> rfl

/-- An option with any other name. -/
theorem ofOption_of_unknown (h : HasParts option name value)
    (hfeature : ∀ f : Feature, name ≠ f.optionName)
    (hruntime : name = Config.runtimePathOption → value = none) :
    ofOption option = .error (.unknownOption name) := by
  have hswitch : ofOption option = ofSwitch name value := by
    rw [ofOption, Features.hasParts_iff.1 h]
    cases value with
    | none => rfl
    | some path => exact if_neg fun hname => absurd (hruntime hname) (Option.some_ne_none path)
  rw [hswitch, ofSwitch, ofOptionName?_eq_none_iff.2 hfeature]

/-- What an option is about. -/
theorem parts_cases (option : String) :
    (∃ path, HasParts option Config.runtimePathOption (some path)) ∨
      (∃ (f : Feature) (value : Option String), HasParts option f.optionName value) ∨
      ∃ name value, HasParts option name value ∧ (∀ f : Feature, name ≠ f.optionName) ∧
        (name = Config.runtimePathOption → value = none) := by
  obtain ⟨name, value, h⟩ : ∃ name value, HasParts option name value :=
    ⟨_, _, Features.hasParts_iff.2 rfl⟩
  by_cases hfeature : ∃ f : Feature, name = f.optionName
  · obtain ⟨f, rfl⟩ := hfeature
    exact .inr (.inl ⟨f, value, h⟩)
  · -- the name of the runtime counts as one only where there is a value
    by_cases hruntime : name = Config.runtimePathOption → value = none
    · exact .inr (.inr ⟨name, value, h, not_exists.1 hfeature, hruntime⟩)
    · obtain ⟨rfl, hvalue⟩ := Classical.not_imp.1 hruntime
      obtain ⟨path, rfl⟩ := Option.ne_none_iff_exists'.1 hvalue
      exact .inl ⟨path, h⟩

/-- **An option is read as what it says.** -/
theorem ofOption_eq_ok_iff : ofOption option = .ok setting ↔ Says option setting := by
  constructor
  · intro h
    rcases parts_cases option with ⟨path, hparts⟩ | ⟨f, value, hparts⟩ |
      ⟨name, value, hparts, hfeature, hruntime⟩
    · rw [ofOption_of_runtimePath hparts] at h
      split at h
      · next hpath =>
        cases h
        exact .runtimePath hparts hpath
      · cases h
    · rw [ofOption_of_feature hparts] at h
      split at h
      · next hvalue =>
        cases h
        exact .on hparts hvalue
      · split at h
        · next hvalue =>
          cases h
          exact .off (hvalue ▸ hparts)
        · cases h
    · rw [ofOption_of_unknown hparts hfeature hruntime] at h
      cases h
  · rintro (⟨hparts, hvalue⟩ | hparts | ⟨hparts, hpath⟩)
    · rw [ofOption_of_feature hparts, if_pos hvalue]
    · rw [ofOption_of_feature hparts, if_neg (by decide), if_pos rfl]
    · rw [ofOption_of_runtimePath hparts, if_pos hpath]

/-- **An option is refused for what is wrong with it**, an unknown name before a bad value. -/
theorem ofOption_eq_error_iff : ofOption option = .error e ↔ IsRefusedFor option e := by
  constructor
  · intro h
    rcases parts_cases option with ⟨path, hparts⟩ | ⟨f, value, hparts⟩ |
      ⟨name, value, hparts, hfeature, hruntime⟩
    · rw [ofOption_of_runtimePath hparts] at h
      split at h
      · cases h
      · next hpath =>
        cases h
        exact .path hparts (Bool.eq_false_iff.2 hpath)
    · rw [ofOption_of_feature hparts] at h
      split at h
      · cases h
      · next hon =>
        split at h
        · cases h
        · next hoff =>
          cases h
          -- the values that turn it on or off are those that have been ruled out
          cases value with
          | none => exact absurd (by decide) hon
          | some value =>
            refine .value hparts fun hmem => ?_
            simp only [List.mem_cons, List.not_mem_nil, or_false] at hmem
            rcases hmem with rfl | rfl | rfl
            · exact hon (by decide)
            · exact hon (by decide)
            · exact hoff rfl
    · rw [ofOption_of_unknown hparts hfeature hruntime] at h
      cases h
      exact .name hparts hfeature hruntime
  · rintro (⟨hparts, hpath⟩ | ⟨hparts, hfeature, hruntime⟩ | ⟨hparts, hvalue⟩)
    · rw [ofOption_of_runtimePath hparts, if_neg (Bool.eq_false_iff.1 hpath)]
    · exact ofOption_of_unknown hparts hfeature hruntime
    · simp only [List.mem_cons, List.not_mem_nil, or_false, not_or] at hvalue
      rw [ofOption_of_feature hparts, if_neg (by simp [hvalue]), if_neg (by simp [hvalue])]
      rfl

end Setting

/-! ### Running features -/

namespace Features

/-- Applies an option to running features in place. -/
def applyInPlace (option : String) : ExceptT InputError (StateM Features) Unit := do
  let (name, value) := splitOption option
  match Feature.ofOptionName? name with
  | none => throw (.unknownOption name)
  | some f =>
    let on ← ExceptT.mk (pure (parseSwitch name value))
    modify (·.set f on)

/-- **An option that is refused leaves running features as they are**; any other one makes of them
what it makes of features that are passed on. -/
theorem run_applyInPlace (fs : Features) (option : String) :
    (∀ fs', fs.apply option = .ok fs' → (applyInPlace option).run.run fs = (.ok (), fs')) ∧
      ∀ e, fs.apply option = .error e → (applyInPlace option).run.run fs = (.error e, fs) := by
  have hrun : (applyInPlace option).run.run fs =
      match fs.apply option with
      | .ok fs' => (.ok (), fs')
      | .error e => (.error e, fs) := by
    simp only [applyInPlace, apply]
    cases Feature.ofOptionName? (splitOption option).1 with
    | none => rfl
    | some f => cases parseSwitch (splitOption option).1 (splitOption option).2 <;> rfl
  constructor
  · intro fs' h
    rw [hrun, h]
  · intro e h
    rw [hrun, h]

end Features

end ImportPlan
