import Mathlib
import ImportPlan.Config
import ImportPlan.Proofs.Text.Trimmed

namespace ImportPlan

/-!
# What options say

Each option says one thing, no matter which other options there are: that a feature is on or off, or
where the serialization runtime is. The settings come from what the options say, in turn.

* `Features.splitOption_of_not_mem`, `Features.splitOption_append` — the parts of an option.
* `Setting.ofOption` — what an option says.
* `Setting.ofOption_name`, `Setting.ofOption_value`, `Setting.ofOption_path` — the usual ways to
  write an option.
* `Config.change` — the settings after one of them has been changed.
* `Config.ofOptions_eq` — options are read one by one, then they take effect in turn.
* `Config.has_foldl_change`, `Config.resolve_foldl_change` — the last word on a feature and on the
  path of the runtime.
-/

/-! ### The parts of an option -/

namespace Features

/-- An option without an equals sign is a name. -/
theorem splitOption_of_not_mem {option : String} (h : '=' ∉ option.toList) :
    splitOption option = (Text.trim option, none) := by
  simp only [splitOption, Text.splitAtFirst_of_not_mem h]
  rfl

/-- An option with an equals sign is a name and, behind the first one, a value. -/
theorem splitOption_append {before : String} (h : '=' ∉ before.toList) (after : String) :
    splitOption (before ++ "=" ++ after) = (Text.trim before, some (Text.trim after)) := by
  have hsplit : Text.splitAtFirst '=' (before ++ "=" ++ after) = (before, some after) :=
    Text.splitAtFirst_append h after
  simp only [splitOption, hsplit]
  rfl

end Features

/-! ### What an option says -/

/-- What an option says. -/
inductive Setting
  /-- A feature is on or off. -/
  | switch (feature : Feature) (on : Bool)
  /-- The serialization runtime is at this path. -/
  | runtimePath (path : String)
  deriving DecidableEq, Repr

namespace Setting

/-- What an option for a feature says, by its name and its value. -/
def ofSwitch (name : String) (value : Option String) : Except InputError Setting :=
  match Feature.ofOptionName? name with
  | none => .error (.unknownOption name)
  | some f => return .switch f (← Features.parseSwitch name value)

/-- What an option says by its parts. -/
def ofParts : String × Option String → Except InputError Setting
  | (name, some path) =>
    if name = Config.runtimePathOption then do
      Redirection.checkPath path
      return .runtimePath path
    else ofSwitch name (some path)
  | (name, none) => ofSwitch name none

/-- What an option says. -/
def ofOption (option : String) : Except InputError Setting := ofParts (Features.splitOption option)

/-! ### Ways to write an option -/

/-- A name alone. -/
theorem splitOption_name {name : String} (hname : '=' ∉ name.toList)
    (htrimmed : Text.IsTrimmed name) : Features.splitOption name = (name, none) := by
  rw [Features.splitOption_of_not_mem hname, Text.trim_eq_self htrimmed]

/-- A name with a value, which may hold anything in between its ends. -/
theorem splitOption_value {name value : String} (hname : '=' ∉ name.toList)
    (htrimmed : Text.IsTrimmed name) (hvalue : Text.IsTrimmed value) :
    Features.splitOption (name ++ "=" ++ value) = (name, some value) := by
  rw [Features.splitOption_append hname, Text.trim_eq_self htrimmed, Text.trim_eq_self hvalue]

/-- The names of features are names of options. -/
theorem optionName_spec (f : Feature) :
    '=' ∉ f.optionName.toList ∧ Text.IsTrimmed f.optionName ∧
      f.optionName ≠ Config.runtimePathOption ∧ Feature.ofOptionName? f.optionName = some f := by
  refine ⟨?_, ?_, ?_, ?_⟩
  · cases f <;> simp [Feature.optionName]
  · cases f <;> simp [Feature.optionName, Text.IsTrimmed] <;> decide
  · cases f <;> decide
  · cases f <;> rfl

/-- The name of a feature says that it is on. -/
theorem ofOption_name (f : Feature) : ofOption f.optionName = .ok (.switch f true) := by
  obtain ⟨hname, htrimmed, -, hfind⟩ := optionName_spec f
  rw [ofOption, splitOption_name hname htrimmed, ofParts, ofSwitch, hfind]
  rfl

/-- The name of a feature with a truth value says that it is on or off. -/
theorem ofOption_value (f : Feature) (on : Bool) :
    ofOption (f.optionName ++ "=" ++ toString on) = .ok (.switch f on) := by
  obtain ⟨hname, htrimmed, hne, hfind⟩ := optionName_spec f
  have hvalue : Text.IsTrimmed (toString on) := by
    cases on <;> simp [toString, Text.IsTrimmed] <;> decide
  rw [ofOption, splitOption_value hname htrimmed hvalue, ofParts, if_neg hne, ofSwitch, hfind]
  cases on <;> rfl

/-- The path of the runtime has to be an import path. -/
theorem ofOption_path {path : String} (h : Text.IsTrimmed path) :
    ofOption (Config.runtimePathOption ++ "=" ++ path) =
      (do
        Redirection.checkPath path
        return .runtimePath path) := by
  have hname : '=' ∉ Config.runtimePathOption.toList := by simp [Config.runtimePathOption]
  have htrimmed : Text.IsTrimmed Config.runtimePathOption := by
    simp [Config.runtimePathOption, Text.IsTrimmed]
    decide
  rw [ofOption, splitOption_value hname htrimmed h, ofParts, if_pos rfl]

/-! ### The last word -/

/-- What a setting says of a feature. -/
def switch? (f : Feature) : Setting → Option Bool
  | switch g on => if f = g then some on else none
  | runtimePath _ => none

/-- What a setting says of the path of the runtime. -/
def runtimePath? : Setting → Option String
  | switch _ _ => none
  | runtimePath path => some path

theorem switch?_eq_some_iff {f : Feature} {on : Bool} {setting : Setting} :
    setting.switch? f = some on ↔ setting = .switch f on := by
  cases setting with
  | runtimePath path => simp [switch?]
  | switch g b =>
    by_cases hg : f = g
    · simp [switch?, hg]
    · simp [switch?, hg, Ne.symm hg]

theorem runtimePath?_eq_some_iff {path : String} {setting : Setting} :
    setting.runtimePath? = some path ↔ setting = .runtimePath path := by
  cases setting <;> simp [runtimePath?]

end Setting

namespace Config

/-- The settings after one of them has been changed. -/
def change (c : Config) : Setting → Config
  | .switch f on => { c with features := c.features.set f on }
  | .runtimePath path =>
    { c with redirection := ⟨c.redirection.table.insert Package.thrift.path path⟩ }

/-- The runtime is at a path that can be redirected. -/
theorem setRuntimePath_eq (r : Redirection) (path : String) :
    setRuntimePath r path = (do
      Redirection.checkPath path
      return ⟨r.table.insert Package.thrift.path path⟩) := by
  have hthrift : Redirection.checkPath Package.thrift.path = .ok () := by decide
  rw [setRuntimePath, Redirection.insert, hthrift]
  rfl

/-- An option for a feature changes that feature. -/
theorem apply_switch_eq (c : Config) {option name : String} {value : Option String}
    (h : Features.splitOption option = (name, value)) :
    (do return { c with features := ← c.features.apply option } : Except InputError Config) =
      (do return c.change (← Setting.ofSwitch name value)) := by
  simp only [Features.apply, h, Setting.ofSwitch]
  cases Feature.ofOptionName? name with
  | none => rfl
  | some f => cases Features.parseSwitch name value <;> rfl

/-- An option changes what it says. -/
theorem apply_eq (c : Config) (option : String) :
    c.apply option = (do return c.change (← Setting.ofOption option)) := by
  cases hparts : Features.splitOption option with
  | mk name value =>
    have hswitch := apply_switch_eq c hparts
    cases value with
    | none => simpa only [apply, Setting.ofOption, hparts, Setting.ofParts] using hswitch
    | some path =>
      -- only an option with a value can be the one for the runtime
      simp only [apply, Setting.ofOption, hparts, Setting.ofParts, setRuntimePath_eq]
      by_cases hname : name = runtimePathOption
      · rw [if_pos hname, if_pos hname]
        cases Redirection.checkPath path <;> rfl
      · rw [if_neg hname, if_neg hname]
        exact hswitch

/-- **Options are read one by one, then they take effect in turn.** -/
theorem ofOptions_eq (options : List String) :
    ofOptions options =
      (options.mapM Setting.ofOption).map fun settings => settings.foldl change default := by
  rw [ofOptions]
  -- what is left to be read does not depend on the settings so far
  generalize default = c
  induction options generalizing c with
  | nil => rfl
  | cons option options ih =>
    rw [List.foldlM_cons, List.mapM_cons, apply_eq]
    cases Setting.ofOption option with
    | error e => rfl
    | ok setting =>
      show List.foldlM apply (c.change setting) options = _
      rw [ih]
      cases options.mapM Setting.ofOption <;> rfl

/-- The last setting of a feature wins. -/
theorem has_foldl_change (settings : List Setting) (c : Config) (f : Feature) :
    (settings.foldl change c).features.has f =
      (settings.filterMap (Setting.switch? f)).getLast?.getD (c.features.has f) := by
  induction settings generalizing c with
  | nil => rfl
  | cons setting settings ih =>
    rw [List.foldl_cons, ih, List.filterMap_cons]
    cases setting with
    | runtimePath path => rfl
    | switch g on =>
      simp only [change, Setting.switch?, Features.has_set]
      by_cases hg : f = g
      · rw [if_pos hg, if_pos hg, List.getLast?_cons]
        rfl
      · rw [if_neg hg, if_neg hg]

/-- The last path of the runtime wins, and all other ids stay as they are. -/
theorem resolve_foldl_change (settings : List Setting) (c : Config) (id : String) :
    (settings.foldl change c).redirection.resolve id =
      if id = Package.thrift.path then
        (settings.filterMap Setting.runtimePath?).getLast?.getD (c.redirection.resolve id)
      else c.redirection.resolve id := by
  induction settings generalizing c with
  | nil => simp
  | cons setting settings ih =>
    rw [List.foldl_cons, ih, List.filterMap_cons]
    cases setting with
    | switch g on => rfl
    | runtimePath path =>
      simp only [change, Setting.runtimePath?, Redirection.resolve, Table.get?_insert]
      by_cases hid : id = Package.thrift.path
      · rw [if_pos hid, if_pos hid, if_pos hid, List.getLast?_cons]
        rfl
      · rw [if_neg hid, if_neg hid, if_neg hid]

end Config

end ImportPlan
