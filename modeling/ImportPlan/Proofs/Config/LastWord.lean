import Mathlib
import ImportPlan.Config
import ImportPlan.Proofs.Config.Options
import ImportPlan.Proofs.Config.SingleOption
import ImportPlan.Proofs.FirstAndLast
import ImportPlan.Proofs.Success

namespace ImportPlan

/-!
# The last word and the first error

A list of options is accepted if each of them says something on its own. Then the last one about a
feature or about the runtime decides; if not, the first one that is refused does.

* `Config.has_iff_last_word`, `Config.resolve_last_word` — the last option decides.
* `Config.ofOptions_eq_error_iff` — the first option that says nothing is reported.
* `Config.ofOptions_features` — the features are read as they are without a runtime.
* `Config.ofOptions_last_word` — what a list of options is read as.
-/

namespace Config

open Features (HasParts IsNamed SetsRuntimePath)
open Setting (Says IsRefusedFor ofOption)

variable {options : List String} {settings : List Setting} {option : String} {setting : Setting}
  {f : Feature}

/-! ### The last word -/

/-- An option that says something about a feature has the feature's name. -/
theorem isSome_switch?_iff (h : Says option setting) :
    (setting.switch? f).isSome ↔ IsNamed f option := by
  have hname : ∀ {g : Feature} {value on}, HasParts option g.optionName value →
      (((Setting.switch g on).switch? f).isSome ↔ IsNamed f option) := by
    intro g value on hparts
    by_cases hfg : f = g
    · subst hfg
      exact iff_of_true (by simp [Setting.switch?]) ⟨value, hparts⟩
    · -- the name of another feature is another name
      refine iff_of_false (by simp [Setting.switch?, hfg]) ?_
      rintro ⟨value', hparts'⟩
      have heq := (hparts'.unique hparts).1
      have hf := (Setting.optionName_spec f).2.2.2
      rw [heq, (Setting.optionName_spec g).2.2.2] at hf
      exact hfg (Option.some.inj hf).symm
  cases h with
  | on hparts hvalue => exact hname hparts
  | off hparts => exact hname hparts
  | runtimePath hparts hpath =>
    refine iff_of_false (by simp [Setting.switch?]) ?_
    rintro ⟨value', hparts'⟩
    exact (Setting.optionName_spec f).2.2.1 (hparts'.unique hparts).1

/-- An option that says something about the runtime has its name and a value. -/
theorem isSome_runtimePath?_iff (h : Says option setting) :
    setting.runtimePath?.isSome ↔ SetsRuntimePath option := by
  have hname : ∀ {g : Feature} {value on}, HasParts option g.optionName value →
      ((Setting.switch g on).runtimePath?.isSome ↔ SetsRuntimePath option) := by
    intro g value on hparts
    refine iff_of_false (by simp [Setting.runtimePath?]) ?_
    rintro ⟨path, hparts'⟩
    exact (Setting.optionName_spec g).2.2.1 (hparts.unique hparts').1
  cases h with
  | on hparts hvalue => exact hname hparts
  | off hparts => exact hname hparts
  | runtimePath hparts hpath => exact iff_of_true rfl ⟨_, hparts⟩

/-- What the settings say of one thing, by the options that they are read from. -/
theorem filterMap_settings {β : Type}
    (h : List.Forall₂ (fun option setting => ofOption option = .ok setting) options settings)
    (g : Setting → Option β) :
    settings.filterMap g = options.filterMap fun option => (ofOption option).toOption.bind g := by
  induction h with
  | nil => rfl
  | cons hsetting hrest ih =>
    rw [List.filterMap_cons, List.filterMap_cons, hsetting, ih]
    rfl

/-- The last setting of one thing is read from the last option about it. -/
theorem getLast?_settings {β : Type} {g : Setting → Option β} {P : String → Prop}
    (hP : ∀ {option setting}, Says option setting → ((g setting).isSome ↔ P option))
    (h : List.Forall₂ (fun option setting => ofOption option = .ok setting) options settings) :
    (∀ option, IsLast P options option →
        ∃ setting, Says option setting ∧ (settings.filterMap g).getLast? = g setting) ∧
      ((∀ option ∈ options, ¬ P option) → settings.filterMap g = []) := by
  have hread : ∀ option ∈ options, ∃ setting, ofOption option = .ok setting :=
    fun option hoption => (exists_of_forall₂ h hoption).imp fun _ hs => hs.2
  -- on options that are read, the property is that their settings say something of the thing
  have hiff : ∀ option ∈ options,
      P option ↔ ((ofOption option).toOption.bind g).isSome := by
    intro option hoption
    obtain ⟨setting, hsetting⟩ := hread option hoption
    rw [hsetting, ← hP (Setting.ofOption_eq_ok_iff.1 hsetting)]
    rfl
  rw [filterMap_settings h]
  constructor
  · intro option hlast
    obtain ⟨setting, hsetting⟩ := hread option hlast.mem
    refine ⟨setting, Setting.ofOption_eq_ok_iff.1 hsetting, ?_⟩
    rw [getLast?_filterMap_of_isLast (hlast.congr hiff), hsetting]
    rfl
  · intro hnone
    rw [List.filterMap_eq_nil_iff]
    intro option hoption
    exact Option.not_isSome_iff_eq_none.1 fun hsome =>
      hnone option hoption ((hiff option hoption).2 hsome)

/-- A feature is off by its option just if the value says so. -/
theorem says_switch_iff {on : Bool} (h : Says option (.switch f on)) :
    on = true ↔ ¬ HasParts option f.optionName (some "false") := by
  cases h with
  | on hparts hvalue =>
    refine iff_of_true rfl fun hoff => ?_
    rw [(hparts.unique hoff).2] at hvalue
    exact absurd hvalue (by decide)
  | off hparts => exact iff_of_false (by decide) (not_not_intro hparts)

/-- **The last option for a feature decides.** -/
theorem has_iff_last_word
    (h : List.Forall₂ (fun option setting => ofOption option = .ok setting) options settings) :
    (settings.foldl change default).features.has f = true ↔
      ∃ option, IsLast (IsNamed f) options option ∧
        ¬ HasParts option f.optionName (some "false") := by
  obtain ⟨hlast, hnone⟩ := getLast?_settings (g := Setting.switch? f) isSome_switch?_iff h
  have hdefault : default.features.has f = false := by cases f <;> rfl
  have hdecides : ∀ {option}, IsLast (IsNamed f) options option →
      ((settings.foldl change default).features.has f = true ↔
        ¬ HasParts option f.optionName (some "false")) := by
    intro option hoption
    obtain ⟨setting, hsays, hgetLast⟩ := hlast option hoption
    obtain ⟨on, hon⟩ := Option.isSome_iff_exists.1 ((isSome_switch?_iff hsays).2 hoption.prop)
    rw [has_foldl_change, hgetLast, hon]
    rw [Setting.switch?_eq_some_iff] at hon
    exact says_switch_iff (hon ▸ hsays)
  by_cases hmentioned : ∃ option ∈ options, IsNamed f option
  · obtain ⟨option, hoption⟩ := exists_isLast hmentioned
    constructor
    · intro hhas
      exact ⟨option, hoption, (hdecides hoption).1 hhas⟩
    · rintro ⟨option', hoption', hon⟩
      exact (hdecides hoption').2 hon
  · -- a feature that no option mentions stays off
    rw [has_foldl_change, hnone fun option hoption hnames => hmentioned ⟨option, hoption, hnames⟩]
    refine iff_of_false (by simp [hdefault]) ?_
    rintro ⟨option, hoption, -⟩
    exact hmentioned ⟨option, hoption.mem, hoption.prop⟩

/-- **The last option for the runtime decides**; all other ids stay as they are. -/
theorem resolve_last_word
    (h : List.Forall₂ (fun option setting => ofOption option = .ok setting) options settings) :
    let r := (settings.foldl change default).redirection
    (∀ option path, IsLast SetsRuntimePath options option →
        HasParts option runtimePathOption (some path) → r.resolve Package.thrift.path = path) ∧
      ((∀ option ∈ options, ¬ SetsRuntimePath option) →
        r.resolve Package.thrift.path = Package.thrift.path) ∧
      ∀ id, id ≠ Package.thrift.path → r.resolve id = id := by
  intro r
  obtain ⟨hlast, hnone⟩ := getLast?_settings (g := Setting.runtimePath?) isSome_runtimePath?_iff h
  refine ⟨fun option path hoption hparts => ?_, fun hall => ?_, fun id hid => ?_⟩
  · obtain ⟨setting, hsays, hgetLast⟩ := hlast option hoption
    obtain ⟨path', hpath'⟩ :=
      Option.isSome_iff_exists.1 ((isSome_runtimePath?_iff hsays).2 ⟨path, hparts⟩)
    rw [resolve_foldl_change, if_pos rfl, hgetLast, hpath']
    rw [Setting.runtimePath?_eq_some_iff] at hpath'
    rw [hpath'] at hsays
    cases hsays with
    | runtimePath hparts' _ => exact Option.some.inj (hparts'.unique hparts).2
  · rw [resolve_foldl_change, if_pos rfl, hnone hall]
    rfl
  · rw [resolve_foldl_change, if_neg hid]
    rfl

/-! ### Features alone -/

/-- An option that is not for the runtime is left to the features. -/
theorem apply_features (c : Config) (h : ¬ SetsRuntimePath option) :
    (c.apply option).map (·.features) = c.features.apply option := by
  have heq : c.apply option =
      (do return { c with features := ← c.features.apply option } : Except InputError Config) := by
    unfold apply
    split
    · next name path hparts =>
      split
      · next hname =>
        subst hname
        exact absurd ⟨path, Features.hasParts_iff.2 hparts⟩ h
      · rfl
    · rfl
  rw [heq]
  cases c.features.apply option <;> rfl

/-- **Without options for the runtime, features and errors are those of the features alone.** -/
theorem ofOptions_features
    (h : ∀ option ∈ options, ¬ SetsRuntimePath option) :
    (ofOptions options).map (·.features) = Features.ofOptions options := by
  show (options.foldlM apply default).map (·.features) =
    options.foldlM Features.apply default.features
  -- the induction goes over options that are read on from any configuration
  generalize default = c
  induction options generalizing c with
  | nil => rfl
  | cons option options ih =>
    rw [List.forall_mem_cons] at h
    rw [List.foldlM_cons, List.foldlM_cons, ← apply_features c h.1]
    cases c.apply option with
    | error e => rfl
    | ok c' => exact ih h.2 c'

/-! ### Lists of options -/

/-- The settings that options are read as, if they are accepted. -/
theorem ofOptions_eq_ok_iff {c : Config} :
    ofOptions options = .ok c ↔ ∃ settings,
      List.Forall₂ (fun option setting => ofOption option = .ok setting) options settings ∧
        c = settings.foldl change default := by
  rw [ofOptions_eq]
  simp only [← mapM_eq_ok_iff]
  cases options.mapM ofOption with
  | error e => simp [Except.map]
  | ok settings => simp [Except.map, eq_comm]

/-- Options are accepted just if each of them says something. -/
theorem exists_ofOptions_eq_ok_iff :
    (∃ c, ofOptions options = .ok c) ↔ ∀ option ∈ options, ∃ setting, Says option setting := by
  simp only [← Setting.ofOption_eq_ok_iff]
  constructor
  · rintro ⟨c, hc⟩
    obtain ⟨settings, hsettings, -⟩ := ofOptions_eq_ok_iff.1 hc
    exact fun option hoption => (exists_of_forall₂ hsettings hoption).imp fun _ hs => hs.2
  · intro hall
    obtain ⟨settings, hsettings, -⟩ := exists_mapM_eq_ok hall
    exact ⟨_, ofOptions_eq_ok_iff.2 ⟨settings, mapM_eq_ok_iff.1 hsettings, rfl⟩⟩

/-- The first option that says nothing is the one that is reported. -/
theorem ofOptions_eq_error_iff {e : InputError} :
    ofOptions options = .error e ↔
      ∃ option, IsFirst (fun option => ¬ ∃ setting, Says option setting) options option ∧
        IsRefusedFor option e := by
  have hfails : ofOptions options = .error e ↔ options.mapM ofOption = .error e := by
    rw [ofOptions_eq]
    cases options.mapM ofOption <;> simp [Except.map]
  rw [hfails, mapM_eq_error_iff]
  simp only [Setting.ofOption_eq_ok_iff, Setting.ofOption_eq_error_iff]
  constructor
  · rintro ⟨before, option, after, heq, hbefore, hrefused⟩
    have hnothing : ¬ ∃ setting, Says option setting := by
      rintro ⟨setting, hsays⟩
      rw [← Setting.ofOption_eq_ok_iff, Setting.ofOption_eq_error_iff.2 hrefused] at hsays
      cases hsays
    exact ⟨option, ⟨before, after, heq, hnothing, fun x hx => not_not_intro (hbefore x hx)⟩,
      hrefused⟩
  · rintro ⟨option, ⟨before, after, heq, -, hbefore⟩, hrefused⟩
    exact ⟨before, option, after, heq, fun x hx => not_not.1 (hbefore x hx), hrefused⟩

/-- **The last word and the first error.** A list of options is accepted just if each of them says
something. Then a feature is on just if an option has its name and the last one that does is not
false, the runtime is at the path of the last option for it, and all other ids stay as they are. If
not, the first option that says nothing is the one reported, for what is wrong with it. Without
options for the runtime the features, or the error, are those of the features alone, and running
features are left as they are by an option that is refused. -/
theorem ofOptions_last_word (options : List String) :
    ((∃ c, ofOptions options = .ok c) ↔ ∀ option ∈ options, ∃ setting, Says option setting) ∧
      (∀ c, ofOptions options = .ok c →
        (∀ f, c.features.has f = true ↔ ∃ option, IsLast (IsNamed f) options option ∧
          ¬ HasParts option f.optionName (some "false")) ∧
        (∀ option path, IsLast SetsRuntimePath options option →
          HasParts option runtimePathOption (some path) →
            c.redirection.resolve Package.thrift.path = path) ∧
        ((∀ option ∈ options, ¬ SetsRuntimePath option) →
          c.redirection.resolve Package.thrift.path = Package.thrift.path) ∧
        ∀ id, id ≠ Package.thrift.path → c.redirection.resolve id = id) ∧
      (∀ e, ofOptions options = .error e ↔
        ∃ option, IsFirst (fun option => ¬ ∃ setting, Says option setting) options option ∧
          IsRefusedFor option e) ∧
      ((∀ option ∈ options, ¬ SetsRuntimePath option) →
        (ofOptions options).map (·.features) = Features.ofOptions options) ∧
      ∀ (fs : Features) (option : String),
        (∀ fs', fs.apply option = .ok fs' →
          (Features.applyInPlace option).run.run fs = (.ok (), fs')) ∧
        ∀ e, fs.apply option = .error e →
          (Features.applyInPlace option).run.run fs = (.error e, fs) := by
  refine ⟨exists_ofOptions_eq_ok_iff, fun c hc => ?_, fun e => ofOptions_eq_error_iff,
    ofOptions_features, Features.run_applyInPlace⟩
  obtain ⟨settings, hsettings, rfl⟩ := ofOptions_eq_ok_iff.1 hc
  exact ⟨fun f => has_iff_last_word hsettings, resolve_last_word hsettings⟩

/-- Options with blanks and several equals signs, one that is taken back, and two paths; then a list
with an unknown name before a bad value. -/
theorem ofOptions_last_word_of_retraction :
    let options := [" gen_deep_equal ", "validate_set=", "thrift_import_path=a/b",
      "thrift_import_path = example.com/fork", "validate_set = false"]
    let refused := ["validate_set", "frugal=no=yes", "validate_set=yes"]
    (∃ c, ofOptions options = .ok c ∧ c.features.has .genDeepEqual = true ∧
      c.features.has .validateSet = false ∧
      c.redirection.resolve Package.thrift.path = "example.com/fork") ∧
    ofOptions refused = .error (.unknownOption "frugal") ∧
    (Features.applyInPlace "validate_set=yes").run.run .empty =
      (.error (.invalidValue "validate_set" "yes"), .empty) := by
  intro options refused
  have hbare : ∀ {option name}, Features.splitOption option = (name, none) →
      HasParts option name none := Features.hasParts_iff.2
  have hgiven : ∀ {option name value}, Features.splitOption option = (name, some value) →
      HasParts option name (some value) := Features.hasParts_iff.2
  obtain ⟨haccepted, hread, -, -, hrunning⟩ := ofOptions_last_word options
  refine ⟨?_, ?_, (hrunning .empty "validate_set=yes").2 _ (by decide)⟩
  · obtain ⟨c, hc⟩ := haccepted.2 <| by
      have hempty : HasParts "validate_set=" Feature.validateSet.optionName (some "") :=
        hgiven (by decide)
      simp only [options, List.forall_mem_cons]
      exact ⟨⟨.switch .genDeepEqual true, .on (hbare (by decide)) (by decide)⟩,
        ⟨.switch .validateSet true, .on hempty (by decide)⟩,
        ⟨.runtimePath "a/b", .runtimePath (hgiven (by decide)) (by decide)⟩,
        ⟨.runtimePath "example.com/fork", .runtimePath (hgiven (by decide)) (by decide)⟩,
        ⟨.switch .validateSet false, .off (hgiven (by decide))⟩, List.forall_mem_nil _⟩
    obtain ⟨hhas, hruntime, -, -⟩ := hread c hc
    refine ⟨c, hc, ?_, ?_, ?_⟩
    · refine (hhas .genDeepEqual).2 ⟨_, ⟨[], _, rfl, ?_, ?_⟩, ?_⟩
      · exact Features.isNamed_iff.2 (by decide)
      · simp only [Features.isNamed_iff]
        decide
      · rw [Features.hasParts_iff]
        decide
    · have hlast : IsLast (IsNamed .validateSet) options "validate_set = false" :=
        ⟨options.take 4, [], rfl, Features.isNamed_iff.2 (by decide), nofun⟩
      refine Bool.eq_false_iff.2 fun hon => ?_
      obtain ⟨option, hoption, hnot⟩ := (hhas .validateSet).1 hon
      rw [hoption.unique hlast] at hnot
      exact hnot (hgiven (by decide))
    · refine hruntime "thrift_import_path = example.com/fork" "example.com/fork"
        ⟨options.take 3, ["validate_set = false"], rfl,
          ⟨"example.com/fork", hgiven (by decide)⟩, ?_⟩ (hgiven (by decide))
      rw [List.forall_mem_singleton]
      rintro ⟨path, hpath⟩
      have hname : (Features.splitOption "validate_set = false").1 = runtimePathOption :=
        congrArg Prod.fst (Features.hasParts_iff.1 hpath)
      exact absurd hname (by decide)
  · have hunknown : HasParts "frugal=no=yes" "frugal" (some "no=yes") := hgiven (by decide)
    refine ((ofOptions_last_word refused).2.2.1 _).2 ⟨"frugal=no=yes", ⟨["validate_set"], _, rfl,
      ?_, ?_⟩, .name hunknown ?_ (by decide)⟩
    · rintro ⟨setting, hsays⟩
      have hrefused : ofOption "frugal=no=yes" = .error (.unknownOption "frugal") := by decide
      rw [← Setting.ofOption_eq_ok_iff, hrefused] at hsays
      cases hsays
    · rw [List.forall_mem_singleton]
      exact not_not_intro
        ⟨.switch .validateSet true, .on (hbare (by decide)) (by decide)⟩
    · intro f
      cases f <;> decide

end Config

end ImportPlan
