import Mathlib
import ImportPlan.Config
import ImportPlan.Proofs.Config.Options
import ImportPlan.Proofs.Json.Reads
import ImportPlan.Proofs.Success

namespace ImportPlan

open Json (Reads Record)

/-!
# Options and JSON agree

The same settings can be given by options and by a JSON object: which features are on, and where the
serialization runtime is. Both are read as the same configuration, or refused for the same path.

* `Config.OptionsFor` — the options that give some settings; `Config.MembersFor` — the members of an
  object that gives them.
* `Config.ofOptions_of_valid`, `Config.ofOptions_of_invalid` — what options are read as.
* `Config.reads_features`, `Config.reads_settings` — what objects are read as, in whichever order
  their members come; `Config.ofJson_eq` — so are their texts.
* `Config.frontEnds_agree` — both agree.
-/

/-- Sets of features with the same members are the same. -/
theorem Features.ext_has {fs fs' : Features} (h : ∀ f, fs.has f = fs'.has f) : fs = fs' := by
  cases fs
  cases fs'
  have hscan := h .scanValueForEnum
  have hdefinition := h .definitionOnly
  have hunknown := h .keepUnknownFields
  have hequal := h .genDeepEqual
  have hset := h .validateSet
  simp_all [Features.has]

namespace Config

variable {fs : Features} {path : Option String}

/-! ### Options -/

/-- An option that says what the settings are about a feature or about the path of the runtime. -/
inductive OptionFor (fs : Features) (path : Option String) : String → Prop
  | name {f : Feature} (h : fs.has f = true) : OptionFor fs path f.optionName
  | value (f : Feature) : OptionFor fs path (f.optionName ++ "=" ++ toString (fs.has f))
  | path {p : String} (h : p ∈ path) : OptionFor fs path (runtimePathOption ++ "=" ++ p)

/-- Options that say which features are on, and where the runtime is if it is elsewhere. A feature
that is off need not be mentioned. -/
structure OptionsFor (fs : Features) (path : Option String) (options : List String) : Prop where
  each : ∀ option ∈ options, OptionFor fs path option
  features : ∀ f, fs.has f = true →
    f.optionName ∈ options ∨ f.optionName ++ "=" ++ toString true ∈ options
  runtimePath : ∀ p ∈ path, runtimePathOption ++ "=" ++ p ∈ options

/-- What a setting says of a feature or of the path of the runtime is so. -/
def SettingFor (fs : Features) (path : Option String) : Setting → Prop
  | .switch f on => on = fs.has f
  | .runtimePath p => p ∈ path

/-- Settings that say which features are on, and where the runtime is if it is elsewhere. -/
structure SettingsFor (fs : Features) (path : Option String) (settings : List Setting) : Prop where
  each : ∀ setting ∈ settings, SettingFor fs path setting
  features : ∀ f, fs.has f = true → .switch f true ∈ settings
  runtimePath : ∀ p ∈ path, .runtimePath p ∈ settings

variable {options : List String} {settings : List Setting} {p : String}

/-- An import path is accepted as the path of the runtime. -/
theorem ofOption_path_of_valid (htrimmed : Text.IsTrimmed p) (hvalid : Path.isValid p = true) :
    Setting.ofOption (runtimePathOption ++ "=" ++ p) = .ok (.runtimePath p) := by
  simp only [Setting.ofOption_path htrimmed, Redirection.checkPath, hvalid]
  rfl

/-- No other text is accepted as the path of the runtime. -/
theorem ofOption_path_of_invalid (htrimmed : Text.IsTrimmed p) (hinvalid : Path.isValid p = false) :
    Setting.ofOption (runtimePathOption ++ "=" ++ p) = .error (.invalidPath p) := by
  simp only [Setting.ofOption_path htrimmed, Redirection.checkPath, hinvalid]
  rfl

/-- Options for settings say these settings, if the path is an import path. -/
theorem OptionsFor.mapM_ofOption (h : OptionsFor fs path options)
    (htrimmed : ∀ p ∈ path, Text.IsTrimmed p) (hvalid : ∀ p ∈ path, Path.isValid p = true) :
    ∃ settings, options.mapM Setting.ofOption = .ok settings ∧ SettingsFor fs path settings := by
  have hread : ∀ option ∈ options,
      ∃ setting, Setting.ofOption option = .ok setting ∧ SettingFor fs path setting := by
    intro option hoption
    cases h.each option hoption with
    | name h => exact ⟨_, Setting.ofOption_name _, h.symm⟩
    | value f => exact ⟨_, Setting.ofOption_value f _, rfl⟩
    | path h => exact ⟨_, ofOption_path_of_valid (htrimmed _ h) (hvalid _ h), h⟩
  obtain ⟨settings, hsettings, hmem⟩ :=
    exists_mapM_eq_ok fun option hoption => (hread option hoption).imp fun _ hs => hs.1
  refine ⟨settings, hsettings, ⟨fun setting hsetting => ?_, fun f hon => ?_, fun p hp => ?_⟩⟩
  · obtain ⟨option, hoption, hok⟩ := (hmem setting).1 hsetting
    obtain ⟨setting', hok', hfor⟩ := hread option hoption
    rw [hok, Except.ok.injEq] at hok'
    rw [hok']
    exact hfor
  · rw [hmem]
    rcases h.features f hon with hname | hvalue
    · exact ⟨_, hname, Setting.ofOption_name f⟩
    · exact ⟨_, hvalue, Setting.ofOption_value f true⟩
  · rw [hmem]
    exact ⟨_, h.runtimePath p hp, ofOption_path_of_valid (htrimmed p hp) (hvalid p hp)⟩

/-- The last of values that are all the same. -/
theorem getLast?_getD_eq {α : Type} {as : List α} {a b : α} (h : ∀ x ∈ as, x = a)
    (hb : as = [] → b = a) : as.getLast?.getD b = a := by
  cases hlast : as.getLast? with
  | none => exact hb (List.getLast?_eq_none_iff.1 hlast)
  | some x => exact h x (List.mem_of_getLast? hlast)

/-- Settings turn on just the features that they say are on. -/
theorem SettingsFor.features_foldl_change (h : SettingsFor fs path settings) :
    (settings.foldl change default).features = fs := by
  apply Features.ext_has
  intro f
  rw [has_foldl_change]
  apply getLast?_getD_eq
  · intro on hon
    obtain ⟨setting, hsetting, hswitch⟩ := List.mem_filterMap.1 hon
    obtain rfl : setting = .switch f on := Setting.switch?_eq_some_iff.1 hswitch
    exact h.each _ hsetting
  · -- a feature that is on is mentioned
    intro hnone
    cases hon : fs.has f with
    | false => cases f <;> rfl
    | true =>
      have hmentioned : true ∈ settings.filterMap (Setting.switch? f) :=
        List.mem_filterMap.2 ⟨_, h.features f hon, if_pos rfl⟩
      rw [hnone] at hmentioned
      exact absurd hmentioned List.not_mem_nil

/-- Settings send the runtime where they say that it is, and nothing else anywhere. -/
theorem SettingsFor.resolve_foldl_change (h : SettingsFor fs path settings) (id : String) :
    (settings.foldl change default).redirection.resolve id =
      if id = Package.thrift.path then path.getD id else id := by
  rw [Config.resolve_foldl_change]
  apply if_congr Iff.rfl _ rfl
  apply getLast?_getD_eq
  · intro p hp
    obtain ⟨setting, hsetting, hpath⟩ := List.mem_filterMap.1 hp
    obtain rfl : setting = .runtimePath p := Setting.runtimePath?_eq_some_iff.1 hpath
    have hmem : path = some p := h.each _ hsetting
    rw [hmem]
    rfl
  · -- a path is mentioned
    intro hnone
    cases path with
    | none => rfl
    | some p =>
      have hmentioned : p ∈ settings.filterMap Setting.runtimePath? :=
        List.mem_filterMap.2 ⟨_, h.runtimePath p rfl, rfl⟩
      rw [hnone] at hmentioned
      exact absurd hmentioned List.not_mem_nil

/-- **Options are read as the settings that they say**, if the path is an import path. -/
theorem ofOptions_of_valid (h : OptionsFor fs path options)
    (htrimmed : ∀ p ∈ path, Text.IsTrimmed p) (hvalid : ∀ p ∈ path, Path.isValid p = true) :
    ∃ c, ofOptions options = .ok c ∧ c.features = fs ∧
      ∀ id, c.redirection.resolve id = if id = Package.thrift.path then path.getD id else id := by
  obtain ⟨settings, hsettings, hfor⟩ := h.mapM_ofOption htrimmed hvalid
  refine ⟨_, ?_, hfor.features_foldl_change, hfor.resolve_foldl_change⟩
  rw [ofOptions_eq, hsettings]
  rfl

/-- **Options are refused for a path that is no import path.** -/
theorem ofOptions_of_invalid (h : OptionsFor fs path options)
    (htrimmed : ∀ p ∈ path, Text.IsTrimmed p) (hp : p ∈ path) (hinvalid : Path.isValid p = false) :
    ofOptions options = .error (.invalidPath p) := by
  have hfails := ofOption_path_of_invalid (htrimmed p hp) hinvalid
  have herror : options.mapM Setting.ofOption = .error (.invalidPath p) := by
    refine mapM_eq_error (fun option hoption => ?_) ⟨_, h.runtimePath p hp, hfails⟩
    cases h.each option hoption with
    | name h => exact .inl ⟨_, Setting.ofOption_name _⟩
    | value f => exact .inl ⟨_, Setting.ofOption_value f _⟩
    | path h =>
      rw [← Option.mem_unique hp h]
      exact .inr hfails
  rw [ofOptions_eq, herror]
  rfl

/-! ### JSON -/

/-- What the members of an object of features add to the slots. -/
def fillFeatures (fs : Features) (switches : List Feature) (s : FeatureSlots) : FeatureSlots :=
  switches.foldl (fun s f => ⟨s.mentioned.set f true, s.on.set f (fs.has f)⟩) s

/-- The features that are on after the members have been read. -/
theorem has_fillFeatures (switches : List Feature) (s : FeatureSlots) (f : Feature) :
    (fillFeatures fs switches s).on.has f = if f ∈ switches then fs.has f else s.on.has f := by
  induction switches generalizing s with
  | nil => rfl
  | cons g switches ih =>
    rw [fillFeatures, List.foldl_cons]
    refine (ih _).trans ?_
    by_cases hrest : f ∈ switches
    · rw [if_pos hrest, if_pos (List.mem_cons_of_mem g hrest)]
    · -- the first member decides, if it is the one for this feature
      simp only [hrest, if_false, Features.has_set, List.mem_cons, or_false]
      by_cases hfg : f = g
      · rw [if_pos hfg, if_pos hfg, hfg]
      · rw [if_neg hfg, if_neg hfg]

/-- Members for features that come once are read in turn. -/
theorem fills_features {switches : List Feature} (hnodup : switches.Nodup) {s : FeatureSlots}
    (hnew : ∀ f ∈ switches, s.mentioned.has f = false) :
    featuresRecord.Fills s (switches.map fun f => (f.optionName, .bool (fs.has f)))
      (fillFeatures fs switches s) := by
  induction switches generalizing s with
  | nil => exact .nil s
  | cons f switches ih =>
    rw [List.nodup_cons] at hnodup
    rw [List.forall_mem_cons] at hnew
    have hcolumn :
        featuresRecord.columns.find? (·.name == f.optionName) = some (featureColumn f) := by
      cases f <;> rfl
    refine .cons hcolumn hnew.1 (fun _ _ => rfl) (ih hnodup.2 fun g hg => ?_)
    -- the other features have not been mentioned
    have hne : g ≠ f := fun heq => hnodup.1 (heq ▸ hg)
    rw [Features.has_set, if_neg hne]
    exact hnew.2 g hg

/-- **An object of truth values is read as the features that are on**, in whichever order they
come; those that are off need not be mentioned. -/
theorem reads_features {switches : List Feature} (hnodup : switches.Nodup)
    (hon : ∀ f, fs.has f = true → f ∈ switches) :
    Reads featuresDecoder (.object (switches.map fun f => (f.optionName, .bool (fs.has f)))) fs := by
  refine Record.reads (fills_features hnodup fun f _ => by cases f <;> rfl) ?_
  show Except.ok (fillFeatures fs switches _).on = _
  refine congrArg Except.ok (Features.ext_has fun f => ?_)
  rw [has_fillFeatures]
  split
  · rfl
  · next hnot =>
    cases hf : fs.has f with
    | false => cases f <;> rfl
    | true => exact absurd (hon f hf) hnot

/-- The member with the features; those that are off may be left out. -/
def featuresMember (fs : Features) (switches : List Feature) : String × Json :=
  ("features", .object (switches.map fun f => (f.optionName, .bool (fs.has f))))

/-- The member with the path of the runtime, if it is elsewhere. -/
def runtimePathMembers (path : Option String) : List (String × Json) :=
  path.toList.map fun p => (runtimePathOption, .text p)

/-- Members, in any order, that say which features are on, and where the runtime is if it is
elsewhere. -/
def MembersFor (fs : Features) (path : Option String) (members : List (String × Json)) : Prop :=
  ∃ switches : List Feature, switches.Nodup ∧ (∀ f, fs.has f = true → f ∈ switches) ∧
    members.Perm (featuresMember fs switches :: runtimePathMembers path)

variable {members : List (String × Json)} {text : String}

/-- **An object is read as the settings that its members say**, in whichever order they come. -/
theorem reads_settings (h : MembersFor fs path members) :
    Reads record.decoder (.object members) ⟨fs, [], path⟩ := by
  obtain ⟨switches, hnodup, hon, hperm⟩ := h
  have hfeatures := reads_features hnodup hon
  cases path with
  | none =>
    rw [List.perm_singleton.1 hperm]
    exact Record.reads (.slot rfl rfl hfeatures (.nil _)) rfl
  | some p =>
    have hpath := Json.reads_some_text p
    rcases List.perm_pair.1 hperm with rfl | rfl
    · exact Record.reads (.slot rfl rfl hfeatures (.slot rfl rfl hpath (.nil _))) rfl
    · exact Record.reads (.slot rfl rfl hpath (.slot rfl rfl hfeatures (.nil _))) rfl

/-- Settings nest no deeper than a text may. -/
theorem MembersFor.depth_le (h : MembersFor fs path members) :
    (Json.object members).depth ≤ Json.maxDepth := by
  obtain ⟨switches, -, -, hperm⟩ := h
  have hmembers : Json.depthMembers members ≤ 1 := by
    rw [Json.depthMembers_le_iff]
    intro m hm
    rcases List.mem_cons.1 (hperm.mem_iff.1 hm) with rfl | hpath
    · show Json.depthMembers _ + 1 ≤ 1
      apply Nat.succ_le_succ
      rw [Json.depthMembers_le_iff]
      intro m hm
      obtain ⟨f, -, rfl⟩ := List.mem_map.1 hm
      exact Nat.le_refl 0
    · obtain ⟨p, -, rfl⟩ := List.mem_map.1 hpath
      exact Nat.zero_le 1
  show Json.depthMembers members + 1 ≤ 127
  omega

/-- A text of the object is accepted as the settings are. -/
theorem ofJson_eq (h : MembersFor fs path members) (htext : (Json.object members).WrittenAs text) :
    ofJson text = accept ⟨fs, [], path⟩ :=
  (reads_settings h).parseThen h.depth_le htext accept

/-- Settings with a path of the runtime are accepted with it, after the path has been checked. -/
theorem accept_runtimePath (fs : Features) (p : String) :
    accept ⟨fs, [], some p⟩ =
      (do
        Redirection.checkPath p
        return ⟨fs, ⟨Table.empty.insert Package.thrift.path p⟩⟩ :
          Except InputError Config).mapError .rejected := by
  -- there are no other redirections, so the path is inserted into an empty table
  show ((do return ⟨fs, ← setRuntimePath .empty p⟩ : Except InputError Config).mapError _) = _
  rw [setRuntimePath_eq]
  cases Redirection.checkPath p <;> rfl

/-- Settings are accepted, if the path is an import path. -/
theorem accept_of_valid (fs : Features) (hvalid : ∀ p ∈ path, Path.isValid p = true) :
    ∃ c, accept ⟨fs, [], path⟩ = .ok c ∧ c.features = fs ∧
      ∀ id, c.redirection.resolve id = if id = Package.thrift.path then path.getD id else id := by
  cases path with
  | none => exact ⟨⟨fs, .empty⟩, rfl, rfl, fun id => by simp⟩
  | some p =>
    refine ⟨⟨fs, ⟨Table.empty.insert Package.thrift.path p⟩⟩, ?_, rfl, fun id => ?_⟩
    · simp only [accept_runtimePath, Redirection.checkPath, hvalid p rfl]
      rfl
    · simp only [Redirection.resolve, Table.get?_insert]
      split <;> rfl

/-- Settings are refused for a path that is no import path. -/
theorem accept_of_invalid (fs : Features) (hp : p ∈ path) (hinvalid : Path.isValid p = false) :
    accept ⟨fs, [], path⟩ = .error (.rejected (.invalidPath p)) := by
  obtain rfl : path = some p := hp
  simp only [accept_runtimePath, Redirection.checkPath, hinvalid]
  rfl

/-! ### Agreement -/

/-- **Options and JSON agree.** Options and the text of an object that say which features are on and
where the runtime is are read as the same features and the same redirection of all ids. If that is
no import path, both are refused for it. -/
theorem frontEnds_agree (htrimmed : ∀ p ∈ path, Text.IsTrimmed p)
    (hoptions : OptionsFor fs path options) (hmembers : MembersFor fs path members)
    (htext : (Json.object members).WrittenAs text) :
    ((∀ p ∈ path, Path.isValid p = true) →
        ∃ c c', ofOptions options = .ok c ∧ ofJson text = .ok c' ∧
          c.features = fs ∧ c'.features = fs ∧
          (∀ id, c.redirection.resolve id = c'.redirection.resolve id) ∧
          ∀ id, c.redirection.resolve id =
            if id = Package.thrift.path then path.getD id else id) ∧
      ∀ p ∈ path, Path.isValid p = false →
        ofOptions options = .error (.invalidPath p) ∧
          ofJson text = .error (.rejected (.invalidPath p)) := by
  rw [ofJson_eq hmembers htext]
  refine ⟨fun hvalid => ?_, fun p hp hinvalid => ?_⟩
  · obtain ⟨c, hc, hfeatures, hresolve⟩ := ofOptions_of_valid hoptions htrimmed hvalid
    obtain ⟨c', hc', hfeatures', hresolve'⟩ := accept_of_valid fs hvalid
    have hsame : ∀ id, c.redirection.resolve id = c'.redirection.resolve id := fun id =>
      (hresolve id).trans (hresolve' id).symm
    exact ⟨c, c', hc, hc', hfeatures, hfeatures', hsame, hresolve⟩
  · exact ⟨ofOptions_of_invalid hoptions htrimmed hp hinvalid, accept_of_invalid fs hp hinvalid⟩

/-- Two features, a third one turned off, and a fork of the runtime; then no feature, and a path
with a quote and an equals sign, which is refused. -/
theorem frontEnds_agree_of_fork :
    let options := ["validate_set", "thrift_import_path=example.com/fork", "definition_only=false",
      "gen_deep_equal=true"]
    let members : List (String × Json) :=
      [("thrift_import_path", .text "example.com/fork"),
       ("features", .object [("gen_deep_equal", .bool true), ("scan_value_for_enum", .bool false),
        ("validate_set", .bool true)])]
    let invalid := ["thrift_import_path=a=\"b"]
    let invalidMembers : List (String × Json) :=
      [("features", .object []), ("thrift_import_path", .text "a=\"b")]
    (∃ c c', ofOptions options = .ok c ∧ ofJson (Json.object members).render = .ok c' ∧
      c.features = c'.features ∧ c.redirection.resolve Package.thrift.path = "example.com/fork") ∧
    ofOptions invalid = .error (.invalidPath "a=\"b") ∧
    ofJson (Json.object invalidMembers).render = .error (.rejected (.invalidPath "a=\"b")) := by
  intro options members invalid invalidMembers
  constructor
  · have hoptions :
        OptionsFor ⟨false, false, false, true, true⟩ (some "example.com/fork") options := by
      refine ⟨?_, fun f hon => ?_, ?_⟩
      · simp only [options, List.forall_mem_cons]
        exact ⟨.name (f := .validateSet) rfl, .path rfl, .value .definitionOnly,
          .value .genDeepEqual, List.forall_mem_nil _⟩
      · cases f with
        | genDeepEqual => exact .inr (by decide)
        | validateSet => exact .inl (by decide)
        | _ => cases hon
      · rintro p ⟨⟩
        decide
    have htrimmed : ∀ p ∈ some "example.com/fork", Text.IsTrimmed p := by
      rintro p ⟨⟩
      simp [Text.IsTrimmed]
      decide
    have hmembers :
        MembersFor ⟨false, false, false, true, true⟩ (some "example.com/fork") members := by
      refine ⟨[.genDeepEqual, .scanValueForEnum, .validateSet], by decide, fun f => ?_, .swap _ _ _⟩
      cases f <;> decide
    have hvalid : ∀ p ∈ some "example.com/fork", Path.isValid p = true := by
      rintro p ⟨⟩
      decide
    obtain ⟨c, c', hc, hc', hfeatures, hfeatures', -, hresolve⟩ :=
      (frontEnds_agree htrimmed hoptions hmembers (Json.writtenAs_render _)).1 hvalid
    exact ⟨c, c', hc, hc', hfeatures.trans hfeatures'.symm, hresolve _⟩
  · have hoptions : OptionsFor .empty (some "a=\"b") invalid := by
      refine ⟨?_, fun f hon => ?_, ?_⟩
      · rw [List.forall_mem_singleton]
        exact .path rfl
      · cases f <;> cases hon
      · rintro p ⟨⟩
        decide
    have htrimmed : ∀ p ∈ some "a=\"b", Text.IsTrimmed p := by
      rintro p ⟨⟩
      simp [Text.IsTrimmed]
      decide
    have hmembers : MembersFor .empty (some "a=\"b") invalidMembers := by
      refine ⟨[], .nil, fun f hon => ?_, .refl _⟩
      cases f <;> cases hon
    exact (frontEnds_agree htrimmed hoptions hmembers (Json.writtenAs_render _)).2 _ rfl (by decide)

end Config

end ImportPlan
