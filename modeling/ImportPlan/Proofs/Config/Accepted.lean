import ImportPlan.Proofs.Config.FrontEnds
import ImportPlan.Proofs.Json.Grammar
import ImportPlan.Proofs.Json.Members
import ImportPlan.Proofs.Redirection.Entries

namespace ImportPlan

open Json (Column Decoder HasMember Key NamedAmong Outline Record)

/-!
# Objects that are configurations

Which objects are accepted as configurations, and what they are read as. The order of the members
makes no difference.

* `Config.IsSwitches`, `Config.AreSettings` — the objects that are accepted.
* `Config.SwitchesOn`, `Config.RuntimeAt`, `Config.Replaces` — what is said by members.
* `Config.featuresRecord_isLawful`, `Config.record_isLawful` — the columns do not interfere.
* `Config.exists_features_iff`, `Config.has_features_iff` — objects of features.
* `Config.ofSettings_eq_ok_iff` — settings whose paths are valid.
* `Config.ofJson_accepts` — just these objects are accepted, and what they are read as.
-/

namespace Config

variable {members switches : List (Key × Outline)} {f : Feature} {fs : Features} {depth : Nat}

/-! ### What members say -/

/-- The value is an object of truth values whose names are those of features, none twice. -/
inductive IsSwitches : Outline → Prop
  | object {switches : List (Key × Outline)}
    (hnames : NamedAmong switches (Feature.all.map (·.optionName)))
    (hvalues : ∀ name value, HasMember switches name value → ∃ on, value.IsBool on) :
    IsSwitches (.object switches none)

/-- The members are settings. Of the redirections only the last ones for their ids count. -/
structure AreSettings (members : List (Key × Outline)) : Prop where
  names : NamedAmong members ["features", "import_replace", "thrift_import_path"]
  features : ∀ value, HasMember members "features" value → IsSwitches value
  redirections : ∀ value, HasMember members "import_replace" value →
    ∃ entries, value.IsDictionary entries ∧
      ∀ id target, IsLast (fun e => e.1 = id) entries (id, target) →
        Path.isValid id = true ∧ Path.isValid target = true
  runtimePath : ∀ value, HasMember members "thrift_import_path" value →
    value.IsNull ∨ ∃ path, value.IsText path ∧ Path.isValid path = true

/-- A member turns the feature on. -/
def SwitchesOn (members : List (Key × Outline)) (f : Feature) : Prop :=
  ∃ switches value, HasMember members "features" (.object switches none) ∧
    HasMember switches f.optionName value ∧ value.IsBool true

/-- A member says that the runtime is at this path. -/
def RuntimeAt (members : List (Key × Outline)) (path : String) : Prop :=
  ∃ value, HasMember members "thrift_import_path" value ∧ value.IsText path

/-- A member sends the id to this target, by the last of its entries for the id. -/
def Replaces (members : List (Key × Outline)) (id target : String) : Prop :=
  ∃ value entries, HasMember members "import_replace" value ∧ value.IsDictionary entries ∧
    IsLast (fun e => e.1 = id) entries (id, target)

/-! ### Features -/

/-- What the column of a feature reads. -/
theorem read_featureColumn_eq_ok_iff {source : Json.Source} {o : Outline}
    {u : FeatureSlots → FeatureSlots} :
    (featureColumn f).read source o = .ok u ↔
      ∃ on, o.IsBool on ∧ u = fun s => ⟨s.mentioned.set f true, s.on.set f on⟩ := by
  show (Decoder.bool source o >>= _) = .ok u ↔ _
  rw [bind_eq_ok_iff]
  refine exists_congr fun on => and_congr Json.Decoder.bool_eq_ok_iff ?_
  exact ⟨fun h => (Except.ok.inj h).symm, fun h => congrArg Except.ok h.symm⟩

/-- Features are set in any order. -/
theorem set_comm {f g : Feature} (hne : f ≠ g) (fs : Features) (on on' : Bool) :
    (fs.set f on).set g on' = (fs.set g on').set f on := by
  apply Features.ext_has
  intro f'
  simp only [Features.has_set]
  by_cases hf : f' = f
  · rw [if_pos hf, if_pos hf, if_neg (hf ▸ hne)]
  · rw [if_neg hf, if_neg hf]

/-- The columns of two features do not interfere. -/
theorem independent_featureColumn {f g : Feature} (hne : f ≠ g) :
    (featureColumn f).Independent (featureColumn g) where
  name_ne hname := by
    have hf := (Setting.optionName_spec f).2.2.2
    have hg := (Setting.optionName_spec g).2.2.2
    rw [show f.optionName = g.optionName from hname, hg] at hf
    exact hne (Option.some.inj hf).symm
  isSet_right := by
    rintro _ ⟨source, o, hread⟩ s
    obtain ⟨on, -, rfl⟩ := read_featureColumn_eq_ok_iff.1 hread
    exact (Features.has_set ..).trans (if_neg hne.symm)
  isSet_left := by
    rintro _ ⟨source, o, hread⟩ s
    obtain ⟨on, -, rfl⟩ := read_featureColumn_eq_ok_iff.1 hread
    exact (Features.has_set ..).trans (if_neg hne)
  comm := by
    rintro _ _ ⟨source, o, hread⟩ ⟨source', o', hread'⟩ s
    obtain ⟨on, -, rfl⟩ := read_featureColumn_eq_ok_iff.1 hread
    obtain ⟨on', -, rfl⟩ := read_featureColumn_eq_ok_iff.1 hread'
    simp only [set_comm hne.symm]

theorem featuresRecord_isLawful : featuresRecord.IsLawful where
  isSet := by
    intro c hc
    obtain ⟨f, -, rfl⟩ := List.mem_map.1 hc
    rintro _ ⟨source, o, hread⟩ s
    obtain ⟨on, -, rfl⟩ := read_featureColumn_eq_ok_iff.1 hread
    exact (Features.has_set ..).trans (if_pos rfl)
  independent := by
    have hdistinct : Feature.all.Pairwise (· ≠ ·) := by decide
    exact List.pairwise_map.2 (hdistinct.imp independent_featureColumn)

/-- Whether a feature is on is seen in the slots. -/
theorem shows_featureColumn (f : Feature) :
    featuresRecord.Shows (featureColumn f) fun s => s.on.has f where
  mem := List.mem_map_of_mem (by cases f <;> decide)
  own := by
    rintro _ ⟨source, o, hread⟩ s s'
    obtain ⟨on, -, rfl⟩ := read_featureColumn_eq_ok_iff.1 hread
    simp only [Features.has_set, if_true]
  other := by
    intro c hc hne
    obtain ⟨g, -, rfl⟩ := List.mem_map.1 hc
    rintro _ ⟨source, o, hread⟩ s
    obtain ⟨on, -, rfl⟩ := read_featureColumn_eq_ok_iff.1 hread
    have hfeature : f ≠ g := by
      rintro rfl
      exact hne rfl
    exact (Features.has_set ..).trans (if_neg hfeature)

/-- **Just objects of truth values are read as features.** -/
theorem exists_features_iff :
    (∃ fs, featuresDecoder (.text (depth + 1)) (.object switches none) = .ok fs) ↔
      IsSwitches (.object switches none) := by
  have hread : (∃ s, switches.foldlM (featuresRecord.readMember (.text depth))
      featuresRecord.start = .ok s) ↔ NamedAmong switches (Feature.all.map (·.optionName)) ∧
        ∀ c ∈ featuresRecord.columns, ∀ value, HasMember switches c.name value →
          ∃ u, c.read (.text depth) value = .ok u :=
    Record.exists_foldlM_readMember_iff featuresRecord_isLawful rfl (by decide)
  constructor
  · rintro ⟨fs, hfs⟩
    obtain ⟨s, hs, -⟩ := Record.decoder_object_eq_ok_iff.1 hfs
    obtain ⟨hnames, hvalues⟩ := hread.1 ⟨s, hs⟩
    refine .object hnames fun name value hmember => ?_
    obtain ⟨f, hf, rfl⟩ := List.mem_map.1 (hnames.mem_of_hasMember hmember)
    obtain ⟨u, hu⟩ := hvalues _ (List.mem_map_of_mem hf) value hmember
    obtain ⟨on, hon, -⟩ := read_featureColumn_eq_ok_iff.1 hu
    exact ⟨on, hon⟩
  · rintro ⟨hnames, hvalues⟩
    have hcolumns : ∀ c ∈ featuresRecord.columns, ∀ value, HasMember switches c.name value →
        ∃ u, c.read (.text depth) value = .ok u := by
      intro c hc value hmember
      obtain ⟨f, -, rfl⟩ := List.mem_map.1 hc
      obtain ⟨on, hon⟩ := hvalues _ value hmember
      exact ⟨_, read_featureColumn_eq_ok_iff.2 ⟨on, hon, rfl⟩⟩
    obtain ⟨s, hs⟩ := hread.2 ⟨hnames, hcolumns⟩
    exact ⟨s.on, Record.decoder_object_eq_ok_iff.2 ⟨s, hs, rfl⟩⟩

/-- A feature is on if a member says so. -/
theorem has_features_iff
    (hread : featuresDecoder (.text (depth + 1)) (.object switches none) = .ok fs) :
    fs.has f = true ↔ ∃ value, HasMember switches f.optionName value ∧ value.IsBool true := by
  obtain ⟨s, hs, hfs⟩ := Record.decoder_object_eq_ok_iff.1 hread
  obtain rfl : s.on = fs := Except.ok.inj hfs
  have hsee : ∀ value, HasMember switches f.optionName value →
      ∃ on, value.IsBool on ∧ s.on.has f = on := by
    intro value hmember
    obtain ⟨u, hu, hsee⟩ :=
      Record.see_of_hasMember featuresRecord_isLawful (shows_featureColumn f) hs hmember
    obtain ⟨on, hon, rfl⟩ := read_featureColumn_eq_ok_iff.1 hu
    exact ⟨on, hon, hsee.trans ((Features.has_set ..).trans (if_pos rfl))⟩
  constructor
  · intro hon
    by_cases hmentioned : ∃ value, HasMember switches f.optionName value
    · obtain ⟨value, hmember⟩ := hmentioned
      obtain ⟨on, hvalue, heq⟩ := hsee value hmember
      rw [← heq, hon] at hvalue
      exact ⟨value, hmember, hvalue⟩
    · -- a feature that is not mentioned stays off
      rw [Record.see_of_not_hasMember featuresRecord_isLawful (shows_featureColumn f) hs
        (not_exists.1 hmentioned)] at hon
      cases f <;> cases hon
  · rintro ⟨value, hmember, hvalue⟩
    obtain ⟨on, hvalue', heq⟩ := hsee value hmember
    cases hvalue
    cases hvalue'
    exact heq

/-! ### Settings -/

theorem record_isLawful : record.IsLawful where
  isSet := by
    simp only [record, List.forall_mem_cons]
    exact ⟨Column.ofSlot_isSet fun _ _ => rfl, Column.ofSlot_isSet fun _ _ => rfl,
      Column.ofSlot_isSet fun _ _ => rfl, List.forall_mem_nil _⟩
  independent := by
    simp only [record, List.pairwise_cons, List.forall_mem_cons]
    refine ⟨⟨?_, ?_, List.forall_mem_nil _⟩, ⟨?_, List.forall_mem_nil _⟩, List.forall_mem_nil _,
      .nil⟩
    all_goals exact .ofSlot (by decide) (fun _ _ => rfl) (fun _ _ => rfl) fun _ _ _ => rfl

variable {s : Slots}

/-- What is read from the members of an object of settings. -/
theorem slots_eq_some_iff
    (hread : members.foldlM (record.readMember (.text (depth + 1))) record.start = .ok s) :
    (∀ fs, s.features = some fs ↔ ∃ value, HasMember members "features" value ∧
      featuresDecoder (.text (depth + 1)) value = .ok fs) ∧
    (∀ entries, s.redirections = some entries ↔
      ∃ value, HasMember members "import_replace" value ∧ value.IsDictionary entries) ∧
    ∀ path, s.runtimePath = some path ↔ ∃ value, HasMember members runtimePathOption value ∧
      (path = none ∧ value.IsNull ∨ ∃ p, path = some p ∧ value.IsText p) := by
  -- no slot is changed by the columns of the others, so each shows what its own member holds
  have hfeatures : ∀ c ∈ record.columns, c.name ≠ "features" →
      ∀ u, c.Gives u → ∀ s, (u s).features = s.features := by
    simp only [record, List.forall_mem_cons]
    exact ⟨fun h => absurd rfl h, fun _ => Column.ofSlot_keeps fun _ _ => rfl,
      fun _ => Column.ofSlot_keeps fun _ _ => rfl, List.forall_mem_nil _⟩
  have hredirections : ∀ c ∈ record.columns, c.name ≠ "import_replace" →
      ∀ u, c.Gives u → ∀ s, (u s).redirections = s.redirections := by
    simp only [record, List.forall_mem_cons]
    exact ⟨fun _ => Column.ofSlot_keeps fun _ _ => rfl, fun h => absurd rfl h,
      fun _ => Column.ofSlot_keeps fun _ _ => rfl, List.forall_mem_nil _⟩
  have hruntime : ∀ c ∈ record.columns, c.name ≠ runtimePathOption →
      ∀ u, c.Gives u → ∀ s, (u s).runtimePath = s.runtimePath := by
    simp only [record, List.forall_mem_cons]
    exact ⟨fun _ => Column.ofSlot_keeps fun _ _ => rfl,
      fun _ => Column.ofSlot_keeps fun _ _ => rfl, fun h => absurd rfl h, List.forall_mem_nil _⟩
  refine ⟨fun fs => ?_, fun entries => ?_, fun path => ?_⟩
  · exact Record.get_eq_some_iff record_isLawful List.mem_cons_self (fun _ _ => rfl) hfeatures
      hread rfl
  · simp only [← Json.Decoder.dictionaryText_eq_ok_iff depth]
    exact Record.get_eq_some_iff record_isLawful (List.mem_cons_of_mem _ List.mem_cons_self)
      (fun _ _ => rfl) hredirections hread rfl
  · simp only [← Json.Decoder.optionText_eq_ok_iff (.text (depth + 1))]
    exact Record.get_eq_some_iff record_isLawful
      (List.mem_cons_of_mem _ (List.mem_cons_of_mem _ List.mem_cons_self)) (fun _ _ => rfl) hruntime
      hread rfl

/-- Members are read just if they are those of an object of settings, and each has a value of its
kind. -/
theorem exists_slots_iff :
    (∃ s, members.foldlM (record.readMember (.text (depth + 1))) record.start = .ok s) ↔
      NamedAmong members ["features", "import_replace", "thrift_import_path"] ∧
      (∀ value, HasMember members "features" value →
        ∃ fs, featuresDecoder (.text (depth + 1)) value = .ok fs) ∧
      (∀ value, HasMember members "import_replace" value →
        ∃ entries, value.IsDictionary entries) ∧
      ∀ value, HasMember members "thrift_import_path" value →
        value.IsNull ∨ ∃ path, value.IsText path := by
  have hpath : ∀ value : Outline,
      (∃ path, (Decoder.text.option) (.text (depth + 1)) value = .ok path) ↔
        value.IsNull ∨ ∃ path, value.IsText path := by
    intro value
    simp only [Json.Decoder.optionText_eq_ok_iff]
    constructor
    · rintro ⟨_, ⟨-, hnull⟩ | ⟨path, -, hvalue⟩⟩
      · exact .inl hnull
      · exact .inr ⟨path, hvalue⟩
    · rintro (hnull | ⟨path, hvalue⟩)
      · exact ⟨none, .inl ⟨rfl, hnull⟩⟩
      · exact ⟨some path, .inr ⟨path, rfl, hvalue⟩⟩
  rw [Record.exists_foldlM_readMember_iff record_isLawful rfl (by decide)]
  simp only [record, List.forall_mem_cons, Column.exists_read_ofSlot_iff, hpath,
    Json.Decoder.dictionaryText_eq_ok_iff]
  constructor
  · rintro ⟨hnames, hfeatures, hredirections, hruntime, -⟩
    exact ⟨hnames, hfeatures, hredirections, hruntime⟩
  · rintro ⟨hnames, hfeatures, hredirections, hruntime⟩
    exact ⟨hnames, hfeatures, hredirections, hruntime, List.forall_mem_nil _⟩

/-- The slot of the runtime holds a path just if a member says that the runtime is there. -/
theorem runtimePath_eq_some_iff
    (hread : members.foldlM (record.readMember (.text (depth + 1))) record.start = .ok s)
    {path : String} : s.runtimePath.getD none = some path ↔ RuntimeAt members path := by
  have hslot := (slots_eq_some_iff hread).2.2 (some path)
  have hsome : s.runtimePath.getD none = some path ↔ s.runtimePath = some (some path) := by
    cases s.runtimePath <;> simp
  rw [hsome, hslot]
  refine exists_congr fun value => and_congr_right fun _ => ?_
  constructor
  · rintro (⟨hnone, -⟩ | ⟨p, heq, hvalue⟩)
    · cases hnone
    · cases heq
      exact hvalue
  · exact fun hvalue => .inr ⟨path, rfl, hvalue⟩

/-- The slot of the redirections holds those of the members. -/
theorem isLast_redirections_iff
    (hread : members.foldlM (record.readMember (.text (depth + 1))) record.start = .ok s)
    {id target : String} :
    IsLast (fun e => e.1 = id) (s.redirections.getD []) (id, target) ↔
      Replaces members id target := by
  have hslot := (slots_eq_some_iff hread).2.1
  constructor
  · intro hlast
    cases hentries : s.redirections with
    | none =>
      rw [hentries] at hlast
      exact absurd hlast not_isLast_nil
    | some entries =>
      rw [hentries] at hlast
      obtain ⟨value, hmember, hvalue⟩ := (hslot entries).1 hentries
      exact ⟨value, entries, hmember, hvalue, hlast⟩
  · rintro ⟨value, entries, hmember, hvalue, hlast⟩
    rw [(hslot entries).2 ⟨value, hmember, hvalue⟩]
    exact hlast

/-- The slot of the features holds those that members turn on. -/
theorem has_slot_iff
    (hread : members.foldlM (record.readMember (.text (depth + 1))) record.start = .ok s)
    (hfeatures : ∀ value, HasMember members "features" value →
      ∃ switches, value = .object switches none) :
    (s.features.getD .empty).has f = true ↔ SwitchesOn members f := by
  have hslot := (slots_eq_some_iff hread).1
  constructor
  · intro hon
    cases hfs : s.features with
    | none =>
      -- without a member all features are off
      rw [hfs] at hon
      cases f <;> cases hon
    | some fs =>
      rw [hfs] at hon
      obtain ⟨value, hmember, hvalue⟩ := (hslot fs).1 hfs
      obtain ⟨switches, rfl⟩ := hfeatures value hmember
      obtain ⟨value, hswitch, htrue⟩ := (has_features_iff hvalue).1 hon
      exact ⟨switches, value, hmember, hswitch, htrue⟩
  · rintro ⟨switches, value, hmember, hswitch, htrue⟩
    obtain ⟨fs, hfs⟩ := (exists_slots_iff.1 ⟨s, hread⟩).2.1 _ hmember
    rw [(hslot fs).2 ⟨_, hmember, hfs⟩]
    exact (has_features_iff hfs).2 ⟨value, hswitch, htrue⟩

/-! ### Acceptance -/

variable {w : Settings} {c : Config} {text : String}

/-- **Settings are accepted just if the redirections that count and the path of the runtime are
valid.** -/
theorem ofSettings_eq_ok_iff :
    ofSettings w = .ok c ↔
      (∀ id target, IsLast (fun e => e.1 = id) w.redirections (id, target) →
        Path.isValid id = true ∧ Path.isValid target = true) ∧
      (∀ path ∈ w.runtimePath, Path.isValid path = true) ∧
      c = ⟨w.features, ⟨w.runtimePath.elim (Table.ofList w.redirections)
        ((Table.ofList w.redirections).insert Package.thrift.path)⟩⟩ := by
  obtain ⟨features, redirections, path⟩ := w
  rw [ofSettings, bind_eq_ok_iff]
  simp only [Redirection.ofList_ofList_eq_ok_iff]
  cases path with
  | none =>
    constructor
    · rintro ⟨r, ⟨hvalid, rfl⟩, hc⟩
      cases hc
      exact ⟨hvalid, nofun, rfl⟩
    · rintro ⟨hvalid, -, rfl⟩
      exact ⟨_, ⟨hvalid, rfl⟩, rfl⟩
  | some path =>
    constructor
    · rintro ⟨r, ⟨hvalid, rfl⟩, hc⟩
      obtain ⟨r', hr', hc⟩ := bind_eq_ok_iff.1 hc
      obtain ⟨-, hpath, rfl⟩ := Redirection.insert_eq_ok_iff.1 hr'
      cases hc
      refine ⟨hvalid, fun path' hpath' => ?_, rfl⟩
      obtain rfl : path = path' := Option.some.inj hpath'
      exact hpath
    · rintro ⟨hvalid, hpath, rfl⟩
      -- the runtime may be sent elsewhere because its own path is one
      have hruntime : Path.isValid Package.thrift.path = true := by decide
      refine ⟨_, ⟨hvalid, rfl⟩, bind_eq_ok_iff.2 ⟨_, ?_, rfl⟩⟩
      exact Redirection.insert_eq_ok_iff.2 ⟨hruntime, hpath path rfl, rfl⟩

/-- Where settings send ids: the runtime to its path, and all else to the last target for it. -/
theorem resolve_of_ofSettings (h : ofSettings w = .ok c) :
    (∀ path ∈ w.runtimePath, c.redirection.resolve Package.thrift.path = path) ∧
      (∀ id target, IsLast (fun e => e.1 = id) w.redirections (id, target) →
        (id = Package.thrift.path → w.runtimePath = none) → c.redirection.resolve id = target) ∧
      ∀ id, (∀ target, ¬ IsLast (fun e => e.1 = id) w.redirections (id, target)) →
        (id = Package.thrift.path → w.runtimePath = none) → c.redirection.resolve id = id := by
  obtain ⟨-, -, rfl⟩ := ofSettings_eq_ok_iff.1 h
  have hother : ∀ id, (id = Package.thrift.path → w.runtimePath = none) →
      (w.runtimePath.elim (Table.ofList w.redirections)
        ((Table.ofList w.redirections).insert Package.thrift.path)).get? id =
      (Table.ofList w.redirections).get? id := by
    intro id hid
    cases hpath : w.runtimePath with
    | none => rfl
    | some path =>
      have hne : id ≠ Package.thrift.path := fun heq => by simp [hid heq] at hpath
      exact (Table.get?_insert ..).trans (if_neg hne)
  refine ⟨fun path hpath => ?_, fun id target hlast hid => ?_, fun id hnone hid => ?_⟩
  · obtain hpath : w.runtimePath = some path := hpath
    simp [Redirection.resolve, hpath, Table.get?_insert]
  · rw [Redirection.resolve, hother id hid, Table.get?_ofList_eq_some_iff.2 hlast]
    rfl
  · have hget : (Table.ofList w.redirections).get? id = none := by
      rw [Option.eq_none_iff_forall_ne_some]
      exact fun target htarget => hnone target (Table.get?_ofList_eq_some_iff.1 htarget)
    rw [Redirection.resolve, hother id hid, hget]
    rfl

/-- The text of an object is read member by member, and what was read is accepted. -/
theorem ofJson_eq_ok_iff (htext : (Outline.object members none).WrittenAs text) :
    ofJson text = .ok c ↔
      ∃ s, members.foldlM (record.readMember (.text 126)) record.start = .ok s ∧
        ofSettings ⟨s.features.getD .empty, s.redirections.getD [], s.runtimePath.getD none⟩ =
          .ok c := by
  rw [ofJson, Json.Outline.parseThen_of_writtenAs htext, bind_eq_ok_iff]
  constructor
  · rintro ⟨w, hw, hc⟩
    obtain ⟨s, hs, hfinish⟩ := Record.decoder_object_eq_ok_iff.1 hw
    cases hfinish
    exact ⟨s, hs, mapError_eq_ok_iff.1 hc⟩
  · rintro ⟨s, hs, hc⟩
    exact ⟨_, Record.decoder_object_eq_ok_iff.2 ⟨s, hs, rfl⟩, mapError_eq_ok_iff.2 hc⟩

/-- Members are read and accepted just if they are settings. -/
theorem exists_read_iff
    (hfeatures : ∀ value, HasMember members "features" value →
      ∃ switches, value = .object switches none) :
    (∃ s, members.foldlM (record.readMember (.text 126)) record.start = .ok s ∧
      ∃ c, ofSettings ⟨s.features.getD .empty, s.redirections.getD [], s.runtimePath.getD none⟩ =
        .ok c) ↔ AreSettings members := by
  constructor
  · rintro ⟨s, hs, c, hc⟩
    obtain ⟨hnames, hswitches, hdictionary, htext⟩ := exists_slots_iff.1 ⟨s, hs⟩
    obtain ⟨hvalid, hpath, -⟩ := ofSettings_eq_ok_iff.1 hc
    refine ⟨hnames, fun value hmember => ?_, fun value hmember => ?_, fun value hmember => ?_⟩
    · obtain ⟨switches, rfl⟩ := hfeatures value hmember
      exact exists_features_iff.1 (hswitches _ hmember)
    · obtain ⟨entries, hentries⟩ := hdictionary value hmember
      refine ⟨entries, hentries, fun id target hlast => hvalid id target ?_⟩
      exact (isLast_redirections_iff hs).2 ⟨value, entries, hmember, hentries, hlast⟩
    · refine (htext value hmember).imp_right fun ⟨path, hvalue⟩ => ⟨path, hvalue, hpath path ?_⟩
      exact (runtimePath_eq_some_iff hs).2 ⟨value, hmember, hvalue⟩
  · intro h
    obtain ⟨s, hs⟩ : ∃ s, members.foldlM (record.readMember (.text 126)) record.start = .ok s := by
      refine exists_slots_iff.2 ⟨h.names, fun value hmember => ?_, fun value hmember => ?_,
        fun value hmember => ?_⟩
      · obtain ⟨switches, rfl⟩ := hfeatures value hmember
        exact exists_features_iff.2 (h.features _ hmember)
      · exact (h.redirections value hmember).imp fun entries hentries => hentries.1
      · exact (h.runtimePath value hmember).imp_right fun ⟨path, hpath⟩ => ⟨path, hpath.1⟩
    refine ⟨s, hs, _, ofSettings_eq_ok_iff.2 ⟨fun id target hlast => ?_, fun path hpath => ?_, rfl⟩⟩
    · obtain ⟨value, entries, hmember, hvalue, hlast⟩ := (isLast_redirections_iff hs).1 hlast
      obtain ⟨entries', hvalue', hvalid⟩ := h.redirections value hmember
      rw [hvalue.unique hvalue'] at hlast
      exact hvalid id target hlast
    · obtain ⟨value, hmember, hvalue⟩ := (runtimePath_eq_some_iff hs).1 hpath
      rcases h.runtimePath value hmember with hnull | ⟨path', hvalue', hvalid⟩
      · cases hvalue
        cases hnull
      · cases hvalue
        cases hvalue'
        exact hvalid

/-- **Just these objects are configurations, and what they say.** -/
theorem ofJson_accepts (members : List (Key × Outline)) (text : String)
    (htext : (Outline.object members none).WrittenAs text)
    (hfeatures : ∀ value, HasMember members "features" value →
      ∃ switches, value = .object switches none) :
    ((∃ c, ofJson text = .ok c) ↔ AreSettings members) ∧
      ∀ c, ofJson text = .ok c →
        (∀ f, c.features.has f = true ↔ SwitchesOn members f) ∧
        (∀ path, RuntimeAt members path → c.redirection.resolve Package.thrift.path = path) ∧
        (∀ id target, Replaces members id target →
          (id = Package.thrift.path → ∀ path, ¬ RuntimeAt members path) →
            c.redirection.resolve id = target) ∧
        ∀ id, (∀ target, ¬ Replaces members id target) →
          (id = Package.thrift.path → ∀ path, ¬ RuntimeAt members path) →
            c.redirection.resolve id = id := by
  have haccepted : (∃ c, ofJson text = .ok c) ↔ AreSettings members := by
    rw [← exists_read_iff hfeatures]
    simp only [ofJson_eq_ok_iff htext]
    exact ⟨fun ⟨c, s, hs, hc⟩ => ⟨s, hs, c, hc⟩, fun ⟨s, hs, c, hc⟩ => ⟨c, s, hs, hc⟩⟩
  refine ⟨haccepted, fun c hc => ?_⟩
  obtain ⟨s, hs, hsettings⟩ := (ofJson_eq_ok_iff htext).1 hc
  obtain ⟨hruntime, hreplaced, hleft⟩ := resolve_of_ofSettings hsettings
  have hnone : ∀ id, (id = Package.thrift.path → ∀ path, ¬ RuntimeAt members path) →
      id = Package.thrift.path → s.runtimePath.getD none = none := by
    intro id hid heq
    rw [Option.eq_none_iff_forall_ne_some]
    exact fun path hpath => hid heq path ((runtimePath_eq_some_iff hs).1 hpath)
  refine ⟨fun f => ?_, fun path hpath => ?_, fun id target h hid => ?_, fun id h hid => ?_⟩
  · obtain ⟨-, -, rfl⟩ := ofSettings_eq_ok_iff.1 hsettings
    exact has_slot_iff hs hfeatures
  · exact hruntime path ((runtimePath_eq_some_iff hs).2 hpath)
  · exact hreplaced id target ((isLast_redirections_iff hs).2 h) (hnone id hid)
  · refine hleft id (fun target hlast => ?_) (hnone id hid)
    exact h target ((isLast_redirections_iff hs).1 hlast)

/-- An entry that is no redirection, and does not count; and one for the runtime that its path
overrides. -/
theorem ofJson_accepts_of_hidden :
    let entries := [("reflect", "no path!"), ("github.com/apache/thrift/lib/go/thrift", "a/thrift"),
      ("reflect", "a/reflect")]
    let settings : List (String × Json) := [("thrift_import_path", .text "example.com/fork"),
      ("import_replace", .object (entries.map fun e => (e.1, .text e.2))),
      ("features", .object [("validate_set", .bool true), ("gen_deep_equal", .bool false)])]
    (Outline.object (Json.outlineMembers settings) none).WrittenAs (Json.object settings).render ∧
      (∀ value, HasMember (Json.outlineMembers settings) "features" value →
        ∃ switches, value = .object switches none) ∧
      ∃ c, ofJson (Json.object settings).render = .ok c ∧ c.features.has .validateSet = true ∧
        c.features.has .genDeepEqual = false ∧
        c.redirection.resolve Package.thrift.path = "example.com/fork" ∧
        c.redirection.resolve "reflect" = "a/reflect" ∧ c.redirection.resolve "fmt" = "fmt" := by
  intro entries settings
  have htext : (Outline.object (Json.outlineMembers settings) none).WrittenAs
      (Json.object settings).render :=
    Json.outline_writtenAs (Json.writtenAs_render (.object settings))
  have hmember : ∀ name value, HasMember (Json.outlineMembers settings) name value ↔
      "thrift_import_path" = name ∧ (Json.text "example.com/fork").outline = value ∨
        "import_replace" = name ∧
          (Json.object (entries.map fun e => (e.1, .text e.2))).outline = value ∨
        "features" = name ∧ (Json.object
          [("validate_set", .bool true), ("gen_deep_equal", .bool false)]).outline = value := by
    intro name value
    simp only [settings, Json.outlineMembers, Json.hasMember_cons, Json.not_hasMember_nil,
      Json.Key.names_ofValue_iff, or_false]
  have hfeatures : ∀ value, HasMember (Json.outlineMembers settings) "features" value →
      ∃ switches, value = .object switches none := by
    intro value h
    rcases (hmember _ _).1 h with ⟨hname, -⟩ | ⟨hname, -⟩ | ⟨-, rfl⟩
    · exact absurd hname (by decide)
    · exact absurd hname (by decide)
    · exact ⟨_, rfl⟩
  have hdictionary : (Json.object (entries.map fun e => (e.1, .text e.2))).outline.IsDictionary
      entries :=
    .object (.cons ⟨.text _ _, .text _ _⟩ <| .cons ⟨.text _ _, .text _ _⟩ <|
      .cons ⟨.text _ _, .text _ _⟩ .nil)
  have hswitches : ∀ name value, HasMember (Json.outlineMembers
      [("validate_set", .bool true), ("gen_deep_equal", .bool false)]) name value ↔
      "validate_set" = name ∧ (Json.bool true).outline = value ∨
        "gen_deep_equal" = name ∧ (Json.bool false).outline = value := by
    intro name value
    simp only [Json.outlineMembers, Json.hasMember_cons, Json.not_hasMember_nil,
      Json.Key.names_ofValue_iff, or_false]
  have hlast : ∀ id target, IsLast (fun e => e.1 = id) entries (id, target) ↔
      (Table.ofList entries).get? id = some target :=
    fun _ _ => Table.get?_ofList_eq_some_iff.symm
  obtain ⟨haccepted, hread⟩ :=
    ofJson_accepts (Json.outlineMembers settings) (Json.object settings).render htext hfeatures
  obtain ⟨c, hc⟩ := haccepted.2 <| by
    refine ⟨⟨["thrift_import_path", "import_replace", "features"],
      .cons (.text _ _) <| .cons (.text _ _) <| .cons (.text _ _) .nil, by decide, by decide⟩,
      fun value h => ?_, fun value h => ?_, fun value h => ?_⟩
    all_goals
      rcases (hmember _ _).1 h with ⟨hname, rfl⟩ | ⟨hname, rfl⟩ | ⟨hname, rfl⟩
    all_goals first
      | exact absurd hname (by decide)
      | skip
    · exact .object ⟨_, .cons (.text _ _) (.cons (.text _ _) .nil), by decide, by decide⟩
        fun name value hswitch => ((hswitches name value).1 hswitch).elim
          (fun h => ⟨true, h.2 ▸ .bool _ _⟩) fun h => ⟨false, h.2 ▸ .bool _ _⟩
    · refine ⟨entries, hdictionary, fun id target h => ?_⟩
      have hvalid : ∀ e ∈ (Table.ofList entries).entries,
          Path.isValid e.1 = true ∧ Path.isValid e.2 = true := by decide
      exact hvalid (id, target) (Table.mem_entries_ofList_iff.2 h)
    · exact .inr ⟨_, .text _ _, by decide⟩
  obtain ⟨hhas, hruntime, hreplaced, hleft⟩ := hread c hc
  refine ⟨htext, hfeatures, c, hc, ?_, ?_, ?_, ?_, ?_⟩
  · exact (hhas .validateSet).2 ⟨_, _, (hmember _ _).2 (.inr (.inr ⟨rfl, rfl⟩)),
      (hswitches _ _).2 (.inl ⟨rfl, rfl⟩), .bool _ _⟩
  · refine Bool.eq_false_iff.2 fun hon => ?_
    obtain ⟨switches, value, h, hswitch, htrue⟩ := (hhas .genDeepEqual).1 hon
    rcases (hmember _ _).1 h with ⟨hname, -⟩ | ⟨hname, -⟩ | ⟨-, heq⟩
    · exact absurd hname (by decide)
    · exact absurd hname (by decide)
    · cases heq
      rcases (hswitches _ _).1 hswitch with ⟨hname, -⟩ | ⟨-, rfl⟩
      · exact absurd hname (by decide)
      · cases htrue
  · exact hruntime _ ⟨_, (hmember _ _).2 (.inl ⟨rfl, rfl⟩), .text _ _⟩
  · refine hreplaced _ _ ⟨_, entries, (hmember _ _).2 (.inr (.inl ⟨rfl, rfl⟩)), hdictionary,
      (hlast _ _).2 (by decide)⟩ fun heq => absurd heq (by decide)
  · refine hleft _ (fun target h => ?_) fun heq => absurd heq (by decide)
    obtain ⟨value, entries', h, hdictionary', htarget⟩ := h
    rcases (hmember _ _).1 h with ⟨hname, -⟩ | ⟨-, rfl⟩ | ⟨hname, -⟩
    · exact absurd hname (by decide)
    · rw [hdictionary'.unique hdictionary, hlast] at htarget
      have hnone : (Table.ofList entries).get? "fmt" = none := by decide
      rw [hnone] at htarget
      cases htarget
    · exact absurd hname (by decide)

end Config

end ImportPlan
