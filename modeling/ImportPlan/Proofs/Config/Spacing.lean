import Mathlib
import ImportPlan.Config
import ImportPlan.Proofs.Config.Options
import ImportPlan.Proofs.Config.SingleOption
import ImportPlan.Proofs.Success
import ImportPlan.Proofs.Text.Trimmed

namespace ImportPlan

/-!
# White space in options

Options are typed by hand or put together by scripts, which leave blank characters in them: at their
ends, or on a side of the equals sign. None of these characters counts.

* `Features.AddsBlanks` — an option with more blank characters in these places.
* `Features.splitOption_eq_iff` — two options have the same parts just if they differ in such
  characters only.
* `Features.AddsBlanks.apply_eq`, `Config.apply_eq_of_addsBlanks` — an option does the same with and
  without them.
* `Config.ofOptions_eq_of_addsBlanks` — and so does a list of options, accepted or refused.
-/

namespace Features

/-- The option with any number of blank characters added at its ends and, if it has an equals sign,
on either side of the first one. -/
inductive AddsBlanks (option wider : String) : Prop
  | name {front back : String} (h : '=' ∉ option.toList) (hfront : Text.AllBlank front)
    (hback : Text.AllBlank back) (hwider : wider = front ++ option ++ back)
  | value {before after front left right back : String} (h : '=' ∉ before.toList)
    (hoption : option = before ++ "=" ++ after) (hfront : Text.AllBlank front)
    (hleft : Text.AllBlank left) (hright : Text.AllBlank right) (hback : Text.AllBlank back)
    (hwider : wider = front ++ before ++ left ++ "=" ++ (right ++ after ++ back))

variable {option wider name : String} {value : Option String}

/-- An option has a place for blank characters, but need not get any. -/
theorem AddsBlanks.refl (option : String) : AddsBlanks option option := by
  have hnone : Text.AllBlank "" := by decide
  by_cases hmem : '=' ∈ option.toList
  · obtain ⟨before, after, hbefore, hoption⟩ := Text.exists_append_of_mem hmem
    exact .value hbefore hoption hnone hnone hnone hnone (by simpa using hoption)
  · exact .name hmem hnone hnone (by simp)

/-! ### The parts of an option -/

/-- The equals sign is no blank character. -/
theorem isBlank_equals : Text.isBlank '=' = false := by decide

/-- Blank characters in these places are in no part of an option. -/
theorem AddsBlanks.splitOption_eq (h : AddsBlanks option wider) :
    splitOption wider = splitOption option := by
  cases h with
  | name h hfront hback hwider =>
    have hmem := mt (Text.mem_surround_iff isBlank_equals hfront hback).1 h
    rw [hwider, splitOption_of_not_mem hmem, splitOption_of_not_mem h,
      Text.trim_surround hfront hback]
  | value h hoption hfront hleft hright hback hwider =>
    -- the first equals sign stays the first one
    have hmem := mt (Text.mem_surround_iff isBlank_equals hfront hleft).1 h
    rw [hwider, hoption, splitOption_append hmem, splitOption_append h,
      Text.trim_surround hfront hleft, Text.trim_surround hright hback]

/-- An option that has these parts and nothing else. -/
def joinParts : String × Option String → String
  | (name, none) => name
  | (name, some value) => name ++ "=" ++ value

/-- Each option is what its parts are together, with blank characters added. -/
theorem HasParts.addsBlanks (h : HasParts option name value) :
    AddsBlanks (joinParts (name, value)) option := by
  cases h with
  | name h hname =>
    obtain ⟨front, back, hfront, hback, rfl, -⟩ := Text.trimsTo_iff.1 hname
    have hmem := mt (Text.mem_surround_iff isBlank_equals hfront hback).2 h
    exact .name hmem hfront hback rfl
  | value h hoption hname hvalue =>
    obtain ⟨front, left, hfront, hleft, rfl, -⟩ := Text.trimsTo_iff.1 hname
    obtain ⟨right, back, hright, hback, rfl, -⟩ := Text.trimsTo_iff.1 hvalue
    have hmem := mt (Text.mem_surround_iff isBlank_equals hfront hleft).2 h
    exact .value hmem rfl hfront hleft hright hback hoption

/-- **Two options have the same parts just if they differ in blank characters at their ends and next
to their first equals signs only.** -/
theorem splitOption_eq_iff {option option' : String} :
    splitOption option = splitOption option' ↔
      ∃ bare, AddsBlanks bare option ∧ AddsBlanks bare option' := by
  constructor
  · intro heq
    have hparts : HasParts option (splitOption option).1 (splitOption option).2 :=
      hasParts_iff.2 rfl
    have hparts' : HasParts option' (splitOption option).1 (splitOption option).2 :=
      hasParts_iff.2 heq.symm
    exact ⟨_, hparts.addsBlanks, hparts'.addsBlanks⟩
  · rintro ⟨bare, h, h'⟩
    rw [h.splitOption_eq, h'.splitOption_eq]

/-- An option does the same to features with more blank characters. -/
theorem AddsBlanks.apply_eq (h : AddsBlanks option wider) (fs : Features) :
    fs.apply wider = fs.apply option := by
  rw [apply, apply, h.splitOption_eq]

end Features

/-! ### Lists of options -/

namespace Config

open Features (AddsBlanks)

/-- An option does the same to settings with more blank characters. -/
theorem apply_eq_of_addsBlanks {option wider : String} (h : AddsBlanks option wider) (c : Config) :
    c.apply wider = c.apply option := by
  rw [apply_eq, apply_eq, Setting.ofOption, Setting.ofOption, h.splitOption_eq]

/-- **White space around the parts of options does not count.** If any options of a list get blank
characters at their ends or next to their first equals signs, the list gives the same features and
the same settings. If it is refused, then with the same error, and so in the same words. -/
theorem ofOptions_eq_of_addsBlanks {options wider : List String}
    (h : List.Forall₂ AddsBlanks options wider) :
    Features.ofOptions wider = Features.ofOptions options ∧
      ofOptions wider = ofOptions options := by
  constructor
  · exact foldlM_eq_of_forall₂ h fun _ _ hoption fs => hoption.apply_eq fs
  · exact foldlM_eq_of_forall₂ h fun _ _ hoption c => apply_eq_of_addsBlanks hoption c

/-- A name between a tab and a line break, an option as it was, a value of wide spaces only and a
path behind a line separator. As features alone they are refused for the name of the path. -/
theorem ofOptions_eq_of_addsBlanks_of_separators :
    let options := ["gen_deep_equal", "definition_only=false", "validate_set=",
      "thrift_import_path=example.com/fork"]
    let wider := ["\tgen_deep_equal\n", "definition_only=false", "validate_set\u00a0=\u3000\u2003",
      "thrift_import_path =\u2028example.com/fork"]
    List.Forall₂ AddsBlanks options wider ∧
      Features.ofOptions wider = .error (.unknownOption "thrift_import_path") ∧
      ∃ c, ofOptions wider = .ok c ∧ c.features = .ofList [.genDeepEqual, .validateSet] ∧
        c.redirection.resolve Package.thrift.path = "example.com/fork" := by
  intro options wider
  have h : List.Forall₂ AddsBlanks options wider := by
    have hset : "validate_set=" = "validate_set" ++ "=" ++ "" := by decide
    have hset' : "validate_set\u00a0=\u3000\u2003" =
        "" ++ "validate_set" ++ "\u00a0" ++ "=" ++ ("\u3000" ++ "" ++ "\u2003") := by decide
    have hpath : "thrift_import_path=example.com/fork" =
        "thrift_import_path" ++ "=" ++ "example.com/fork" := by decide
    have hpath' : "thrift_import_path =\u2028example.com/fork" =
        "" ++ "thrift_import_path" ++ " " ++ "=" ++ ("\u2028" ++ "example.com/fork" ++ "") := by
      decide
    have hname : "\tgen_deep_equal\n" = "\t" ++ "gen_deep_equal" ++ "\n" := by decide
    exact .cons (.name (by decide) (by decide) (by decide) hname) <| .cons (.refl _) <|
      .cons (.value (by decide) hset (by decide) (by decide) (by decide) (by decide) hset') <|
      .cons (.value (by decide) hpath (by decide) (by decide) (by decide) (by decide) hpath') .nil
  obtain ⟨hfeatures, hsettings⟩ := ofOptions_eq_of_addsBlanks h
  refine ⟨h, ?_, ?_⟩
  · rw [hfeatures]
    decide
  · rw [hsettings]
    exact ⟨⟨.ofList [.genDeepEqual, .validateSet],
      ⟨Table.empty.insert Package.thrift.path "example.com/fork"⟩⟩, by decide, rfl, by decide⟩

end Config

end ImportPlan
