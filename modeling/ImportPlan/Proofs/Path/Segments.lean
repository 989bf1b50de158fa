import Mathlib
import ImportPlan.Proofs.Path.LocalName
import ImportPlan.Proofs.Path.Verbatim

namespace ImportPlan.Path

open scoped Computability

/-!
# Segments of import paths

Import paths are checked character by character from the left to the right. This file compares the
check with two descriptions of a text as a whole: the parts between its slashes, and a regular
language.

* `IsSegmentCharacter`, `IsSegment` — what a segment consists of, by ranges of characters.
* `segments` — the parts of a text between its slashes.
* `pattern` — the import paths as a regular language.
* `accepts_eq`, `accepts_false_eq` — a text is accepted just if all its parts are segments.
* `accepts_slash` — so two texts with a slash between them are accepted just if both are.
* `isValid_iff_segments`, `isValid_iff_mem_pattern` — the two descriptions of import paths.
* `getLast?_segments` — the segment that names the package is the last of the parts.
* `isValid_exact` — which texts are import paths, and which ways to go wrong this rules out.
-/

/-! ### Segments and the pattern of paths -/

/-- An ASCII letter, a digit, or one of five signs. -/
def IsSegmentCharacter (c : Char) : Prop :=
  ('A' ≤ c ∧ c ≤ 'Z') ∨ ('a' ≤ c ∧ c ≤ 'z') ∨ ('0' ≤ c ∧ c ≤ '9') ∨
    c ∈ ['_', '.', '~', '+', '-']

/-- A text that is not empty and has only such characters. -/
def IsSegment (segment : String) : Prop :=
  segment ≠ "" ∧ ∀ c ∈ segment.toList, IsSegmentCharacter c

/-- The parts of a text between its slashes. -/
def segments (path : String) : List String := (path.split '/').toList.map (·.copy)

/-- One character of a segment: `[A-Za-z0-9_.~+\-]`. -/
def characterPattern : Language Char := {word | ∃ c, IsSegmentCharacter c ∧ word = [c]}

/-- One such character or more. -/
def segmentPattern : Language Char := characterPattern * characterPattern∗

/-- A slash. -/
def slashPattern : Language Char := {word | word = ['/']}

/-- A segment, and any number of further ones with a slash before each. -/
def pattern : Language Char := segmentPattern * (slashPattern * segmentPattern)∗

/-- The characters that the check admits are those of the ranges. -/
theorem isSegmentChar_iff {c : Char} : isSegmentChar c = true ↔ IsSegmentCharacter c := by
  simp only [isSegmentChar, IsSegmentCharacter, Char.isAlphanum, Char.isAlpha, Char.isUpper,
    Char.isLower, Char.isDigit, Bool.or_eq_true, Bool.and_eq_true, decide_eq_true_eq, beq_iff_eq,
    List.mem_cons, List.not_mem_nil, or_false, Char.le_def]
  tauto

/-! ### Reading from the left to the right -/

/-- Whether a part of a text is a segment. -/
def acceptsSegment (part : List Char) : Bool := !part.isEmpty && part.all isSegmentChar

/-- What is read from inside of a segment on: the first part only goes on with that segment, and so
may be empty, and every further part is a segment of its own. -/
theorem accepts_eq (inside : Bool) {cs first : List Char} {rest : List (List Char)}
    (h : cs.splitOn '/' = first :: rest) :
    accepts inside cs =
      ((inside || !first.isEmpty) && first.all isSegmentChar && rest.all acceptsSegment) := by
  induction cs generalizing inside first rest with
  | nil =>
    cases h
    simp [accepts]
  | cons c cs ih =>
    obtain ⟨first', rest', hparts⟩ := List.exists_cons_of_ne_nil (List.splitOn_ne_nil '/' cs)
    rw [List.splitOn_cons_eq_if_modifyHead, hparts] at h
    by_cases hc : c = '/'
    · -- a new segment starts behind the slash
      subst hc
      cases h
      rw [accepts, ih false hparts]
      simp [acceptsSegment]
    · -- the character is the first one of the first part
      rw [if_neg (by simpa using hc)] at h
      cases h
      have hstep : accepts inside (c :: cs) = (isSegmentChar c && accepts true cs) := by
        simp [accepts]
      rw [hstep, ih true hparts]
      simp [Bool.and_assoc]

/-- **A text is accepted just if all its parts are segments.** -/
theorem accepts_false_eq (cs : List Char) :
    accepts false cs = (cs.splitOn '/').all acceptsSegment := by
  obtain ⟨first, rest, hparts⟩ := List.exists_cons_of_ne_nil (List.splitOn_ne_nil '/' cs)
  rw [accepts_eq false hparts, hparts, List.all_cons, Bool.false_or, acceptsSegment]

/-- Two texts with a slash between them are accepted just if both are. -/
theorem accepts_slash (cs cs' : List Char) :
    accepts false (cs ++ '/' :: cs') = (accepts false cs && accepts false cs') := by
  rw [accepts_false_eq, List.splitOn_append_cons_self, List.all_append, ← accepts_false_eq,
    ← accepts_false_eq]

/-! ### Splitting at slashes -/

/-- A part of a text, as the two ways to say that it is a segment. -/
theorem acceptsSegment_iff {part : List Char} :
    acceptsSegment part = true ↔ IsSegment (String.ofList part) := by
  simp [acceptsSegment, IsSegment, isSegmentChar_iff]

/-- **A text is an import path just if every part between its slashes is a segment.** -/
theorem isValid_iff_segments {path : String} :
    isValid path = true ↔ ∀ segment ∈ segments path, IsSegment segment := by
  rw [isValid, accepts_false_eq, segments, String.toList_split_char, List.all_eq_true,
    List.forall_mem_map]
  exact forall₂_congr fun _ _ => acceptsSegment_iff

/-- Two texts with a slash between them are an import path just if both are. -/
theorem isValid_slash (p q : String) : isValid (p ++ "/" ++ q) = (isValid p && isValid q) := by
  have hchars : (p ++ "/" ++ q).toList = p.toList ++ '/' :: q.toList := by simp
  rw [isValid, hchars, accepts_slash]
  rfl

/-- The segment that names the package is the last part of the text. -/
theorem getLast?_segments (path : String) :
    (segments path).getLast? = some (lastSegment path) := by
  obtain ⟨part, hpart⟩ : ∃ part, path.toList.reverse.takeWhile (· != '/') = part := ⟨_, rfl⟩
  have hfree : '/' ∉ part.reverse := by
    intro hmem
    rw [List.mem_reverse, ← hpart] at hmem
    exact absurd (List.mem_takeWhile_imp hmem) (by simp)
  have hwhole := List.takeWhile_append_dropWhile (p := (· != '/')) (l := path.toList.reverse)
  rw [hpart] at hwhole
  rw [segments, String.toList_split_char, lastSegment, hpart, List.getLast?_map]
  -- either there is no slash, or the part stands behind the last one
  cases hrest : path.toList.reverse.dropWhile (· != '/') with
  | nil =>
    have hpath : path.toList = part.reverse := by
      rw [hrest, List.append_nil] at hwhole
      rw [hwhole, List.reverse_reverse]
    rw [hpath, List.splitOn_eq_singleton hfree]
    rfl
  | cons c before =>
    have hslash : c = '/' := by
      have hhead := List.head?_dropWhile_not (· != '/') path.toList.reverse
      rw [hrest] at hhead
      simpa using hhead
    have hpath : path.toList = before.reverse ++ '/' :: part.reverse := by
      rw [hrest, hslash] at hwhole
      rw [← List.reverse_reverse path.toList, ← hwhole]
      simp
    rw [hpath, List.splitOn_append_cons_self, List.splitOn_eq_singleton hfree,
      List.getLast?_append_of_ne_nil _ (List.cons_ne_nil _ _)]
    rfl

/-- The last segment of an import path is not empty. -/
theorem lastSegment_ne_empty {path : String} (h : isValid path = true) : lastSegment path ≠ "" :=
  (isValid_iff_segments.1 h _ (List.mem_of_getLast? (getLast?_segments path))).1

/-! ### The pattern of paths -/

/-- The words over the characters of a segment. -/
theorem mem_characterPattern_kstar_iff {word : List Char} :
    word ∈ characterPattern∗ ↔ ∀ c ∈ word, IsSegmentCharacter c := by
  rw [Language.mem_kstar]
  constructor
  · rintro ⟨words, rfl, hwords⟩ c hc
    obtain ⟨letter, hletter, hmem⟩ := List.mem_flatten.1 hc
    obtain ⟨c', hc', rfl⟩ := hwords letter hletter
    rwa [List.mem_singleton.1 hmem]
  · intro h
    refine ⟨word.map fun c => [c], by simp [← List.flatMap_def], ?_⟩
    rw [List.forall_mem_map]
    exact fun c hc => ⟨c, h c hc, rfl⟩

/-- The words of the pattern for segments are the segments. -/
theorem mem_segmentPattern_iff {word : List Char} :
    word ∈ segmentPattern ↔ acceptsSegment word = true := by
  have hsegment : acceptsSegment word = true ↔ word ≠ [] ∧ ∀ c ∈ word, IsSegmentCharacter c := by
    simp [acceptsSegment, isSegmentChar_iff]
  rw [hsegment, segmentPattern, Language.mem_mul]
  constructor
  · rintro ⟨_, ⟨c, hc, rfl⟩, rest, hrest, rfl⟩
    have hrest' := mem_characterPattern_kstar_iff.1 hrest
    exact ⟨List.cons_ne_nil _ _, List.forall_mem_cons.2 ⟨hc, hrest'⟩⟩
  · rintro ⟨hne, h⟩
    obtain ⟨c, rest, rfl⟩ := List.exists_cons_of_ne_nil hne
    rw [List.forall_mem_cons] at h
    exact ⟨[c], ⟨c, h.1, rfl⟩, rest, mem_characterPattern_kstar_iff.2 h.2, rfl⟩

/-- A segment is accepted on its own, since it has no slash. -/
theorem accepts_of_acceptsSegment {part : List Char} (h : acceptsSegment part = true) :
    accepts false part = true := by
  have hfree : '/' ∉ part := by
    intro hmem
    rw [acceptsSegment, Bool.and_eq_true, List.all_eq_true] at h
    exact absurd (h.2 '/' hmem) (by decide)
  rw [accepts_false_eq, List.splitOn_eq_singleton hfree, List.all_cons, h]
  rfl

/-- Segments with a slash before each but the first. -/
theorem intercalate_slash (first : List Char) (rest : List (List Char)) :
    ['/'].intercalate (first :: rest) = first ++ (rest.map ('/' :: ·)).flatten := by
  induction rest generalizing first with
  | nil => simp
  | cons part rest ih =>
    rw [List.intercalate_cons_cons, ih]
    simp

/-- **The texts that are accepted are the words of the pattern.** -/
theorem isValid_iff_mem_pattern {path : String} :
    isValid path = true ↔ path.toList ∈ pattern := by
  rw [isValid, pattern, Language.mem_mul]
  constructor
  · intro h
    obtain ⟨first, rest, hparts⟩ :=
      List.exists_cons_of_ne_nil (List.splitOn_ne_nil '/' path.toList)
    rw [accepts_false_eq, hparts, List.all_cons, Bool.and_eq_true, List.all_eq_true] at h
    refine ⟨first, mem_segmentPattern_iff.2 h.1, (rest.map ('/' :: ·)).flatten, ?_, ?_⟩
    · refine Language.mem_kstar.2 ⟨_, rfl, List.forall_mem_map.2 fun part hpart => ?_⟩
      exact Language.mem_mul.2 ⟨['/'], rfl, part, mem_segmentPattern_iff.2 (h.2 part hpart), rfl⟩
    · rw [← intercalate_slash, ← hparts, List.intercalate_splitOn]
  · rintro ⟨first, hfirst, rest, hrest, heq⟩
    obtain ⟨words, rfl, hwords⟩ := Language.mem_kstar.1 hrest
    rw [← heq]
    -- the induction is on the segments with a slash before them, from any first segment
    clear heq hrest
    induction words generalizing first with
    | nil =>
      rw [List.flatten_nil, List.append_nil]
      exact accepts_of_acceptsSegment (mem_segmentPattern_iff.1 hfirst)
    | cons word words ih =>
      rw [List.forall_mem_cons] at hwords
      obtain ⟨_, rfl, part, hpart, rfl⟩ := Language.mem_mul.1 hwords.1
      rw [List.flatten_cons, List.append_assoc, List.singleton_append, accepts_slash,
        accepts_of_acceptsSegment (mem_segmentPattern_iff.1 hfirst), ih part hpart hwords.2]
      rfl

/-! ### Which texts are import paths -/

/-- A text with a character beyond ASCII, or with a line feed, is no import path. -/
theorem isValid_eq_false_of_mem {path : String} {c : Char} (hmem : c ∈ path.toList)
    (hc : c.toNat < 0x20 ∨ 0x7e < c.toNat) : isValid path = false := by
  rw [← Bool.not_eq_true]
  intro h
  rcases forall_of_isValid h c hmem with rfl | hsegment
  · exact absurd hc (by decide)
  · have := toNat_of_isSegmentChar hsegment
    omega

/-- **Import paths are the texts whose segments are non-empty and consist of ASCII letters, digits
and the five signs**, which is also what the regular expression says. So a text is none if it is
empty, starts or ends with a slash, has two slashes in a row, ends with a line feed, or has a
character beyond ASCII; two texts with a slash between them are an import path just if both are; and
the last segment of an import path, by which an alias may be left out, is not empty. -/
theorem isValid_exact (path : String) :
    (isValid path = true ↔ ∀ segment ∈ segments path, IsSegment segment) ∧
      (isValid path = true ↔ path.toList ∈ pattern) ∧
      (isValid "" = false ∧ isValid ("/" ++ path) = false ∧ isValid (path ++ "/") = false ∧
        (∀ p q : String, isValid (p ++ "//" ++ q) = false) ∧ isValid (path ++ "\n") = false ∧
        ((∃ c ∈ path.toList, 0x7f < c.toNat) → isValid path = false)) ∧
      (∀ p q : String, isValid (p ++ "/" ++ q) = true ↔ isValid p = true ∧ isValid q = true) ∧
      (segments path).getLast? = some (lastSegment path) ∧
      (isValid path = true → lastSegment path ≠ "") := by
  have hempty : isValid "" = false := by decide
  refine ⟨isValid_iff_segments, isValid_iff_mem_pattern, ⟨hempty, ?_, ?_, fun p q => ?_, ?_, ?_⟩,
    fun p q => ?_, getLast?_segments path, lastSegment_ne_empty⟩
  · have hslash := isValid_slash "" path
    rwa [String.empty_append, hempty, Bool.false_and] at hslash
  · have hslash := isValid_slash path ""
    rwa [String.append_empty, hempty, Bool.and_false] at hslash
  · -- there is an empty part between the two slashes
    have hslashes : p ++ "//" ++ q = p ++ "/" ++ "" ++ "/" ++ q := by simp [String.append_assoc]
    rw [hslashes, isValid_slash, isValid_slash, hempty, Bool.and_false, Bool.false_and]
  · exact isValid_eq_false_of_mem (c := '\n') (by simp) (by decide)
  · rintro ⟨c, hmem, hc⟩
    exact isValid_eq_false_of_mem hmem (.inr (by omega))
  · rw [isValid_slash, Bool.and_eq_true]

/-- A path whose last segment has all five signs, and look-alikes of it. -/
theorem isValid_exact_of_signs :
    isValid "example.com/a-b_c~d+e.v2" = true ∧
      (segments "example.com/a-b_c~d+e.v2").getLast? = some "a-b_c~d+e.v2" ∧
      lastSegment "example.com/a-b_c~d+e.v2" ≠ "" ∧
      isValid "example.com/a-b_c~d+e.v2\n" = false ∧ isValid "example.com/\u0430" = false := by
  have hvalid : isValid "example.com/a-b_c~d+e.v2" = true := by decide
  obtain ⟨-, -, ⟨-, -, -, -, hnewline, -⟩, -, hlast, hnonempty⟩ :=
    isValid_exact "example.com/a-b_c~d+e.v2"
  obtain ⟨-, -, ⟨-, -, -, -, -, hforeign⟩, -⟩ := isValid_exact "example.com/\u0430"
  refine ⟨hvalid, ?_, hnonempty hvalid, hnewline, hforeign ⟨'\u0430', by decide, by decide⟩⟩
  rw [hlast]
  decide

end ImportPlan.Path
