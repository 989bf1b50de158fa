import ImportPlan.Log
import ImportPlan.Proofs.Path.LocalName
import ImportPlan.Proofs.Path.Verbatim
import ImportPlan.Proofs.Session.Effects
import ImportPlan.Proofs.Text.Trimmed

namespace ImportPlan

/-!
# Lines of a log

A log is kept as text, and ids and names stand in it without quotes. Events can be told apart by
their lines all the same, as long as no path holds a blank: a path then ends at the first one.

* `Event.opening`, `Event.details`, `Event.line_eq` — a line in two parts, of which the first one
  says what kind of event it is about; `Event.opening_eq_of_line_eq` reads it off.
* `Event.Legible` — events whose line can be read; `Event.Legible.eq_of_line_eq` — no two of them
  have the same line.
* `Event.Legible.count_line` — so a log has every line as often as its event was reported.
-/

/-- A path holds no blank. -/
theorem Path.blank_not_mem_of_isValid {path : String} (h : isValid path = true) :
    ' ' ∉ path.toList := by
  intro hmem
  exact absurd (forall_of_isValid h ' ' hmem) (by decide)

namespace Event

/-- Where debugging is logged, everything is. -/
theorem lines_debug (log : List Event) : lines (some .debug) log = log.map line := by
  have hall : log.filter (fun e => e.level.passes .debug) = log :=
    List.filter_eq_self.2 fun e _ => by simp [Level.passes, Level.rank]
  rw [lines, hall]

/-! ### The parts of a line -/

/-- What a line begins with. -/
def opening : Event → String
  | redirected .. => "DEBUG redirect import "
  | registered .. => "DEBUG register import "
  | registeredTentatively .. => "DEBUG register tentative import "
  | confirmed _ => "DEBUG confirm use of "
  | resolved _ => "DEBUG resolved "
  | planned .. => "INFO "

/-- What a line goes on with. -/
def details : Event → String
  | redirected id target => id ++ (" -> " ++ target)
  | registered path name => path ++ (" as " ++ name)
  | registeredTentatively library name => library.name ++ (" as " ++ name)
  | confirmed library => library.name
  | resolved count => toString count ++ " imports"
  | planned filename count => filename ++ (": " ++ toString count) ++ " imports"

/-- A line consists of these two parts. -/
theorem line_eq (e : Event) : e.line = e.opening ++ e.details := by
  have hparts : ∀ start verb a b c : String,
      start ++ (verb ++ a ++ b ++ c) = (start ++ verb) ++ (a ++ (b ++ c)) := by
    simp only [String.append_assoc, implies_true]
  cases e with
  | redirected id target => exact hparts "DEBUG " "redirect import " id " -> " target
  | registered path name => exact hparts "DEBUG " "register import " path " as " name
  | registeredTentatively library name =>
    exact hparts "DEBUG " "register tentative import " library.name " as " name
  | confirmed library =>
    show "DEBUG " ++ ("confirm use of " ++ library.name) =
      "DEBUG " ++ "confirm use of " ++ library.name
    simp only [String.append_assoc]
  | resolved count =>
    show "DEBUG " ++ ("resolved " ++ toString count ++ " imports") =
      "DEBUG " ++ "resolved " ++ (toString count ++ " imports")
    simp only [String.append_assoc]
  | planned filename count =>
    show "INFO " ++ (filename ++ ": " ++ toString count ++ " imports") =
      "INFO " ++ (filename ++ (": " ++ toString count) ++ " imports")
    simp only [String.append_assoc]

/-- All that lines begin with. -/
def openings : List String :=
  ["DEBUG redirect import ", "DEBUG register import ", "DEBUG register tentative import ",
    "DEBUG confirm use of ", "DEBUG resolved ", "INFO "]

theorem opening_mem_openings (e : Event) : e.opening ∈ openings := by
  cases e <;> simp [opening, openings]

/-- No opening is the beginning of another one. -/
theorem eq_of_isPrefix_openings :
    ∀ p ∈ openings, ∀ q ∈ openings, p.toList <+: q.toList → p = q := by
  decide

/-- What a line begins with can be read off it. -/
theorem opening_eq_of_line_eq {e e' : Event} (h : e.line = e'.line) : e.opening = e'.opening := by
  have hchars : e.opening.toList ++ e.details.toList = e'.opening.toList ++ e'.details.toList := by
    rw [← String.toList_append, ← String.toList_append, ← line_eq, ← line_eq, h]
  have hprefix : e.opening.toList <+: e'.opening.toList ++ e'.details.toList :=
    ⟨e.details.toList, hchars⟩
  -- of two openings of one line, one is the beginning of the other
  rcases List.prefix_or_prefix_of_prefix hprefix (List.prefix_append _ _) with hle | hle
  · exact eq_of_isPrefix_openings _ e.opening_mem_openings _ e'.opening_mem_openings hle
  · exact (eq_of_isPrefix_openings _ e'.opening_mem_openings _ e.opening_mem_openings hle).symm

/-! ### Events that can be told apart -/

/-- Two texts that are equal are so before and behind the first `c`. -/
theorem append_cons_inj {c : Char} {before before' behind behind' : List Char}
    (hbefore : c ∉ before) (hbefore' : c ∉ before')
    (h : before ++ c :: behind = before' ++ c :: behind') :
    before = before' ∧ behind = behind' := by
  have htake := congrArg (List.takeWhile (· != c)) h
  rw [List.takeWhile_append_of_pos (Text.bne_of_not_mem hbefore),
    List.takeWhile_append_of_pos (Text.bne_of_not_mem hbefore')] at htake
  obtain rfl : before = before' := by simpa using htake
  simpa using h

/-- So are texts with a sign behind the first blank. -/
theorem append_sign_inj (sign : String) {a a' b b' : String} (ha : ' ' ∉ a.toList)
    (ha' : ' ' ∉ a'.toList) (h : a ++ (" " ++ sign ++ b) = a' ++ (" " ++ sign ++ b')) :
    a = a' ∧ b = b' := by
  have hchars : a.toList ++ ' ' :: (sign ++ b).toList =
      a'.toList ++ ' ' :: (sign ++ b').toList := by
    simpa using congrArg String.toList h
  obtain ⟨hbefore, hbehind⟩ := append_cons_inj ha ha' hchars
  exact ⟨String.toList_inj.1 hbefore,
    (String.append_right_inj sign).1 (String.toList_inj.1 hbehind)⟩

/-- A count behind a text can be read off, for it holds digits only. -/
theorem append_count_inj {a a' : String} {n n' : Nat}
    (h : a ++ (": " ++ toString n) = a' ++ (": " ++ toString n')) : a = a' ∧ n = n' := by
  have hdigits : ∀ n : Nat, ' ' ∉ (toString n).toList.reverse := fun n hmem =>
    Renaming.not_mem_toString (by decide) n (List.mem_reverse.1 hmem)
  -- read from the end, the count comes before a blank
  have hchars : (toString n).toList.reverse ++ ' ' :: ':' :: a.toList.reverse =
      (toString n').toList.reverse ++ ' ' :: ':' :: a'.toList.reverse := by
    simpa using congrArg (fun s : String => s.toList.reverse) h
  obtain ⟨hcount, hbefore⟩ := append_cons_inj (hdigits n) (hdigits n') hchars
  have htext : a.toList.reverse = a'.toList.reverse := (List.cons_inj_right ':').1 hbefore
  exact ⟨String.toList_inj.1 (List.reverse_inj.1 htext),
    Nat.repr_injective (String.toList_inj.1 (List.reverse_inj.1 hcount))⟩

/-- The path in the line of the event, if there is one, holds no blank. -/
def Legible : Event → Prop
  | redirected id _ => ' ' ∉ id.toList
  | registered path _ => ' ' ∉ path.toList
  | registeredTentatively .. | confirmed _ | resolved _ | planned .. => True

/-- **Lines tell legible events apart.** -/
theorem Legible.eq_of_line_eq {e e' : Event} (he : e.Legible) (he' : e'.Legible)
    (h : e.line = e'.line) : e = e' := by
  have hopening : e.opening = e'.opening := opening_eq_of_line_eq h
  have hdetails : e.details = e'.details := by
    rwa [line_eq, line_eq, hopening, String.append_right_inj] at h
  -- events of different kinds have different openings
  cases e with
  | redirected id target =>
    cases e' with
    | redirected id' target' =>
      obtain ⟨hid, htarget⟩ := append_sign_inj "-> " he he' hdetails
      rw [hid, htarget]
    | _ => exact absurd hopening (by simp [opening])
  | registered path name =>
    cases e' with
    | registered path' name' =>
      obtain ⟨hpath, hname⟩ := append_sign_inj "as " he he' hdetails
      rw [hpath, hname]
    | _ => exact absurd hopening (by simp [opening])
  | registeredTentatively l name =>
    cases e' with
    | registeredTentatively l' name' =>
      have hblank : ∀ l : Library, ' ' ∉ l.name.toList := fun l => by cases l <;> decide
      obtain ⟨hl, hname⟩ := append_sign_inj "as " (hblank l) (hblank l') hdetails
      rw [Library.name_inj.1 hl, hname]
    | _ => exact absurd hopening (by simp [opening])
  | confirmed l =>
    cases e' with
    | confirmed l' => rw [Library.name_inj.1 hdetails]
    | _ => exact absurd hopening (by simp [opening])
  | resolved count =>
    cases e' with
    | resolved count' =>
      rw [Nat.repr_injective ((String.append_left_inj " imports").1 hdetails)]
    | _ => exact absurd hopening (by simp [opening])
  | planned filename count =>
    cases e' with
    | planned filename' count' =>
      obtain ⟨hname, hcount⟩ := append_count_inj ((String.append_left_inj " imports").1 hdetails)
      rw [hname, hcount]
    | _ => exact absurd hopening (by simp [opening])

/-- An id with blanks could not be told from its target. -/
example : (redirected "a -> b" "c").line = (redirected "a" "b -> c").line := by decide

/-- **A log has every line as often as its event was reported**, if its events are legible. -/
theorem Legible.count_line {log : List Event} (hlog : ∀ e ∈ log, e.Legible) {e : Event}
    (he : e.Legible) : (log.map line).count e.line = log.count e := by
  rw [List.count, List.countP_map, List.count]
  refine List.countP_congr fun e' he' => ?_
  simp only [Function.comp_apply, beq_iff_eq]
  exact ⟨(hlog e' he').eq_of_line_eq he, fun heq => by rw [heq]⟩

end Event

end ImportPlan
