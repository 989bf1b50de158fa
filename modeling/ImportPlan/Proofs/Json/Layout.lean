import ImportPlan.Proofs.Json.Literal

namespace ImportPlan.Json

/-!
# Layouts

A sequence of tokens can be written in many ways: with any spacing before, between and behind the
tokens, and with any escapes in the texts.

* `SpellsToken` — the ways to write a token.
* `Lays` — the ways to write a sequence of tokens.
* `nextToken_spellsToken`, `nextToken_of_number` — the token at the start of a text.
-/

/-! ### Ways to write tokens -/

/-- Characters that may stand between tokens. -/
def Spacing (cs : List Char) : Prop := ∀ c ∈ cs, isSpacing c = true

theorem Spacing.nil : Spacing [] := fun _ hc => absurd hc List.not_mem_nil

/-- The ways to write a token that is no number. -/
inductive SpellsToken : Token → List Char → Prop
  | listOpen : SpellsToken .listOpen ['[']
  | listClose : SpellsToken .listClose [']']
  | objectOpen : SpellsToken .objectOpen ['\x7b']
  | objectClose : SpellsToken .objectClose ['\x7d']
  | comma : SpellsToken .comma [',']
  | colon : SpellsToken .colon [':']
  | null : SpellsToken (.scalar (.ofValue .null)) (renderChars .null)
  | bool (b : Bool) : SpellsToken (.scalar (.ofValue (.bool b))) (renderChars (.bool b))
  | text {s : String} {w : List Char} (h : SpellsText s w) : SpellsToken (.text (.ofValue s)) w

/-- The ways to write a sequence of tokens, with any spacing between them. -/
inductive Lays : List Token → List Char → Prop
  | nil {spacing : List Char} (hspacing : Spacing spacing) : Lays [] spacing
  | token {t : Token} {ts : List Token} {spacing w cs : List Char} (hspacing : Spacing spacing)
    (ht : SpellsToken t w) (hrest : Lays ts cs) : Lays (t :: ts) (spacing ++ (w ++ cs))
  /-- A number ends where nothing follows that could belong to it. -/
  | number (n : Int) {ts : List Token} {spacing cs : List Char} (hspacing : Spacing spacing)
    (hends : EndsNumber cs) (hrest : Lays ts cs) :
    Lays (.scalar ⟨numberValue (.ofInt n), none⟩ :: ts) (spacing ++ (renderNumber n ++ cs))

/-! ### The first token -/

/-- A token that can be read on after is the first of the tokens. -/
theorem tokens_eq_cons {cs rest : List Char} {t : Token} (h : nextToken cs = some (t, rest))
    (ht : t.isWhole = true) : tokens cs = t :: tokens rest := by
  have hlt := length_of_nextToken h
  obtain ⟨n, hn⟩ := Nat.exists_eq_succ_of_ne_zero (Nat.ne_of_gt (Nat.zero_lt_of_lt hlt))
  rw [tokens, hn, Nat.succ_eq_add_one, takeTokens, h]
  show t :: (if t.isWhole = true then takeTokens n rest else []) = _
  rw [if_pos ht, takeTokens_of_length_le (by omega)]

/-- Spacing is passed over. -/
theorem nextToken_spacing_append {spacing : List Char} (h : Spacing spacing) (cs : List Char) :
    nextToken (spacing ++ cs) = nextToken cs := by
  rw [nextToken, nextToken, List.dropWhile_append_of_pos h]

/-- Nothing but spacing has no tokens. -/
theorem tokens_spacing {spacing : List Char} (h : Spacing spacing) : tokens spacing = [] := by
  have hnext : nextToken spacing = none := by
    rw [nextToken, List.dropWhile_eq_nil_iff.2 h]
  cases spacing with
  | nil => rfl
  | cons c cs => rw [tokens, List.length_cons, takeTokens, hnext]

/-- A token is told by how it starts, and taken as a whole. -/
theorem nextToken_spellsToken {t : Token} {w : List Char} (h : SpellsToken t w) (cs : List Char) :
    nextToken (w ++ cs) = some (t, cs) ∧ t.isWhole = true := by
  cases h with
  | bool b => cases b <;> exact ⟨rfl, rfl⟩
  | text htext =>
    -- only a text has to be scanned for its end
    obtain ⟨rest, hcons, hscan⟩ := scanText_of_spellsText htext cs
    refine ⟨?_, rfl⟩
    rw [hcons]
    show some (Prod.map Token.text id (scanText rest)) = _
    rw [hscan]
    rfl
  | _ => exact ⟨rfl, rfl⟩

/-- A sign or a digit starts a number. -/
theorem nextToken_of_number {c : Char} (h : c = '-' ∨ c.isDigit = true) (cs : List Char) :
    nextToken (c :: cs) = some ((scanNumber (c :: cs)).map .scalar id) := by
  have hspacing : ¬ isSpacing c = true := by
    intro hc
    simp only [isSpacing, Bool.or_eq_true, beq_iff_eq] at hc
    rcases hc with ((rfl | rfl) | rfl) | rfl <;> exact absurd h (by decide)
  have hnumber : (c == '-' || c.isDigit) = true := by simpa using h
  rw [nextToken, List.dropWhile_cons_of_neg hspacing]
  show some (tokenAt c cs) = _
  unfold tokenAt
  split
  -- all other tokens start with characters of their own
  all_goals first
    | exact absurd h (by decide)
    | rw [if_pos hnumber]

end ImportPlan.Json
