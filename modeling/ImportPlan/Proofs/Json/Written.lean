import ImportPlan.Json.Outline
import ImportPlan.Proofs.Json.Layout

namespace ImportPlan.Json

/-!
# Written values

A value has an outline of its shape, and the tokens that it is written by, in whichever layout.

* `Json.outline` — the outline of a value, part by part.
* `Json.induction` — what holds of a value if it holds of its parts.
* `Json.lexed` — the tokens of a value.
* `Json.WrittenAs` — the texts of a value; `writtenAs_render` — the shortest one is among them.
-/

/-! ### Outlines -/

mutual

/-- The outline of a value. -/
def outline : Json → Outline
  | null => .scalar (.ofValue .null)
  | bool b => .scalar (.ofValue (.bool b))
  | number n => .scalar ⟨numberValue (.ofInt n), none⟩
  | text s => .text (.ofValue s)
  | list items => .list (outlineItems items) none
  | object members => .object (outlineMembers members) none
termination_by structural j => j

/-- The outlines of the items of a list. -/
def outlineItems : List Json → List Outline
  | [] => []
  | item :: items => outline item :: outlineItems items
termination_by structural items => items

/-- The outlines of the members of an object. -/
def outlineMembers : List (String × Json) → List (Key × Outline)
  | [] => []
  | (key, value) :: members => (.text (.ofValue key), outline value) :: outlineMembers members
termination_by structural members => members

end

/-- Induction over values: the parts of a list or an object come before it. -/
@[elab_as_elim]
theorem induction {P : Json → Prop} (hnull : P .null) (hbool : ∀ b, P (.bool b))
    (hnumber : ∀ n, P (.number n)) (htext : ∀ s, P (.text s))
    (hlist : ∀ items, (∀ item ∈ items, P item) → P (.list items))
    (hobject : ∀ members, (∀ m ∈ members, P m.2) → P (.object members)) (j : Json) : P j :=
  match j with
  | .null => hnull
  | .bool b => hbool b
  | .number n => hnumber n
  | .text s => htext s
  | .list items => hlist items fun item _ =>
    induction hnull hbool hnumber htext hlist hobject item
  | .object members => hobject members fun m _ =>
    induction hnull hbool hnumber htext hlist hobject m.2
termination_by j
decreasing_by
  · have hlt := List.sizeOf_lt_of_mem ‹item ∈ items›
    simp only [list.sizeOf_spec]
    omega
  · have hlt := List.sizeOf_lt_of_mem ‹m ∈ members›
    have hpair : sizeOf m = 1 + sizeOf m.1 + sizeOf m.2 := by cases m; rfl
    simp only [object.sizeOf_spec]
    omega

/-! ### Tokens -/

mutual

/-- The tokens of a value. -/
def lexed : Json → List Token
  | null => [.scalar (.ofValue .null)]
  | bool b => [.scalar (.ofValue (.bool b))]
  | number n => [.scalar ⟨numberValue (.ofInt n), none⟩]
  | text s => [.text (.ofValue s)]
  | list items => .listOpen :: (lexedItems items ++ [.listClose])
  | object members => .objectOpen :: (lexedMembers members ++ [.objectClose])
termination_by structural j => j

/-- The tokens of the items of a list. -/
def lexedItems : List Json → List Token
  | [] => []
  | [item] => lexed item
  | item :: items => lexed item ++ .comma :: lexedItems items
termination_by structural items => items

/-- The tokens of the members of an object. -/
def lexedMembers : List (String × Json) → List Token
  | [] => []
  | [(key, value)] => .text (.ofValue key) :: .colon :: lexed value
  | (key, value) :: members =>
    .text (.ofValue key) :: .colon :: (lexed value ++ .comma :: lexedMembers members)
termination_by structural members => members

end

/-- Every item but the first comes behind a comma. -/
theorem lexedItems_cons (item : Json) (items : List Json) :
    lexedItems (item :: items) = lexed item ++ items.flatMap fun j => .comma :: lexed j := by
  induction items generalizing item with
  | nil => simp [lexedItems]
  | cons item' items ih => simp [lexedItems, ih item']

theorem renderItems_cons (item : Json) (items : List Json) :
    renderItems (item :: items) =
      renderChars item ++ items.flatMap fun j => ',' :: renderChars j := by
  induction items generalizing item with
  | nil => simp [renderItems]
  | cons item' items ih => simp [renderItems, ih item']

/-- The tokens of one member. -/
def lexedMember (m : String × Json) : List Token := .text (.ofValue m.1) :: .colon :: lexed m.2

/-- The characters of one member. -/
def renderMember (m : String × Json) : List Char := renderText m.1 ++ ':' :: renderChars m.2

/-- Every member but the first comes behind a comma. -/
theorem lexedMembers_cons (m : String × Json) (members : List (String × Json)) :
    lexedMembers (m :: members) =
      lexedMember m ++ members.flatMap fun m => .comma :: lexedMember m := by
  induction members generalizing m with
  | nil => simp [lexedMembers, lexedMember]
  | cons m' members ih => simp [lexedMembers, lexedMember, ih m']

theorem renderMembers_cons (m : String × Json) (members : List (String × Json)) :
    renderMembers (m :: members) =
      renderMember m ++ members.flatMap fun m => ',' :: renderMember m := by
  induction members generalizing m with
  | nil => simp [renderMembers, renderMember]
  | cons m' members ih => simp [renderMembers, renderMember, ih m']

/-! ### Texts -/

/-- The text is written so as to have the tokens of the value. -/
def WrittenAs (j : Json) (text : String) : Prop := Lays j.lexed text.toList

/-- The text of a value may have spacing around it and escapes in it. -/
example : (text "\u00e9").WrittenAs " \"\\u00E9\"\n" := by
  have htext : SpellsText "\u00e9" "\"\\u00E9\"".toList :=
    ⟨[_], .cons (.unit rfl) .nil, rfl⟩
  have hspacing : Spacing [' '] ∧ Spacing ['\n'] := by
    constructor <;> simp [Spacing, isSpacing]
  exact .token hspacing.1 (.text htext) (.nil hspacing.2)

/-- A token without spacing before it. -/
theorem Lays.cons {t : Token} {ts : List Token} {w cs : List Char} (ht : SpellsToken t w)
    (hrest : Lays ts cs) : Lays (t :: ts) (w ++ cs) :=
  Lays.token Spacing.nil ht hrest

/-- A bracket or a separator without spacing before it. -/
theorem Lays.mark {t : Token} {ts : List Token} {c : Char} {cs : List Char}
    (ht : SpellsToken t [c]) (hrest : Lays ts cs) : Lays (t :: ts) (c :: cs) := .cons ht hrest

/-- The value is rendered in one of its layouts, before anything that ends a number. -/
def IsLaid (j : Json) : Prop :=
  ∀ ts rest, EndsNumber rest → Lays ts rest → Lays (j.lexed ++ ts) (renderChars j ++ rest)

/-- A number ends before a comma and before the end of a list or an object. -/
theorem endsNumber_flatMap {α : Type} (as : List α) (f : α → List Char) {close : Char}
    (hclose : close = ']' ∨ close = '\x7d') (rest : List Char) :
    EndsNumber ((as.flatMap fun a => ',' :: f a) ++ close :: rest) := by
  cases as with
  | nil => rcases hclose with rfl | rfl <;> exact ⟨rfl, by decide, rfl⟩
  | cons a as => exact ⟨rfl, by decide, rfl⟩

/-- Further items are rendered in one of their layouts. -/
theorem lays_items {items : List Json} (h : ∀ item ∈ items, item.IsLaid) {ts : List Token}
    {rest : List Char} (hrest : Lays ts rest) :
    Lays ((items.flatMap fun j => .comma :: lexed j) ++ .listClose :: ts)
      ((items.flatMap fun j => ',' :: renderChars j) ++ ']' :: rest) := by
  induction items with
  | nil => exact .mark .listClose hrest
  | cons item items ih =>
    rw [List.forall_mem_cons] at h
    rw [List.flatMap_cons, List.flatMap_cons, List.append_assoc, List.append_assoc,
      List.cons_append, List.cons_append]
    exact .mark .comma (h.1 _ _ (endsNumber_flatMap items _ (.inl rfl) rest) (ih h.2))

/-- A member is rendered in one of its layouts. -/
theorem lays_member {m : String × Json} (h : m.2.IsLaid) {ts : List Token} {rest : List Char}
    (hends : EndsNumber rest) (hrest : Lays ts rest) :
    Lays (lexedMember m ++ ts) (renderMember m ++ rest) := by
  rw [renderMember, List.append_assoc]
  exact .cons (.text (spellsText_renderText m.1)) (.mark .colon (h ts rest hends hrest))

/-- Further members are rendered in one of their layouts. -/
theorem lays_members {members : List (String × Json)} (h : ∀ m ∈ members, m.2.IsLaid)
    {ts : List Token} {rest : List Char} (hrest : Lays ts rest) :
    Lays ((members.flatMap fun m => .comma :: lexedMember m) ++ .objectClose :: ts)
      ((members.flatMap fun m => ',' :: renderMember m) ++ '\x7d' :: rest) := by
  induction members with
  | nil => exact .mark .objectClose hrest
  | cons m members ih =>
    rw [List.forall_mem_cons] at h
    rw [List.flatMap_cons, List.flatMap_cons, List.append_assoc, List.append_assoc,
      List.cons_append, List.cons_append]
    exact .mark .comma
      (lays_member h.1 (endsNumber_flatMap members _ (.inr rfl) rest) (ih h.2))

/-- Every value is rendered in one of its layouts. -/
theorem isLaid (j : Json) : j.IsLaid := by
  induction j using induction with
  | hnull => exact fun _ _ _ hrest => .cons .null hrest
  | hbool b => exact fun _ _ _ hrest => .cons (.bool b) hrest
  | hnumber n =>
    intro ts rest hends hrest
    exact Lays.number n Spacing.nil hends hrest
  | htext s => exact fun _ _ _ hrest => .cons (.text (spellsText_renderText s)) hrest
  | hlist items ih =>
    intro ts rest _ hrest
    rw [lexed, renderChars, List.cons_append, List.cons_append, List.cons_append,
      List.append_assoc, List.append_assoc]
    refine .mark .listOpen ?_
    cases items with
    | nil => exact .mark .listClose hrest
    | cons item items =>
      rw [List.forall_mem_cons] at ih
      rw [lexedItems_cons, renderItems_cons, List.append_assoc, List.append_assoc]
      exact ih.1 _ _ (endsNumber_flatMap items _ (.inl rfl) rest) (lays_items ih.2 hrest)
  | hobject members ih =>
    intro ts rest _ hrest
    rw [lexed, renderChars, List.cons_append, List.cons_append, List.cons_append,
      List.append_assoc, List.append_assoc]
    refine .mark .objectOpen ?_
    cases members with
    | nil => exact .mark .objectClose hrest
    | cons m members =>
      rw [List.forall_mem_cons] at ih
      rw [lexedMembers_cons, renderMembers_cons, List.append_assoc, List.append_assoc]
      exact lays_member ih.1 (endsNumber_flatMap members _ (.inr rfl) rest)
        (lays_members ih.2 hrest)

/-- The shortest text of a value is among its texts. -/
theorem writtenAs_render (j : Json) : j.WrittenAs j.render := by
  have hlaid := isLaid j [] [] trivial (.nil Spacing.nil)
  rwa [List.append_nil, List.append_nil, ← String.toList_ofList (l := renderChars j)] at hlaid

end ImportPlan.Json
