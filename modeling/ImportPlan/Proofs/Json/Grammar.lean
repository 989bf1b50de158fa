import ImportPlan.Json.Decoder
import ImportPlan.Proofs.Json.Number
import ImportPlan.Proofs.Json.Written

namespace ImportPlan.Json

/-!
# JSON texts

The grammar of all JSON texts: with any spacing, any numbers and any escapes, also such as denote
no value that could be read. A text of the grammar has the outline that it was written from.

* `Outline.WrittenAs` — the texts with an outline.
* `Outline.induction` — what holds of an outline if it holds of its parts.
* `Outline.ofText_of_writtenAs` — a text is read as its outline, with nothing behind it;
  `Outline.skip_of_isWritten` — nobody who passes over it meets a fault.
* `outline_writtenAs` — the texts of a value are texts with its outline, which is read from them:
  `Reading.ofText_of_writtenAs`.
-/

/-! ### Tokens -/

/-- A part of a text literal: a character, or a code unit that is given by an escape. -/
inductive Piece
  | char (c : Char)
  | unit (n : Nat)

/-- Goes on with a part of the literal. -/
def Scanned.add (s : Scanned) : Piece → Scanned
  | .char c => s.push c
  | .unit n => s.pushUnit n

/-- The literal that consists of these parts. It has no value if a half of a surrogate pair stands
without its partner. -/
def Leaf.ofPieces (pieces : List Piece) : Leaf String := (pieces.foldl Scanned.add .empty).close

/-- The ways to write a part of a text literal. -/
inductive SpellsPiece : Piece → List Char → Prop
  | plain {c : Char} (hquote : c ≠ '"') (hbackslash : c ≠ '\\') (hcontrol : ¬ c.toNat < 0x20) :
    SpellsPiece (.char c) [c]
  | letter {c e : Char} (h : escapedChar? e = some c) : SpellsPiece (.char c) ['\\', e]
  | unit {a b c d : Char} {n : Nat} (h : quadValue? a b c d = some n) :
    SpellsPiece (.unit n) ['\\', 'u', a, b, c, d]

/-- The ways to write a token that is no number. -/
inductive Lexeme : Token → List Char → Prop
  | plain {t : Token} {w : List Char} (h : SpellsToken t w) : Lexeme t w
  /-- A text literal, whichever code units its escapes give. -/
  | text {pieces : List Piece} {words : List (List Char)}
    (h : List.Forall₂ SpellsPiece pieces words) :
    Lexeme (.text (.ofPieces pieces)) ('"' :: words.flatten ++ ['"'])

/-- The ways to write a sequence of tokens, with any spacing between them. -/
inductive Layout : List Token → List Char → Prop
  | nil {spacing : List Char} (hspacing : Spacing spacing) : Layout [] spacing
  | token {t : Token} {ts : List Token} {spacing w cs : List Char} (hspacing : Spacing spacing)
    (ht : Lexeme t w) (hrest : Layout ts cs) : Layout (t :: ts) (spacing ++ (w ++ cs))
  /-- A number ends where nothing follows that could belong to it. -/
  | number {p : NumberParts} {ts : List Token} {spacing w cs : List Char}
    (hspacing : Spacing spacing) (h : SpellsNumber p w) (hends : EndsNumber cs)
    (hrest : Layout ts cs) : Layout (.scalar ⟨numberValue p, none⟩ :: ts) (spacing ++ (w ++ cs))

/-- A written part of a literal is scanned as it. -/
theorem scanTextFrom_of_spellsPiece (s : Scanned) {piece : Piece} {w : List Char}
    (h : SpellsPiece piece w) (rest : List Char) :
    scanTextFrom s (w ++ rest) = scanTextFrom (s.add piece) rest := by
  cases h with
  | plain hquote hbackslash hcontrol => exact scanTextFrom_plain s hquote hbackslash hcontrol rest
  | letter h => exact scanTextFrom_escape s h rest
  | unit h => exact scanTextFrom_unit s h rest

/-- Parts are scanned up to the closing quote. -/
theorem scanTextFrom_of_pieces {pieces : List Piece} {words : List (List Char)}
    (h : List.Forall₂ SpellsPiece pieces words) (s : Scanned) (rest : List Char) :
    scanTextFrom s (words.flatten ++ '"' :: rest) = ((pieces.foldl Scanned.add s).close, rest) := by
  induction h generalizing s with
  | nil => rfl
  | cons hpiece _ ih =>
    rw [List.flatten_cons, List.append_assoc, scanTextFrom_of_spellsPiece s hpiece, ih]
    rfl

/-- A token that is no number is taken as a whole. -/
theorem nextToken_lexeme {t : Token} {w : List Char} (h : Lexeme t w) (cs : List Char) :
    nextToken (w ++ cs) = some (t, cs) ∧ t.isWhole = true := by
  cases h with
  | plain h => exact nextToken_spellsToken h cs
  | @text pieces words h =>
    have hscan : scanText (words.flatten ++ '"' :: cs) = (.ofPieces pieces, cs) :=
      scanTextFrom_of_pieces h .empty cs
    refine ⟨?_, rfl⟩
    rw [List.cons_append, List.cons_append, List.append_assoc]
    show some (Prod.map Token.text id (scanText (words.flatten ++ '"' :: cs))) = _
    rw [hscan]
    rfl

/-- A number is taken as a whole, if nothing follows that could belong to it. -/
theorem nextToken_of_spellsNumber {p : NumberParts} {w cs : List Char} (h : SpellsNumber p w)
    (hends : EndsNumber cs) :
    nextToken (w ++ cs) = some (.scalar ⟨numberValue p, none⟩, cs) := by
  have hscan := scanNumber_of_spellsNumber h hends
  obtain ⟨c, digits, rfl, hc⟩ := h.exists_eq_cons
  rw [List.cons_append] at hscan ⊢
  rw [nextToken_of_number hc, hscan]
  rfl

/-- **The tokens of a text are those that it was written from**, and all of them are whole. -/
theorem tokens_of_layout {ts : List Token} {cs : List Char} (h : Layout ts cs) :
    tokens cs = ts ∧ ∀ t ∈ ts, t.isWhole = true := by
  induction h with
  | nil hspacing => exact ⟨tokens_spacing hspacing, nofun⟩
  | @token t ts spacing w cs hspacing ht hrest ih =>
    obtain ⟨hnext, hwhole⟩ := nextToken_lexeme ht cs
    rw [← nextToken_spacing_append hspacing] at hnext
    rw [tokens_eq_cons hnext hwhole, ih.1, List.forall_mem_cons]
    exact ⟨rfl, hwhole, ih.2⟩
  | @number p ts spacing w cs hspacing h hends hrest ih =>
    have hnext := nextToken_of_spellsNumber h hends
    rw [← nextToken_spacing_append hspacing] at hnext
    rw [tokens_eq_cons hnext rfl, ih.1, List.forall_mem_cons]
    exact ⟨rfl, rfl, ih.2⟩

/-! ### Outlines -/

/-- The token of a key. -/
def Key.lexed : Key → Token
  | .absent _ => .stray
  | .text literal => .text literal

namespace Outline

mutual

/-- The tokens of an outline. What is broken off has a token that is nowhere written. -/
def lexed : Outline → List Token
  | scalar literal => [.scalar literal]
  | text literal => [.text literal]
  | list items none => .listOpen :: (lexedItems items ++ [.listClose])
  | object members none => .objectOpen :: (lexedMembers members ++ [.objectClose])
  | absent _ | list _ (some _) | object _ (some _) => [.stray]
termination_by structural o => o

/-- The tokens of the items of a list. -/
def lexedItems : List Outline → List Token
  | [] => []
  | [item] => lexed item
  | item :: items => lexed item ++ .comma :: lexedItems items
termination_by structural items => items

/-- The tokens of the members of an object. -/
def lexedMembers : List (Key × Outline) → List Token
  | [] => []
  | [(key, value)] => key.lexed :: .colon :: lexed value
  | (key, value) :: members =>
    key.lexed :: .colon :: (lexed value ++ .comma :: lexedMembers members)
termination_by structural members => members

end

/-- The text is written with this outline. -/
def WrittenAs (o : Outline) (text : String) : Prop := Layout o.lexed text.toList

/-- The outline is that of a JSON value: it can be written. -/
def IsWritten (o : Outline) : Prop := ∃ text, o.WrittenAs text

/-- Induction over outlines: the parts of a list or an object come before it. -/
@[elab_as_elim]
theorem induction {P : Outline → Prop} (habsent : ∀ f, P (.absent f)) (hscalar : ∀ l, P (.scalar l))
    (htext : ∀ l, P (.text l))
    (hlist : ∀ items stop, (∀ item ∈ items, P item) → P (.list items stop))
    (hobject : ∀ members stop, (∀ m ∈ members, P m.2) → P (.object members stop)) (o : Outline) :
    P o :=
  match o with
  | .absent f => habsent f
  | .scalar l => hscalar l
  | .text l => htext l
  | .list items stop => hlist items stop fun item _ =>
    induction habsent hscalar htext hlist hobject item
  | .object members stop => hobject members stop fun m _ =>
    induction habsent hscalar htext hlist hobject m.2
termination_by o
decreasing_by
  · have hlt := List.sizeOf_lt_of_mem ‹item ∈ items›
    simp only [list.sizeOf_spec]
    omega
  · have hlt := List.sizeOf_lt_of_mem ‹m ∈ members›
    have hpair : sizeOf m = 1 + sizeOf m.1 + sizeOf m.2 := by cases m; rfl
    simp only [object.sizeOf_spec]
    omega

/-- The tokens of a member. -/
def lexedMember (m : Key × Outline) : List Token := m.1.lexed :: .colon :: m.2.lexed

/-- Every item but the first comes behind a comma. -/
theorem lexedItems_cons (item : Outline) (items : List Outline) :
    lexedItems (item :: items) = item.lexed ++ items.flatMap fun o => .comma :: o.lexed := by
  induction items generalizing item with
  | nil => simp [lexedItems]
  | cons item' items ih => simp [lexedItems, ih item']

/-- Every member but the first comes behind a comma. -/
theorem lexedMembers_cons (m : Key × Outline) (members : List (Key × Outline)) :
    lexedMembers (m :: members) =
      lexedMember m ++ members.flatMap fun m => .comma :: lexedMember m := by
  induction members generalizing m with
  | nil => simp [lexedMembers, lexedMember]
  | cons m' members ih => simp [lexedMembers, lexedMember, ih m']

/-! ### Building -/

/-- The tokens can be read on after. -/
def AllWhole (ts : List Token) : Prop := ∀ t ∈ ts, t.isWhole = true

/-- The tokens of the outline, if they are whole, are built as it inside of any open lists and
objects, and what comes behind them goes on after it. Nobody who passes over it meets a fault. -/
structure IsBuilt (o : Outline) : Prop where
  build_eq : ∀ frames ts, build frames .value (o.lexed ++ ts) = build frames (.after o) ts
  skip_eq : o.skip = none

/-- Keys that are whole are built as such. -/
theorem build_key {key : Key} (h : key.lexed.isWhole = true) (frames : List Frame)
    (read : List (Key × Outline)) (ts : List Token) :
    build frames (.key read) (key.lexed :: .colon :: ts) =
      build (.object read key :: frames) .value ts ∧ key.skip = none := by
  obtain _ | ⟨value, _ | fault⟩ := key
  · cases h
  · exact ⟨rfl, rfl⟩
  · cases h

/-- Further items are built behind those of an open list, which is closed after them. -/
theorem build_items {items : List Outline} (h : ∀ item ∈ items, item.IsBuilt) (frames : List Frame)
    (read : List Outline) (value : Outline) (ts : List Token) :
    build (.list read :: frames) (.after value)
        ((items.flatMap fun o => .comma :: o.lexed) ++ .listClose :: ts) =
      build frames (.after (.list (read.reverse ++ value :: items) none)) ts := by
  induction items generalizing read value with
  | nil =>
    show build frames (.after (.list (value :: read).reverse none)) ts = _
    rw [List.reverse_cons]
  | cons item items ih =>
    rw [List.forall_mem_cons] at h
    rw [List.flatMap_cons, List.append_assoc, List.cons_append]
    -- the comma puts the value before it among the items that have been read
    show build (.list (value :: read) :: frames) .value (item.lexed ++ _) = _
    rw [h.1.build_eq, ih h.2, List.reverse_cons, List.append_assoc]
    rfl

/-- Further members are built behind those of an open object, which is closed after them. -/
theorem build_members {members : List (Key × Outline)}
    (h : ∀ m ∈ members, m.1.lexed.isWhole = true ∧ m.2.IsBuilt) (frames : List Frame)
    (read : List (Key × Outline)) (key : Key) (value : Outline) (ts : List Token) :
    build (.object read key :: frames) (.after value)
        ((members.flatMap fun m => .comma :: lexedMember m) ++ .objectClose :: ts) =
      build frames (.after (.object (read.reverse ++ (key, value) :: members) none)) ts := by
  induction members generalizing read key value with
  | nil =>
    show build frames (.after (.object ((key, value) :: read).reverse none)) ts = _
    rw [List.reverse_cons]
  | cons m members ih =>
    rw [List.forall_mem_cons] at h
    obtain ⟨⟨hkey, hvalue⟩, hrest⟩ := h
    rw [List.flatMap_cons, List.append_assoc, List.cons_append, lexedMember]
    -- the comma does so with the member before it, and a key and a colon follow
    show build frames (.key ((key, value) :: read)) (m.1.lexed :: .colon :: (m.2.lexed ++ _)) = _
    rw [(build_key hkey _ _ _).1, hvalue.build_eq, ih hrest, List.reverse_cons, List.append_assoc]
    rfl

/-- Items are written by tokens of the list. -/
theorem mem_lexedItems {items : List Outline} {item : Outline} (h : item ∈ items) {t : Token}
    (ht : t ∈ item.lexed) : t ∈ lexedItems items := by
  cases items with
  | nil => exact absurd h List.not_mem_nil
  | cons item' items =>
    rw [lexedItems_cons, List.mem_append, List.mem_flatMap]
    rcases List.mem_cons.1 h with rfl | hrest
    · exact .inl ht
    · exact .inr ⟨item, hrest, List.mem_cons_of_mem _ ht⟩

/-- Members are written by tokens of the object. -/
theorem mem_lexedMembers {members : List (Key × Outline)} {m : Key × Outline} (h : m ∈ members)
    {t : Token} (ht : t ∈ lexedMember m) : t ∈ lexedMembers members := by
  cases members with
  | nil => exact absurd h List.not_mem_nil
  | cons m' members =>
    rw [lexedMembers_cons, List.mem_append, List.mem_flatMap]
    rcases List.mem_cons.1 h with rfl | hrest
    · exact .inl ht
    · exact .inr ⟨m, hrest, List.mem_cons_of_mem _ ht⟩

/-- Nobody who passes over items meets a fault, if nobody does who passes over one of them. -/
theorem skipItems_eq {items : List Outline} (h : ∀ item ∈ items, item.skip = none) :
    skipItems items = none := by
  induction items with
  | nil => rfl
  | cons item items ih =>
    rw [List.forall_mem_cons] at h
    rw [skipItems, h.1, ih h.2]
    rfl

theorem skipMembers_eq {members : List (Key × Outline)}
    (h : ∀ m ∈ members, m.1.skip = none ∧ m.2.skip = none) : skipMembers members = none := by
  induction members with
  | nil => rfl
  | cons m members ih =>
    rw [List.forall_mem_cons] at h
    rw [skipMembers, h.1.1, h.1.2, ih h.2]
    rfl

/-- The tokens of a list are built as it, if those of its items are. -/
theorem isBuilt_list {items : List Outline} (h : ∀ item ∈ items, item.IsBuilt) :
    (list items none).IsBuilt := by
  refine ⟨fun frames ts => ?_, ?_⟩
  · cases items with
    | nil => rfl
    | cons item items =>
      rw [List.forall_mem_cons] at h
      -- the first item comes without a comma
      show build (.list [] :: frames) .value (lexedItems (item :: items) ++ [.listClose] ++ ts) = _
      rw [lexedItems_cons, List.append_assoc, List.append_assoc, h.1.build_eq]
      exact build_items h.2 frames [] item ts
  · rw [skip, skipItems_eq fun item hitem => (h item hitem).skip_eq]
    rfl

/-- The tokens of an object are built as it, if those of its members are. -/
theorem isBuilt_object {members : List (Key × Outline)}
    (h : ∀ m ∈ members, m.1.lexed.isWhole = true ∧ m.2.IsBuilt) :
    (object members none).IsBuilt := by
  refine ⟨fun frames ts => ?_, ?_⟩
  · cases members with
    | nil => rfl
    | cons m members =>
      rw [List.forall_mem_cons] at h
      show build frames (.key []) (lexedMembers (m :: members) ++ [.objectClose] ++ ts) = _
      rw [lexedMembers_cons, List.append_assoc, List.append_assoc]
      show build frames (.key []) (m.1.lexed :: .colon :: (m.2.lexed ++ _)) = _
      rw [(build_key h.1.1 _ _ _).1, h.1.2.build_eq]
      exact build_members h.2 frames [] m.1 m.2 ts
  · rw [skip, skipMembers_eq fun m hm =>
      ⟨(build_key (h m hm).1 [] [] []).2, (h m hm).2.skip_eq⟩]
    rfl

/-- **The tokens of an outline are built as it**, if all of them are whole. -/
theorem isBuilt {o : Outline} (h : AllWhole o.lexed) : o.IsBuilt := by
  induction o using induction with
  | habsent f => exact absurd (h .stray List.mem_cons_self) (by decide)
  | hscalar l =>
    obtain ⟨value, _ | fault⟩ := l
    · exact ⟨fun _ _ => rfl, rfl⟩
    · cases h _ List.mem_cons_self
  | htext l =>
    obtain ⟨value, _ | fault⟩ := l
    · exact ⟨fun _ _ => rfl, rfl⟩
    · cases h _ List.mem_cons_self
  | hlist items stop ih =>
    cases stop with
    | some fault => exact absurd (h .stray List.mem_cons_self) (by decide)
    | none =>
      refine isBuilt_list fun item hitem => ih item hitem fun t ht => h t ?_
      exact List.mem_cons_of_mem _ (List.mem_append_left _ (mem_lexedItems hitem ht))
  | hobject members stop ih =>
    cases stop with
    | some fault => exact absurd (h .stray List.mem_cons_self) (by decide)
    | none =>
      have hmember : ∀ m ∈ members, ∀ t ∈ lexedMember m, t.isWhole = true := by
        intro m hm t ht
        exact h t (List.mem_cons_of_mem _ (List.mem_append_left _ (mem_lexedMembers hm ht)))
      refine isBuilt_object fun m hm => ⟨hmember m hm _ List.mem_cons_self, ih m hm fun t ht => ?_⟩
      exact hmember m hm t (List.mem_cons_of_mem _ (List.mem_cons_of_mem _ ht))

/-! ### Texts -/

variable {o : Outline} {text : String}

/-- **A text is read as the outline that it was written from**, with nothing behind it. -/
theorem ofText_of_writtenAs (h : o.WrittenAs text) : Reading.ofText text = ⟨o, false⟩ := by
  obtain ⟨htokens, hwhole⟩ := tokens_of_layout h
  have hbuild := (isBuilt hwhole).build_eq [] []
  rw [List.append_nil] at hbuild
  rw [Reading.ofText, htokens, hbuild]
  rfl

/-- A decoder reads a text from the outline that it was written from. -/
theorem parseThen_of_writtenAs (h : o.WrittenAs text) {α β : Type} (d : Decoder α)
    (accept : α → Except Problem β) :
    d.parseThen accept text = d (.text maxDepth) o >>= accept := by
  rw [Decoder.parseThen, ofText_of_writtenAs h]
  simp

theorem parse_of_writtenAs (h : o.WrittenAs text) {α : Type} (d : Decoder α) :
    d.parse text = d (.text maxDepth) o := by
  rw [Decoder.parse, parseThen_of_writtenAs h]
  exact bind_pure (d (.text maxDepth) o)

/-- **Nobody who passes over a JSON value meets a fault.** -/
theorem skip_of_isWritten (h : o.IsWritten) : o.skip = none := by
  obtain ⟨text, htext⟩ := h
  exact (isBuilt (tokens_of_layout htext).2).skip_eq

end Outline

/-! ### Values -/

/-- Items are written by the same tokens as their outlines. -/
theorem lexedItems_outlineItems {items : List Json}
    (h : ∀ item ∈ items, item.outline.lexed = item.lexed) :
    Outline.lexedItems (outlineItems items) = lexedItems items := by
  induction items with
  | nil => rfl
  | cons item items ih =>
    rw [List.forall_mem_cons] at h
    cases items with
    | nil => exact h.1
    | cons item' items =>
      show item.outline.lexed ++ .comma :: Outline.lexedItems (outlineItems (item' :: items)) = _
      rw [h.1, ih h.2]
      rfl

/-- Members are written by the same tokens as their outlines. -/
theorem lexedMembers_outlineMembers {members : List (String × Json)}
    (h : ∀ m ∈ members, m.2.outline.lexed = m.2.lexed) :
    Outline.lexedMembers (outlineMembers members) = lexedMembers members := by
  induction members with
  | nil => rfl
  | cons m members ih =>
    rw [List.forall_mem_cons] at h
    cases members with
    | nil => exact congrArg (fun ts => .text (.ofValue m.1) :: .colon :: ts) h.1
    | cons m' members =>
      show .text (.ofValue m.1) :: .colon :: (m.2.outline.lexed ++
        .comma :: Outline.lexedMembers (outlineMembers (m' :: members))) = _
      rw [h.1, ih h.2]
      rfl

/-- The tokens of the outline of a value are those of the value. -/
theorem outline_lexed (j : Json) : j.outline.lexed = j.lexed := by
  induction j using induction with
  | hlist items ih =>
    rw [outline, Outline.lexed, lexedItems_outlineItems ih]
    rfl
  | hobject members ih =>
    rw [outline, Outline.lexed, lexedMembers_outlineMembers ih]
    rfl
  | _ => rfl

/-- What is written as tokens of values is written as tokens. -/
theorem layout_of_lays {ts : List Token} {cs : List Char} (h : Lays ts cs) : Layout ts cs := by
  induction h with
  | nil hspacing => exact .nil hspacing
  | token hspacing ht _ ih => exact .token hspacing (.plain ht) ih
  | number n hspacing hends _ ih =>
    exact .number hspacing (spellsNumber_renderNumber n) hends ih

/-- **The texts of a value are texts with its outline.** -/
theorem outline_writtenAs {j : Json} {text : String} (h : j.WrittenAs text) :
    j.outline.WrittenAs text := by
  rw [Outline.WrittenAs, outline_lexed]
  exact layout_of_lays h

/-- **A text of a value is read as its outline**, with nothing behind it. -/
theorem Reading.ofText_of_writtenAs {j : Json} {text : String} (h : j.WrittenAs text) :
    ofText text = ⟨j.outline, false⟩ :=
  Outline.ofText_of_writtenAs (outline_writtenAs h)

end ImportPlan.Json
