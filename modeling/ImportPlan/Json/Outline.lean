import ImportPlan.Json.Token

namespace ImportPlan.Json

/-!
# Outlines

The outline of a text is what can be made out of it as JSON: a tree that ends where the text stops
being JSON. Whether that matters depends on the reader, who may have found fault with the text
before.

* `Outline` — a value as far as it goes.
* `build` — the outline of a sequence of tokens.
* `Outline.skip` — what a reader meets that passes over a value.
* `Reading.ofText` — the outline of a text.
-/

/-- A key of an object. -/
inductive Key
  /-- No key where one is due. -/
  | absent (fault : Fault)
  | text (literal : Leaf String)

/-- A value as far as it goes. Lists and objects carry the fault that keeps them from being closed
after the last of their parts. -/
inductive Outline
  /-- No value where one is due. -/
  | absent (fault : Fault)
  | scalar (literal : Leaf Scalar)
  | text (literal : Leaf String)
  | list (items : List Outline) (stop : Option Fault)
  | object (members : List (Key × Outline)) (stop : Option Fault)

/-- The outline of a text, and whether anything but spacing comes after its value. -/
structure Reading where
  root : Outline
  trailing : Bool

/-! ### Building -/

/-- A list or an object that is still open, its parts newest first. -/
inductive Frame
  | list (items : List Outline)
  | object (members : List (Key × Outline)) (key : Key)

/-- The list or object of a frame when `value` is the last of its parts. -/
def Frame.close (frame : Frame) (value : Outline) (stop : Option Fault) : Outline :=
  match frame with
  | .list items => .list (value :: items).reverse stop
  | .object members key => .object ((key, value) :: members).reverse stop

/-- The reading of a text that stops being JSON right after `value`, inside of the frames from the
innermost one on. -/
def abandon (frames : List Frame) (value : Outline) (fault : Fault) : Reading :=
  ⟨frames.foldl (fun v frame => frame.close v (some fault)) value, false⟩

/-- Where in a value a text goes on. -/
inductive Place
  /-- A value is due. -/
  | value
  /-- A key is due after these members of an object. -/
  | key (members : List (Key × Outline))
  /-- A colon is due after a key. -/
  | colon (members : List (Key × Outline)) (key : Key)
  /-- A value has just ended. -/
  | after (value : Outline)

/-- Builds the outline of the tokens that come at a place inside of the open frames. -/
def build (frames : List Frame) : Place → List Token → Reading
  | .value, [] => abandon frames (.absent .ended) .ended
  | .value, token :: ts =>
    match token, frames with
    | .listOpen, _ => build (.list [] :: frames) .value ts
    | .objectOpen, _ => build frames (.key []) ts
    | .listClose, .list [] :: frames' => build frames' (.after (.list [] none)) ts
    | .text literal, _ =>
      match literal.skip with
      | none => build frames (.after (.text literal)) ts
      | some fault => abandon frames (.text literal) fault
    | .scalar literal, _ =>
      match literal.skip with
      | none => build frames (.after (.scalar literal)) ts
      | some fault => abandon frames (.scalar literal) fault
    | _, _ => abandon frames (.absent .malformed) .malformed
  | .key members, [] =>
    abandon (.object members (.absent .ended) :: frames) (.absent .ended) .ended
  | .key members, token :: ts =>
    match token, members with
    | .objectClose, [] => build frames (.after (.object [] none)) ts
    | .text literal, _ =>
      match literal.skip with
      | none => build frames (.colon members (.text literal)) ts
      | some fault =>
        abandon (.object members (.text literal) :: frames) (.absent fault) fault
    | _, _ =>
      abandon (.object members (.absent .malformed) :: frames) (.absent .malformed) .malformed
  | .colon members key, [] => abandon (.object members key :: frames) (.absent .ended) .ended
  | .colon members key, token :: ts =>
    match token with
    | .colon => build (.object members key :: frames) .value ts
    | _ => abandon (.object members key :: frames) (.absent .malformed) .malformed
  | .after value, [] =>
    match frames with
    | [] => ⟨value, false⟩
    | frame :: frames' => abandon frames' (frame.close value (some .ended)) .ended
  | .after value, token :: ts =>
    match frames, token with
    | [], _ => ⟨value, true⟩
    | .list items :: frames', .comma => build (.list (value :: items) :: frames') .value ts
    | .object members key :: frames', .comma => build frames' (.key ((key, value) :: members)) ts
    | .list items :: frames', .listClose =>
      build frames' (.after ((Frame.list items).close value none)) ts
    | .object members key :: frames', .objectClose =>
      build frames' (.after ((Frame.object members key).close value none)) ts
    | frame :: frames', _ => abandon frames' (frame.close value (some .malformed)) .malformed
termination_by structural _ ts => ts

/-- The outline of a text. -/
def Reading.ofText (text : String) : Reading := build [] .value (tokens text.toList)

/-! ### Passing over -/

/-- The fault of passing over a key. -/
def Key.skip : Key → Option Fault
  | .absent fault => some fault
  | .text literal => literal.skip

namespace Outline

mutual

/-- The first fault that a reader meets who passes over a value. -/
def skip : Outline → Option Fault
  | absent fault => some fault
  | scalar literal => literal.skip
  | text literal => literal.skip
  | list items stop => (skipItems items).or stop
  | object members stop => (skipMembers members).or stop
termination_by structural o => o

/-- The first fault in the items of a list. -/
def skipItems : List Outline → Option Fault
  | [] => none
  | item :: items => (skip item).or (skipItems items)
termination_by structural items => items

/-- The first fault in the members of an object. -/
def skipMembers : List (Key × Outline) → Option Fault
  | [] => none
  | (key, value) :: members => (key.skip.or (skip value)).or (skipMembers members)
termination_by structural members => members

end

end Outline

end ImportPlan.Json
