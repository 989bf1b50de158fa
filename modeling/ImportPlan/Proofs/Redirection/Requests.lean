import ImportPlan.Proofs.Redirection.Built
import ImportPlan.Proofs.Redirection.Entries

namespace ImportPlan.Redirection

/-!
# Redirections that change

A redirection is changed entry by entry, or replaced as a whole by that of a finite map. Requests to
do so may be refused, and a map may be traversed in any order. This file says what a redirection is
after any requests, by the last of them that has a say.

* `Traversal` — a finite map, in an order in which its entries may be visited.
* `insertInPlace`, `Request`, `serve` — what can be asked of a redirection, and what comes of it.
* `serve_cases`, `serve_extend_ok_iff`, `serve_collect_ok_iff` — a request that is refused leaves
  the redirection as it is, and which requests are granted.
* `serve_collect_perm` — the order of a traversal makes no difference.
* `HasSay` — requests that were granted and say where an id goes.
* `get?_after_eq_some_iff` — an id is sent to where the last request sends it that has a say.
* `last_request_counts` — so its target is that of its last insertion since the last map, or else
  that of this map, and every target is an import path.
-/

/-! ### Requests -/

/-- The entries of a finite map, in an order in which they may be visited. -/
structure Traversal where
  entries : List (String × String)
  /-- No key comes twice. -/
  nodup_keys : (entries.map (·.1)).Nodup
  deriving DecidableEq

/-- Sends `id` to `target` in a redirection that is changed in place. -/
def insertInPlace (id target : String) : ExceptT InputError (StateM Redirection) Unit := do
  ExceptT.mk (pure (checkPath id))
  ExceptT.mk (pure (checkPath target))
  modify fun r => ⟨r.table.insert id target⟩

/-- A request to change a redirection. -/
inductive Request
  /-- Send the id to the target, in place. -/
  | insert (id target : String)
  /-- Send the id to the target, in a copy. -/
  | extend (id target : String)
  /-- Replace everything by the redirection of a map. -/
  | collect (map : Traversal)
  deriving DecidableEq

/-- Whether a request was granted, or why it was refused. -/
abbrev Outcome := Except InputError Unit

/-- Serves a request. A copy takes the place of the redirection if nothing is wrong with it. -/
def serve (r : Redirection) : Request → Redirection × Outcome
  | .insert id target => ((insertInPlace id target).run.run r).swap
  | .extend id target =>
    match r.insert id target with
    | .ok r' => (r', .ok ())
    | .error e => (r, .error e)
  | .collect map =>
    match ofList map.entries with
    | .ok r' => (r', .ok ())
    | .error e => (r, .error e)

/-- The redirection after requests in turn. -/
def after (r : Redirection) (requests : List Request) : Redirection :=
  requests.foldl (fun r request => (r.serve request).1) r

/-- The requests in turn, each with its outcome. -/
def history (r : Redirection) : List Request → List (Request × Outcome)
  | [] => []
  | request :: requests =>
    (request, (r.serve request).2) :: (r.serve request).1.history requests

variable (r : Redirection) (requests : List Request) (request : Request)

theorem after_concat :
    r.after (requests ++ [request]) = ((r.after requests).serve request).1 := by
  rw [after, List.foldl_concat]
  rfl

theorem history_concat :
    r.history (requests ++ [request]) =
      r.history requests ++ [(request, ((r.after requests).serve request).2)] := by
  induction requests generalizing r with
  | nil => rfl
  | cons request' requests ih =>
    rw [List.cons_append, history, ih, history, List.cons_append]
    rfl

/-! ### Requests one by one -/

/-- An insertion in place does what an insertion into a copy does. Nothing is changed before both
paths are checked, so that it does nothing at all if it is refused. -/
theorem serve_insert (id target : String) :
    r.serve (.insert id target) = r.serve (.extend id target) := by
  simp only [serve, insertInPlace, insert]
  cases checkPath id with
  | error e => rfl
  | ok checked => cases checkPath target <;> rfl

/-- What a request makes of a redirection if it is granted. -/
inductive Grants (r : Redirection) : Request → Redirection → Prop
  | insert {id target : String} {r' : Redirection} (h : r.insert id target = .ok r') :
    Grants r (.insert id target) r'
  | extend {id target : String} {r' : Redirection} (h : r.insert id target = .ok r') :
    Grants r (.extend id target) r'
  | collect {map : Traversal} {r' : Redirection} (h : ofList map.entries = .ok r') :
    Grants r (.collect map) r'

/-- **Every request is granted or refused**, and in the latter case it has no effect. -/
theorem serve_cases :
    (∃ r', r.Grants request r' ∧ r.serve request = (r', .ok ())) ∨
      ∃ e, r.serve request = (r, .error e) := by
  have hextend : ∀ id target,
      (∃ r', r.insert id target = .ok r' ∧ r.serve (.extend id target) = (r', .ok ())) ∨
        ∃ e, r.serve (.extend id target) = (r, .error e) := by
    intro id target
    cases h : r.insert id target with
    | ok r' => exact .inl ⟨r', rfl, by rw [serve, h]⟩
    | error e => exact .inr ⟨e, by rw [serve, h]⟩
  cases request with
  | insert id target =>
    rw [serve_insert]
    exact (hextend id target).imp_left fun ⟨r', h, hserve⟩ => ⟨r', .insert h, hserve⟩
  | extend id target =>
    exact (hextend id target).imp_left fun ⟨r', h, hserve⟩ => ⟨r', .extend h, hserve⟩
  | collect map =>
    cases h : ofList map.entries with
    | ok r' => exact .inl ⟨r', .collect h, by rw [serve, h]⟩
    | error e => exact .inr ⟨e, by rw [serve, h]⟩

variable {r request}

/-- A request that is refused leaves the redirection as it is. -/
theorem serve_of_error {e : InputError} (h : (r.serve request).2 = .error e) :
    (r.serve request).1 = r := by
  rcases serve_cases r request with ⟨r', -, hserve⟩ | ⟨e', hserve⟩
  · rw [hserve] at h
    cases h
  · rw [hserve]

/-- An insertion is granted for two import paths. -/
theorem serve_extend_ok_iff {id target : String} :
    (r.serve (.extend id target)).2 = .ok () ↔
      Path.isValid id = true ∧ Path.isValid target = true := by
  rw [serve]
  cases h : r.insert id target with
  | ok r' =>
    obtain ⟨hid, htarget, -⟩ := insert_eq_ok_iff.1 h
    exact iff_of_true rfl ⟨hid, htarget⟩
  | error e =>
    refine iff_of_false nofun fun ⟨hid, htarget⟩ => ?_
    rw [insert_eq_ok_iff.2 ⟨hid, htarget, rfl⟩] at h
    cases h

/-! ### Maps -/

variable {map map' : Traversal}

/-- A map is accepted just if all its keys and values are import paths. -/
theorem serve_collect_ok_iff :
    (r.serve (.collect map)).2 = .ok () ↔
      ∀ e ∈ map.entries, Path.isValid e.1 = true ∧ Path.isValid e.2 = true := by
  rw [serve]
  cases h : ofList map.entries with
  | ok r' => exact iff_of_true rfl (ofList_eq_ok_iff.1 h).1
  | error e =>
    refine iff_of_false nofun fun hvalid => ?_
    rw [ofList_eq_ok_iff.2 ⟨hvalid, rfl⟩] at h
    cases h

/-- The redirection of a map has the entries of the map. -/
theorem get?_of_ofList_entries {r' : Redirection} (h : ofList map.entries = .ok r')
    {id target : String} : r'.table.get? id = some target ↔ (id, target) ∈ map.entries := by
  obtain ⟨-, rfl⟩ := ofList_eq_ok_iff.1 h
  rw [Table.get?, Table.entries_ofList map.nodup_keys]
  exact Table.findEntry?_eq_some_iff map.nodup_keys

/-- **The order in which a map is traversed makes no difference**, neither to whether the map is
accepted nor to where ids are sent then. -/
theorem serve_collect_perm (h : map.entries.Perm map'.entries) :
    ((r.serve (.collect map)).2 = .ok () ↔ (r.serve (.collect map')).2 = .ok ()) ∧
      ∀ id, (r.serve (.collect map)).1.resolve id = (r.serve (.collect map')).1.resolve id := by
  have houtcome : (r.serve (.collect map)).2 = .ok () ↔ (r.serve (.collect map')).2 = .ok () := by
    rw [serve_collect_ok_iff, serve_collect_ok_iff]
    simp only [h.mem_iff]
  refine ⟨houtcome, fun id => ?_⟩
  rcases serve_cases r (.collect map) with ⟨r₁, hgrants, hserve⟩ | ⟨e, hserve⟩ <;>
    rcases serve_cases r (.collect map') with ⟨r₂, hgrants', hserve'⟩ | ⟨e', hserve'⟩ <;>
    rw [hserve, hserve'] at houtcome ⊢
  · cases hgrants with | collect hlist =>
    cases hgrants' with | collect hlist' =>
    -- both tables have the entries of the map
    have hget : r₁.table.get? id = r₂.table.get? id := by
      ext target
      rw [get?_of_ofList_entries hlist, get?_of_ofList_entries hlist', h.mem_iff]
    rw [resolve, resolve, hget]
  · cases houtcome.1 rfl
  · cases houtcome.2 rfl

/-! ### Requests in turn -/

/-- The request sends the id to the target. -/
def Request.Sends (id target : String) : Request → Prop
  | .insert key value | .extend key value => key = id ∧ value = target
  | .collect map => (id, target) ∈ map.entries

/-- The request says where the id goes. A map does so for every id: one that is no key of it goes
nowhere else. -/
def Request.IsAbout (id : String) : Request → Prop
  | .insert key _ | .extend key _ => key = id
  | .collect _ => True

instance (id : String) : DecidablePred (Request.IsAbout id)
  | .insert key _ | .extend key _ => inferInstanceAs (Decidable (key = id))
  | .collect _ => .isTrue trivial

/-- What a request sends somewhere it is about. -/
theorem Request.Sends.isAbout {id target : String} (h : request.Sends id target) :
    request.IsAbout id := by
  cases request with
  | insert key value | extend key value => exact h.1
  | collect map => trivial

/-- The request is about the id and was granted. -/
def HasSay (id : String) (e : Request × Outcome) : Prop := e.2 = .ok () ∧ e.1.IsAbout id

instance (id : String) : DecidablePred (HasSay id) :=
  fun _ => inferInstanceAs (Decidable (_ ∧ _))

/-- A request that is granted sends the ids that it is about to their targets or nowhere else, and
leaves all others where they were sent before. -/
theorem Grants.get?_eq_some_iff {r' : Redirection} (h : r.Grants request r') {id target : String} :
    r'.table.get? id = some target ↔
      request.Sends id target ∨ ¬ request.IsAbout id ∧ r.table.get? id = some target := by
  have hinsert : ∀ {key value}, r.insert key value = .ok r' → (r'.table.get? id = some target ↔
      (key = id ∧ value = target) ∨ ¬ key = id ∧ r.table.get? id = some target) := by
    intro key value hinsert
    obtain ⟨-, -, rfl⟩ := insert_eq_ok_iff.1 hinsert
    rw [Table.get?_insert]
    by_cases hkey : key = id
    · simp [hkey]
    · simp [hkey, Ne.symm hkey]
  cases h with
  | insert h | extend h => exact hinsert h
  | collect h =>
    rw [get?_of_ofList_entries h]
    exact (or_iff_left fun hnot => hnot.1 trivial).symm

/-- **An id is sent to where the last request sends it that has a say.** -/
theorem get?_after_eq_some_iff {requests : List Request} {id target : String} :
    (empty.after requests).table.get? id = some target ↔
      ∃ request, IsLast (HasSay id) (empty.history requests) (request, .ok ()) ∧
        request.Sends id target := by
  -- requests are served from the first to the last, so the induction goes from the end
  induction requests using List.reverseRecOn with
  | nil => exact iff_of_false nofun fun ⟨_, hlast, _⟩ => not_isLast_nil hlast
  | append_singleton requests request ih =>
    rw [after_concat, history_concat]
    simp only [isLast_concat_iff, Prod.mk.injEq]
    rcases serve_cases (empty.after requests) request with ⟨r', hgrants, hserve⟩ | ⟨e, hserve⟩
    · rw [hserve, hgrants.get?_eq_some_iff, ih]
      have hsay : HasSay id (request, .ok ()) ↔ request.IsAbout id := and_iff_right rfl
      simp only [hsay]
      constructor
      · rintro (hsends | ⟨hnot, request', hlast, hsends⟩)
        · exact ⟨request, .inl ⟨hsends.isAbout, rfl, trivial⟩, hsends⟩
        · exact ⟨request', .inr ⟨hnot, hlast⟩, hsends⟩
      · rintro ⟨request', ⟨-, rfl, -⟩ | ⟨hnot, hlast⟩, hsends⟩
        · exact .inl hsends
        · exact .inr ⟨hnot, request', hlast, hsends⟩
    · -- a request that is refused has no say
      rw [hserve, ih]
      have hsay : ¬ HasSay id (request, .error e) := fun h => nomatch h.1
      simp [hsay]

/-! ### What is stored -/

/-- However requests come, all entries are between import paths. -/
theorem between_after (requests : List Request) : (empty.after requests).Between := by
  induction requests using List.reverseRecOn with
  | nil => exact between_empty
  | append_singleton requests request ih =>
    rw [after_concat]
    rcases serve_cases (empty.after requests) request with ⟨r', hgrants, hserve⟩ | ⟨e, hserve⟩
    · rw [hserve]
      cases hgrants with
      | insert h => exact ih.insert h
      | extend h => exact ih.insert h
      | collect h => exact between_of_ofList h
    · rw [hserve]
      exact ih

/-- **The last request that has a say counts.** After any requests to an empty redirection, in which
some may be refused, all keys and targets are import paths. An id goes to the target of its last
insertion, if no map was accepted after that; else to its target in the last map that was accepted;
and else it stays as it is. The target is not looked up again. A request that is refused changes
nothing. Insertions are granted for two import paths, and maps whose keys and values are all import
paths; whether a map is, and where ids are sent then, is the same for every order in which its
entries are visited. -/
theorem last_request_counts (requests : List Request) :
    let r := empty.after requests
    let h := empty.history requests
    (∀ e ∈ r.table.entries, Path.isValid e.1 = true ∧ Path.isValid e.2 = true) ∧
      (∀ id,
        (∀ request target, IsLast (HasSay id) h (request, .ok ()) → request.Sends id target →
          r.resolve id = target) ∧
        (∀ map, IsLast (HasSay id) h (.collect map, .ok ()) → (∀ e ∈ map.entries, e.1 ≠ id) →
          r.resolve id = id) ∧
        ((∀ e ∈ h, ¬ HasSay id e) → r.resolve id = id)) ∧
      (∀ request e, (r.serve request).2 = .error e → (r.serve request).1 = r) ∧
      (∀ id target, (r.serve (.insert id target)).2 = .ok () ↔
        Path.isValid id = true ∧ Path.isValid target = true) ∧
      (∀ map, (r.serve (.collect map)).2 = .ok () ↔
        ∀ e ∈ map.entries, Path.isValid e.1 = true ∧ Path.isValid e.2 = true) ∧
      ∀ map map' : Traversal, map.entries.Perm map'.entries →
        ((r.serve (.collect map)).2 = .ok () ↔ (r.serve (.collect map')).2 = .ok ()) ∧
          ∀ id, (r.serve (.collect map)).1.resolve id = (r.serve (.collect map')).1.resolve id := by
  intro r h
  have hnowhere : ∀ id, (∀ target, r.table.get? id ≠ some target) → r.resolve id = id := by
    intro id hnone
    rw [resolve, Option.eq_none_iff_forall_ne_some.2 hnone, Option.getD_none]
  refine ⟨between_after requests, fun id => ⟨?_, ?_, ?_⟩, fun request e => serve_of_error,
    fun id target => ?_, fun map => serve_collect_ok_iff, fun map map' => serve_collect_perm⟩
  · intro request target hlast hsends
    rw [resolve, get?_after_eq_some_iff.2 ⟨request, hlast, hsends⟩, Option.getD_some]
  · intro map hlast hnone
    refine hnowhere id fun target htarget => ?_
    obtain ⟨request, hlast', hsends⟩ := get?_after_eq_some_iff.1 htarget
    -- the last request with a say is the map, which does not send the id anywhere
    obtain ⟨rfl, -⟩ := Prod.mk.inj (hlast'.unique hlast)
    exact hnone _ hsends rfl
  · intro hnone
    refine hnowhere id fun target htarget => ?_
    obtain ⟨request, hlast, -⟩ := get?_after_eq_some_iff.1 htarget
    exact hnone _ hlast.mem hlast.prop
  · rw [serve_insert]
    exact serve_extend_ok_iff

/-- A map between insertions, one of which sends an id to a key of the map, with an insertion and a
map that are refused. -/
theorem last_request_counts_of_chain :
    let map : Traversal := ⟨[("a/x", "b/x"), ("b/x", "c/x")], by decide⟩
    let reversed : Traversal := ⟨[("b/x", "c/x"), ("a/x", "b/x")], by decide⟩
    let refused : Traversal := ⟨[("fmt", "c/fmt"), ("a/x", "c//x")], by decide⟩
    let requests : List Request := [.insert "log" "a/log", .collect map, .insert "b/x" "/c",
      .extend "fmt" "a/x", .collect refused]
    let r := empty.after requests
    r.resolve "fmt" = "a/x" ∧ r.resolve "a/x" = "b/x" ∧ r.resolve "log" = "log" ∧
      (r.serve (.collect refused)).1 = r ∧ map.entries.Perm reversed.entries ∧
      (r.serve (.collect reversed)).2 = .ok () ∧
      ∀ id, (r.serve (.collect map)).1.resolve id = (r.serve (.collect reversed)).1.resolve id := by
  intro map reversed refused requests r
  obtain ⟨-, hresolve, hrefused, -, haccepted, horder⟩ := last_request_counts requests
  have hhistory : empty.history requests = [(.insert "log" "a/log", .ok ()), (.collect map, .ok ()),
      (.insert "b/x" "/c", .error (.invalidPath "/c")), (.extend "fmt" "a/x", .ok ()),
      (.collect refused, .error (.invalidPath "c//x"))] := by decide
  have hmap : ∀ id, id ≠ "fmt" →
      IsLast (HasSay id) (empty.history requests) (.collect map, .ok ()) := by
    intro id hid
    rw [hhistory]
    refine ⟨[_], [_, _, _], rfl, ⟨rfl, trivial⟩, ?_⟩
    simp [HasSay, Request.IsAbout, Ne.symm hid]
  have hfmt : IsLast (HasSay "fmt") (empty.history requests) (.extend "fmt" "a/x", .ok ()) := by
    rw [hhistory]
    exact ⟨[_, _, _], [_], rfl, by decide, by decide⟩
  have hperm : map.entries.Perm reversed.entries := by decide
  refine ⟨(hresolve "fmt").1 _ _ hfmt ⟨rfl, rfl⟩, ?_, ?_, ?_, hperm, ?_, (horder _ _ hperm).2⟩
  · exact (hresolve "a/x").1 _ _ (hmap "a/x" (by decide)) List.mem_cons_self
  · exact (hresolve "log").2.1 map (hmap "log" (by decide)) (by decide)
  · exact hrefused _ (.invalidPath "c//x") (by decide)
  · exact (horder _ _ hperm).1.1 ((haccepted map).2 (by decide))

end ImportPlan.Redirection
