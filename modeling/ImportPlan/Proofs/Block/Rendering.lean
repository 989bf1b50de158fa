import Mathlib
import ImportPlan.Text.Blank
import ImportPlan.Proofs.Block.Contents
import ImportPlan.Proofs.Text.ByteOrder
import ImportPlan.Proofs.Text.Quoting

namespace ImportPlan

/-!
# Rendered blocks

A rendered block has one line for each import, sorted by path, and the imports can be read off it:
neither the order in which they came nor a strange path makes a difference.

* `Table.nodup_keys_ofList` — however a table is built, no key comes twice.
* `Block.Plain` — blocks whose aliases are free of white space and double quotes.
* `Block.importLine` — the line of one import; `importLine_injective` — a line tells its import.
* `Block.sorted_strictly` — the imports come in ascending order of their paths;
  `Block.sorted_eq_of_perm`, `Block.render_eq_of_perm` — whatever the order in which they were
  added.
* `Block.render_lines` — the lines of a rendered block.
* `Block.render_canonical_lossless` — rendering is canonical and loses nothing.
-/

namespace Table

/-- The keys after an insertion. -/
theorem keys_insertEntry (key value : String) (entries : List (String × String)) :
    (insertEntry key value entries).map (·.1) =
      if key ∈ entries.map (·.1) then entries.map (·.1) else entries.map (·.1) ++ [key] := by
  induction entries with
  | nil => rfl
  | cons e rest ih =>
    rw [insertEntry]
    by_cases hkey : e.1 = key
    · rw [if_pos hkey, if_pos (by simp [hkey])]
      rfl
    · rw [if_neg hkey, List.map_cons, ih, List.map_cons]
      by_cases hmem : key ∈ rest.map (·.1)
      · rw [if_pos hmem, if_pos (List.mem_cons_of_mem _ hmem)]
      · have hnew : key ∉ e.1 :: rest.map (·.1) :=
          List.not_mem_cons_of_ne_of_not_mem (Ne.symm hkey) hmem
        rw [if_neg hmem, if_neg hnew, List.cons_append]

/-- An insertion makes no key come twice. -/
theorem nodup_keys_insert {t : Table} (h : (t.entries.map (·.1)).Nodup) (key value : String) :
    ((t.insert key value).entries.map (·.1)).Nodup := by
  rw [insert, keys_insertEntry]
  split
  · exact h
  · next hnew => exact h.append (List.nodup_singleton key) (List.disjoint_singleton.2 hnew)

/-- However a table is built, no key comes twice. -/
theorem nodup_keys_ofList (entries : List (String × String)) :
    ((ofList entries).entries.map (·.1)).Nodup := by
  rw [ofList]
  exact List.foldlRecOn (motive := fun t : Table => (t.entries.map Prod.fst).Nodup) entries _
    List.nodup_nil fun _ h e _ => nodup_keys_insert h e.1 e.2

end Table

namespace Block

variable {b b' : Block} {path path' name name' : String}

/-! ### Lines -/

/-- An alias free of white space and double quotes. -/
def PlainAlias (name : String) : Prop := ∀ c ∈ name.toList, Text.isBlank c = false ∧ c ≠ '"'

/-- A block that has one alias for each of its paths, free of white space and double quotes. -/
structure Plain (b : Block) : Prop where
  /-- No path comes twice. -/
  nodup_paths : (b.imports.map (·.1)).Nodup
  /-- No alias has white space or a double quote. -/
  plain_alias : ∀ e ∈ b.imports, PlainAlias e.2

/-- The line of one import. -/
def importLine (path name : String) : String :=
  "\t" ++ (if name = "" then "" else name ++ " ") ++ Text.quote path

/-- The text before a quoted path. -/
theorem importLine_toList (path name : String) :
    (importLine path name).toList =
      '\t' :: ((if name = "" then [] else name.toList ++ [' ']) ++ (Text.quote path).toList) := by
  rw [importLine]
  split <;> simp

/-- A line has no line feed. -/
theorem newline_not_mem_importLine (path : String) (h : PlainAlias name) :
    '\n' ∉ (importLine path name).toList := by
  have hname : '\n' ∉ name.toList := fun hmem => absurd (h _ hmem).1 (by decide)
  rw [importLine_toList]
  split <;> simp [hname, Text.newline_not_mem_quote]

/-- **A line tells its import**: the alias stands before the first quote, and the path behind it. -/
theorem importLine_injective (h : PlainAlias name) (h' : PlainAlias name')
    (heq : importLine path name = importLine path' name') : path = path' ∧ name = name' := by
  -- what stands before the first quote
  have hbefore : ∀ {name : String}, PlainAlias name →
      ∀ c ∈ (if name = "" then [] else name.toList ++ [' ']), (c != '"') = true := by
    intro name hplain c hc
    split at hc
    · exact absurd hc List.not_mem_nil
    · rcases List.mem_append.1 hc with hname | hspace
      · simpa using (hplain c hname).2
      · rw [List.mem_singleton.1 hspace]
        decide
  have hchars := congrArg String.toList heq
  rw [importLine_toList, importLine_toList, List.cons.injEq] at hchars
  have htake := congrArg (List.takeWhile (· != '"')) hchars.2
  rw [List.takeWhile_append_of_pos (hbefore h), List.takeWhile_append_of_pos (hbefore h'),
    Text.toList_quote, Text.toList_quote] at htake
  have hahead : (if name = "" then [] else name.toList ++ [' ']) =
      (if name' = "" then [] else name'.toList ++ [' ']) := by simpa using htake
  rw [hahead] at hchars
  refine ⟨Text.quote_injective (String.toList_inj.1 (List.append_cancel_left hchars.2)), ?_⟩
  -- an alias ends in a space there, so it is not taken for none
  split at hahead <;> split at hahead
  · next hname hname' => rw [hname, hname']
  · simp at hahead
  · simp at hahead
  · exact String.toList_inj.1 (List.append_cancel_right hahead)

/-! ### Order -/

/-- Sorting neither adds nor drops imports. -/
theorem sorted_perm (b : Block) : b.sorted.Perm b.imports := List.mergeSort_perm _ _

/-- The imports come in ascending order of their paths. -/
theorem sorted_strictly (h : (b.imports.map (·.1)).Nodup) :
    b.sorted.Pairwise fun x y => x.1 < y.1 := by
  have hle : b.sorted.Pairwise fun x y => x.1 ≤ y.1 := by
    refine (List.pairwise_mergeSort ?_ ?_ b.imports).imp of_decide_eq_true
    · intro x y z hxy hyz
      exact decide_eq_true (le_trans (of_decide_eq_true hxy) (of_decide_eq_true hyz))
    · intro x y
      simpa using le_total x.1 y.1
  -- no path comes twice, so that none is followed by itself
  have hne : b.sorted.Pairwise fun x y => x.1 ≠ y.1 :=
    List.pairwise_map.1 (((sorted_perm b).map Prod.fst).nodup_iff.2 h : (b.sorted.map _).Nodup)
  exact hle.imp₂ (fun _ _ hxy hxy' => lt_of_le_of_ne hxy hxy') hne

/-- The order in which imports were added makes no difference. -/
theorem sorted_eq_of_perm (h : (b.imports.map (·.1)).Nodup) (hperm : b.imports.Perm b'.imports) :
    b.sorted = b'.sorted := by
  have h' : (b'.imports.map (·.1)).Nodup := (hperm.map (·.1)).nodup_iff.1 h
  refine List.Perm.eq_of_pairwise (fun x y _ _ hxy hyx => ?_) (sorted_strictly h)
    (sorted_strictly h') ((sorted_perm b).trans (hperm.trans (sorted_perm b').symm))
  exact absurd hyx (lt_asymm hxy)

/-! ### Rendered blocks -/

/-- Only the block without imports has no text. -/
theorem render_eq_empty_iff : b.render = "" ↔ b.imports = [] := by
  rw [render]
  split
  · next hempty => exact iff_of_true rfl (List.isEmpty_iff.1 hempty)
  · next hne =>
    refine iff_of_false (fun htext => ?_) (mt List.isEmpty_iff.2 hne)
    have := congrArg String.toList htext
    simp at this

/-- A rendered block ends each of its lines. -/
theorem render_eq_intercalate (hne : b.imports ≠ []) :
    b.render =
      "\n".intercalate ("import (" :: b.sorted.map (fun e => importLine e.1 e.2) ++ [")", ""]) := by
  have hlines : ∀ l : List (String × String),
      String.join (l.map fun e => renderImport e.1 e.2) ++ ")\n" =
        "\n".intercalate (l.map (fun e => importLine e.1 e.2) ++ [")", ""]) := by
    intro l
    induction l with
    | nil => simp
    | cons e rest ih =>
      rw [List.map_cons, List.map_cons, List.cons_append,
        String.intercalate_cons_of_ne_nil (by simp), ← ih, String.join_cons, String.append_assoc]
      rfl
  have hfull : ¬ b.isEmpty = true := mt List.isEmpty_iff.1 hne
  rw [render, if_neg hfull, List.cons_append,
    String.intercalate_cons_of_ne_nil (by simp), ← hlines, String.append_assoc]
  rfl

/-- **The lines of a rendered block**: the first one, one for each import in the order of the
paths, and the last one. -/
theorem render_lines (h : b.Plain) (hne : b.imports ≠ []) :
    (b.render.split '\n').toList.map (·.copy) =
      "import (" :: b.sorted.map (fun e => importLine e.1 e.2) ++ [")", ""] := by
  have hfree : ∀ line ∈ "import (" :: b.sorted.map (fun e => importLine e.1 e.2) ++ [")", ""],
      '\n' ∉ line.toList := by
    intro line hline
    simp only [List.cons_append, List.mem_cons, List.mem_append, List.mem_map] at hline
    rcases hline with rfl | ⟨e, he, rfl⟩ | rfl | rfl | hnil
    · decide
    · exact newline_not_mem_importLine e.1 (h.plain_alias e ((sorted_perm b).mem_iff.1 he))
    · decide
    · decide
    · exact absurd hnil List.not_mem_nil
  have hsplit := String.toList_split_intercalate hfree
  rw [if_neg (by simp)] at hsplit
  rw [render_eq_intercalate hne]
  exact hsplit

/-- Imports with the same lines are the same. -/
theorem eq_of_lines_eq {l l' : List (String × String)} (h : ∀ e ∈ l, PlainAlias e.2)
    (h' : ∀ e ∈ l', PlainAlias e.2)
    (heq : l.map (fun e => importLine e.1 e.2) = l'.map fun e => importLine e.1 e.2) : l = l' := by
  induction l generalizing l' with
  | nil => exact (List.map_eq_nil_iff.1 heq.symm).symm
  | cons e rest ih =>
    cases l' with
    | nil => simp at heq
    | cons e' rest' =>
      rw [List.forall_mem_cons] at h h'
      rw [List.map_cons, List.map_cons, List.cons.injEq] at heq
      rw [Prod.ext (importLine_injective h.1 h'.1 heq.1).1 (importLine_injective h.1 h'.1 heq.1).2,
        ih h.2 h'.2 heq.2]

/-- Blocks with the same imports have the same text, whatever the order of the imports. -/
theorem render_eq_of_perm (h : (b.imports.map (·.1)).Nodup) (hperm : b.imports.Perm b'.imports) :
    b.render = b'.render := by
  have hisEmpty : b.isEmpty = b'.isEmpty := hperm.isEmpty_eq
  rw [render, render, hisEmpty, sorted_eq_of_perm h hperm]

/-- **A rendered block tells its imports.** -/
theorem render_eq_iff (h : b.Plain) (h' : b'.Plain) :
    b.render = b'.render ↔ ∀ e, e ∈ b.imports ↔ e ∈ b'.imports := by
  constructor
  · intro htext
    by_cases hempty : b.imports = []
    · have hempty' := render_eq_empty_iff.1 (htext ▸ render_eq_empty_iff.2 hempty)
      rw [hempty, hempty']
      exact fun _ => Iff.rfl
    · have hempty' : b'.imports ≠ [] := fun h' =>
        hempty (render_eq_empty_iff.1 (htext.trans (render_eq_empty_iff.2 h')))
      have hlines := render_lines h hempty
      rw [htext, render_lines h' hempty', List.cons_append, List.cons_append,
        List.cons.injEq] at hlines
      have hsorted : b'.sorted = b.sorted :=
        eq_of_lines_eq (fun e he => h'.plain_alias e ((sorted_perm b').mem_iff.1 he))
          (fun e he => h.plain_alias e ((sorted_perm b).mem_iff.1 he))
          (List.append_cancel_right hlines.2)
      intro e
      rw [← (sorted_perm b).mem_iff, ← hsorted, (sorted_perm b').mem_iff]
  · intro hmem
    have hperm : b.imports.Perm b'.imports :=
      (List.perm_ext_iff_of_nodup h.nodup_paths.of_map h'.nodup_paths.of_map).2 hmem
    exact render_eq_of_perm h.nodup_paths hperm

/-- **Rendering is canonical and loses nothing.** Only the block without imports has no text; any
other one has its first line, one line for each import in strictly ascending order of the bytes of
its path, and its last line. Two blocks have the same text just if they have the same imports with
the same aliases, whatever the order in which they were added and whatever the paths consist of. -/
theorem render_canonical_lossless (b b' : Block) (h : b.Plain) (h' : b'.Plain) :
    (b.render = "" ↔ b.imports = []) ∧
      (b.imports ≠ [] → ∃ l : List (String × String),
        l.Perm b.imports ∧
          l.Pairwise (fun x y => Text.utf8Bytes x.1 < Text.utf8Bytes y.1) ∧
          (b.render.split '\n').toList.map (·.copy) =
            "import (" :: l.map (fun e => importLine e.1 e.2) ++ [")", ""]) ∧
      (b.render = b'.render ↔
        ∀ path name, (path, name) ∈ b.imports ↔ (path, name) ∈ b'.imports) := by
  refine ⟨render_eq_empty_iff, fun hne => ⟨b.sorted, sorted_perm b, ?_, render_lines h hne⟩, ?_⟩
  · exact (sorted_strictly h.nodup_paths).imp Text.utf8Bytes_lt_iff.2
  · exact (render_eq_iff h h').trans Prod.forall

/-- Two imports in either order, one of a path with a quote and a line feed, the other one of a path
with a combining character: the texts are the same, but not with the alias before the other path. -/
theorem render_canonical_lossless_of_reversed :
    let b : Block := ⟨Table.ofList [("q\"\n", "x"), ("e\u0301", "")]⟩
    let reversed : Block := ⟨Table.ofList [("e\u0301", ""), ("q\"\n", "x")]⟩
    let swapped : Block := ⟨Table.ofList [("q\"\n", ""), ("e\u0301", "x")]⟩
    b.imports ≠ reversed.imports ∧ b.render = reversed.render ∧ b.render ≠ swapped.render := by
  intro b reversed swapped
  have hplain : ∀ e : String × String, e.2 = "" ∨ e.2 = "x" → PlainAlias e.2 := by
    rintro e (hnone | hx) c hc
    · simp [hnone] at hc
    · obtain rfl : c = 'x' := by simpa [hx] using hc
      exact ⟨by decide, by decide⟩
  have hb : b.Plain := ⟨Table.nodup_keys_ofList _, fun e he => hplain e (by revert e; decide)⟩
  have hreversed : reversed.Plain :=
    ⟨Table.nodup_keys_ofList _, fun e he => hplain e (by revert e; decide)⟩
  have hswapped : swapped.Plain :=
    ⟨Table.nodup_keys_ofList _, fun e he => hplain e (by revert e; decide)⟩
  refine ⟨by decide, ?_, fun htext => ?_⟩
  · refine (render_canonical_lossless b reversed hb hreversed).2.2.2 fun path name => ?_
    have hperm : b.imports.Perm reversed.imports := by decide
    exact hperm.mem_iff
  · have hmem := (render_canonical_lossless b swapped hb hswapped).2.2.1 htext "e\u0301" "x"
    exact absurd (hmem.2 (by decide)) (by decide)

end Block

end ImportPlan
