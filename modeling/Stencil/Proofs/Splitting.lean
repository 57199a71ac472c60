import Stencil.Filter.Items

/-!
# Splitting and joining

A text that is split at a pattern can be put together again. Only what the filter drops is lost: the
patterns at the very end, behind which there is nothing.

## Key results

- `Text.not_infix_of_mem_pieces`: a pattern occurs in none of the pieces that it cuts a text into
- `Text.intercalate_append_replicate`: empty pieces at the end write the separator only
- `Filter.split_join`: what the parts of a text are, and what joining them gives
-/

namespace Stencil

/-! ## Pieces -/

namespace Text

/-- The pattern occurs in none of the pieces. -/
theorem not_infix_of_mem_pieces {pattern cs piece : List Char} (hp : pattern ≠ [])
    (h : piece ∈ pieces pattern cs) : ¬ pattern <:+: piece := by
  fun_induction pieces pattern cs with
  | case1 cs hempty => exact absurd hempty hp
  | case2 cs _ hnone =>
    obtain rfl := List.mem_singleton.mp h
    exact (breakOn_eq_none_iff hp).mp hnone
  | case3 cs _ before after hbreak ih =>
    rcases List.mem_cons.mp h with rfl | h
    · exact not_infix_of_breakOn hp hbreak
    · exact ih h

/-- What is taken from the end satisfies the test. -/
theorem of_mem_takeEndWhile {α : Type} {p : α → Bool} {xs : List α} {x : α}
    (h : x ∈ takeEndWhile p xs) : p x = true :=
  List.all_eq_true.mp (all_takeEndWhile p xs) x h

/-- What is left does not end with such an item. -/
theorem of_getLast?_dropEndWhile {α : Type} {p : α → Bool} {xs : List α} {x : α}
    (h : (dropEndWhile p xs).getLast? = some x) : p x = false := by
  have hhead := List.head?_dropWhile_not p xs.reverse
  rw [dropEndWhile, List.getLast?_reverse] at h
  rwa [h] at hhead

/-- Nothing is added. -/
theorem mem_of_mem_dropEndWhile {α : Type} {p : α → Bool} {xs : List α} {x : α}
    (h : x ∈ dropEndWhile p xs) : x ∈ xs := by
  rw [← dropEndWhile_append_takeEndWhile p xs]
  exact List.mem_append_left _ h

/-- Where no member satisfies `p`, there is nothing to drop. -/
theorem dropEndWhile_eq_self {α : Type} {p : α → Bool} {xs : List α}
    (h : ∀ x ∈ xs, p x = false) : dropEndWhile p xs = xs := by
  have htake : takeEndWhile p xs = [] := by
    rw [List.eq_nil_iff_forall_not_mem]
    intro x hx
    have hmem : x ∈ xs := by
      rw [← dropEndWhile_append_takeEndWhile p xs]
      exact List.mem_append_right _ hx
    exact Bool.false_ne_true ((h x hmem).symm.trans (of_mem_takeEndWhile hx))
  have hwhole := dropEndWhile_append_takeEndWhile p xs
  rwa [htake, List.append_nil] at hwhole

/-! ## Separators at the end -/

/-- Joined by nothing the parts stand side by side. -/
theorem nil_intercalate {α : Type} (parts : List (List α)) :
    List.intercalate [] parts = parts.flatten := by
  induction parts with
  | nil => rfl
  | cons part parts ih =>
    cases parts with
    | nil => simp [List.intercalate]
    | cons next parts =>
      rw [List.intercalate_cons_cons, ih, List.append_nil, ← List.flatten_cons]

/-- The last part stands behind a separator. -/
theorem intercalate_concat {α : Type} (separator last : List α) {parts : List (List α)}
    (h : parts ≠ []) :
    separator.intercalate (parts ++ [last]) = separator.intercalate parts ++ separator ++ last := by
  induction parts with
  | nil => exact absurd rfl h
  | cons part parts ih =>
    cases parts with
    | nil => simp [List.intercalate]
    | cons next parts =>
      have hrest := ih (List.cons_ne_nil next parts)
      rw [List.cons_append, List.cons_append, List.intercalate_cons_cons, ← List.cons_append,
        hrest, List.intercalate_cons_cons]
      simp only [List.append_assoc]

/-- Of empty pieces at the end nothing is written but a separator for each. -/
theorem intercalate_append_replicate {α : Type} (separator : List α) {parts : List (List α)}
    (h : parts ≠ []) (count : Nat) :
    separator.intercalate (parts ++ List.replicate count [])
      = separator.intercalate parts ++ (List.replicate count separator).flatten := by
  induction count generalizing parts with
  | zero => simp
  | succ count ih =>
    -- The pieces are taken from the front, where the induction is on their number.
    have hsplit : parts ++ List.replicate (count + 1) []
        = (parts ++ [[]]) ++ List.replicate count [] := by
      rw [List.replicate_succ, List.append_assoc, List.singleton_append]
    rw [hsplit, ih (by simp), intercalate_concat separator [] h, List.append_nil,
      List.replicate_succ, List.flatten_cons, List.append_assoc]

/-- The pieces up to the last one that is not empty write the text up to a number of separators. -/
theorem exists_replicate_of_pieces (pattern cs : List Char) {kept dropped : List (List Char)}
    (h : pieces pattern cs = kept ++ dropped) (hdropped : ∀ piece ∈ dropped, piece = []) :
    ∃ count, pattern.intercalate kept ++ (List.replicate count pattern).flatten = cs := by
  have hcs : pattern.intercalate (pieces pattern cs) = cs := flatten_intersperse_pieces pattern cs
  have hempty : dropped = List.replicate dropped.length [] :=
    List.eq_replicate_iff.mpr ⟨rfl, hdropped⟩
  rw [h, hempty] at hcs
  by_cases hkept : kept = []
  · subst hkept
    -- Of nothing but empty pieces the first one has no separator in front of it.
    cases hcount : dropped.length with
    | zero =>
      have hnil : dropped = [] := List.eq_nil_of_length_eq_zero hcount
      rw [hnil] at h
      exact absurd h (pieces_ne_nil pattern cs)
    | succ count =>
      refine ⟨count, ?_⟩
      have hfirst : [] ++ List.replicate (count + 1) ([] : List Char)
          = [[]] ++ List.replicate count [] := rfl
      rw [hcount, hfirst, intercalate_append_replicate pattern (List.cons_ne_nil _ _)] at hcs
      exact hcs
  · rw [intercalate_append_replicate pattern hkept] at hcs
    exact ⟨dropped.length, hcs⟩

end Text

/-! ## The filters -/

namespace Filter

/-- A list of texts is flat. -/
theorem flattenAllOnto_map_str (texts : List String) :
    flattenAllOnto (texts.map .str) [] = texts.map .str := by
  induction texts with
  | nil => rfl
  | cons text texts ih =>
    rw [List.map_cons, flattenAllOnto, ih]
    rfl

/-- What a filter is given as its only argument by position. -/
abbrev given (argument : Value) (keywords : List (String × Value)) : Arguments :=
  { positional := [argument], keywords }

/-- The filter splits the text of its input by that of its argument. -/
theorem apply_split (view : View) (input pattern : Value) (keywords : List (String × Value)) :
    split.apply view input (given pattern keywords)
      = .ok (.array ((splitText input.text pattern.text).map .str)) := rfl

/-- The filter joins texts as they are. -/
theorem apply_join (view : View) (parts : List String) (separator : Value)
    (keywords : List (String × Value)) :
    join.apply view (.array (parts.map .str)) (given separator keywords)
      = .ok (.str (separator.text.intercalate parts)) := by
  have htexts : (parts.map Value.str).map Value.text = parts := by
    rw [List.map_map]
    exact List.map_id parts
  have hitems : itemsOf view (.array (parts.map .str)) = .ok (parts.map .str) :=
    congrArg Except.ok (flattenAllOnto_map_str parts)
  show (itemsOf view (.array (parts.map .str)) >>= fun items => _) = _
  rw [hitems]
  show Except.ok (Value.str (separator.text.intercalate ((parts.map .str).map Value.text))) = _
  rw [htexts]

/-- The empty pattern cuts a text into its characters. -/
theorem splitText_empty (s : String) : splitText s "" = s.toList.map Char.toString := by
  refine Text.dropEndWhile_eq_self fun part hpart => ?_
  obtain ⟨c, -, rfl⟩ := List.mem_map.mp hpart
  simp

/-- A text is broken up at each pattern, and empty parts at its end are dropped. -/
theorem splitText_of_ne {pattern : String} (hempty : pattern ≠ "") (hspace : pattern ≠ " ")
    (s : String) :
    splitText s pattern
      = Text.dropEndWhile String.isEmpty
          ((Text.pieces pattern.toList s.toList).map String.ofList) := by
  have hisEmpty : ¬ pattern.isEmpty = true := fun h => hempty (String.isEmpty_iff.mp h)
  rw [splitText, if_neg hisEmpty, if_neg hspace]

/-- A text that is split at a pattern, other than a single space, and joined with it again is as it
was but for patterns at its end. The empty pattern cuts out the characters, and nothing is lost; of
another one no part has an occurrence, and the last part is not empty. -/
theorem split_join (view : View) (input pattern : Value) (keywords : List (String × Value))
    (hspace : pattern.text ≠ " ") :
    ∃ (parts : List String) (joined : String),
      split.apply view input (given pattern keywords) = .ok (.array (parts.map .str))
        ∧ join.apply view (.array (parts.map .str)) (given pattern keywords) = .ok (.str joined)
        ∧ (pattern.text = "" → joined = input.text)
        ∧ (pattern.text ≠ "" →
          (∀ part ∈ parts, ¬ pattern.text.toList <:+: part.toList)
            ∧ (∀ part, parts.getLast? = some part → part ≠ "")
            ∧ ∃ count : Nat,
              joined ++ String.join (List.replicate count pattern.text) = input.text) := by
  refine ⟨splitText input.text pattern.text, _, apply_split view input pattern keywords,
    apply_join view _ pattern keywords, fun hempty => ?_, fun hempty => ?_⟩
  · have hchars : (input.text.toList.map Char.toString).map String.toList
        = input.text.toList.map fun c => [c] := by simp
    rw [hempty, splitText_empty]
    apply String.toList_injective
    rw [String.toList_intercalate, String.toList_empty, Text.nil_intercalate, hchars,
      ← List.flatMap_def, List.flatMap_singleton']
  · rw [splitText_of_ne hempty hspace]
    have hpattern : pattern.text.toList ≠ [] := fun h =>
      hempty (String.toList_eq_nil_iff.mp h)
    refine ⟨fun part hpart => ?_, fun part hlast => ?_, ?_⟩
    · obtain ⟨piece, hpiece, rfl⟩ := List.mem_map.mp (Text.mem_of_mem_dropEndWhile hpart)
      rw [String.toList_ofList]
      exact Text.not_infix_of_mem_pieces hpattern hpiece
    · rintro rfl
      exact Bool.false_ne_true (Text.of_getLast?_dropEndWhile hlast).symm
    · -- The pieces of the text; `split` drops the empty ones at the end.
      let texts := (Text.pieces pattern.text.toList input.text.toList).map String.ofList
      have hpieces : Text.pieces pattern.text.toList input.text.toList
          = (Text.dropEndWhile String.isEmpty texts).map String.toList
            ++ (Text.takeEndWhile String.isEmpty texts).map String.toList := by
        rw [← List.map_append, Text.dropEndWhile_append_takeEndWhile, List.map_map]
        exact (List.map_id'' (fun _ => String.toList_ofList) _).symm
      have hdropped : ∀ piece ∈ (Text.takeEndWhile String.isEmpty texts).map String.toList,
          piece = [] := by
        intro piece hpiece
        obtain ⟨text, htext, rfl⟩ := List.mem_map.mp hpiece
        rw [String.isEmpty_iff.mp (Text.of_mem_takeEndWhile htext), String.toList_empty]
      -- Each piece that was dropped left one separator behind.
      obtain ⟨count, hcount⟩ := Text.exists_replicate_of_pieces _ _ hpieces hdropped
      refine ⟨count, String.toList_injective ?_⟩
      rw [String.toList_append, String.toList_intercalate, String.toList_join, List.flatMap_def,
        List.map_replicate]
      exact hcount

/-- The pattern `aa` overlaps itself in `aaabaaaa`. It is found from the left, and the two
occurrences at the end are lost. -/
theorem split_join_overlapping :
    (Value.str "aa").text ≠ " "
      ∧ splitText "aaabaaaa" "aa" = ["", "ab"]
      ∧ ∃ (parts : List String) (joined : String),
        split.apply {} (.str "aaabaaaa") (given (.str "aa") []) = .ok (.array (parts.map .str))
          ∧ join.apply {} (.array (parts.map .str)) (given (.str "aa") []) = .ok (.str joined)
          ∧ ∃ count : Nat, joined ++ String.join (List.replicate count "aa") = "aaabaaaa" := by
  have hspace : (Value.str "aa").text ≠ " " := by decide
  obtain ⟨parts, joined, hsplit, hjoin, -, hparts⟩ :=
    split_join {} (.str "aaabaaaa") (.str "aa") [] hspace
  exact ⟨hspace, by decide +kernel, parts, joined, hsplit, hjoin, (hparts (by decide)).2.2⟩

end Filter

end Stencil
