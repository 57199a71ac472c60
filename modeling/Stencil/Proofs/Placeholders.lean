import Stencil.Message
import Stencil.Proofs.Lexemes

/-!
# Filling the placeholders of a message

A template is cut into texts and placeholders in exactly one way, and filling it replaces each
placeholder of that cut by its value. What is put in is no part of the cut, so it is never looked at
again: a value that reads like a placeholder stays as it is.

## Key definitions

- `Message.Cut`: texts and placeholders in turn, with a text at the end that has no placeholder
- `Message.Cut.source`, `Message.Cut.filled`: the template that was cut, and what filling it gives

## Key results

- `Message.Cut.source_injective`, `Message.Cut.exists_source_eq`: there is one cut of each template
- `Message.interpolate_eq_filled`: filling a message goes through its only cut once
-/

namespace Stencil.Message

/-- A name as a placeholder. -/
def placeholder (name : List Char) : List Char := ['%', '\x7b'] ++ name ++ ['\x7d']

/-- A template as texts and placeholders in turn. -/
inductive Cut where
  /-- What is left behind the last placeholder: where `%{` still opens, nothing closes. -/
  | last (text : List Char) (unclosed : ∀ a b, text = a ++ ['%', '\x7b'] ++ b → '\x7d' ∉ b)
  /-- A text in which nothing opens, and the placeholder that comes behind it. -/
  | hole (text name : List Char) (plain : ¬ ['%', '\x7b'] <:+: text) (closes : '\x7d' ∉ name)
    (rest : Cut)

namespace Cut

/-- The template that was cut. -/
def source : Cut → List Char
  | last text _ => text
  | hole text name _ _ rest => text ++ placeholder name ++ rest.source

/-- The template with the first value of each name in the place of its placeholder; a placeholder
whose name has no value stays. -/
def filled (values : Placeholders) : Cut → List Char
  | last text _ => text
  | hole text name _ _ rest =>
    text ++ ((values.lookup (String.ofList name)).map String.toList).getD (placeholder name)
      ++ rest.filled values

end Cut

/-! ## Reading a cut off its template -/

/-- A text in which nothing opens is passed as a whole. -/
theorem breakOn_opening {text : List Char} (plain : ¬ ['%', '\x7b'] <:+: text)
    (rest : List Char) :
    Text.breakOn ['%', '\x7b'] (text ++ ['%', '\x7b'] ++ rest) = some (text, rest) := by
  induction text with
  | nil => simp [Text.breakOn_cons, Text.isPrefixOf?_cons_cons, Text.isPrefixOf?_nil]
  | cons c text ih =>
    rw [List.infix_cons_iff, not_or] at plain
    have hstart : List.isPrefixOf? ['%', '\x7b'] (c :: (text ++ ['%', '\x7b'] ++ rest)) = none := by
      cases text with
      | nil =>
        -- A `%` at the end of the text is not followed by a brace, but by the `%` that opens.
        simp [Text.isPrefixOf?_cons_cons]
      | cons d text =>
        have hpair : ¬ ('%' = c ∧ '\x7b' = d) := by
          rintro ⟨rfl, rfl⟩
          exact plain.1 ⟨text, rfl⟩
        simpa [Text.isPrefixOf?_cons_cons, Text.isPrefixOf?_nil] using hpair
    rw [List.cons_append, List.cons_append, Text.breakOn_cons, hstart, ih plain.2]
    rfl

/-- Nothing is filled in a text in which no opening is closed. -/
theorem fill_of_unclosed {text : List Char}
    (unclosed : ∀ a b, text = a ++ ['%', '\x7b'] ++ b → '\x7d' ∉ b) (values : Placeholders) :
    fill values text = text := by
  rw [fill]
  split
  · rfl
  · rename_i before after hopen
    have hnone : Text.breakOn ['\x7d'] after = none :=
      Text.breakOn_singleton_eq_none_iff.mpr
        (unclosed before after (Text.eq_of_breakOn_eq_some hopen))
    split
    · rfl
    · rename_i name rest hclose
      rw [hnone] at hclose
      exact nomatch hclose

/-- The first placeholder is filled, and filling goes on behind it. -/
theorem fill_hole {text name : List Char} (plain : ¬ ['%', '\x7b'] <:+: text)
    (closes : '\x7d' ∉ name) (rest : List Char) (values : Placeholders) :
    fill values (text ++ placeholder name ++ rest)
      = text ++ ((values.lookup (String.ofList name)).map String.toList).getD (placeholder name)
        ++ fill values rest := by
  have hopen : Text.breakOn ['%', '\x7b'] (text ++ placeholder name ++ rest)
      = some (text, name ++ ['\x7d'] ++ rest) := by
    simpa [placeholder] using breakOn_opening plain (name ++ ['\x7d'] ++ rest)
  rw [fill]
  split
  · rename_i hnone
    rw [hopen] at hnone
    exact nomatch hnone
  · rename_i before after hsome
    obtain ⟨rfl, rfl⟩ := Prod.mk.inj (Option.some.inj (hopen.symm.trans hsome))
    split
    · rename_i hnone
      rw [Text.breakOn_singleton_append closes] at hnone
      exact nomatch hnone
    · rename_i found rest' hsome'
      have hcut := (Text.breakOn_singleton_append closes rest).symm.trans hsome'
      obtain ⟨rfl, rfl⟩ := Prod.mk.inj (Option.some.inj hcut)
      cases values.lookup (String.ofList name) <;> rfl

namespace Cut

theorem fill_source (cut : Cut) (values : Placeholders) :
    fill values cut.source = cut.filled values := by
  induction cut with
  | last text unclosed => exact fill_of_unclosed unclosed values
  | hole text name plain closes rest ih => rw [source, fill_hole plain closes, ih, filled]

/-- An opening that nothing closes is not where a placeholder stands. -/
theorem ne_hole_of_unclosed {text : List Char}
    (unclosed : ∀ a b, text = a ++ ['%', '\x7b'] ++ b → '\x7d' ∉ b)
    (before name rest : List Char) : text ≠ before ++ placeholder name ++ rest := by
  intro h
  exact unclosed before (name ++ ['\x7d'] ++ rest) (by simp [h, placeholder]) (by simp)

/-- A template has one cut at most. -/
theorem source_injective : Function.Injective source := by
  intro cut
  induction cut with
  | last text unclosed =>
    intro other h
    cases other with
    | last => simpa [source] using h
    | hole before name _ _ rest => exact absurd h (ne_hole_of_unclosed unclosed _ _ _)
  | hole text name plain closes rest ih =>
    intro other h
    cases other with
    | last _ unclosed => exact absurd h.symm (ne_hole_of_unclosed unclosed _ _ _)
    | hole text' name' plain' closes' rest' =>
      -- Both are read off the same template: first the opening, then what closes it.
      have hopen := breakOn_opening plain (name ++ ['\x7d'] ++ rest.source)
      have hopen' := breakOn_opening plain' (name' ++ ['\x7d'] ++ rest'.source)
      have hsource : text ++ ['%', '\x7b'] ++ (name ++ ['\x7d'] ++ rest.source)
          = text' ++ ['%', '\x7b'] ++ (name' ++ ['\x7d'] ++ rest'.source) := by
        simpa [source, placeholder] using h
      rw [hsource, hopen'] at hopen
      obtain ⟨rfl, hafter⟩ := Prod.mk.inj (Option.some.inj hopen)
      have hclose := Text.breakOn_singleton_append closes rest.source
      rw [← hafter, Text.breakOn_singleton_append closes'] at hclose
      obtain ⟨rfl, hrest⟩ := Prod.mk.inj (Option.some.inj hclose)
      rw [ih hrest.symm]

/-- A template has a cut: the one that filling goes along. -/
theorem exists_source_eq (template : List Char) : ∃ cut : Cut, cut.source = template := by
  fun_induction fill [] template with
  | case1 template hopen =>
    refine ⟨last template fun a b h => ?_, rfl⟩
    exact absurd ⟨a, b, h.symm⟩ ((Text.breakOn_eq_none_iff (List.cons_ne_nil _ _)).mp hopen)
  | case2 template before after hopen hclose =>
    refine ⟨last template fun a b h => ?_, rfl⟩
    -- Behind the first opening there is no `}`, and so there is none behind any other.
    have hsuffix := Text.suffix_of_breakOn (List.cons_ne_nil _ _) hopen h
    exact fun hb => Text.breakOn_singleton_eq_none_iff.mp hclose (hsuffix.mem hb)
  | case3 template before after hopen name rest hclose value ih =>
    obtain ⟨cut, hcut⟩ := ih
    have hplain := Text.not_infix_of_breakOn (List.cons_ne_nil _ _) hopen
    have hcloses := Text.not_infix_of_breakOn (List.cons_ne_nil _ _) hclose
    rw [List.singleton_infix_iff] at hcloses
    refine ⟨hole before name hplain hcloses cut, ?_⟩
    rw [source, hcut, Text.eq_of_breakOn_eq_some hopen, Text.eq_of_breakOn_eq_some hclose]
    simp [placeholder]

end Cut

/-- Filling a message goes through it once: there is exactly one cut of the template, and what comes
out are its texts with the first value of each name between them. -/
theorem interpolate_eq_filled (template : String) :
    ∃ cut : Cut, (∀ other : Cut, String.ofList other.source = template ↔ other = cut) ∧
      ∀ values, interpolate template values = String.ofList (cut.filled values) := by
  obtain ⟨cut, hcut⟩ := Cut.exists_source_eq template.toList
  refine ⟨cut, fun other => ⟨fun h => ?_, fun h => ?_⟩, fun values => ?_⟩
  · refine Cut.source_injective ?_
    rw [hcut, ← h, String.toList_ofList]
  · rw [h, hcut, String.ofList_toList]
  · rw [interpolate, ← hcut, cut.fill_source]

end Stencil.Message
