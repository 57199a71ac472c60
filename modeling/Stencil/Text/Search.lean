/-! # Finding text in text

The first occurrence of a pattern, and what follows from it: cutting a text at every occurrence and
putting something else in its place.  Occurrences are taken from the left and do not overlap.

* `eq_of_breakOn_eq_some`: the parts around the first occurrence and the pattern make up the text.
* `breakOn_eq_none_iff`, `breakOn_append`: there is nothing to find if the pattern does not occur,
  and what is found is the occurrence that is complete first.
* `flatten_intersperse_pieces`: the pieces, with the pattern between them, make up the text. -/

namespace Stencil.Text

/-- What comes before the first occurrence of `pattern` and what comes after it, where `before` was
passed already, last character first. -/
def breakFrom (pattern before : List Char) : List Char → Option (List Char × List Char)
  | [] => if pattern.isEmpty then some (before.reverse, []) else none
  | c :: cs =>
    match pattern.isPrefixOf? (c :: cs) with
    | some after => some (before.reverse, after)
    | none => breakFrom pattern (c :: before) cs

/-- What comes before the first occurrence of `pattern` and what comes after it. -/
def breakOn (pattern cs : List Char) : Option (List Char × List Char) :=
  breakFrom pattern [] cs

/-- Nothing stands at the front of every text. -/
theorem isPrefixOf?_nil (cs : List Char) : List.isPrefixOf? [] cs = some cs := by
  cases cs <;> rfl

/-- A pattern stands at the front if its first character does, and the others follow. -/
theorem isPrefixOf?_cons_cons (p c : Char) (ps cs : List Char) :
    List.isPrefixOf? (p :: ps) (c :: cs) = if p == c then ps.isPrefixOf? cs else none := rfl

/-- What is behind a pattern is the rest of the text. -/
theorem eq_append_of_isPrefixOf?_eq_some {pattern cs after : List Char}
    (h : pattern.isPrefixOf? cs = some after) : cs = pattern ++ after := by
  induction pattern generalizing cs with
  | nil =>
    exact Option.some.inj ((isPrefixOf?_nil cs).symm.trans h)
  | cons p ps ih =>
    cases cs with
    | nil => cases h
    | cons c cs =>
      rw [isPrefixOf?_cons_cons] at h
      split at h
      · rename_i hpc
        rw [List.cons_append, ← ih h, eq_of_beq hpc]
      · cases h

/-- The characters that were passed stand in front. -/
theorem breakFrom_eq_map (pattern before cs : List Char) :
    breakFrom pattern before cs
      = (breakOn pattern cs).map fun r => (before.reverse ++ r.1, r.2) := by
  suffices h : ∀ pre, breakFrom pattern (pre ++ before) cs
      = (breakFrom pattern pre cs).map fun r => (before.reverse ++ r.1, r.2) from h []
  induction cs with
  | nil => intro pre; simp only [breakFrom]; split <;> simp
  | cons c cs ih =>
    intro pre
    simp only [breakFrom]
    split
    · simp
    · exact ih (c :: pre)

/-- Reading on for one character that starts no occurrence. -/
theorem breakOn_cons (pattern : List Char) (c : Char) (cs : List Char) :
    breakOn pattern (c :: cs) =
      match pattern.isPrefixOf? (c :: cs) with
      | some after => some ([], after)
      | none => (breakOn pattern cs).map fun r => (c :: r.1, r.2) := by
  rw [breakOn, breakFrom]
  split
  · rfl
  · rw [breakFrom_eq_map]; rfl

/-- The parts around the first occurrence and the pattern make up the text. -/
theorem eq_of_breakOn_eq_some {pattern cs before after : List Char}
    (h : breakOn pattern cs = some (before, after)) : cs = before ++ pattern ++ after := by
  induction cs generalizing before with
  | nil =>
    simp only [breakOn, breakFrom] at h
    split at h
    · simp_all
    · exact nomatch h
  | cons c cs ih =>
    rw [breakOn_cons] at h
    split at h
    · rename_i hp
      simp only [Option.some.injEq, Prod.mk.injEq] at h
      obtain ⟨rfl, rfl⟩ := h
      simpa using eq_append_of_isPrefixOf?_eq_some hp
    · obtain ⟨⟨b, a⟩, hb, he⟩ := Option.map_eq_some_iff.mp h
      simp only [Prod.mk.injEq] at he
      obtain ⟨rfl, rfl⟩ := he
      simp [ih hb]

/-- Behind a pattern the text is shorter. -/
theorem length_lt_of_breakOn_eq_some {pattern cs before after : List Char} (hp : pattern ≠ [])
    (h : breakOn pattern cs = some (before, after)) : after.length < cs.length := by
  have := congrArg List.length (eq_of_breakOn_eq_some h)
  have := List.length_pos_iff.mpr hp
  simp only [List.length_append] at *
  omega

/-- A pattern is found in front of any text. -/
theorem isPrefixOf?_append (pattern after : List Char) :
    pattern.isPrefixOf? (pattern ++ after) = some after := by
  induction pattern with
  | nil => exact isPrefixOf?_nil after
  | cons p ps ih => rw [List.cons_append, isPrefixOf?_cons_cons, if_pos (beq_self_eq_true p), ih]

/-- There is nothing to break the text at if the pattern does not occur in it. -/
theorem breakOn_eq_none_iff {pattern cs : List Char} (hp : pattern ≠ []) :
    breakOn pattern cs = none ↔ ¬ pattern <:+: cs := by
  induction cs with
  | nil =>
    have hempty : pattern.isEmpty = false := by simp [hp]
    simp [breakOn, breakFrom, hp]
  | cons c cs ih =>
    rw [breakOn_cons, List.infix_cons_iff, not_or]
    cases h : pattern.isPrefixOf? (c :: cs) with
    | some after =>
      have hstart : pattern <+: c :: cs := ⟨after, (eq_append_of_isPrefixOf?_eq_some h).symm⟩
      simp [hstart]
    | none =>
      have hstart : ¬ pattern <+: c :: cs := by
        rintro ⟨after, hafter⟩
        rw [← hafter, isPrefixOf?_append] at h
        exact nomatch h
      simp [hstart, ih]

/-- The text is broken where the pattern is complete for the first time. -/
theorem breakOn_append {pattern before : List Char} (after : List Char)
    (hfirst : ∀ a b, before ++ pattern = a ++ pattern ++ b → b = []) :
    breakOn pattern (before ++ pattern ++ after) = some (before, after) := by
  induction before with
  | nil =>
    cases pattern with
    | nil => cases after <;> rfl
    | cons p ps =>
      rw [List.nil_append, List.cons_append, breakOn_cons, ← List.cons_append, isPrefixOf?_append]
  | cons c before ih =>
    have hih : breakOn pattern (before ++ pattern ++ after) = some (before, after) := by
      refine ih fun a b h => hfirst (c :: a) b ?_
      rw [List.cons_append, h]
      simp
    rw [List.cons_append, List.cons_append, breakOn_cons, hih]
    cases h : pattern.isPrefixOf? (c :: (before ++ pattern ++ after)) with
    | none => rfl
    | some rest =>
      -- An occurrence at the very start would be complete before the one at the end is.
      have hlong : pattern <+: (c :: before) ++ pattern := by
        have hall : pattern <+: (c :: before) ++ pattern ++ after :=
          ⟨rest, (eq_append_of_isPrefixOf?_eq_some h).symm⟩
        refine List.prefix_of_prefix_length_le hall (List.prefix_append _ _) ?_
        simp only [List.length_append]
        omega
      obtain ⟨b, hb⟩ := hlong
      have hnil := hfirst [] b hb.symm
      have hlength := congrArg List.length hb
      simp only [hnil, List.length_append, List.length_cons, List.length_nil] at hlength
      omega

/-- The part before the break is the first one that the pattern can be behind. -/
theorem first_of_breakOn {pattern cs before after : List Char} (hp : pattern ≠ [])
    (h : breakOn pattern cs = some (before, after)) (a b : List Char)
    (hab : before ++ pattern = a ++ pattern ++ b) : b = [] := by
  induction cs generalizing before a with
  | nil =>
    simp [breakOn, breakFrom, hp] at h
  | cons c cs ih =>
    rw [breakOn_cons] at h
    cases hcut : pattern.isPrefixOf? (c :: cs) with
    | some rest =>
      rw [hcut] at h
      obtain ⟨rfl, rfl⟩ := Prod.mk.inj (Option.some.inj h)
      have hlength := congrArg List.length hab
      simp only [List.length_append, List.length_nil] at hlength
      exact List.eq_nil_of_length_eq_zero (by omega)
    | none =>
      rw [hcut] at h
      obtain ⟨⟨before', after'⟩, hbreak, heq⟩ := Option.map_eq_some_iff.mp h
      obtain ⟨rfl, rfl⟩ := Prod.mk.inj heq
      cases a with
      | nil =>
        -- The pattern does not stand at the very start.
        have hcs := eq_of_breakOn_eq_some hbreak
        have hstart : pattern <+: c :: cs := by
          rw [hcs, ← List.cons_append, ← List.cons_append]
          refine ⟨b ++ after', ?_⟩
          rw [← List.append_assoc]
          simpa using congrArg (· ++ after') hab.symm
        obtain ⟨rest, hrest⟩ := hstart
        rw [← hrest, isPrefixOf?_append] at hcut
        exact nomatch hcut
      | cons a₀ a =>
        simp only [List.cons_append, List.cons.injEq] at hab
        exact ih hbreak a (by simpa using hab.2)

/-- In front of the first occurrence there is none. -/
theorem not_infix_of_breakOn {pattern cs before after : List Char} (hp : pattern ≠ [])
    (h : breakOn pattern cs = some (before, after)) : ¬ pattern <:+: before := by
  rintro ⟨a, b, hinfix⟩
  have hlater := first_of_breakOn hp h a (b ++ pattern) (by simp [← hinfix])
  exact hp (List.append_eq_nil_iff.mp hlater).2

/-- What stands behind any occurrence stands behind the first one. -/
theorem suffix_of_breakOn {pattern cs before after a b : List Char} (hp : pattern ≠ [])
    (h : breakOn pattern cs = some (before, after)) (hab : cs = a ++ pattern ++ b) :
    b <:+ after := by
  have hcs := eq_of_breakOn_eq_some h
  refine List.suffix_of_suffix_length_le ⟨a ++ pattern, hab.symm⟩ ⟨before ++ pattern, hcs.symm⟩ ?_
  refine Nat.le_of_not_lt fun hlong => ?_
  -- Otherwise this occurrence is complete before the first one is.
  have hprefix : a ++ pattern <+: before ++ pattern := by
    refine List.prefix_of_prefix_length_le ⟨b, hab.symm⟩ ⟨after, hcs.symm⟩ ?_
    have hlength := congrArg List.length (hab.symm.trans hcs)
    simp only [List.length_append] at hlength ⊢
    omega
  obtain ⟨c, hc⟩ := hprefix
  obtain rfl := first_of_breakOn hp h a c hc.symm
  have hlength := congrArg List.length (hab.symm.trans hcs)
  have hlength' := congrArg List.length hc
  simp only [List.length_append, List.length_nil] at hlength hlength'
  omega

/-- The parts between the occurrences of `pattern`, from left to right; the empty pattern cuts
nowhere. -/
def pieces (pattern : List Char) (cs : List Char) : List (List Char) :=
  if _hp : pattern = [] then [cs]
  else
    match _h : breakOn pattern cs with
    | none => [cs]
    | some (before, after) => before :: pieces pattern after
termination_by cs.length
decreasing_by exact length_lt_of_breakOn_eq_some _hp _h

/-- There is one piece at least. -/
theorem pieces_ne_nil (pattern cs : List Char) : pieces pattern cs ≠ [] := by
  rw [pieces]
  split
  · simp
  · split <;> simp

/-- The pieces, with the pattern between them, make up the text. -/
theorem flatten_intersperse_pieces (pattern cs : List Char) :
    ((pieces pattern cs).intersperse pattern).flatten = cs := by
  fun_induction pieces pattern cs with
  | case1 => simp
  | case2 => simp
  | case3 cs hp before after h ih =>
    have hne := pieces_ne_nil pattern after
    cases hq : pieces pattern after with
    | nil => exact absurd hq hne
    | cons q qs =>
      rw [hq] at ih
      rw [eq_of_breakOn_eq_some h, List.intersperse_cons_cons, List.flatten_cons,
        List.flatten_cons, ih, List.append_assoc]

/-- Whether `needle` occurs in the text. -/
def occursIn (needle text : String) : Bool :=
  (breakOn needle.toList text.toList).isSome

/-- The text with `new` in place of every occurrence of `pattern`.  The empty pattern occurs before
every character and at the end. -/
def replaceAll (pattern new text : String) : String :=
  if pattern.isEmpty then
    -- Once before each character, and once at the end.
    new ++ String.join (text.toList.map fun c => c.toString ++ new)
  else
    new.intercalate ((pieces pattern.toList text.toList).map String.ofList)

end Stencil.Text
