import Mathlib.Data.Nat.Count
import Mathlib.Order.Bounds.Basic
import Stencil.Proofs.Sites
import Stencil.Render.Document

/-!
# Comments

The tokens of a comment are passed over up to the tag that ends it. Which tag that is can be said
without passing over them one by one: raw blocks hide what is in them, comments nest, and the
comment ends where the `endcomment` tags that can be seen first outnumber the `comment` tags.

What is kept while tokens are passed over is how many comments are open and whether a raw block is.
Both can be read off the tokens so far: the one is the difference of the two numbers, and the other
says what hides the next token.

## Key definitions

- `Comments.Visible`: a token that no raw block hides
- `Comments.EndsComment`: the first tokens are those of a comment, with its end
- `Comments.Balanced`: the comments and the raw blocks among the tokens have ends

## Key results

- `Comments.Standing.step`: what one more token changes
- `Comments.standing_of_openInside?`, `Comments.endsComment_of_openInside?`: what is kept while
  tokens are passed over, and where that stops
- `Comments.Balanced.foldlM_skipped`: a balanced body leaves everything as it was
- `Comments.reads_to_matching_end`: what a comment takes from the tokens behind its tag
-/

namespace Stencil

open Builder

namespace Comments

variable {tokens : List Token} {token : Token} {length depth depth' : Nat} {inRaw inRaw' : Bool}

/-! ## The matching end -/

/-- The name of the tag at a place. -/
def tagAt? (tokens : List Token) (place : Nat) : Option String :=
  tokens[place]?.bind Token.name?

/-- The token at a place can be seen: it does not lie between a raw tag that can be seen and the
next `endraw`. A raw tag without an end hides all that follows. -/
def Visible (tokens : List Token) (place : Nat) : Prop :=
  ∀ start < place, Visible tokens start → tagAt? tokens start = some "raw" →
    ∃ stop, start < stop ∧ stop ≤ place ∧ tagAt? tokens stop = some "endraw"
termination_by place

open Classical in
/-- How many tags of this name can be seen among the first tokens. -/
noncomputable def visibleTags (tokens : List Token) (name : String) (length : Nat) : Nat :=
  Nat.count (fun place => Visible tokens place ∧ tagAt? tokens place = some name) length

/-- The first tokens end with an `endcomment` that can be seen, and there is one more of these among
them than there are `comment` tags. -/
def EndsComment (tokens : List Token) (length : Nat) : Prop :=
  (∃ last, length = last + 1 ∧ Visible tokens last ∧ tagAt? tokens last = some "endcomment")
    ∧ visibleTags tokens "endcomment" length = visibleTags tokens "comment" length + 1

/-- Behind the first tokens a raw block is open. -/
def RawOpen (tokens : List Token) (length : Nat) : Prop :=
  ∃ start < length, Visible tokens start ∧ tagAt? tokens start = some "raw"
    ∧ ∀ stop, start < stop → stop < length → tagAt? tokens stop ≠ some "endraw"

/-- An open raw block hides everything but its end. -/
theorem visible_iff :
    Visible tokens length ↔ (RawOpen tokens length → tagAt? tokens length = some "endraw") := by
  rw [Visible]
  constructor
  · rintro h ⟨start, hstart, hvisible, hraw, hopen⟩
    obtain ⟨stop, hlt, hle, hend⟩ := h start hstart hvisible hraw
    rcases hle.lt_or_eq with hstop | rfl
    · exact absurd hend (hopen stop hlt hstop)
    · exact hend
  · intro h start hstart hvisible hraw
    by_contra hnone
    push Not at hnone
    -- A raw block that is open over the whole stretch ends exactly at its end.
    have hend := h ⟨start, hstart, hvisible, hraw, fun stop hlt hstop => hnone stop hlt hstop.le⟩
    exact hnone length hstart le_rfl hend

/-- A raw block is open behind one more token if that token starts it, or if it was open and does
not end here. -/
theorem rawOpen_succ_iff :
    RawOpen tokens (length + 1)
      ↔ (¬ RawOpen tokens length ∧ tagAt? tokens length = some "raw")
        ∨ (RawOpen tokens length ∧ tagAt? tokens length ≠ some "endraw") := by
  constructor
  · -- The block was opened before the last token or by it.
    rintro ⟨start, hstart, hvisible, hraw, hopen⟩
    rcases Nat.lt_succ_iff_lt_or_eq.mp hstart with hlt | rfl
    · refine .inr ⟨⟨start, hlt, hvisible, hraw, fun stop hlt' hstop => ?_⟩, ?_⟩
      · exact hopen stop hlt' (hstop.trans (Nat.lt_succ_self _))
      · exact hopen length hlt (Nat.lt_succ_self _)
    · refine .inl ⟨fun hbefore => ?_, hraw⟩
      have hend := visible_iff.mp hvisible hbefore
      rw [hraw] at hend
      exact absurd hend (by decide)
  · -- A block that stays open is closed by none of the tokens up to the last one.
    rintro (⟨hclosed, hraw⟩ | ⟨⟨start, hstart, hvisible, hraw, hopen⟩, hend⟩)
    · refine ⟨length, Nat.lt_succ_self _, visible_iff.mpr fun h => absurd h hclosed, hraw,
        fun stop hlt hstop => ?_⟩
      exact absurd hstop (Nat.not_lt.mpr hlt)
    · refine ⟨start, hstart.trans (Nat.lt_succ_self _), hvisible, hraw, fun stop hlt hstop => ?_⟩
      rcases Nat.lt_succ_iff_lt_or_eq.mp hstop with hbefore | rfl
      · exact hopen stop hlt hbefore
      · exact hend

/-- No tokens, no tags. -/
theorem visibleTags_zero (name : String) : visibleTags tokens name 0 = 0 := by
  rw [visibleTags, Nat.count_zero]

/-- A visible tag of the name counts. -/
theorem visibleTags_succ_of_seen {name : String} (hvisible : Visible tokens length)
    (hname : tagAt? tokens length = some name) :
    visibleTags tokens name (length + 1) = visibleTags tokens name length + 1 := by
  classical
  rw [visibleTags, Nat.count_succ, if_pos ⟨hvisible, hname⟩, visibleTags]

/-- A hidden token does not count. -/
theorem visibleTags_succ_of_hidden {name : String} (h : ¬ Visible tokens length) :
    visibleTags tokens name (length + 1) = visibleTags tokens name length := by
  classical
  rw [visibleTags, Nat.count_succ, if_neg fun hseen => h hseen.1, visibleTags, Nat.add_zero]

theorem visibleTags_succ_of_ne {name : String} (h : tagAt? tokens length ≠ some name) :
    visibleTags tokens name (length + 1) = visibleTags tokens name length := by
  classical
  rw [visibleTags, Nat.count_succ, if_neg fun hseen => h hseen.2, visibleTags, Nat.add_zero]

/-- A comment does not end before its first token. -/
theorem not_endsComment_zero : ¬ EndsComment tokens 0 :=
  fun ⟨⟨_, h, _⟩, _⟩ => nomatch h

/-- Only an `endcomment` that can be seen is the end of a comment. -/
theorem not_endsComment_succ
    (h : Visible tokens length → tagAt? tokens length ≠ some "endcomment") :
    ¬ EndsComment tokens (length + 1) := by
  rintro ⟨⟨last, hlast, hvisible, hend⟩, -⟩
  obtain rfl := Nat.succ.inj hlast
  exact h hvisible hend

/-- It ends at one of its tokens. -/
theorem EndsComment.le_length (h : EndsComment tokens length) : length ≤ tokens.length := by
  obtain ⟨⟨last, rfl, -, hend⟩, -⟩ := h
  by_contra hlong
  have hnone : tokens[last]? = none := List.getElem?_eq_none (by omega)
  rw [tagAt?, hnone] at hend
  exact nomatch hend

/-! ## Passing over tokens -/

/-- In a raw block only its end counts. -/
theorem skipped_hidden (depth : Nat) (token : Token) :
    skipped depth true token = some (depth, decide (token.name? ≠ some "endraw")) := by
  unfold skipped Token.name?
  cases tagName? token with
  | none => rfl
  | some named => simp

/-- A raw block hides what is in it. -/
theorem skipped_raw (depth : Nat) (h : token.name? = some "raw") :
    skipped depth false token = some (depth, true) := by
  obtain ⟨⟨name, d⟩, htoken, rfl⟩ := Option.map_eq_some_iff.mp h
  rw [skipped, htoken]
  rfl

/-- A comment inside has to be closed as well. -/
theorem skipped_comment (depth : Nat) (h : token.name? = some "comment") :
    skipped depth false token = some (depth + 1, false) := by
  obtain ⟨⟨name, d⟩, htoken, rfl⟩ := Option.map_eq_some_iff.mp h
  rw [skipped, htoken]
  rfl

/-- The end of a comment inside closes that one. -/
theorem skipped_endcomment_succ (depth : Nat) (h : token.name? = some "endcomment") :
    skipped (depth + 1) false token = some (depth, false) := by
  obtain ⟨⟨name, d⟩, htoken, rfl⟩ := Option.map_eq_some_iff.mp h
  rw [skipped, htoken]
  rfl

/-- Otherwise it is the end. -/
theorem skipped_endcomment_zero (h : token.name? = some "endcomment") :
    skipped 0 false token = none := by
  obtain ⟨⟨name, d⟩, htoken, rfl⟩ := Option.map_eq_some_iff.mp h
  rw [skipped, htoken]
  rfl

/-- Outside raw blocks all other tokens are passed over. -/
theorem skipped_of_ne (depth : Nat) (hraw : token.name? ≠ some "raw")
    (hcomment : token.name? ≠ some "comment") (hend : token.name? ≠ some "endcomment") :
    skipped depth false token = some (depth, false) := by
  cases htoken : tagName? token with
  | none => rw [skipped, htoken]
  | some named =>
    have hname : token.name? = some named.1 := by rw [Token.name?, htoken]; rfl
    rw [hname] at hraw hcomment hend
    exact skipped_other depth htoken (mt (congrArg some) hraw) (mt (congrArg some) hcomment)
      (mt (congrArg some) hend)

/-- What is kept while tokens are passed over is what can be read off them. -/
structure Standing (tokens : List Token) (length depth : Nat) (inRaw : Bool) : Prop where
  raw : inRaw = true ↔ RawOpen tokens length
  nesting : depth + visibleTags tokens "endcomment" length = visibleTags tokens "comment" length

namespace Standing

/-- At first nothing is open. -/
theorem zero : Standing tokens 0 0 false :=
  ⟨⟨nofun, fun ⟨_, h, _⟩ => nomatch h⟩, by rw [visibleTags_zero, visibleTags_zero]⟩

/-- In a raw block a token is passed over, and is no end of the comment. -/
theorem step_hidden (h : Standing tokens length depth true)
    (hname : tagAt? tokens length = token.name?) :
    Standing tokens (length + 1) depth (decide (token.name? ≠ some "endraw"))
      ∧ ¬ EndsComment tokens (length + 1) := by
  have hopen : RawOpen tokens length := h.raw.mp rfl
  -- Of the tokens in a raw block only its end can be seen, which neither number counts.
  have hseen (hvisible : Visible tokens length) : tagAt? tokens length = some "endraw" :=
    visible_iff.mp hvisible hopen
  have hkept {name : String} (hne : some "endraw" ≠ some name) :
      visibleTags tokens name (length + 1) = visibleTags tokens name length := by
    by_cases hvisible : Visible tokens length
    · exact visibleTags_succ_of_ne (hseen hvisible ▸ hne)
    · exact visibleTags_succ_of_hidden hvisible
  refine ⟨⟨?_, ?_⟩, not_endsComment_succ fun hvisible => hseen hvisible ▸ by decide⟩
  · rw [rawOpen_succ_iff, hname, decide_eq_true_iff]
    exact ⟨fun hend => .inr ⟨hopen, hend⟩, fun h => h.elim (absurd hopen ·.1) And.right⟩
  · rw [hkept (by decide), hkept (by decide)]
    exact h.nesting

/-- Outside raw blocks a token is passed over unless it ends the comment. -/
theorem step_seen (h : Standing tokens length depth false)
    (hname : tagAt? tokens length = token.name?) :
    match skipped depth false token with
    | some (depth', inRaw') =>
      Standing tokens (length + 1) depth' inRaw' ∧ ¬ EndsComment tokens (length + 1)
    | none => EndsComment tokens (length + 1) ∧ depth = 0 ∧ token.name? = some "endcomment" := by
  have hclosed : ¬ RawOpen tokens length := fun hopen => nomatch h.raw.mpr hopen
  -- So the token can be seen, and counts by its name.
  have hvisible : Visible tokens length := visible_iff.mpr fun hopen => absurd hopen hclosed
  have hraw : RawOpen tokens (length + 1) ↔ token.name? = some "raw" := by
    rw [rawOpen_succ_iff, hname]
    exact ⟨fun h => h.elim And.right (absurd ·.1 hclosed), fun h => .inl ⟨hclosed, h⟩⟩
  have hkept {name : String} (hne : token.name? ≠ some name) :
      visibleTags tokens name (length + 1) = visibleTags tokens name length :=
    visibleTags_succ_of_ne (hname ▸ hne)
  have hmore {name : String} (heq : token.name? = some name) :
      visibleTags tokens name (length + 1) = visibleTags tokens name length + 1 :=
    visibleTags_succ_of_seen hvisible (hname.trans heq)
  by_cases hend : token.name? = some "endcomment"
  · have hstarts := @hkept "comment" (hend ▸ by decide)
    have hends := hmore hend
    have hnesting := h.nesting
    cases depth with
    | zero =>
      rw [skipped_endcomment_zero hend]
      exact ⟨⟨⟨length, rfl, hvisible, hname.trans hend⟩, by omega⟩, rfl, hend⟩
    | succ depth =>
      rw [skipped_endcomment_succ depth hend]
      refine ⟨⟨iff_of_false nofun (hraw.not.mpr (hend ▸ by decide)), by omega⟩, fun h => ?_⟩
      have hcount := h.2
      omega
  · have hnot : ¬ EndsComment tokens (length + 1) := not_endsComment_succ fun _ => hname ▸ hend
    have hends := hkept hend
    have hnesting := h.nesting
    by_cases hcomment : token.name? = some "comment"
    · have hstarts := hmore hcomment
      rw [skipped_comment depth hcomment]
      exact ⟨⟨iff_of_false nofun (hraw.not.mpr (hcomment ▸ by decide)), by omega⟩, hnot⟩
    · have hstarts := hkept hcomment
      by_cases hrawTag : token.name? = some "raw"
      · rw [skipped_raw depth hrawTag]
        exact ⟨⟨iff_of_true rfl (hraw.mpr hrawTag), by omega⟩, hnot⟩
      · rw [skipped_of_ne depth hrawTag hcomment hend]
        exact ⟨⟨iff_of_false nofun (hraw.not.mpr hrawTag), by omega⟩, hnot⟩

/-- One more token is passed over, or the comment ends with it. -/
theorem step (h : Standing tokens length depth inRaw) (htoken : tokens[length]? = some token) :
    match skipped depth inRaw token with
    | some (depth', inRaw') =>
      Standing tokens (length + 1) depth' inRaw' ∧ ¬ EndsComment tokens (length + 1)
    | none =>
      EndsComment tokens (length + 1) ∧ depth = 0 ∧ inRaw = false
        ∧ token.name? = some "endcomment" := by
  have hname : tagAt? tokens length = token.name? := by rw [tagAt?, htoken]; rfl
  -- Inside a raw block only its end is seen.
  cases inRaw with
  | true =>
    rw [skipped_hidden]
    exact h.step_hidden hname
  | false =>
    have hseen := h.step_seen hname
    cases hgo : skipped depth false token with
    | some went =>
      rw [hgo] at hseen
      exact hseen
    | none =>
      rw [hgo] at hseen
      exact ⟨hseen.1, hseen.2.1, rfl, hseen.2.2⟩

end Standing

/-- What the first tokens lead to is one step from what those before the last one lead to. -/
theorem openInside?_take_succ (htoken : tokens[length]? = some token) :
    openInside? (tokens.take (length + 1))
      = openInside? (tokens.take length) >>= fun (depth, inRaw) => skipped depth inRaw token := by
  rw [List.take_add_one, htoken]
  exact openInside?_concat ..

/-- As long as tokens are passed over, what is kept can be read off them, and the comment did not
end. -/
theorem standing_of_openInside? (hlength : length ≤ tokens.length)
    (h : openInside? (tokens.take length) = some (depth, inRaw)) :
    Standing tokens length depth inRaw ∧ ∀ n ≤ length, ¬ EndsComment tokens n := by
  -- By induction on the tokens from the left: each is one more step from what holds before it.
  induction length generalizing depth inRaw with
  | zero =>
    cases h
    refine ⟨.zero, fun n hn => ?_⟩
    rw [Nat.le_zero.mp hn]
    exact not_endsComment_zero
  | succ length ih =>
    have htoken := List.getElem?_eq_getElem hlength
    rw [openInside?_take_succ htoken] at h
    obtain ⟨⟨depth', inRaw'⟩, hbefore, hgo⟩ := Option.bind_eq_some_iff.mp h
    obtain ⟨hstanding, hnot⟩ := ih (Nat.le_of_succ_le hlength) hbefore
    have hstep := hstanding.step htoken
    rw [show skipped depth' inRaw' _ = _ from hgo] at hstep
    refine ⟨hstep.1, fun n hn => ?_⟩
    rcases hn.lt_or_eq with hlt | rfl
    · exact hnot n (Nat.lt_succ_iff.mp hlt)
    · exact hstep.2

/-- Where tokens are no longer passed over, the comment ended. -/
theorem endsComment_of_openInside? (hlength : length ≤ tokens.length)
    (h : openInside? (tokens.take length) = none) : ∃ n ≤ length, EndsComment tokens n := by
  induction length with
  | zero => exact nomatch h
  | succ length ih =>
    have htoken := List.getElem?_eq_getElem hlength
    rw [openInside?_take_succ htoken] at h
    -- Either the comment ended before this token or it ends with it.
    cases hbefore : openInside? (tokens.take length) with
    | none =>
      obtain ⟨n, hn, hends⟩ := ih (Nat.le_of_succ_le hlength) hbefore
      exact ⟨n, hn.trans (Nat.le_succ length), hends⟩
    | some went =>
      rw [hbefore] at h
      have hstep := (standing_of_openInside? (Nat.le_of_succ_le hlength) hbefore).1.step htoken
      rw [show skipped went.1 went.2 _ = none from h] at hstep
      exact ⟨length + 1, Nat.le_refl _, hstep.1⟩

/-- Tokens are passed over exactly as long as the comment did not end. -/
theorem isSome_openInside?_iff (hlength : length ≤ tokens.length) :
    (openInside? (tokens.take length)).isSome ↔ ∀ n ≤ length, ¬ EndsComment tokens n := by
  cases h : openInside? (tokens.take length) with
  | some went => exact iff_of_true rfl (standing_of_openInside? hlength h).2
  | none =>
    obtain ⟨n, hn, hends⟩ := endsComment_of_openInside? hlength h
    exact iff_of_false nofun fun hnot => hnot n hn hends

/-- The shortest tokens that end a comment are those that are passed over, with no other comment
open, and an `endcomment` behind them. -/
theorem isLeast_endsComment_iff :
    IsLeast { n | EndsComment tokens n } (length + 1)
      ↔ openInside? (tokens.take length) = some (0, false)
        ∧ tagAt? tokens length = some "endcomment" := by
  constructor
  · rintro ⟨hends, hleast⟩
    have hlength : length < tokens.length := EndsComment.le_length hends
    have hnot : ∀ n ≤ length, ¬ EndsComment tokens n := fun n hn hbefore =>
      absurd (hleast hbefore) (Nat.not_le.mpr (Nat.lt_succ_iff.mpr hn))
    -- Before the least end the reading goes on, and there the last token stops it.
    obtain ⟨⟨depth, inRaw⟩, hgo⟩ :=
      Option.isSome_iff_exists.mp ((isSome_openInside?_iff hlength.le).mpr hnot)
    have htoken := List.getElem?_eq_getElem hlength
    have hstep := (standing_of_openInside? hlength.le hgo).1.step htoken
    cases hskip : skipped depth inRaw tokens[length] with
    | some went =>
      rw [hskip] at hstep
      exact absurd hends hstep.2
    | none =>
      rw [hskip] at hstep
      obtain ⟨-, rfl, rfl, hname⟩ := hstep
      exact ⟨hgo, by rw [tagAt?, htoken]; exact hname⟩
  · rintro ⟨hgo, hend⟩
    obtain ⟨token, htoken, hname⟩ := Option.bind_eq_some_iff.mp hend
    have hlength : length < tokens.length := (List.getElem?_eq_some_iff.mp htoken).1
    obtain ⟨hstanding, hnot⟩ := standing_of_openInside? hlength.le hgo
    have hstep := hstanding.step htoken
    rw [skipped_endcomment_zero hname] at hstep
    refine ⟨hstep.1, fun n hn => ?_⟩
    by_contra hlt
    exact hnot n (Nat.lt_succ_iff.mp (Nat.not_le.mp hlt)) hn

end Comments

/-! ## The builder -/

namespace Builder

open Comments

variable (ctx : ParseContext) (inner : LinesReader) (stray : String → Parse Builder) (b : Builder)
  (name : String) {token : Token} {depth depth' : Nat} {inRaw inRaw' : Bool} {d : Delimited}

/-- Behind the tag that starts a comment, or inside the comment. -/
def inComment (depth : Nat) (inRaw : Bool) : Builder :=
  { b with mode := .comment name depth inRaw }

/-- Behind the tag that ends a comment. The comment is a tag without a body. -/
def pastComment : Builder :=
  { b.pushTag .comment with mode := .nodes }

/-- A token that is passed over changes nothing but what is kept. -/
theorem add_of_skipped (h : skipped depth inRaw token = some (depth', inRaw')) :
    (b.inComment name depth inRaw).add ctx inner stray token
      = pure (b.inComment name depth' inRaw') :=
  skip_of_skipped rfl h

/-- The tag that ends a comment leaves the comment as a tag, and its own trim marker. -/
theorem add_of_endcomment (h : tagName? token = some ("endcomment", d)) (s : ParseState) :
    (b.inComment name 0 false).add ctx inner stray token s
      = (.ok b.pastComment, { s with trimNext := d.trimRight }) := by
  show skip (b.inComment name 0 false) name 0 false token s = _
  rw [skip_of_endcomment _ name h]
  rfl

/-- Tokens that are passed over change nothing but what is kept. -/
theorem addAll_of_openInside? {inside : List Token}
    (h : openInside? inside = some (depth, inRaw)) :
    addAll ctx inner stray inside (b.inComment name 0 false)
      = pure (b.inComment name depth inRaw) := by
  induction inside using List.reverseRecOn generalizing depth inRaw with
  | nil =>
    cases h
    rfl
  | append_singleton inside token ih =>
    rw [openInside?_concat] at h
    obtain ⟨⟨depth', inRaw'⟩, hinside, hgo⟩ := Option.bind_eq_some_iff.mp h
    rw [addAll_append, ih hinside, pure_bind]
    show add ctx inner stray _ token >>= pure = _
    rw [bind_pure, add_of_skipped ctx inner stray b name hgo]

/-- Tokens that are passed over, and the end of the comment behind them. -/
theorem addAll_to_end {inside : List Token} {closer : Token}
    (hinside : openInside? inside = some (0, false))
    (hcloser : tagName? closer = some ("endcomment", d)) (rest : List Token) (s : ParseState) :
    addAll ctx inner stray (inside ++ closer :: rest) (b.inComment name 0 false) s
      = addAll ctx inner stray rest b.pastComment { s with trimNext := d.trimRight } := by
  rw [addAll_append, addAll_of_openInside? ctx inner stray b name hinside, pure_bind]
  show (add ctx inner stray _ closer >>= addAll ctx inner stray rest) s = _
  rw [Attempt.bind_of_ok (add_of_endcomment ctx inner stray b name hcloser s)]

end Builder

/-! ## Balanced bodies -/

namespace Comments

/-- Every comment and every raw block among the tokens has its end, in which a raw block keeps
whatever is not its end. -/
inductive Balanced : List Token → Prop where
  | nil : Balanced []
  | other {token : Token} {rest : List Token} (hraw : token.name? ≠ some "raw")
      (hcomment : token.name? ≠ some "comment") (hend : token.name? ≠ some "endcomment")
      (hrest : Balanced rest) : Balanced (token :: rest)
  | comment {opener closer : Token} {inside rest : List Token}
      (hopener : opener.name? = some "comment") (hinside : Balanced inside)
      (hcloser : closer.name? = some "endcomment") (hrest : Balanced rest) :
      Balanced (opener :: inside ++ closer :: rest)
  | raw {opener closer : Token} {inside rest : List Token} (hopener : opener.name? = some "raw")
      (hinside : ∀ token ∈ inside, token.name? ≠ some "endraw")
      (hcloser : closer.name? = some "endraw") (hrest : Balanced rest) :
      Balanced (opener :: inside ++ closer :: rest)

variable {tokens : List Token}

/-- Where tokens lead that are passed over. -/
def passed (tokens : List Token) (went : Nat × Bool) : Option (Nat × Bool) :=
  tokens.foldlM (fun (depth, inRaw) token => skipped depth inRaw token) went

/-- The first token is passed, and then the others. -/
theorem passed_cons (token : Token) (tokens : List Token) (depth : Nat) (inRaw : Bool) :
    passed (token :: tokens) (depth, inRaw) = skipped depth inRaw token >>= passed tokens :=
  List.foldlM_cons

/-- One list of tokens after the other. -/
theorem passed_append (tokens tokens' : List Token) (went : Nat × Bool) :
    passed (tokens ++ tokens') went = passed tokens went >>= passed tokens' :=
  List.foldlM_append

/-- In a raw block everything but its end is passed over. -/
theorem passed_hidden (depth : Nat) (h : ∀ token ∈ tokens, token.name? ≠ some "endraw") :
    passed tokens (depth, true) = some (depth, true) := by
  induction tokens with
  | nil => rfl
  | cons token tokens ih =>
    obtain ⟨htoken, htokens⟩ := List.forall_mem_cons.mp h
    rw [passed_cons, skipped_hidden, decide_eq_true htoken]
    exact ih htokens

/-- Behind a balanced body as many comments are open as before it. -/
theorem Balanced.passed (h : Balanced tokens) (depth : Nat) :
    passed tokens (depth, false) = some (depth, false) := by
  -- The depth is arbitrary since the body of an inner comment is passed over one level deeper.
  induction h generalizing depth with
  | nil => rfl
  | other hraw hcomment hend hrest ih =>
    rw [passed_cons, skipped_of_ne depth hraw hcomment hend]
    exact ih depth
  | @comment opener closer inside rest hopener hinside hcloser hrest ihInside ihRest =>
    have hbehind : Comments.passed (closer :: rest) (depth + 1, false) = some (depth, false) := by
      rw [passed_cons, skipped_endcomment_succ depth hcloser]
      exact ihRest depth
    rw [List.cons_append, passed_cons, skipped_comment depth hopener]
    show Comments.passed (inside ++ closer :: rest) (depth + 1, false) = _
    rw [passed_append, ihInside]
    exact hbehind
  | @raw opener closer inside rest hopener hinside hcloser hrest ih =>
    have hbehind : Comments.passed (closer :: rest) (depth, true) = some (depth, false) := by
      rw [passed_cons, skipped_hidden, hcloser]
      exact ih depth
    rw [List.cons_append, passed_cons, skipped_raw depth hopener]
    show Comments.passed (inside ++ closer :: rest) (depth, true) = _
    rw [passed_append, passed_hidden depth hinside]
    exact hbehind

end Comments

namespace Builder

open Comments

variable (ctx : ParseContext) (inner : LinesReader) (stray : String → Parse Builder) (b : Builder)
  (name : String) {tokens : List Token} {length : Nat}

/-- The tag that starts a comment. -/
theorem add_comment {opener : Delimited} {args : String} (hmode : b.mode = .nodes)
    (hparts : tagParts? opener.markup = some (name, args))
    (hkind : ctx.registry.tags.get? name = some .comment) (s : ParseState) :
    b.add ctx inner stray (.tag opener) s
      = (.ok ((b.facing opener).inComment name 0 false),
        { s with line := opener.line, trimNext := opener.trimRight }) := by
  rw [add, hmode]
  show addTag ctx inner stray b opener s = _
  rw [addTag, Attempt.bind_of_ok (turnTo_eq b opener s), hparts]
  dsimp only
  rw [hkind]
  rfl

/-- The shortest tokens that end a comment are passed over. -/
theorem addAll_of_isLeast (s : ParseState)
    (hleast : IsLeast { n | EndsComment tokens n } length) :
    ∃ d args, tokens[length - 1]? = some (.tag d)
      ∧ tagParts? d.markup = some ("endcomment", args)
      ∧ (∀ n < length, ∃ depth inRaw,
        addAll ctx inner stray (tokens.take n) (b.inComment name 0 false) s
          = (.ok (b.inComment name depth inRaw), s))
      ∧ ∀ rest, addAll ctx inner stray (tokens.take length ++ rest) (b.inComment name 0 false) s
          = addAll ctx inner stray rest b.pastComment { s with trimNext := d.trimRight } := by
  obtain ⟨⟨last, rfl, -, -⟩, -⟩ := hleast.1
  obtain ⟨hinside, hend⟩ := isLeast_endsComment_iff.mp hleast
  obtain ⟨token, htoken, hname⟩ := Option.bind_eq_some_iff.mp hend
  obtain ⟨⟨_, d⟩, hcloser, rfl⟩ := Option.map_eq_some_iff.mp hname
  obtain ⟨rfl, args, hparts⟩ := tagName?_eq_some_iff.mp hcloser
  refine ⟨d, args, htoken, hparts, fun n hn => ?_, fun rest => ?_⟩
  · -- Before the end the builder stays inside the comment.
    have hlength : n ≤ tokens.length := hn.le.trans (EndsComment.le_length hleast.1)
    have hgo := (isSome_openInside?_iff hlength).mpr fun m hm hends =>
      absurd (hleast.2 hends) (Nat.not_le.mpr (hm.trans_lt hn))
    obtain ⟨⟨depth, inRaw⟩, hgo⟩ := Option.isSome_iff_exists.mp hgo
    exact ⟨depth, inRaw, congrFun (addAll_of_openInside? ctx inner stray b name hgo) s⟩
  · rw [List.take_add_one, htoken, List.append_assoc]
    exact addAll_to_end ctx inner stray b name hinside hcloser rest s

/-- A comment without an end is refused. -/
theorem finish_of_not_endsComment (s : ParseState) (hnone : ∀ n, ¬ EndsComment tokens n) :
    (addAll ctx inner stray tokens (b.inComment name 0 false) >>= finish ctx) s
      = (ctx.refuseUnclosed name : Parse Body) s := by
  have hgo := (isSome_openInside?_iff (Nat.le_refl tokens.length)).mpr fun n _ => hnone n
  rw [List.take_length] at hgo
  obtain ⟨⟨depth, inRaw⟩, hgo⟩ := Option.isSome_iff_exists.mp hgo
  rw [addAll_of_openInside? ctx inner stray b name hgo]
  rfl

/-- A comment with a balanced body. -/
theorem addAll_comment {opener closer : Delimited} {args args' : String} {body : List Token}
    (hmode : b.mode = .nodes) (hopener : tagParts? opener.markup = some (name, args))
    (hkind : ctx.registry.tags.get? name = some .comment) (hbody : Comments.Balanced body)
    (hcloser : tagParts? closer.markup = some ("endcomment", args')) (rest : List Token)
    (s : ParseState) :
    addAll ctx inner stray (.tag opener :: body ++ .tag closer :: rest) b s
      = addAll ctx inner stray rest ((b.facing opener).pushTag .comment)
          { s with line := opener.line, trimNext := closer.trimRight } := by
  have hend : tagName? (.tag closer) = some ("endcomment", closer) :=
    tagName?_eq_some_iff.mpr ⟨rfl, args', hcloser⟩
  -- Past the comment the reader goes on with the mode that it had.
  have hpast : (b.facing opener).pastComment = (b.facing opener).pushTag .comment := by
    have hnodes : ((b.facing opener).pushTag .comment).mode = .nodes :=
      (mode_facing b opener).trans hmode
    rw [pastComment, ← hnodes]
  show (add ctx inner stray b (.tag opener)
    >>= addAll ctx inner stray (body ++ .tag closer :: rest)) s = _
  rw [Attempt.bind_of_ok (add_comment ctx inner stray b name hmode hopener hkind s),
    addAll_to_end ctx inner stray _ name (hbody.passed 0) hend, hpast]

end Builder

namespace Comments

/-- Behind a comment the tokens that follow its end are read: these are the shortest tokens that end
it, which are passed over, and of which nothing is left but the trim marker of the last one. A
comment without an end is refused. So comments whose bodies are balanced take nothing but their
bodies, from the tokens of a source as from those of lines; and they render nothing. -/
theorem reads_to_matching_end (ctx : ParseContext) (inner : LinesReader)
    (stray : String → Parse Builder) (b : Builder) (name : String) (tokens : List Token)
    (s : ParseState) :
    (∀ length, IsLeast { n | EndsComment tokens n } length →
        ∃ d args, tokens[length - 1]? = some (.tag d)
          ∧ tagParts? d.markup = some ("endcomment", args)
          ∧ (∀ n < length, ∃ depth inRaw,
            addAll ctx inner stray (tokens.take n) (b.inComment name 0 false) s
              = (.ok (b.inComment name depth inRaw), s))
          ∧ addAll ctx inner stray (tokens.take length) (b.inComment name 0 false) s
            = (.ok b.pastComment, { s with trimNext := d.trimRight })
          ∧ addAll ctx inner stray tokens (b.inComment name 0 false) s
            = addAll ctx inner stray (tokens.drop length) b.pastComment
                { s with trimNext := d.trimRight })
      ∧ ((∀ n, ¬ EndsComment tokens n) →
        (addAll ctx inner stray tokens (b.inComment name 0 false) >>= finish ctx) s
          = (ctx.refuseUnclosed name : Parse Body) s)
      ∧ (∀ (opener closer : Delimited) (args args' : String) (body rest : List Token),
        b.mode = .nodes → tagParts? opener.markup = some (name, args) →
        ctx.registry.tags.get? name = some .comment → Balanced body →
        tagParts? closer.markup = some ("endcomment", args') →
          addAll ctx inner stray (.tag opener :: body ++ .tag closer :: rest) b s
            = addAll ctx inner stray rest ((b.facing opener).pushTag .comment)
                { s with line := opener.line, trimNext := closer.trimRight })
      ∧ ∀ (settings : Settings) (partials : Render.PartialRenderer) (t : RenderState),
        (Node.render settings partials (.tag .comment) t).2 = t
          ∧ ∃ further, (Node.render settings partials (.tag .comment) t).1 = .ok further := by
  refine ⟨fun length hleast => ?_, finish_of_not_endsComment ctx inner stray b name s, ?_, ?_⟩
  · -- The tokens up to the end, and then those behind it.
    obtain ⟨d, args, htoken, hparts, hinside, hpast⟩ :=
      addAll_of_isLeast ctx inner stray b name s hleast
    have hrest := hpast (tokens.drop length)
    rw [List.take_append_drop] at hrest
    have hnothing := hpast []
    rw [List.append_nil] at hnothing
    exact ⟨d, args, htoken, hparts, hinside, hnothing, hrest⟩
  · intro opener closer args args' body rest hmode hopener hkind hbody hcloser
    exact addAll_comment ctx inner stray b name hmode hopener hkind hbody hcloser rest s
  · intro settings partials t
    exact ⟨rfl, _, rfl⟩

/-- The first `endcomment` is in a raw block, and the second one ends the comment inside. -/
theorem reads_to_matching_end_hidden :
    let tag (markup : String) : Token := .tag ⟨markup, markup, 1, false, false⟩
    let opener : Delimited := ⟨"comment", "comment", 1, false, false⟩
    let body := [.text "a" 1, tag "raw", tag "endcomment", tag "endraw", tag "comment",
      tag "endcomment"]
    let closer : Delimited := ⟨"endcomment", "endcomment", 1, false, true⟩
    let rest := [.text " b" 1, tag "endcomment"]
    let ctx := ParseContext.ofOptions .standard {}
    let read := addAll ctx (Body.parseLines 1) ctx.refuseOuterTag
    IsLeast { n | EndsComment (body ++ .tag closer :: rest) n } 7
      ∧ read (body ++ .tag closer :: rest) (inComment {} "comment" 0 false) {}
        = read rest (pastComment {}) { trimNext := true }
      ∧ Balanced body
      ∧ read (.tag opener :: body ++ .tag closer :: rest) {} {}
        = read rest (pushTag {} .comment) { trimNext := true } := by
  intro tag opener body closer rest ctx read
  have hleast : IsLeast { n | EndsComment (body ++ .tag closer :: rest) n } 7 :=
    isLeast_endsComment_iff.mpr ⟨by decide +kernel, by decide +kernel⟩
  have hbody : Balanced body := by
    refine .other (by decide) (by decide) (by decide) ?_
    have hcomment : Balanced (tag "comment" :: [] ++ tag "endcomment" :: []) :=
      .comment (by decide +kernel) .nil (by decide +kernel) .nil
    show Balanced (tag "raw" :: [tag "endcomment"] ++ tag "endraw" :: _)
    exact .raw (by decide +kernel) (by decide +kernel) (by decide +kernel) hcomment
  obtain ⟨hends, -, hbalanced, -⟩ := reads_to_matching_end ctx (Body.parseLines 1)
    ctx.refuseOuterTag {} "comment" (body ++ .tag closer :: rest) {}
  obtain ⟨d, args, hd, -, -, -, hread⟩ := hends 7 hleast
  obtain rfl : closer = d := Token.tag.inj (Option.some.inj hd)
  exact ⟨hleast, hread, hbody, hbalanced opener closer "" "" body rest rfl (by decide +kernel) rfl
    hbody (by decide +kernel)⟩

end Comments

end Stencil
