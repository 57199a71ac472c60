import Stencil.Proofs.Sites

/-!
# Open blocks

While a document is read, what was read so far belongs to the body that is being filled, to the
bodies before it in the same block, or to the blocks around. `Opened` says where all of it comes
from. When a block ends, its bodies become a tag; no body is lost on the way, because what is known
of a block goes with the number of its bodies.

## Key definitions

- `BlockFrame.Fits`: what is known of an open block goes with the number of its bodies
- `Opened`: the open blocks and the current body come from the sites of what was read

## Key results

- `BlockFrame.Fits.encloses`: the tag that a block becomes keeps the bodies of the block
- `Opened.opens`, `Opened.divide`, `Opened.closes`: tags of blocks
- `Opened.text`, `Opened.output`, `Opened.tag`: what is added to the current body
-/

namespace Stencil

open Builder

/-! ## Standard names -/

/-- The name of a standard tag of this kind. -/
def TagKind.standardName? : TagKind → Option String
  | .conditional false => some "if"
  | .conditional true => some "unless"
  | .choice => some "case"
  | .loop => some "for"
  | .interrupt .break => some "break"
  | .interrupt .continue => some "continue"
  | .assign => some "assign"
  | .capture => some "capture"
  | .comment => some "comment"
  | .inlineComment => some "#"
  | .raw => some "raw"
  | .echo => some "echo"
  | .lines => some "liquid"
  | .includePartial => some "include"
  | .renderPartial => some "render"
  | .transform _ | .sections .. | .counter => none

theorem TagKind.standardName?_of_registered {registry : Registry}
    (h : registry.tags = TagKind.standard) {name : String} {kind : TagKind}
    (hkind : registry.tags.get? name = some kind) : kind.standardName? = some name := by
  have hall : ∀ e ∈ TagKind.standard, e.2.standardName? = some e.1 := by decide
  exact hall _ (Assoc.mem_of_get?_eq_some (h ▸ hkind))

/-- A tag without bodies has the name of its kind. -/
theorem TagKind.Single.name_eq {kind : TagKind} {tag : Tag} (h : kind.Single tag) {name : String}
    (hname : kind.standardName? = some name) : tag.name = name := by
  cases h with
  | interrupt i line => cases i <;> exact Option.some.inj hname
  | counter => exact nomatch hname
  | _ => exact Option.some.inj hname

/-- A tag opens a block of its own name. -/
theorem TagKind.Opens.name_eq {kind : TagKind} {name : String} {block : OpenBlock}
    (h : kind.Opens name block) : block.name = name := by
  cases h <;> rfl

/-- A tag without bodies is not one with lines. -/
theorem TagKind.Single.ne_liquid {kind : TagKind} {tag : Tag} (h : kind.Single tag) {name : String}
    (hname : kind.standardName? = some name) : name ≠ "liquid" := by
  rintro rfl
  cases h with
  | interrupt i line => cases i <;> exact nomatch hname
  | _ => exact nomatch hname

/-- A tag that opens a block is not one with lines. -/
theorem TagKind.Opens.ne_liquid {kind : TagKind} {name : String} {block : OpenBlock}
    (h : kind.Opens name block) (hname : kind.standardName? = some name) : name ≠ "liquid" := by
  rintro rfl
  cases h with
  | conditional negated => cases negated <;> exact nomatch hname
  | _ => exact nomatch hname

/-- The name of a token that is a tag. -/
theorem Token.name?_of_tagParts? {d : Delimited} {name args : String}
    (h : tagParts? d.markup = some (name, args)) : (Token.tag d).name? = some name := by
  rw [name?, tagName?_eq_some_iff.mpr ⟨rfl, args, h⟩]
  rfl

/-! ## Blocks -/

namespace OpenBlock

variable {bodies : List Body}

/-- Whether a block is blank can be told from the nodes of its bodies. -/
theorem blank_elide (h : ∀ body ∈ bodies, body.IsFaithful) :
    (elide bodies).2 = (bodies.map Body.nodes).all (·.all Node.isBlank) := by
  show bodies.all Body.isBlank = _
  rw [List.all_map, Bool.eq_iff_iff, List.all_eq_true, List.all_eq_true]
  refine forall₂_congr fun body hbody => ?_
  rw [Function.comp_apply, ← h body hbody]

/-- The nodes that are left of the bodies of a block. -/
theorem map_nodes_elide :
    (elide bodies).1.map Body.nodes
      = (bodies.map Body.nodes).map (shownNodes (elide bodies).2) := by
  unfold elide
  dsimp only
  cases bodies.all Body.isBlank with
  | true =>
    rw [if_pos rfl, List.map_map, List.map_map]
    rfl
  | false =>
    rw [if_neg Bool.false_ne_true, List.map_map]
    rfl

theorem length_elide : (elide bodies).1.length = bodies.length := by
  unfold elide
  dsimp only
  split
  · exact List.length_map ..
  · rfl

end OpenBlock

/-- What is known of an open block goes with the number of bodies that it had before, and the block
is a standard one of its name. -/
def BlockFrame.Fits (frame : BlockFrame) : Prop :=
  match frame.block with
  | .conditional _ _ conditions => conditions.length = frame.finished.length + 1
  | .choice name _ heads => name = "case" ∧ heads.length = frame.finished.length
  | .loop name _ _ => name = "for" ∧ frame.finished.length ≤ 1
  | .capture name _ => name = "capture" ∧ frame.finished = []
  | .transform .. | .sections .. => False

namespace BlockFrame.Fits

variable {frame : BlockFrame}

/-- A standard block that is opened. -/
theorem of_opens {name : String} {kind : TagKind} (hkind : kind.standardName? = some name)
    (h : kind.Opens name frame.block) (hfinished : frame.finished = []) : frame.Fits := by
  obtain ⟨block, line, finished, enclosing⟩ := frame
  subst hfinished
  cases h with
  | conditional => rfl
  | choice => exact ⟨(Option.some.inj hkind).symm, rfl⟩
  | loop => exact ⟨(Option.some.inj hkind).symm, Nat.zero_le 1⟩
  | capture => exact ⟨(Option.some.inj hkind).symm, rfl⟩
  | transform | sections => exact nomatch hkind

/-- A block that turns to one more body. -/
theorem turns (h : frame.Fits) {block : OpenBlock} {tag : String}
    (hturns : frame.block.Turns (!frame.finished.isEmpty) tag block) (body : Body) :
    { frame with block, finished := frame.finished ++ [body] : BlockFrame }.Fits
      ∧ block.name = frame.block.name ∧ tag ∈ dividers := by
  obtain ⟨before, line, finished, enclosing⟩ := frame
  have hlength : (finished ++ [body]).length = finished.length + 1 := List.length_append
  -- Which dividers a block takes depends on whether a body is finished, so the flag is named.
  generalize hf : (!finished.isEmpty) = f at hturns
  cases hturns with
  | @conditional _ _ conditions _ _ condition htag =>
    have hconditions : conditions.length = finished.length + 1 := h
    refine ⟨?_, rfl, ?_⟩
    · show (conditions ++ [condition]).length = (finished ++ [body]).length + 1
      rw [List.length_append, hconditions, hlength]
      rfl
    · rcases htag with rfl | rfl <;> decide
  | @choice _ _ heads _ _ head htag =>
    have hheads : heads.length = finished.length := h.2
    refine ⟨⟨h.1, ?_⟩, rfl, ?_⟩
    · rw [List.length_append, hheads, hlength]
      rfl
    · rcases htag with rfl | rfl <;> decide
  -- A loop takes `else` once, when no body is finished.
  | loop =>
    have hnone : finished = [] := List.isEmpty_iff.mp (Bool.not_eq_false' .. ▸ hf)
    subst hnone
    exact ⟨⟨h.1, Nat.le_refl 1⟩, rfl, by decide⟩
  | sections => exact h.elim

/-- A block that ends keeps what a tag keeps of its bodies. -/
theorem encloses (h : frame.Fits) {body : Body}
    (hbodies : ∀ inside ∈ frame.finished ++ [body], inside.IsFaithful) :
    (frame.block.close frame.line (frame.finished ++ [body])).Encloses
        (frame.finished.map Body.nodes ++ [body.nodes])
      ∧ (frame.block.close frame.line (frame.finished ++ [body])).name = frame.block.name := by
  obtain ⟨block, line, finished, enclosing⟩ := frame
  have hnodes : finished.map Body.nodes ++ [body.nodes] = (finished ++ [body]).map Body.nodes := by
    rw [List.map_append]
    rfl
  have hlength : (finished ++ [body]).length = finished.length + 1 := List.length_append
  dsimp only at hbodies ⊢
  rw [hnodes]
  generalize hall : finished ++ [body] = bodies at hbodies hlength ⊢
  -- Leaving out blanks keeps the number of bodies, so each one keeps its condition.
  have helided : (OpenBlock.elide bodies).1.length = bodies.length := OpenBlock.length_elide
  cases block with
  | conditional name negated conditions =>
    have hconditions : conditions.length = finished.length + 1 := h
    refine ⟨⟨OpenBlock.blank_elide hbodies, ?_⟩, rfl⟩
    calc (List.zipWith Branch.mk conditions (OpenBlock.elide bodies).1).map (·.body.nodes)
        = ((List.zipWith Branch.mk conditions (OpenBlock.elide bodies).1).map Branch.body).map
            Body.nodes := by
          rw [List.map_map]
          rfl
      _ = (OpenBlock.elide bodies).1.map Body.nodes := by
        rw [OpenBlock.map_body_branches, List.take_of_length_le (by omega)]
      _ = _ := OpenBlock.map_nodes_elide
  | choice name subject heads =>
    obtain ⟨hname, hheads⟩ : name = "case" ∧ heads.length = finished.length := h
    refine ⟨⟨OpenBlock.blank_elide hbodies, ?_⟩, hname.symm⟩
    have hrest : ((OpenBlock.elide bodies).1.drop 1).length ≤ heads.length := by
      rw [List.length_drop]
      omega
    calc (List.zipWith OpenBlock.arm heads ((OpenBlock.elide bodies).1.drop 1)).map (·.body.nodes)
        = ((List.zipWith OpenBlock.arm heads ((OpenBlock.elide bodies).1.drop 1)).map
            Arm.body).map Body.nodes := by
          rw [List.map_map]
          rfl
      _ = ((OpenBlock.elide bodies).1.map Body.nodes).drop 1 := by
        rw [OpenBlock.map_body_arms, List.take_of_length_le hrest, List.map_drop]
      _ = _ := by
        rw [OpenBlock.map_nodes_elide, ← List.map_drop]
        rfl
  -- A loop has one body, or two if there is an `else`.
  | loop name position header =>
    obtain ⟨hname, hfinished⟩ : name = "for" ∧ finished.length ≤ 1 := h
    refine ⟨⟨OpenBlock.blank_elide hbodies, ?_⟩, hname.symm⟩
    have hshown (shown : List Body) (hone : shown.length = finished.length + 1) :
        (shown.headD .empty).nodes :: shown[1]?.toList.map Body.nodes = shown.map Body.nodes := by
      match shown with
      | [] => exact nomatch hone
      | [_] | [_, _] => rfl
      | _ :: _ :: _ :: _ =>
        simp only [List.length_cons] at hone
        omega
    exact (hshown _ (helided.trans hlength)).trans OpenBlock.map_nodes_elide
  -- A capture shows its body as it is: its blanks are text too.
  | capture name target =>
    obtain ⟨hname, hfinished⟩ : name = "capture" ∧ finished = [] := h
    subst hfinished hall
    exact ⟨rfl, hname.symm⟩
  | transform name f => exact h.elim
  | sections name opens passes closes => exact h.elim

end BlockFrame.Fits

/-! ## Open blocks -/

/-- The nodes of the body that is being filled, and the open blocks around it, come from the sites
of what was read. -/
inductive Opened : List BlockFrame → List Node → List Site → Prop where
  | outside {nodes : List Node} {all : List Site} : NodesFrom TagFrom nodes all →
      Opened [] nodes all
  | inside {frame : BlockFrame} {frames : List BlockFrame} {nodes : List Node} {opener : Site}
      {before finished last : List Site} : Opened frames frame.enclosing.nodes before →
      opener.token.name? = some frame.block.name → frame.Fits →
      FinishedFrom TagFrom (frame.finished.map Body.nodes) finished →
      NodesFrom TagFrom nodes last →
      Opened (frame :: frames) nodes (before ++ opener :: (finished ++ last))

namespace Opened

variable {frame : BlockFrame} {frames : List BlockFrame} {nodes : List Node} {all : List Site}

/-- What is added to the body that is being filled. -/
theorem extend (h : Opened frames nodes all) {more : List Node} {behind : List Site}
    (hmore : ∀ {nodes : List Node} {all : List Site}, NodesFrom TagFrom nodes all →
      NodesFrom TagFrom (nodes ++ more) (all ++ behind)) :
    Opened frames (nodes ++ more) (all ++ behind) := by
  cases h with
  | outside h => exact .outside (hmore h)
  | inside henclosing hname hfits hfinished hlast =>
    rw [List.append_assoc, List.cons_append, List.append_assoc]
    exact .inside henclosing hname hfits hfinished (hmore hlast)

theorem text (h : Opened frames nodes all) {site : Site} {text : String} {line : Nat}
    (htoken : site.token = .text text line) :
    Opened frames (nodes ++ textNodes (site.trimmed text)) (all ++ [site]) :=
  h.extend fun h => .text h htoken

theorem output (h : Opened frames nodes all) {site : Site} {d : Delimited} (p : Pipeline)
    (htoken : site.token = .output d) : Opened frames (nodes ++ [.output p]) (all ++ [site]) :=
  h.extend fun h => .output p h htoken

theorem tag (h : Opened frames nodes all) {tag : Tag} {inside : List Site}
    (htag : TagFrom tag inside) : Opened frames (nodes ++ [.tag tag]) (all ++ inside) :=
  h.extend fun h => .tag h htag

/-- The innermost open block. -/
theorem fits (h : Opened (frame :: frames) nodes all) : frame.Fits := by
  cases h with
  | inside _ _ hfits => exact hfits

/-- A block that is opened. -/
theorem opens (h : Opened frames nodes all) {site : Site}
    (henclosing : frame.enclosing.nodes = nodes)
    (hname : site.token.name? = some frame.block.name) (hfits : frame.Fits)
    (hfinished : frame.finished = []) : Opened (frame :: frames) [] (all ++ [site]) := by
  subst henclosing
  have hbodies : FinishedFrom TagFrom (frame.finished.map Body.nodes) [] := by
    rw [hfinished]
    exact .nil
  exact .inside h hname hfits hbodies .nil

/-- A tag between two bodies of a block. -/
theorem divide (h : Opened (frame :: frames) nodes all) (frame' : BlockFrame) {body : Body}
    (hnodes : body.nodes = nodes) (henclosing : frame'.enclosing = frame.enclosing)
    (hblock : frame'.block.name = frame.block.name) (hfits : frame'.Fits)
    (hfinished : frame'.finished = frame.finished ++ [body]) {site : Site} {name : String}
    (hname : site.token.name? = some name) (hdivider : name ∈ dividers) :
    Opened (frame' :: frames) [] (all ++ [site]) := by
  subst hnodes
  cases h with
  | @inside _ _ _ opener before finished last hbefore hopener _ hall hlast =>
    have hbodies : FinishedFrom TagFrom (frame'.finished.map Body.nodes)
        (finished ++ last ++ [site]) := by
      rw [hfinished, List.map_append]
      exact .body hall hlast hname hdivider
    -- The block goes on with an empty body behind the finished ones.
    have hinside : Opened (frame' :: frames) [] (before ++ opener :: (_ ++ [])) :=
      .inside (henclosing ▸ hbefore) (hblock ▸ hopener) hfits hbodies .nil
    rw [List.append_nil] at hinside
    rw [List.append_assoc, List.cons_append]
    exact hinside

/-- The end of a block. -/
theorem closes (h : Opened (frame :: frames) nodes all) {tag : Tag} {site : Site}
    (hname : tag.name = frame.block.name)
    (hend : site.token.name? = some ("end" ++ frame.block.name))
    (hbodies : tag.Encloses (frame.finished.map Body.nodes ++ [nodes])) :
    Opened frames (frame.enclosing.nodes ++ [.tag tag]) (all ++ [site]) := by
  cases h with
  | @inside _ _ _ opener before finished last hbefore hopener _ hall hlast =>
    -- Everything from the opener to the closer is one tag from here on.
    have htag : TagFrom tag (opener :: (finished ++ last) ++ [site]) :=
      .block (hname ▸ hopener) (hname ▸ hend) hall hlast hbodies
    rw [List.append_assoc]
    exact hbefore.tag htag

end Opened

end Stencil
