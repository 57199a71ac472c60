import Stencil.Proofs.Growth
import Stencil.Proofs.Lockstep

/-!
# Blank tags write nothing

A body has a flag that says whether it is blank. The flag is set while nodes are added, and it is
kept when a text is trimmed or removed; still it always says what the nodes say. A block whose
bodies are all blank is a blank tag, and loses its texts. So there is nothing left in it that
writes, and an error in a blank tag is not shown: to render it leaves the output alone, whatever
comes of it.

## Key definitions

- `Tag.bodies`: the bodies of a tag
- `Body.IsFaithful`, `Tag.IsFaithful`: flags say what is in the bodies
- `Render.WritesNothing`: steps that write nothing

## Key results

- `Body.sound_grows`: flags are faithful however a body grew
- `Tag.writesNothing_render`: to render a blank tag writes nothing
- `Document.blank_of_parse`: blank tags and blank bodies of documents
-/

namespace Stencil

open Render

/-! ## Trimmed texts -/

namespace Text

/-- To trim the end of a text makes no difference to whether it is blank. -/
theorem isBlankText_trimEnd (s : String) : isBlankText (trimEnd s) = isBlankText s := by
  unfold isBlankText trimEnd
  rw [String.toList_ofList]
  calc (dropEndWhile isBlank s.toList).all isBlank
      = (dropEndWhile isBlank s.toList ++ takeEndWhile isBlank s.toList).all isBlank := by
        rw [List.all_append, all_takeEndWhile, Bool.and_true]
    _ = s.toList.all isBlank := by rw [dropEndWhile_append_takeEndWhile]

/-- An empty text is blank. -/
theorem isBlankText_of_isEmpty {s : String} (h : s.isEmpty = true) : isBlankText s = true := by
  rw [String.isEmpty_iff.mp h]
  rfl

end Text

/-! ## The bodies of tags -/

/-- The body that is rendered under the condition. -/
def Branch.body : Branch → Body
  | .mk _ body => body

/-- The body of an arm. -/
def Arm.body : Arm → Body
  | .when _ body | .otherwise body => body

namespace Tag

/-- The bodies of a tag, in order. -/
def bodies : Tag → List Body
  | .conditional _ _ branches _ _ => branches.map Branch.body
  | .choice arms _ _ => arms.map Arm.body
  | .loop _ _ body otherwise _ _ => body :: otherwise.toList
  | .capture _ body _ | .lines body _ | .transform _ _ body => [body]
  | .sections _ bodies _ => bodies
  | .interrupt .. | .assign .. | .comment | .inlineComment | .raw _ | .echo _
  | .includePartial .. | .renderPartial .. | .counter .. => []

/-- The bodies of a tag that are written when it is rendered. -/
def written : Tag → List Body
  | .capture .. => []
  | tag => tag.bodies

end Tag

/-- The tags of branches are those of their bodies. -/
theorem Branch.tagsAll_eq (branches : List Branch) :
    tagsAll branches = (branches.map body).flatMap Body.tags := by
  induction branches with
  | nil => rfl
  | cons branch branches ih =>
    cases branch with
    | mk condition body =>
      rw [tagsAll, ih]
      rfl

/-- The tags of arms are those of their bodies. -/
theorem Arm.tagsAll_eq (arms : List Arm) : tagsAll arms = (arms.map body).flatMap Body.tags := by
  induction arms with
  | nil => rfl
  | cons arm arms ih => cases arm <;> rw [tagsAll, ih] <;> rfl

/-- The tags of bodies, one after the other. -/
theorem Body.tagsAll_eq (bodies : List Body) : tagsAll bodies = bodies.flatMap tags := by
  induction bodies with
  | nil => rfl
  | cons body bodies ih =>
    rw [tagsAll, ih]
    rfl

/-- The tags inside a tag are those of its bodies. -/
theorem Tag.inner_eq (tag : Tag) : tag.inner = tag.bodies.flatMap Body.tags := by
  -- Tags with several bodies, with one, and with none.
  cases tag with
  | conditional name negated branches line blank => exact Branch.tagsAll_eq branches
  | choice arms line blank => exact Arm.tagsAll_eq arms
  | loop name header body otherwise line blank =>
    cases otherwise with
    | none => rfl
    | some otherwise =>
      show body.tags ++ otherwise.tags = body.tags ++ (otherwise.tags ++ [])
      rw [List.append_nil]
  | sections name bodies blank => exact Body.tagsAll_eq bodies
  | capture target body line => exact (List.append_nil _).symm
  | lines body line => exact (List.append_nil _).symm
  | transform name f body => exact (List.append_nil _).symm
  | interrupt | assign | comment | inlineComment | raw | echo | includePartial | renderPartial
  | counter => rfl

/-- The tags of nodes, one after the other. -/
theorem Node.tagsAll_eq (nodes : List Node) : tagsAll nodes = nodes.flatMap tags := by
  induction nodes with
  | nil => rfl
  | cons node nodes ih =>
    rw [tagsAll, ih]
    rfl

/-- The tags of a body are those of its nodes. -/
theorem Body.tags_eq (body : Body) : body.tags = body.nodes.flatMap Node.tags := by
  cases body with
  | mk nodes blank => exact Node.tagsAll_eq nodes

/-! ## Faithful flags -/

/-- The flag says whether all nodes are blank. -/
def Body.IsFaithful (body : Body) : Prop :=
  body.isBlank = body.nodes.all Node.isBlank

/-- There is no text among the nodes. -/
def Body.IsTextless (body : Body) : Prop :=
  ∀ node ∈ body.nodes, node.isText = false

/-- The flags of the bodies are faithful, and if the tag is blank, so are the bodies that it writes,
which have no texts. -/
structure Tag.IsFaithful (tag : Tag) : Prop where
  standard : tag.isStandard = true
  bodies : ∀ body ∈ tag.bodies, body.IsFaithful
  blank : tag.isBlank = true → ∀ body ∈ tag.written, body.isBlank = true ∧ body.IsTextless

/-- The flags of a tag and of all tags in it are faithful. -/
structure Tag.IsSound (tag : Tag) : Prop where
  faithful : tag.IsFaithful
  inner : ∀ inner ∈ tag.inner, inner.IsFaithful

/-- The flags of a body and of all tags in it are faithful. -/
structure Body.IsSound (body : Body) : Prop where
  faithful : body.IsFaithful
  tags : ∀ tag ∈ body.tags, tag.IsSound

/-- A tag without bodies is faithful. -/
theorem Tag.IsFaithful.of_bodies {tag : Tag} (hstandard : tag.isStandard = true)
    (h : tag.bodies = []) : tag.IsFaithful := by
  have hwritten : tag.written = [] := by
    cases tag <;> first | exact h | rfl
  refine ⟨hstandard, ?_, fun _ => ?_⟩
  · rw [h]
    exact List.forall_mem_nil _
  · rw [hwritten]
    exact List.forall_mem_nil _

namespace Body.IsSound

variable {body : Body}

/-- A body without nodes is sound. -/
theorem empty : IsSound .empty :=
  ⟨rfl, List.forall_mem_nil _⟩

/-- A body with one more node is sound if the tags of that node are. -/
theorem push (h : body.IsSound) {node : Node} (hn : ∀ tag ∈ node.tags, tag.IsSound) :
    (body.push node).IsSound := by
  constructor
  · have hfaithful := h.faithful
    unfold IsFaithful at hfaithful ⊢
    rw [isBlank_push, nodes_push, List.all_append, hfaithful]
    simp only [List.all_cons, List.all_nil, Bool.and_true]
  · rw [tags_eq, nodes_push, List.flatMap_append, List.flatMap_singleton, ← tags_eq]
    exact List.forall_mem_append.mpr ⟨h.tags, hn⟩

/-- A tag in a body is faithful with all that is in it. -/
theorem pushTag (h : body.IsSound) {tag : Tag} (htag : tag.IsFaithful)
    (hbodies : ∀ inside ∈ tag.bodies, inside.IsSound) : (body.push (.tag tag)).IsSound := by
  have hinner : ∀ inner ∈ tag.inner, inner.IsSound := by
    intro inner hi
    rw [Tag.inner_eq] at hi
    obtain ⟨inside, hinside, hmem⟩ := List.mem_flatMap.mp hi
    exact (hbodies inside hinside).tags inner hmem
  have hsound : tag.IsSound := ⟨htag, fun inner hi => (hinner inner hi).faithful⟩
  exact h.push (List.forall_mem_cons.mpr ⟨hsound, hinner⟩)

/-- A text that is trimmed is as blank as it was, and one that is removed was blank. -/
theorem trimLastText (h : body.IsSound) : body.trimLastText.IsSound := by
  unfold Body.trimLastText
  split
  · rename_i text hlast
    obtain ⟨nodes, blank⟩ := body
    obtain ⟨before, rfl⟩ : ∃ before, nodes = before ++ [.text text] :=
      List.getLast?_eq_some_iff.mp hlast
    -- The flag of the body says whether all of its nodes are blank, the last text among them.
    have hblank : blank = (before.all Node.isBlank && Text.isBlankText text) := by
      have hfaithful : blank = (before ++ [Node.text text]).all Node.isBlank := h.faithful
      rw [hfaithful, List.all_append]
      simp only [List.all_cons, List.all_nil, Bool.and_true]
      rfl
    have htags : ∀ tag ∈ before.flatMap Node.tags, tag.IsSound := by
      intro tag htag
      refine h.tags tag ?_
      rw [tags_eq]
      exact List.mem_flatMap.mpr ((List.mem_flatMap.mp htag).imp fun node hn =>
        ⟨List.mem_append_left _ hn.1, hn.2⟩)
    have hbefore : (Body.mk (before ++ [.text text]) blank).nodes.dropLast = before :=
      List.dropLast_concat
    rw [hbefore]
    dsimp only
    -- What is left of the text is as blank, and if nothing is left, it was blank.
    constructor
    · show blank = (before ++ _).all Node.isBlank
      rw [hblank, ← Text.isBlankText_trimEnd text, List.all_append]
      split
      · rename_i hempty
        rw [Text.isBlankText_of_isEmpty hempty]
        rfl
      · simp only [List.all_cons, List.all_nil, Bool.and_true]
        rfl
    · rw [tags_eq]
      show ∀ tag ∈ (before ++ _).flatMap Node.tags, tag.IsSound
      rw [List.flatMap_append]
      refine List.forall_mem_append.mpr ⟨htags, ?_⟩
      split <;> exact List.forall_mem_nil _
  · exact h

/-- Texts may be removed from a blank body. -/
theorem withoutTexts (h : body.IsSound) (hblank : body.isBlank = true) :
    body.withoutTexts.IsSound := by
  have hsub : ∀ node ∈ body.withoutTexts.nodes, node ∈ body.nodes :=
    fun node hn => (List.mem_filter.mp hn).1
  constructor
  · -- What is left is blank, as all of the body was.
    have hall : body.nodes.all Node.isBlank = true := h.faithful ▸ hblank
    show body.isBlank = body.withoutTexts.nodes.all Node.isBlank
    rw [hblank, eq_comm, List.all_eq_true]
    exact fun node hn => List.all_eq_true.mp hall node (hsub node hn)
  · -- The tags are all kept.
    intro tag htag
    rw [tags_eq] at htag
    obtain ⟨node, hn, hmem⟩ := List.mem_flatMap.mp htag
    refine h.tags tag ?_
    rw [tags_eq]
    exact List.mem_flatMap.mpr ⟨node, hsub node hn, hmem⟩

end Body.IsSound

/-- A body that loses its texts has none. -/
theorem Body.isTextless_withoutTexts (body : Body) : body.withoutTexts.IsTextless := by
  intro node hn
  have hkept := (List.mem_filter.mp hn).2
  exact Bool.not_eq_true' _ ▸ hkept

namespace OpenBlock

variable {bodies : List Body}

/-- The bodies that are left of a block are sound, and without texts if all are blank. -/
private theorem sound_elide (h : ∀ body ∈ bodies, body.IsSound) :
    ∀ body ∈ (elide bodies).1, body.IsSound
      ∧ ((elide bodies).2 = true → body.isBlank = true ∧ body.IsTextless) := by
  intro body hbody
  unfold elide at hbody ⊢
  dsimp only at hbody ⊢
  -- The bodies are emptied of their texts only if all of them are blank.
  cases hblank : bodies.all Body.isBlank with
  | true =>
    rw [hblank, if_pos rfl] at hbody
    obtain ⟨whole, hwhole, rfl⟩ := List.mem_map.mp hbody
    have hb : whole.isBlank = true := List.all_eq_true.mp hblank whole hwhole
    exact ⟨(h whole hwhole).withoutTexts hb, fun _ => ⟨hb, whole.isTextless_withoutTexts⟩⟩
  | false =>
    rw [hblank, if_neg Bool.false_ne_true] at hbody
    exact ⟨h body hbody, fun hf => nomatch hf⟩

/-- Branches are made of as many bodies as there are conditions. -/
theorem map_body_branches (conditions : List Condition) (bodies : List Body) :
    (List.zipWith Branch.mk conditions bodies).map Branch.body
      = bodies.take conditions.length := by
  induction conditions generalizing bodies with
  | nil => rfl
  | cons condition conditions ih =>
    cases bodies with
    | nil => rfl
    | cons body bodies => exact congrArg (body :: ·) (ih bodies)

/-- Arms are made of as many bodies as there are heads. -/
theorem map_body_arms (heads : List (Option Condition)) (bodies : List Body) :
    (List.zipWith arm heads bodies).map Arm.body = bodies.take heads.length := by
  induction heads generalizing bodies with
  | nil => rfl
  | cons head heads ih =>
    cases bodies with
    | nil => rfl
    | cons body bodies =>
      rw [List.zipWith_cons_cons, List.map_cons, ih]
      cases head <;> rfl

/-- A tag whose bodies are what is left of those of a block is faithful. -/
private theorem faithful_of_elided (h : ∀ body ∈ bodies, body.IsSound) {tag : Tag}
    (hstandard : tag.isStandard = true) (hblank : tag.isBlank = (elide bodies).2)
    (hbodies : ∀ body ∈ tag.bodies, body = .empty ∨ body ∈ (elide bodies).1)
    (hwritten : ∀ body ∈ tag.written, body ∈ tag.bodies) :
    tag.IsFaithful ∧ ∀ body ∈ tag.bodies, body.IsSound := by
  have hsound : ∀ body ∈ tag.bodies, body.IsSound
      ∧ (tag.isBlank = true → body.isBlank = true ∧ body.IsTextless) := by
    intro body hbody
    -- A missing body is the empty one.
    rcases hbodies body hbody with rfl | hbody
    · exact ⟨.empty, fun _ => ⟨rfl, List.forall_mem_nil _⟩⟩
    · rw [hblank]
      exact sound_elide h body hbody
  refine ⟨⟨hstandard, fun body hbody => (hsound body hbody).1.faithful, ?_⟩,
    fun body hbody => (hsound body hbody).1⟩
  exact fun hb body hbody => (hsound body (hwritten body hbody)).2 hb

/-- A standard block of sound bodies is a faithful tag. -/
private theorem sound_close {block : OpenBlock} (hblock : block.isStandard = true)
    (line : Option Nat) (h : ∀ body ∈ bodies, body.IsSound) :
    (block.close line bodies).IsFaithful
      ∧ ∀ body ∈ (block.close line bodies).bodies, body.IsSound := by
  cases block with
  -- The bodies of a block that is closed are among those that it was built from.
  | conditional name negated conditions =>
    refine faithful_of_elided h rfl rfl (fun body hbody => .inr ?_) fun _ hbody => hbody
    have hmem := hbody
    unfold close Tag.bodies at hmem
    dsimp only at hmem
    rw [map_body_branches] at hmem
    exact List.mem_of_mem_take hmem
  | choice name subject heads =>
    refine faithful_of_elided h rfl rfl (fun body hbody => .inr ?_) fun _ hbody => hbody
    have hmem := hbody
    unfold close Tag.bodies at hmem
    dsimp only at hmem
    rw [map_body_arms] at hmem
    exact List.mem_of_mem_drop (List.mem_of_mem_take hmem)
  | loop name position header =>
    refine faithful_of_elided h rfl rfl (fun body hbody => ?_) fun _ hbody => hbody
    have hmem : body ∈ (elide bodies).1.headD .empty :: (elide bodies).1[1]?.toList := hbody
    rcases List.mem_cons.mp hmem with rfl | hmem
    · cases (elide bodies).1 with
      | nil => exact .inl rfl
      | cons first rest => exact .inr (List.mem_cons_self ..)
    · exact .inr (List.mem_of_getElem? (Option.mem_toList.mp hmem))
  | capture name target =>
    have hshown : (bodies.headD .empty).IsSound := by
      cases bodies with
      | nil => exact .empty
      | cons body bodies => exact h body (List.mem_cons_self ..)
    refine ⟨⟨rfl, ?_, fun _ => List.forall_mem_nil _⟩, ?_⟩
    · exact List.forall_mem_singleton.mpr hshown.faithful
    · exact List.forall_mem_singleton.mpr hshown
  | transform name f => exact nomatch hblock
  | sections name opens passes closes => exact nomatch hblock

end OpenBlock

/-! ## Bodies grow faithfully -/

/-- A tag that has no bodies is faithful. -/
private theorem faithful_single {kind : TagKind} {tag : Tag} (hkind : kind.isStandard = true)
    (h : kind.Single tag) : tag.IsFaithful ∧ tag.bodies = [] := by
  cases h with
  | counter => exact nomatch hkind
  | _ => exact ⟨.of_bodies rfl rfl, rfl⟩

/-- However a body grew, its flag and those of the tags in it are faithful. -/
theorem Body.sound_grows (texts : Bool) :
    Body.Grows texts (fun body => body.IsSound ∧ body.IsTextless) Body.IsSound where
  empty := .empty
  trim h := h.trimLastText
  text _ _ h := h.push (List.forall_mem_nil _)
  output _ h := h.push (List.forall_mem_nil _)
  -- Only tags with bodies need an argument: those with lines and those that close a block.
  single hkind htag h := by
    obtain ⟨hfaithful, hbodies⟩ := faithful_single hkind htag
    exact h.pushTag hfaithful (hbodies ▸ List.forall_mem_nil _)
  lines line hinside h := by
    refine h.pushTag ⟨rfl, ?_, fun hblank => ?_⟩ (List.forall_mem_singleton.mpr hinside.1)
    · exact List.forall_mem_singleton.mpr hinside.1.faithful
    · exact List.forall_mem_singleton.mpr ⟨hblank, hinside.2⟩
  comment h := h.pushTag (.of_bodies rfl rfl) (List.forall_mem_nil _)
  raw _ h := h.pushTag (.of_bodies rfl rfl) (List.forall_mem_nil _)
  close line hblock hbodies h := by
    obtain ⟨hfaithful, hsound⟩ := OpenBlock.sound_close hblock line hbodies
    exact h.pushTag hfaithful hsound

/-- A node that is no text adds none. -/
private theorem isTextless_push {body : Body} (h : body.IsTextless) {node : Node}
    (hn : node.isText = false) : (body.push node).IsTextless :=
  List.forall_mem_append.mpr ⟨h, List.forall_mem_singleton.mpr hn⟩

/-- Where there are no texts, bodies have none. -/
private theorem textless_grows {L : Body → Prop} : Body.Grows false L Body.IsTextless where
  empty := List.forall_mem_nil _
  trim {body} h := by
    unfold Body.trimLastText
    split
    · rename_i text hlast
      exact nomatch h _ (List.mem_of_getLast? hlast)
    · exact h
  -- Among lines there are no texts.
  text _ htexts _ := nomatch htexts
  output _ h := isTextless_push h rfl
  single _ _ h := isTextless_push h rfl
  lines _ _ h := isTextless_push h rfl
  comment h := isTextless_push h rfl
  raw _ h := isTextless_push h rfl
  close _ _ _ h := isTextless_push h rfl

/-- The bodies of lines are sound and have no texts. -/
theorem Body.sound_parseLines (levels : Nat) :
    LinesReader.Gives (Body.parseLines levels) fun body => body.IsSound ∧ body.IsTextless :=
  Body.Grows.parseLines ((sound_grows false).and textless_grows) levels

/-! ## Steps that write nothing -/

/-- The step writes nothing, whatever comes of it. -/
def Render.WritesNothing {α : Type} (x : Render α) : Prop :=
  ∀ s : RenderState, (x s).2.progress.output = s.progress.output

namespace Render.WritesNothing

variable {α β : Type}

/-- Giving a value writes nothing. -/
theorem pure (a : α) : WritesNothing (Pure.pure a) :=
  fun _ => rfl

/-- A step that has nothing to do with what is written. -/
theorem quiet {x : Render α} {Q : α → Prop} (h : Quiet Eq (fun _ => True) (fun _ => True) x Q) :
    WritesNothing x :=
  fun s => (h s (.trivial s.frame)).output

/-- Nor do two steps that write nothing. -/
theorem bind {x : Render α} {f : α → Render β} (hx : WritesNothing x)
    (hf : ∀ a, WritesNothing (f a)) : WritesNothing (x >>= f) := by
  intro s
  have hfirst := hx s
  -- A step that fails has written nothing either.
  cases h : x s with
  | mk r t =>
    rw [h] at hfirst
    cases r with
    | error e =>
      rw [Attempt.bind_of_error h]
      exact hfirst
    | ok a =>
      rw [Attempt.bind_of_ok h]
      exact (hf a t).trans hfirst

/-- Nor does a charge. -/
theorem charge (cost : Budget → Except Error Unit × Budget) : WritesNothing (Render.charge cost) :=
  fun _ => rfl

/-- What is captured goes elsewhere. -/
theorem captured (x : Render Unit) : WritesNothing (Render.captured x) :=
  output_captured x

/-- A scope writes what its inside does. -/
theorem inScope {x : Render α} (h : WritesNothing x) : WritesNothing (Render.inScope x) := by
  intro s
  rw [inScope_eq]
  split
  · rfl
  · exact h s.entered

/-- So does a loop around a step. -/
theorem inLoop (loop : Value) {x : Render α} (h : WritesNothing x) :
    WritesNothing (Render.inLoop loop x) :=
  fun s => h (s.withLoops (loop :: s.frame.loops))

/-- An assignment writes nothing. -/
theorem assign (name : String) (value : Value) : WritesNothing (Render.assign name value) :=
  .bind (.charge _) fun _ => .quiet (quiet_store name trivial)

/-- Where nothing may be seen, an error is not shown either. -/
theorem rescuing (settings : Settings) (line : Option Nat) {x : Render Unit} (h : WritesNothing x) :
    WritesNothing (Render.rescuing settings line true x) := by
  intro s
  have hx := h s
  cases hr : x s with
  | mk r t =>
    rw [hr] at hx
    cases r with
    | ok a =>
      rw [rescuing_of_ok hr]
      exact hx
    | error e =>
      rw [rescuing_of_error hr]
      -- The text of an error is not written for a blank node.
      cases hp : settings.propagates e with
      | true =>
        rw [rescue_of_propagates hp]
        exact hx
      | false =>
        rw [rescue_of_not_propagates hp, Bool.or_true, if_pos rfl]
        exact hx

/-- Numbered steps, by induction on how many remain. -/
theorem steps {step : Nat → Render Bool} (h : ∀ index, WritesNothing (step index))
    (length remaining : Nat) : WritesNothing (Render.steps step length remaining) := by
  induction remaining with
  | zero => exact fun _ => rfl
  | succ remaining ih =>
    rw [steps_succ]
    refine .bind (h _) fun more => ?_
    cases more with
    | true => exact ih
    | false => exact .pure ()

/-- A loop writes what its body does. -/
theorem loop (settings : Settings) (name : String) (header : LoopHeader) (slice : Slice)
    {body : Render Unit} (h : WritesNothing body) :
    WritesNothing (Render.loop name header slice body) := by
  intro s
  refine inScope (steps (fun index => ?_) _ _) s
  refine .bind (.quiet (quiet_beginTurn (.trivial settings) name header (fun _ => trivial) trivial
    index)) fun loop => ?_
  exact .bind (.inLoop loop h) fun _ => .bind (.quiet quiet_takeInterrupt) fun _ => .pure _

end Render.WritesNothing

/-! ## Rendering blank tags -/

/-- A body of which nothing is seen. -/
structure Body.IsHidden (body : Body) : Prop where
  blank : body.isBlank = true
  textless : body.IsTextless
  faithful : body.IsFaithful
  tags : ∀ tag ∈ body.tags, tag.IsFaithful

/-- Nothing is seen of the bodies that a blank tag writes. -/
theorem Tag.IsSound.hidden {tag : Tag} (h : tag.IsSound) (hblank : tag.isBlank = true) :
    ∀ body ∈ tag.written, body.IsHidden := by
  intro body hbody
  have hmem : body ∈ tag.bodies := by
    cases tag <;> first | exact hbody | exact nomatch hbody
  obtain ⟨hb, htextless⟩ := h.faithful.blank hblank body hbody
  refine ⟨hb, htextless, h.faithful.bodies body hmem, fun inner hi => h.inner inner ?_⟩
  rw [Tag.inner_eq]
  exact List.mem_flatMap.mpr ⟨body, hmem, hi⟩

section

variable {settings : Settings} {partials : PartialRenderer}

mutual

/-- To render a body of which nothing is seen writes nothing. -/
theorem Body.writesNothing_render : ∀ body : Body, body.IsHidden →
    WritesNothing (Body.render settings partials body)
  | .mk nodes blank, h => by
    rw [Body.render]
    have hblank : blank = true := h.blank
    have hall : nodes.all Node.isBlank = true := hblank ▸ h.faithful.symm
    exact .bind (.charge _) fun _ => Node.writesNothing_renderAll nodes
      (fun node hn => ⟨List.all_eq_true.mp hall node hn, h.textless node hn⟩) h.tags

/-- Nodes that are blank and no texts write nothing. -/
theorem Node.writesNothing_renderAll : ∀ nodes : List Node,
    (∀ node ∈ nodes, node.isBlank = true ∧ node.isText = false) →
    (∀ tag ∈ Node.tagsAll nodes, tag.IsFaithful) →
    WritesNothing (Node.renderAll settings partials nodes)
  | [], _, _ => .pure ()
  | node :: nodes, hnodes, htags => by
    obtain ⟨⟨hblank, htext⟩, hnodes⟩ := List.forall_mem_cons.mp hnodes
    obtain ⟨hnode, htags⟩ := List.forall_mem_append.mp htags
    rw [Node.renderAll_cons]
    -- The first node writes nothing, and then the others, unless it ends the body.
    refine .bind (Node.writesNothing_render node hblank htext hnode) fun more => ?_
    split
    · exact Node.writesNothing_renderAll nodes hnodes htags
    · exact .pure ()

/-- A blank tag whose flag is right writes nothing. -/
theorem Node.writesNothing_render : ∀ node : Node, node.isBlank = true → node.isText = false →
    (∀ tag ∈ node.tags, tag.IsFaithful) → WritesNothing (Node.render settings partials node)
  | .text _, _, htext, _ => nomatch htext
  | .output _, hblank, _, _ => nomatch hblank
  | .tag tag, hblank, _, htags => by
    obtain ⟨htag, hinner⟩ := List.forall_mem_cons.mp htags
    have hnothing := Tag.writesNothing_render tag hblank ⟨htag, hinner⟩
    have hshown : tag.isBlank = true := hblank
    rw [Node.render, hshown]
    exact .bind (.rescuing settings tag.line hnothing) fun _ =>
      .bind (.quiet quiet_interrupted) fun _ => .pure _

/-- The first branch that holds has a hidden body. -/
theorem Branch.writesNothing_renderFirst (negated : Bool) : ∀ branches : List Branch,
    (∀ body ∈ branches.map Branch.body, body.IsHidden) →
    WritesNothing (Branch.renderFirst settings partials negated branches)
  | [], _ => .pure ()
  | .mk condition body :: branches, h => by
    obtain ⟨hbody, h⟩ := List.forall_mem_cons.mp h
    rw [Branch.renderFirst]
    refine .bind (.quiet (quiet_evaluateCondition (.trivial settings) condition)) fun holds => ?_
    split
    · exact Body.writesNothing_render body hbody
    · exact Branch.writesNothing_renderFirst false branches h

/-- So have all arms that match. -/
theorem Arm.writesNothing_renderAll (matched : Bool) : ∀ arms : List Arm,
    (∀ body ∈ arms.map Arm.body, body.IsHidden) →
    WritesNothing (Arm.renderAll settings partials matched arms)
  | [], _ => .pure ()
  | .when condition body :: arms, h => by
    obtain ⟨hbody, h⟩ := List.forall_mem_cons.mp h
    rw [Arm.renderAll]
    refine .bind (.quiet (quiet_evaluateCondition (.trivial settings) condition)) fun holds => ?_
    split
    · exact .bind (Body.writesNothing_render body hbody) fun _ =>
        Arm.writesNothing_renderAll true arms h
    · exact Arm.writesNothing_renderAll matched arms h
  | .otherwise body :: arms, h => by
    obtain ⟨hbody, h⟩ := List.forall_mem_cons.mp h
    rw [Arm.renderAll]
    split
    · exact Arm.writesNothing_renderAll matched arms h
    · exact .bind (Body.writesNothing_render body hbody) fun _ =>
        Arm.writesNothing_renderAll matched arms h

/-- A body that may be missing. -/
theorem Body.writesNothing_renderIfAny : ∀ body : Option Body, (∀ b ∈ body.toList, b.IsHidden) →
    WritesNothing (Body.renderIfAny settings partials body)
  | none, _ => .pure ()
  | some body, h => Body.writesNothing_render body (h body (List.mem_singleton_self _))

/-- To render a blank tag writes nothing. -/
theorem Tag.writesNothing_render : ∀ tag : Tag, tag.isBlank = true → tag.IsSound →
    WritesNothing (Tag.render settings partials tag)
  | .conditional _ negated branches _ _, hblank, htag =>
    Branch.writesNothing_renderFirst negated branches (htag.hidden hblank)
  | .choice arms _ _, hblank, htag =>
    Arm.writesNothing_renderAll false arms (htag.hidden hblank)
  | .loop name header body otherwise _ _, hblank, htag => by
    obtain ⟨hbody, hotherwise⟩ := List.forall_mem_cons.mp (htag.hidden hblank)
    rw [Tag.render]
    -- Evaluating the collection writes nothing, and neither do the bodies.
    refine .bind (.quiet (quiet_loopSlice (.trivial settings) name header)) fun slice => ?_
    split
    · exact Body.writesNothing_renderIfAny otherwise hotherwise
    · exact .loop settings name header slice (Body.writesNothing_render body hbody)
  | .assign target source _, _, _ =>
    .bind (.quiet (quiet_evaluatePipeline (.trivial settings) source)) fun v => .assign target v
  | .capture target body _, _, _ =>
    .bind (.captured _) fun text => .quiet (quiet_store target trivial)
  | .comment, _, _ => .pure ()
  | .inlineComment, _, _ => .pure ()
  | .raw text, hblank, _ => by
    -- A raw block is blank only without a text.
    have hempty : text = "" := String.isEmpty_iff.mp hblank
    subst hempty
    exact fun s => String.append_empty
  | .lines body _, hblank, htag =>
    Body.writesNothing_render body (htag.hidden hblank body (List.mem_singleton_self _))
  | .sections .., _, htag => nomatch htag.faithful.standard

end

end

/-! ## Documents -/

/-- The flag is set exactly when there are only blank texts and blank tags. -/
theorem Body.IsFaithful.isBlank_iff {body : Body} (h : body.IsFaithful) :
    body.isBlank = true ↔
      (∀ text, .text text ∈ body.nodes → Text.isBlankText text = true)
        ∧ (∀ p, .output p ∉ body.nodes)
        ∧ ∀ tag, .tag tag ∈ body.nodes → tag.isBlank = true := by
  rw [h, List.all_eq_true]
  constructor
  · intro hall
    have houtput (p : Pipeline) (hn : .output p ∈ body.nodes) : False :=
      Bool.false_ne_true (hall (.output p) hn)
    exact ⟨fun text hn => hall _ hn, houtput, fun tag hn => hall _ hn⟩
  · -- The flag is that of all nodes, of which there are three kinds.
    rintro ⟨htexts, houtputs, htags⟩ (text | p | tag) hn
    · exact htexts text hn
    · exact absurd hn (houtputs p)
    · exact htags tag hn

namespace Document

/-- Whatever state it is in, a render writes nothing for a blank tag of a document that was read
with the standard tags, neither for the tag nor for an error in it. The flag of each of its bodies
is set exactly when the body has only blank texts and blank tags. -/
theorem blank_of_parse {ctx : ParseContext} (hctx : ctx.registry.tags = TagKind.standard)
    {source : String} {s t : ParseState} {document : Document}
    (h : Document.parse ctx source s = (.ok document, t)) :
    (∀ tag ∈ document.tags, tag.isBlank = true →
      ∀ (settings : Settings) (partials : PartialRenderer) (r : RenderState),
        (Tag.render settings partials tag r).2.progress.output = r.progress.output
          ∧ (Node.render settings partials (.tag tag) r).2.progress.output = r.progress.output)
    ∧ ∀ body ∈ document :: document.tags.flatMap Tag.bodies,
        body.isBlank = true ↔
          (∀ text, .text text ∈ body.nodes → Text.isBlankText text = true)
            ∧ (∀ p, .output p ∉ body.nodes)
            ∧ ∀ tag, .tag tag ∈ body.nodes → tag.isBlank = true := by
  -- All that is read is sound, the bodies of the tags included.
  have hsound : Body.IsSound document :=
    (Body.sound_grows true).parse hctx Body.sound_parseLines rfl h
  constructor
  · intro tag htag hblank settings partials r
    have hs := hsound.tags tag htag
    refine ⟨Tag.writesNothing_render tag hblank hs r, ?_⟩
    exact Node.writesNothing_render (.tag tag) hblank rfl
      (List.forall_mem_cons.mpr ⟨hs.faithful, hs.inner⟩) r
  · intro body hbody
    rcases List.mem_cons.mp hbody with rfl | hbody
    · exact hsound.faithful.isBlank_iff
    · obtain ⟨tag, htag, hbody⟩ := List.mem_flatMap.mp hbody
      exact ((hsound.tags tag htag).faithful.bodies body hbody).isBlank_iff

/-- A branch with a blank text, which is removed, and a value that is assigned. -/
theorem blank_of_parse_branch :
    ∃ document t, Document.parse (.ofOptions .standard {})
        "\x7b% if x %\x7d \x7b%- assign y = 1 %\x7d \x7b% endif %\x7d" {} = (.ok document, t)
      ∧ document.tags.map Tag.isBlank = [true, true]
      ∧ (document.tags.flatMap Tag.bodies).map Body.isBlank = [true]
      ∧ (document.tags.flatMap Tag.bodies).map (·.nodes.length) = [1]
      ∧ ∀ tag ∈ document.tags, ∀ (settings : Settings) (partials : PartialRenderer)
          (r : RenderState),
        (Node.render settings partials (.tag tag) r).2.progress.output = r.progress.output := by
  -- Both tags are blank, and the body has lost its texts.
  have hread : ((Document.parse (.ofOptions .standard {})
        "\x7b% if x %\x7d \x7b%- assign y = 1 %\x7d \x7b% endif %\x7d" {}).1.toOption.map
      fun document => (document.tags.map Tag.isBlank,
        (document.tags.flatMap Tag.bodies).map Body.isBlank,
        (document.tags.flatMap Tag.bodies).map (·.nodes.length)))
      = some ([true, true], [true], [1]) := by decide +kernel
  obtain ⟨document, hparse, hmeasured⟩ := Attempt.ok_of_map_toOption hread
  obtain ⟨htags, hrest⟩ := Prod.mk.inj hmeasured
  obtain ⟨hflags, hlengths⟩ := Prod.mk.inj hrest
  refine ⟨document, _, hparse, htags, hflags, hlengths, fun tag htag settings partials r => ?_⟩
  have hblank : ∀ blank ∈ document.tags.map Tag.isBlank, blank = true := by
    rw [htags]
    decide
  exact ((blank_of_parse rfl hparse).1 tag htag (hblank _ (List.mem_map_of_mem htag)) settings
    partials r).2

end Document

end Stencil
