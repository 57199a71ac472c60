import Stencil.Proofs.KeptLines
import Stencil.Proofs.Placing

/-!
# The places of errors

The errors that a render of a template records are its faults, in order and each with its place: the
line of the node whose own step failed, and the name of the document that the node is part of. That
document is the template itself, or a partial that was read under its name, however deep partials
call each other.

A strict render fails with the first fault as well, but as it was raised: no node gives it a place
on its way out.

## Key definitions

- `Template.Uses`: the documents that a render can come to, by name
- `Template.Imports`: errors that have a place before they are recorded
- `Fault.IsPlaced`: where a fault is, and with what place it is recorded

## Key results

- `Template.errors_of_faults`: the recorded errors of a render
- `Template.renderStrict_of_fault`: the error of a strict render
-/

namespace Stencil

open Render

/-! ## Documents -/

section

variable {settings : Settings} {known : Known} (hk : known.Covers settings)
include hk

/-- A document records its faults with their places, and so do the partials that it calls. -/
theorem Document.tracked_renderWithin (levels : Nat) {owner : Option String} {document : Document}
    (hdocument : known.document owner document) :
    Tracked settings known owner none (faultsWithin settings levels owner document)
      (renderWithin settings levels document) (renderWithin settings.strict levels document) := by
  -- On the last level no partial can be called any more.
  induction levels generalizing owner document with
  | zero =>
    have hdeep : OwnStep known (Attempt.fail .tooDeep : Render Unit) fun _ => True :=
      .fail hk.tooDeep
    exact Body.tracked_render ⟨hk, fun hlocation _ => .own hdeep hlocation⟩ hdocument fun _ h => h
  | succ levels ih =>
    exact Body.tracked_render ⟨hk, fun _ hknown => (ih hknown).of_none⟩ hdocument fun _ h => h

/-- A whole document, from the state that it is rendered in. -/
theorem Document.tracked_render {owner : Option String} {document : Document}
    (hdocument : known.document owner document) :
    Tracked settings known owner none (document.faults settings owner) (document.render settings)
      (document.render settings.strict) :=
  fun s hs => tracked_renderWithin hk s.progress.budget.scopesLeft hdocument s hs

/-- Unless the budget is exhausted, the error that the render of a document fails with is that of
its last fault. -/
theorem Document.exists_last_fault {owner : Option String} {document : Document}
    (hdocument : known.document owner document) {s : RenderState} (hs : s.IsUnder known owner)
    {e : Error} (he : (document.render settings s).1 = .error e) (hmemory : e.kind ≠ .memory) :
    ∃ dealt f, document.faults settings owner s = dealt ++ [f] ∧ f.error = e
      ∧ f.IsKnown known := by
  have htracked := Document.tracked_render hk hdocument s hs
  obtain ⟨dealt, -, -, hleaves⟩ := htracked.recorded
  rw [he] at hleaves
  generalize hlog : document.faults settings owner s = log at hleaves htracked
  -- The render ended with its last fault, as the budget would have raised an error of memory.
  cases hleaves with
  | exhausted hkind => exact absurd hkind hmemory
  | @fault f _ =>
    have hf : f ∈ dealt ++ [f] := List.mem_append_right _ (List.mem_singleton_self f)
    exact ⟨dealt, f, rfl, rfl, htracked.faults f hf⟩

end

/-- If no node is to blame, the faults that were dealt with are those that do not end the render. -/
theorem Leaves.filter_eq {settings : Settings} {dealt log : List Fault} {e? : Option Error}
    (h : Leaves settings none dealt log e?)
    (hdealt : ∀ f ∈ dealt, settings.propagates f.error = false) :
    log.filter (fun f => !settings.propagates f.error) = dealt := by
  have hself : dealt.filter (fun f => !settings.propagates f.error) = dealt :=
    List.filter_eq_self.mpr fun f hf => by rw [hdealt f hf]; rfl
  -- The only fault that was not dealt with is the last one.
  cases h with
  | nothing => exact hself
  | exhausted _ => exact hself
  | @fault f hcaller =>
    cases hp : settings.propagates f.error with
    | false => exact nomatch hcaller hp
    | true =>
      rw [List.filter_append, hself, List.filter_cons, hp]
      exact List.append_nil _

/-! ## Where faults are -/

/-- The error says why a partial that was found cannot be read. -/
def Settings.Misreads (settings : Settings) (e : Error) : Prop :=
  ∃ name source, settings.registry.files name = .ok source
    ∧ settings.readPartial name = .error e

/-- Something that the host supplies raises the error: its data, the code of its objects, its files
or its filters. -/
def Template.HostRaises (t : Template) (values : Object) (e : Error) : Prop :=
  ¬(t.HostAvoids (· == e) values ∧ ∀ entry ∈ t.registry.filters, Filter.Avoids (· == e) entry.2)

/-- The error has a place already when a node fails with it: it says where a partial cannot be read,
or the host gives it a place. -/
structure Template.Imports (t : Template) (values : Object) (options : RenderOptions) (e : Error) :
    Prop where
  placed : e.isPlaced = true
  origin : (t.settings options).Misreads e ∨ t.HostRaises values e

theorem Error.place_of_not_isPlaced {e : Error} (h : e.isPlaced = false) :
    e.line = none ∧ e.template = none := by
  unfold Error.isPlaced at h
  obtain ⟨hline, htemplate⟩ := Bool.or_eq_false_iff.mp h
  exact ⟨Option.isSome_eq_false_iff.mp hline |> Option.isNone_iff_eq_none.mp,
    Option.isSome_eq_false_iff.mp htemplate |> Option.isNone_iff_eq_none.mp⟩

/-- What an error says of its place stays when it is recorded, and the node and its document say the
rest. -/
theorem Fault.place_recorded (f : Fault) :
    f.recorded.line = f.error.line.or f.location.node.line
      ∧ f.recorded.template = f.error.template.or f.location.owner := by
  unfold Fault.recorded
  rw [Error.line_inTemplate, Error.line_atLine, Error.template_inTemplate, Error.template_atLine]
  exact ⟨rfl, rfl⟩

/-- An error without a place is recorded with that of its node. -/
theorem Fault.place_of_not_isPlaced {f : Fault} (h : f.error.isPlaced = false) :
    f.recorded.line = f.location.node.line ∧ f.recorded.template = f.location.owner := by
  obtain ⟨hline, htemplate⟩ := Error.place_of_not_isPlaced h
  obtain ⟨hrecorded, hrecorded'⟩ := f.place_recorded
  rw [hline] at hrecorded
  rw [htemplate] at hrecorded'
  exact ⟨hrecorded, hrecorded'⟩

namespace Template

/-- The documents that a render of the template can come to, by the names that they go by: its own,
and partials that the host supplies as read or that are read. -/
def Uses (t : Template) (options : RenderOptions) (owner : Option String) (document : Document) :
    Prop :=
  (owner = t.parsing.name ∧ t.document = some document)
    ∨ ∃ name, owner = some name
        ∧ (options.registers.partials.get? name = some document
          ∨ (t.settings options).readPartial name = .ok document)

end Template

/-- Where a fault of a render is, and with what place it is recorded. -/
structure Fault.IsPlaced (t : Template) (values : Object) (options : RenderOptions) (f : Fault) :
    Prop where
  /-- The node is part of a document that the render comes to, known by its name. -/
  location : f.location.IsKnown (t.Uses options)
  /-- All documents have names. -/
  owner : f.location.owner.isSome = true
  /-- Nodes have lines, but for tags of the host, and in partials that the host supplies as read. -/
  line : f.location.node.line.isSome = true
    ∨ (∃ tag, f.location.node = .tag tag ∧ tag.isStandard = false)
    ∨ ∃ name, options.registers.partials.get? name = some f.location.document
  /-- What the error itself says of its place stays. -/
  kept : f.recorded.line = f.error.line.or f.location.node.line
    ∧ f.recorded.template = f.error.template.or f.location.owner
  /-- Otherwise the error is recorded with the line of the node and the name of its document. -/
  recorded : t.Imports values options f.error
    ∨ f.recorded.line = f.location.node.line ∧ f.recorded.template = f.location.owner

namespace Template

variable {t : Template} {values : Object} {options : RenderOptions}

/-- A render makes no difference to what was read, and how. -/
theorem source_run (t : Template) (values : Object) (options : RenderOptions) (rethrow : Bool) :
    let t' := (t.run values options rethrow).2
    t'.document = t.document ∧ t'.registry = t.registry ∧ t'.parsing = t.parsing := by
  cases h : t.document with
  | none =>
    rw [run_of_none h]
    exact ⟨h, rfl, rfl⟩
  | some document =>
    rw [run_of_some h rfl]
    exact ⟨h, rfl, rfl⟩

theorem source_render (t : Template) (values : Object) (options : RenderOptions) :
    let t' := (t.render values options).2
    t'.document = t.document ∧ t'.registry = t.registry ∧ t'.parsing = t.parsing := by
  have hrun := source_run t values options false
  rcases h : t.run values options false with ⟨e | text, t'⟩
  · rw [h] at hrun
    rw [render_of_run_error h]
    split <;> exact hrun
  · rw [h] at hrun
    rw [render_of_run_ok h]
    exact hrun

/-- The document of a template was read with the registry and the options of the template. -/
theorem Reachable.document_read (ht : t.Reachable) {document : Document}
    (hd : t.document = some document) :
    ∃ source s, Document.parse (.ofOptions t.registry t.parsing) source {} = (.ok document, s) := by
  -- By induction on the history: only a reading that went well changes the document.
  induction ht with
  | new registry => exact nomatch hd
  | @parse t source options _ ih =>
    unfold Template.parse at hd ⊢
    rcases hread : Document.parse (.ofOptions t.registry options) source {} with ⟨e | d, s⟩
    · rw [hread] at hd
      exact ih hd
    · rw [hread] at hd
      cases hd
      exact ⟨source, s, hread⟩
  | preset _ _ ih => exact ih hd
  | limit _ _ ih => exact ih hd
  | @render t values options _ ih =>
    obtain ⟨hdocument, hregistry, hparsing⟩ := source_render t values options
    rw [hregistry, hparsing]
    exact ih (hdocument ▸ hd)
  | @renderStrict t values options _ ih =>
    obtain ⟨hdocument, hregistry, hparsing⟩ := source_run t values options true
    unfold Template.renderStrict at hd ⊢
    rw [hregistry, hparsing]
    exact ih (hdocument ▸ hd)

/-- What is known of a render of the template, if evaluation gives values that satisfy `V` and fails
with errors that satisfy `E`. -/
abbrev knows (t : Template) (options : RenderOptions) (V : Value → Prop) (E : Error → Prop) :
    Known :=
  ⟨t.Uses options, V, E⟩

/-- A render of the template comes across nothing else. -/
theorem covers_knows {V : Value → Prop} {E : Error → Prop} (hg : Grounds (t.settings options) V E)
    (hbudget : E .overBudget) : (t.knows options V E).Covers (t.settings options) :=
  { hg with
    overBudget := hbudget
    read := fun {name _} h => .inr ⟨name, rfl, .inr h⟩ }

/-- It starts in the document of the template. -/
theorem isUnder_start {V : Value → Prop} {E : Error → Prop}
    (hframe : (t.startFrame values).Admits V) :
    (t.start values options).IsUnder (t.knows options V E) t.parsing.name :=
  ⟨rfl, fun {name _} h => .inr ⟨name, rfl, .inl h⟩, hframe⟩

/-- What a render of a template comes to, with its faults. -/
theorem trackedAt_render {V : Value → Prop} {E : Error → Prop}
    (hg : Grounds (t.settings options) V E) (hbudget : E .overBudget)
    (hframe : (t.startFrame values).Admits V) {document : Document}
    (hd : t.document = some document) :
    TrackedAt (t.settings options) (t.knows options V E) t.parsing.name none #[]
      (t.faults values options) (document.render (t.settings options) (t.start values options))
      (document.render (t.settings options).strict (t.start values options)) := by
  -- A template starts with nothing recorded and no caller.
  have htracked := Document.tracked_render (covers_knows hg hbudget) (.inl ⟨rfl, hd⟩)
    (t.start values options) (isUnder_start hframe)
  unfold Template.faults
  rw [hd]
  exact htracked

/-- The same if nothing is assumed of values and errors. -/
private theorem trackedAt_render_any {document : Document} (hd : t.document = some document)
    (values : Object) (options : RenderOptions) :
    TrackedAt (t.settings options) (t.knows options (fun _ => True) fun _ => True) t.parsing.name
      none #[] (t.faults values options)
      (document.render (t.settings options) (t.start values options))
      (document.render (t.settings options).strict (t.start values options)) :=
  trackedAt_render (.trivial _) trivial (.trivial _) hd

/-- In the documents that are read for a render nodes keep their lines. -/
private theorem keepsLines_of_uses (ht : t.Reachable) (hlines : t.parsing.lines = true)
    {owner : Option String} {document : Document} (h : t.Uses options owner document) :
    document.KeepsLines
      ∨ ∃ name, options.registers.partials.get? name = some document := by
  -- The document is that of the template, was handed over by the host, or is read from a file.
  rcases h with ⟨-, hd⟩ | ⟨name, -, hgiven | hread⟩
  · obtain ⟨source, s, hparse⟩ := ht.document_read hd
    exact .inl (Document.keepsLines_of_parse hlines hparse)
  · exact .inr ⟨name, hgiven⟩
  · unfold Settings.readPartial at hread
    cases hfile : (t.settings options).registry.files name with
    | error e =>
      rw [hfile] at hread
      exact nomatch hread
    | ok source =>
      rw [hfile] at hread
      exact .inl (Document.keepsLines_of_parse hlines (Prod.ext hread rfl))

private theorem isKnown_of_mem_faults {V : Value → Prop} {E : Error → Prop}
    (hg : Grounds (t.settings options) V E) (hbudget : E .overBudget)
    (hframe : (t.startFrame values).Admits V) {f : Fault} (hf : f ∈ t.faults values options) :
    f.IsKnown (t.knows options V E) := by
  cases hd : t.document with
  | none =>
    unfold Template.faults at hf
    rw [hd] at hf
    exact nomatch hf
  | some document => exact (trackedAt_render hg hbudget hframe hd).faults f hf

/-- If nothing that the host supplies raises a bad error, no node fails with one, but for errors in
partials that cannot be read. -/
theorem avoids_of_mem_faults {bad : Error → Bool} (hbad : HostOnly bad)
    (h : t.HostAvoids bad values)
    (hfilters : ∀ entry ∈ t.registry.filters, Filter.Avoids bad entry.2) {f : Fault}
    (hf : f ∈ t.faults values options) :
    f.error.Avoids bad ∨ (t.settings options).Misreads f.error := by
  -- A partial fails to be read because of its file, or because of what is in it.
  have hread (name : String) : Meets (fun _ => True)
      (fun e : Error => e.Avoids bad ∨ (t.settings options).Misreads e)
      ((t.settings options).readPartial name) := by
    cases hpartial : (t.settings options).readPartial name with
    | ok document => trivial
    | error e =>
      cases hfile : (t.settings options).registry.files name with
      | ok source => exact .inr ⟨name, source, hfile, hpartial⟩
      | error e' =>
        unfold Settings.readPartial at hpartial
        rw [hfile] at hpartial
        obtain rfl : e' = e := Except.error.inj hpartial
        exact .inl (Error.avoids_of_eq_false (h.files name e' hfile))
  have hg := Grounds.avoids hbad (fun _ h => .inl h) h.answers hfilters hread
  exact (isKnown_of_mem_faults hg (.inl Error.avoids_overBudget) h.admits_frame hf).error

/-- A fault whose error has a place already imports it. -/
private theorem imports_of_isPlaced {f : Fault} (hf : f ∈ t.faults values options)
    (hplaced : f.error.isPlaced = true) : t.Imports values options f.error := by
  refine ⟨hplaced, or_iff_not_imp_right.mpr fun hraises => ?_⟩
  obtain ⟨havoids, hfilters⟩ := not_not.mp hraises
  -- The engine raises no error that has a place, so this one comes from a partial.
  have hbad : HostOnly (· == f.error) := by
    rintro e - - - hline htemplate
    refine beq_eq_false_iff_ne.mpr ?_
    rintro rfl
    exact nomatch (Error.not_isPlaced hline htemplate).symm.trans hplaced
  refine (avoids_of_mem_faults hbad havoids hfilters hf).resolve_left fun h => ?_
  rw [h (beq_self_eq_true _)] at hplaced
  exact nomatch hplaced

/-- All faults of a template that was read with lines and a name are placed. -/
private theorem isPlaced_of_mem_faults (ht : t.Reachable) (hlines : t.parsing.lines = true)
    (hname : t.parsing.name.isSome = true) {f : Fault} (hf : f ∈ t.faults values options) :
    f.IsPlaced t values options :=
  have h := isKnown_of_mem_faults (.trivial _) trivial (.trivial _) hf
  { location := h.location
    owner := by
      rcases h.location.document with ⟨howner, -⟩ | ⟨name, howner, -⟩
      · exact howner ▸ hname
      · exact howner ▸ rfl
    line := by
      rcases keepsLines_of_uses ht hlines h.location.document with hkept | hgiven
      · -- A node keeps its line, has no step of its own, or is a tag of the host.
        rcases hkept _ h.location.node with hline | hidle | hhost
        · exact .inl hline
        · exact nomatch hidle.symm.trans h.location.active
        · exact .inr (.inl hhost)
      · exact .inr (.inr hgiven)
    kept := f.place_recorded
    recorded := by
      -- A place that came with the error was attached by a host or by the reading of a partial.
      cases hplaced : f.error.isPlaced with
      | true => exact .inl (imports_of_isPlaced hf hplaced)
      | false => exact .inr (Fault.place_of_not_isPlaced hplaced) }

/-- The errors that the run of a template records are the faults that do not end it. -/
private theorem errors_run (ht : t.Reachable) (values : Object) (options : RenderOptions) :
    (t.run values options false).2.errors.toList
      = ((t.faults values options).filter fun f => !(t.settings options).propagates f.error).map
          Fault.recorded := by
  -- Without a document there is neither a fault nor an error.
  cases hd : t.document with
  | none =>
    unfold Template.faults
    rw [run_of_none hd, ht.errors_of_none hd, hd]
    rfl
  | some document =>
    obtain ⟨-, -, ⟨dealt, herrors, hdealt, hleaves⟩, -⟩ := trackedAt_render_any hd values options
    rw [run_of_some hd rfl, hleaves.filter_eq hdealt]
    exact herrors

/-- What a render records besides what its run does. -/
private theorem errors_render (t : Template) (values : Object) (options : RenderOptions) :
    ∃ exhausted : List Error, exhausted.length ≤ 1 ∧ (∀ e ∈ exhausted, e.kind = .memory)
      ∧ (t.render values options).2.errors.toList
        = (t.run values options false).2.errors.toList ++ exhausted := by
  rcases h : t.run values options false with ⟨e | text, t'⟩
  · rw [render_of_run_error h]
    -- An error of the budget is recorded behind all others.
    by_cases hkind : e.kind = .memory
    · refine ⟨[e], Nat.le_refl 1, List.forall_mem_singleton.mpr hkind, ?_⟩
      rw [if_pos hkind]
      exact Array.toList_push
    · refine ⟨[], Nat.zero_le 1, List.forall_mem_nil _, ?_⟩
      rw [if_neg hkind]
      exact (List.append_nil _).symm
  · refine ⟨[], Nat.zero_le 1, List.forall_mem_nil _, ?_⟩
    rw [render_of_run_ok h]
    exact (List.append_nil _).symm

/-- The errors that a render records are its faults, in order and with their places, but for those
that end it; an exhausted budget is the last of them. A fault has the place of the node whose own
step failed, in the document that the node is part of, unless the error said where it was raised.
Only what is wrong inside a partial that cannot be read does, and errors that the host places
itself. -/
theorem errors_of_faults (ht : t.Reachable) (hlines : t.parsing.lines = true)
    (hname : t.parsing.name.isSome = true) (values : Object) (options : RenderOptions) :
    (∃ exhausted : List Error, exhausted.length ≤ 1 ∧ (∀ e ∈ exhausted, e.kind = .memory)
      ∧ (t.render values options).2.errors.toList
        = ((t.faults values options).filter fun f => !(t.settings options).propagates f.error).map
            Fault.recorded ++ exhausted)
      ∧ (∀ f ∈ t.faults values options, f.IsPlaced t values options)
      ∧ (t.HostAvoids Error.isPlaced values →
        (∀ entry ∈ t.registry.filters, Filter.Avoids Error.isPlaced entry.2) →
        ∀ f ∈ t.faults values options, (t.settings options).Misreads f.error
          ∨ f.recorded.line = f.location.node.line ∧ f.recorded.template = f.location.owner) := by
  refine ⟨?_, fun f hf => isPlaced_of_mem_faults ht hlines hname hf, fun h hfilters f hf => ?_⟩
  · rw [← errors_run ht values options]
    exact errors_render t values options
  · -- An error that has no place yet is recorded at that of its fault.
    refine (avoids_of_mem_faults hostOnly_isPlaced h hfilters hf).symm.imp_right fun havoids => ?_
    refine Fault.place_of_not_isPlaced (Bool.eq_false_iff.mpr fun hplaced => ?_)
    rw [havoids hplaced] at hplaced
    exact nomatch hplaced

/-- An error in a partial has the line and the name of the partial, and that a partial is missing is
an error of the tag behind it that calls it. -/
theorem errors_of_faults_called :
    let files : FileSystem := .ofFiles [("p", "\n\n\x7b\x7b 2 | divided_by: 0 \x7d\x7d")]
    let t : Template := (Template.parse { registry := { Registry.standard with files } }
      "\x7b% include 'p' %\x7d\n\x7b% include 'q' %\x7d" { lines := true, name := some "page" }).2
    t.Reachable ∧ t.parsing.lines = true ∧ t.parsing.name.isSome = true
      ∧ t.HostAvoids Error.isPlaced []
      ∧ (∀ entry ∈ t.registry.filters, Filter.Avoids Error.isPlaced entry.2)
      ∧ (t.render []).2.errors.toList = (t.faults [] {}).map Fault.recorded
      ∧ (t.faults [] {}).map (fun f => (f.location.node.line, f.location.owner))
        = [(some 3, some "p"), (some 2, some "page")]
      ∧ ((t.render []).2.errors.toList.map fun e => (e.kind, e.line, e.template))
        = [(.zeroDivision, some 3, some "p"), (.fileSystem, some 2, some "page")]
      ∧ (∀ f ∈ t.faults [] {}, f.IsPlaced t [] {})
      ∧ ∀ f ∈ t.faults [] {}, (t.settings {}).Misreads f.error
        ∨ f.recorded.line = f.location.node.line ∧ f.recorded.template = f.location.owner := by
  intro files t
  have ht : t.Reachable := .parse _ _ (.new { Registry.standard with files })
  have hlines : t.parsing.lines = true := by decide +kernel
  have hname : t.parsing.name.isSome = true := by decide +kernel
  have hregistry : t.registry = { Registry.standard with files } := registry_parse ..
  have hhost : t.HostAvoids Error.isPlaced [] :=
    { values := rfl
      presets := by decide +kernel
      assigned := by decide +kernel
      answers := hregistry ▸ Answers.none_avoid
      files := fun name e he => by
        rw [hregistry] at he
        exact FileSystem.ofFiles_avoid hostOnly_isPlaced he }
  have hfilters : ∀ entry ∈ t.registry.filters, Filter.Avoids Error.isPlaced entry.2 :=
    hregistry ▸ Filter.standard_avoids hostOnly_isPlaced rfl
  obtain ⟨⟨exhausted, -, -, herrors⟩, hplaced, hstandard⟩ := errors_of_faults ht hlines hname [] {}
  have hplaces : (t.render []).2.errors.toList.map (fun e => (e.kind, e.line, e.template))
      = [(.zeroDivision, some 3, some "p"), (.fileSystem, some 2, some "page")] := by
    decide +kernel
  -- Neither fault ends the render, and nothing was exhausted.
  have hfilter : ((t.faults [] {}).filter fun f => !(t.settings {}).propagates f.error)
      = t.faults [] {} := List.filter_eq_self.mpr (by decide +kernel)
  have hsize : (t.faults [] {}).length = 2 := by decide +kernel
  have hexhausted : exhausted = [] := by
    have hlength := congrArg List.length hplaces
    rw [List.length_map, herrors, hfilter, List.length_append, List.length_map, hsize] at hlength
    exact List.length_eq_zero_iff.mp (Nat.add_left_cancel hlength)
  refine ⟨ht, hlines, hname, hhost, hfilters, ?_, by decide +kernel, hplaces, hplaced,
    hstandard hhost hfilters⟩
  rw [herrors, hfilter, hexhausted, List.append_nil]

/-- A filter of the host that raises an error with a line of its own is recorded with that, and a
tag of the host that keeps no line with none. Both nodes are on the first line. -/
theorem not_errors_of_faults :
    let late : Filter := ⟨0, 0, fun _ _ _ => .error ⟨.standard, "late", some 99, none⟩⟩
    let registry := (Registry.standard.addFilter "late" late).addTag "note" .counter
    let t : Template := (Template.parse { registry } "\x7b\x7b 1 | late \x7d\x7d\x7b% note n %\x7d"
      { lines := true, name := some "page" }).2
    let options : RenderOptions := { registers := { values := [("n", .str "many")] } }
    t.parsing.lines = true ∧ t.parsing.name = some "page"
      ∧ ((t.render [] options).2.errors.toList.map fun e => (e.kind, e.line, e.template))
        = [(.standard, some 99, some "page"), (.argument, none, some "page")] := by
  decide +kernel

/-- A strict render that neither exhausts the budget nor fails in the host fails with the error of
the first fault. -/
private theorem fault_of_renderStrict {e : Error}
    (he : (t.renderStrict values options).1 = .error e) (hmemory : e.kind ≠ .memory) :
    ∃ f later, t.faults values options = f :: later ∧ e = f.error := by
  unfold Template.renderStrict at he
  cases hd : t.document with
  | none =>
    rw [run_of_none hd] at he
    exact nomatch he
  | some document =>
    obtain ⟨-, -, ⟨dealt, -, -, hleaves⟩, hstrict⟩ := trackedAt_render_any hd values options
    have hfails : (document.render (t.settings options).strict (t.start values options)).1
        = .error e := by
      rcases h : document.render (t.settings options).strict (t.start values options)
        with ⟨e' | _, s⟩
      · have hrun : t.run values options true = _ := run_of_some hd h
        rw [hrun] at he
        exact congrArg Except.error (Except.error.inj he)
      · have hrun : t.run values options true = _ := run_of_some hd h
        rw [hrun] at he
        exact nomatch he
    cases hlog : t.faults values options with
    | nil =>
      -- The strict render is the other one, which has not failed either.
      rw [hlog] at hstrict hleaves
      rw [hstrict] at hfails
      rw [hfails] at hleaves
      generalize hnil : [] = log at hleaves
      cases hleaves with
      | exhausted hkind => exact absurd hkind hmemory
      | fault _ => exact nomatch (List.append_eq_nil_iff.mp hnil.symm).2
    | cons f later =>
      rw [hlog] at hstrict
      exact ⟨f, later, rfl, Except.error.inj (hfails.symm.trans hstrict)⟩

/-- What a strict render fails with, unless the budget is exhausted, the host failed or the render
crashes, is the error of the first fault, as it was raised. So it carries the place that the fault
is recorded with exactly if it carried one when it was raised. -/
theorem renderStrict_of_fault (ht : t.Reachable) (hlines : t.parsing.lines = true)
    (hname : t.parsing.name.isSome = true) (values : Object) (options : RenderOptions) {e : Error}
    (he : (t.renderStrict values options).1 = .error e) (hmemory : e.kind ≠ .memory)
    (hforeign : e.kind ≠ .foreign) (hcrash : e.kind ≠ .crash) :
    ∃ f later, t.faults values options = f :: later ∧ f.IsPlaced t values options ∧ e = f.error
      ∧ (t.render values options).2.errors[0]? = some f.recorded
      ∧ (t.Imports values options e ∨ e.line = none ∧ e.template = none)
      ∧ (e.line = f.recorded.line ∧ e.template = f.recorded.template
          ↔ (e.line.isSome = true ∨ f.location.node.line = none) ∧ e.template.isSome = true) := by
  obtain ⟨f, later, hlog, rfl⟩ := fault_of_renderStrict he hmemory
  have hmem : f ∈ t.faults values options := hlog ▸ List.mem_cons_self
  have hplaced := isPlaced_of_mem_faults ht hlines hname hmem
  -- The lenient render deals with the fault, so it is the first on record.
  have hrecovers : (t.settings options).propagates f.error = false :=
    Bool.eq_false_iff.mpr fun hp => by
      rcases (Settings.propagates_iff rfl).mp hp with hk | hk | hk
      · exact hmemory hk
      · exact hforeign hk
      · exact hcrash hk
  refine ⟨f, later, hlog, hplaced, rfl, ?_, ?_, ?_⟩
  · obtain ⟨exhausted, -, -, herrors⟩ := errors_render t values options
    rw [← Array.getElem?_toList, herrors, errors_run ht, hlog, List.filter_cons, hrecovers]
    rfl
  · cases hp : f.error.isPlaced with
    | true => exact .inl (imports_of_isPlaced hmem hp)
    | false => exact .inr (Error.place_of_not_isPlaced hp)
  · -- The record has the place of the error, and where that has none the place of the fault.
    obtain ⟨name, howner⟩ := Option.isSome_iff_exists.mp hplaced.owner
    unfold Fault.recorded
    rw [Error.line_inTemplate, Error.line_atLine, Error.template_inTemplate, Error.template_atLine,
      howner]
    refine and_congr ?_ ?_
    · cases f.error.line <;> simp [eq_comm]
    · cases f.error.template <;> simp

/-- The division by zero on the second line of a page is recorded there. -/
theorem renderStrict_of_fault_divided :
    let t : Template := (Template.parse {} "\n\x7b\x7b 1 | divided_by: 0 \x7d\x7d"
      { lines := true, name := some "page" }).2
    t.Reachable ∧ t.parsing.lines = true ∧ t.parsing.name.isSome = true
      ∧ ∃ e, (t.renderStrict []).1 = .error e ∧ e.kind = .zeroDivision
        ∧ ∃ f : Fault, f.IsPlaced t [] {} ∧ e = f.error
          ∧ (t.render []).2.errors[0]? = some f.recorded := by
  intro t
  have ht : t.Reachable := .parse _ _ (.new .standard)
  have hlines : t.parsing.lines = true := by decide +kernel
  have hname : t.parsing.name.isSome = true := by decide +kernel
  have hkind : (failure (t.renderStrict []).1).map Error.kind = some .zeroDivision := by
    decide +kernel
  -- The strict render fails with the division by zero.
  cases he : (t.renderStrict []).1 with
  | ok text =>
    rw [he] at hkind
    exact nomatch hkind
  | error e =>
    rw [he] at hkind
    have hkind : e.kind = .zeroDivision := Option.some.inj hkind
    obtain ⟨f, -, -, hplaced, hsame, hfirst, -⟩ :=
      renderStrict_of_fault ht hlines hname [] {} he (by rw [hkind]; decide) (by rw [hkind]; decide)
        (by rw [hkind]; decide)
    exact ⟨ht, hlines, hname, e, rfl, hkind, f, hplaced, hsame, hfirst⟩

/-- A strict render loses that place: its error has neither a line nor the name of the page. -/
theorem renderStrict_unplaced :
    let t : Template := (Template.parse {} "\n\x7b\x7b 1 | divided_by: 0 \x7d\x7d"
      { lines := true, name := some "page" }).2
    (failure (t.renderStrict []).1).map (fun e => (e.kind, e.line, e.template))
        = some (.zeroDivision, none, none)
      ∧ (t.render []).2.errors[0]?.map (fun e => (e.kind, e.line, e.template))
        = some (.zeroDivision, some 2, some "page") := by
  decide +kernel

end Template

end Stencil
