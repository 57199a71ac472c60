import Stencil.Proofs.Depth
import Stencil.Proofs.ErrorPlaces

/-!
# Renders that return

A render under a ceiling for the depth comes to its end, whichever partials call which, and at no
moment are more scopes open than the ceiling says. So it returns, unless it is broken off by a step
of a node that crashes.

Of the engine only filters crash: one that computes with numbers asks a drop that has none for it
again and again, and the one that sorts may break off in a long list whose items have no order.
Where neither they nor the host crash, all renders return.

## Key definitions

- `Settings.NeverCrashes`: nothing that a render asks for crashes

## Key results

- `Filter.mayCrash_of_standard`: the input on which a standard filter crashes
- `Document.render_ends`: a render under a ceiling ends, and keeps below it
-/

namespace Stencil

open Render

/-! ## What crashes -/

/-- Given nothing that crashes by itself, a standard filter crashes only with a drop that has no
number, or with many items to be sorted. -/
theorem Filter.mayCrash_of_standard {entry : String × Filter} (hentry : entry ∈ standard)
    {view : View} (hview : view.Avoids (ErrorKind.covers .crash)) {input : Value}
    (hinput : input.avoids (ErrorKind.covers .crash) = true) {args : Arguments}
    (hargs : args.Avoid (ErrorKind.covers .crash)) {e : Error}
    (h : entry.2.run view input args = .error e) (hkind : e.kind = .crash) :
    MayCrash view input args := by
  -- Without a chance to crash the filter keeps what avoids crashes, its error among it.
  by_contra hnot
  have hresult := standard_keeps (Hereditary.avoids hostOnly_crash) entry hentry view input args
    hview hinput ⟨hargs.positional, hargs.keywords⟩ fun hmay => absurd hmay hnot
  rw [h] at hresult
  have havoids : e.Avoids (ErrorKind.covers .crash) := hresult
  rw [havoids (beq_iff_eq.mpr hkind)] at hkind
  exact nomatch hkind

/-- Nothing that a render asks for crashes: neither the data that is seen in the frame, nor the code
of the host's objects, nor its files, nor any filter. -/
structure Settings.NeverCrashes (settings : Settings) (frame : Frame) : Prop where
  data : frame.Admits fun v => v.avoids (ErrorKind.covers .crash) = true
  answers : settings.registry.answers.Avoid (ErrorKind.covers .crash)
  files : ∀ name e, settings.registry.files name = .error e → e.kind ≠ .crash
  filters : ∀ entry ∈ settings.registry.filters, Filter.Avoids (ErrorKind.covers .crash) entry.2

namespace Document

variable {settings : Settings}

/-- Then a render comes across no error that is a crash. -/
private theorem covers_of_neverCrashes {frame : Frame} (h : settings.NeverCrashes frame) :
    (Known.mk (fun _ _ => True) (fun v => v.avoids (ErrorKind.covers .crash) = true)
      (Error.Avoids (ErrorKind.covers .crash))).Covers settings :=
  have hfiles (name : String) (e : Error) (he : settings.registry.files name = .error e) :
      ErrorKind.covers .crash e = false := beq_eq_false_iff_ne.mpr (h.files name e he)
  have hparse (options : ParseOptions) (source : String) :
      FailsAvoiding (ErrorKind.covers .crash)
        (Document.parse (.ofOptions settings.registry options) source {}).1 :=
    (parse_syntaxOnly _ source {}).mono (fun _ _ => trivial)
      fun _ => Error.avoids_of_isSyntax (.inr (.inr rfl))
  { Grounds.avoids hostOnly_crash (fun _ he => he) h.answers h.filters
      (readPartial_avoids hfiles hparse) with
    overBudget := Error.avoids_overBudget
    read := fun _ => trivial }

/-- If nothing that it asks for crashes, a render does not. -/
private theorem kind_ne_crash {s : RenderState} (h : settings.NeverCrashes s.frame)
    (document : Document) {e : Error} (he : (document.render settings s).1 = .error e) :
    e.kind ≠ .crash := by
  intro hkind
  obtain ⟨dealt, f, -, rfl, hknown⟩ := exists_last_fault (covers_of_neverCrashes h) trivial
    ⟨rfl, fun _ => trivial, h.data⟩ he (by rw [hkind]; decide)
  rw [hknown.error (beq_iff_eq.mpr hkind)] at hkind
  exact nomatch hkind

/-- A crash is the error of the last fault. -/
private theorem fault_of_crash (document : Document) {s : RenderState} {e : Error}
    (he : (document.render settings s).1 = .error e) (hkind : e.kind = .crash) :
    ∃ dealt f, document.faults settings s.frame.template s = dealt ++ [f] ∧ f.error = e
      ∧ f.location.document.Within f.location.node ∧ f.location.node.isIdle = false := by
  -- Nothing is asked of the values here.
  let known : Known := ⟨fun _ _ => True, fun _ => True, fun _ => True⟩
  have hk : known.Covers settings :=
    { Grounds.trivial settings with
      overBudget := trivial
      read := fun _ => trivial }
  obtain ⟨dealt, f, hlog, heq, hknown⟩ := exists_last_fault hk trivial
    ⟨rfl, fun _ => trivial, .trivial _⟩ he (by rw [hkind]; decide)
  exact ⟨dealt, f, hlog, heq, hknown.location.node, hknown.location.active⟩

/-! ## Documents -/

/-- Under a ceiling for the depth every render ends. The renderer satisfies its recursion equation,
and unrolling that one call further than the ceiling allows scopes gives the same, whatever would
render the calls below. So a render does not return only if a step of a node crashes, and not at all
if nothing that it asks for does. At every moment until the end, the scopes that were opened in the
frame at hand and in those around it are those that are counted, and no more than the ceiling
allows. -/
theorem render_ends {s : RenderState} {ceiling : Nat}
    (hceiling : s.progress.budget.depthCeiling = some ceiling)
    (hdepth : s.progress.budget.depth = 0) (document : Document) :
    document.render settings s = Body.render settings (Document.render settings) document s
      ∧ (∀ bottom : PartialRenderer,
          unrolled settings bottom (ceiling + 1) document s = document.render settings s)
      ∧ (settings.NeverCrashes s.frame →
          ∀ e, (document.render settings s).1 = .error e → e.kind ≠ .crash)
      ∧ (∀ e, (document.render settings s).1 = .error e → e.kind = .crash →
          ∃ dealt f, document.faults settings s.frame.template s = dealt ++ [f] ∧ f.error = e
            ∧ f.location.document.Within f.location.node ∧ f.location.node.isIdle = false)
      ∧ (document.stations settings s).getLast? = some ⟨[], (document.render settings s).2⟩
      ∧ ∀ p ∈ document.stations settings s,
          p.openScopes = s.frame.scopes.inner.length + p.state.progress.budget.depth
            ∧ p.state.progress.budget.depth ≤ ceiling := by
  refine ⟨render_eq_body hceiling document, fun bottom => ?_,
    fun h _ => kind_ne_crash h document, fun _ => fault_of_crash document, ?_, fun p hp => ?_⟩
  · exact unrolled_eq_render bottom document ⟨ceiling, hceiling, by omega⟩
  · rw [render_eq_run]
    exact Script.getLast?_stations _ [] s
  · -- At first the depth is 0 and the scopes are those of the frame.
    have hstart : Station.Counted s.frame.scopes.inner.length (some ceiling) ⟨[], s⟩ := by
      refine ⟨?_, ?_, hceiling⟩
      · rw [Station.openScopes_mk]
        exact congrArg _ hdepth.symm
      · rw [hdepth]
        exact decide_eq_false (Nat.not_lt_zero ceiling)
    have hcounted := Script.counted_stations _ hstart p hp
    exact ⟨hcounted.scopes, Nat.le_of_not_lt (of_decide_eq_false hcounted.within)⟩

/-- A partial that renders itself, in a frame of its own each time. -/
theorem render_ends_recursive :
    let document : Document :=
      .mk [.text "a", .tag (.renderPartial "p" { template := .literal (.str "p") } none)] false
    let s : RenderState :=
      { progress :=
          { budget := { depthCeiling := some 2 }, registers := { partials := [("p", document)] } } }
    (document.render {} s).2.progress.output = "aaaLiquid error: Nesting too deep"
      ∧ (∀ e, (document.render {} s).1 = .error e → e.kind ≠ .crash)
      ∧ (∃ p ∈ document.stations {} s, p.around.length = 2 ∧ p.openScopes = 2)
      ∧ (∀ bottom, unrolled {} bottom 3 document s = document.render {} s)
      ∧ ∀ p ∈ document.stations {} s, p.openScopes = 0 + p.state.progress.budget.depth
          ∧ p.state.progress.budget.depth ≤ 2 := by
  intro document s
  have hnever : Settings.NeverCrashes {} s.frame :=
    { data := ⟨List.forall_mem_nil _, List.forall_mem_nil _, List.forall_mem_nil _,
        List.forall_mem_nil _⟩
      answers := Answers.none_avoid
      files := by
        rintro name e ⟨⟩
        decide
      filters := List.forall_mem_nil _ }
  obtain ⟨-, hunrolled, hreturns, -, -, hcounted⟩ := @render_ends {} s 2 rfl rfl document
  refine ⟨?_, hreturns hnever, ?_, hunrolled, hcounted⟩
  · decide +kernel
  · have hany : ((document.stations {} s).any fun p =>
        decide (p.around.length = 2 ∧ p.openScopes = 2)) = true := by decide +kernel
    obtain ⟨p, hp, hdeep⟩ := List.any_eq_true.mp hany
    exact ⟨p, hp, of_decide_eq_true hdeep⟩

/-- A loop that computes with the description of itself, which has no number, does not return, and
neither does a sort that is broken off. -/
theorem not_render_returns :
    let counted : Template :=
      (Template.parse {} ("\x7b% for i in (1..1) %\x7d\x7b\x7b forloop | plus: 1 \x7d\x7d"
        ++ "\x7b% endfor %\x7d")).2
    let sorted : Template := (Template.parse {} "\x7b\x7b xs | sort \x7d\x7d").2
    let xs : List Value := [.int 6, .int 5, .int 5, .int 5, .str "a"]
      ++ List.replicate 6 (.int 1) ++ List.replicate 11 (.int 3)
    counted.budget.depthCeiling = some 100 ∧ counted.budget.depth = 0
      -- `forloop` has no scalar form, so `plus` asks it for a number again and again.
      ∧ (failure (counted.render []).1).map Error.kind = some .crash
      ∧ (failure (sorted.render [("xs", .array xs)]).1).map Error.kind = some .crash := by
  decide +kernel

end Document

end Stencil
