import RouteScaffold.Proofs.Files.Cleared
import RouteScaffold.Proofs.Run.Rejection

/-!
# Reading again

What a run reads it reads again when nothing has changed but below the directory of the project.

* `Disk.Within.find_eq`: a path that was followed to its end leads there again, if that is not below the place;
* `Plan.make_again`: so the preparation of a run gives the same plan, if what it reads lies outside of the project.
-/

namespace RouteScaffold

open Disk FilingFor

/-! ## 1. Paths -/

namespace Disk.Within

variable {base : Place} {d d' : Disk} (h : Within base d d')

include h

theorem entry?_eq {x : Place} (hx : ¬ Below base x) : d'.entry? x = d.entry? x :=
  by_contra fun hne => hx (h.changed x hne)

/-- **A path that leads out leads to the same end.** -/
theorem find_eq {path : String} {e : Ending} (hf : d.find path = .ok e) (hx : ¬ Below base (target d.here path)) :
    d'.find path = d.find path := by
  have hfind := find_of_keeps h.keeps h.here hf
  have hleads := leads_find hf
  have hentry := h.entry?_eq hx
  have hfound : e.found.on d' = e.found := by
    cases hfound : e.found with
    | directory place => rfl
    | file place content =>
        rw [hfound] at hleads
        obtain ⟨rfl, -, hfile⟩ := hleads
        exact foundAt_file (hentry.trans hfile)
    | absent place =>
        rw [hfound] at hleads
        obtain ⟨rfl, -, hnone, -⟩ := hleads
        exact foundAt_none (hentry.trans hnone)
  rw [hfind, hf, hfound]

/-- A text that was read is read again. -/
theorem gives_readText {path text : String} {limit : Nat} (hr : (Filing.readText path limit).gives d = .ok text)
    (hx : ¬ Below base (target d.here path)) : (Filing.readText path limit).gives d' = .ok text := by
  obtain ⟨hreadable, htext⟩ := Filing.gives_readText_iff.mp hr
  obtain ⟨content, hread, -⟩ := bind_eq_ok.mp htext
  obtain ⟨e, hf, -⟩ := bind_eq_ok.mp hread
  have hfind := h.find_eq hf hx
  have hsize : d'.size path = d.size path := by rw [size, size, hfind]
  have hsame : d'.readText path = d.readText path := by rw [readText, readText, read, read, hfind, permit_congr h.stand]
  refine Filing.gives_readText_iff.mpr ⟨fun hu => hreadable ?_, hsame.trans htext⟩
  cases hu with
  | noSize hs => exact .noSize (hsize.symm.trans hs)
  | tooLarge hs hl => exact .tooLarge (hsize.symm.trans hs) hl
  | noText hn => exact .noText (hsame.symm.trans hn)

end Disk.Within

/-- What succeeds step by step succeeds where every step does. -/
theorem foldlM_mono {ε α β : Type} {f g : β → α → Except ε β} (h : ∀ b x b', f b x = .ok b' → g b x = .ok b')
    {xs : List α} {b b' : β} (hf : xs.foldlM f b = .ok b') : xs.foldlM g b = .ok b' := by
  induction xs generalizing b with
  | nil => exact hf
  | cons x rest ih =>
      rw [List.foldlM_cons] at hf ⊢
      obtain ⟨after, hx, hrest⟩ := bind_eq_ok.mp hf
      exact bind_eq_ok.mpr ⟨after, h b x after hx, ih hrest⟩

/-! ## 2. The input of a run -/

/-- What a run reads lies outside of the project. -/
structure Request.ReadsOutside (r : Request) (config : Config) (here : Place) : Prop where
  routes : ¬ target here r.directory <+: target here r.routesPath
  templates : ∀ directory, config.templates = some directory →
    ¬ target here r.directory <+: target here (Path.join r.around directory)

namespace Request

variable {r : Request} {config : Config} {d d' : Disk} (h : Within (target d.here r.directory) d d')
  (ho : r.ReadsOutside config d.here)

include h

theorem checkTarget_again (hc : gives r.checkTarget d = .ok ()) (hs : r.skipCreation = true) :
    gives r.checkTarget d' = .ok () := by
  obtain ⟨-, size, hsize⟩ := (checkTarget_ok hc).resolve_right fun hno => by
    rw [hs] at hno
    cases hno.1
  obtain ⟨e, hfind, -⟩ := bind_eq_ok.mp hsize
  have hsame : d'.size r.directory = d.size r.directory := by
    rw [Disk.size, Disk.size, h.find_eq hfind fun hb => hb.2 rfl]
  rw [gives_checkTarget, Filing.isThere, Filing.gives_ask] at hc ⊢
  rw [hsame]
  exact hc

include ho

theorem loadSpec_again {defaults : Defaults} {spec : Spec} (hl : gives (r.loadSpec defaults) d = .ok spec) :
    gives (r.loadSpec defaults) d' = .ok spec := by
  rw [gives_loadSpec] at hl ⊢
  have hload := ok_of_mapError hl
  rw [Spec.gives_load] at hload ⊢
  obtain ⟨text, htext, hspec⟩ := bind_eq_ok.mp hload
  rw [h.gives_readText (ok_of_mapError htext) fun hb => ho.routes hb.1]
  exact congrArg _ hspec

/-- **The templates of the user are loaded again as they were.** -/
theorem load_again {engine : TemplateEngine} (hd : d.Sound) (hd' : d'.Sound) {directory : String}
    (ht : config.templates = some directory) {overrides : Overrides}
    (hl : gives (Override.load engine (Path.join r.around directory)) d = .ok overrides) :
    gives (Override.load engine (Path.join r.around directory)) d' = .ok overrides := by
  -- Right in the directory of the templates nothing has changed.
  have hout : ∀ name, ¬ Below (target d.here r.directory) (target d.here (Path.join r.around directory) ++ [name]) := by
    intro name hb
    rcases List.prefix_concat_iff.mp hb.1 with he | hprefix
    · exact hb.2 he.symm
    · exact ho.templates directory ht hprefix
  rw [Override.gives_load] at hl ⊢
  obtain ⟨names, hnames, hfold⟩ := bind_eq_ok.mp hl
  obtain ⟨entries, hlist, -⟩ := Filing.fileNames_ok (ok_of_mapError hnames)
  have hlistable := (Filing.list_eq_ok_iff.mp hlist).1
  obtain ⟨names₁, hrun₁, -, hmem₁⟩ := Filing.run_fileNames hd hlistable
  obtain ⟨names₂, hrun₂, -, hmem₂⟩ := Filing.run_fileNames hd' (hlistable.keeps h.keeps h.stand)
  have hfirst : names₁ = names := by
    rw [gives, hrun₁] at hnames
    exact Except.ok.inj hnames
  have hmem : ∀ name, name ∈ names₂ ↔ name ∈ names := by
    intro name
    rw [hmem₂, ← hfirst, hmem₁, h.here, h.entry?_eq (hout name)]
  rw [gives, hrun₂]
  refine foldlM_mono (fun before slot after hone => ?_) hfold
  by_cases hm : slot.file ∈ names
  · obtain ⟨text, htext, hcompile, rfl⟩ := (Override.gives_loadOne_iff hm).mp hone
    refine (Override.gives_loadOne_iff ((hmem _).mpr hm)).mpr ⟨text, h.gives_readText htext ?_, hcompile, rfl⟩
    have hplain : Path.Plain slot.file ∧ Path.segments slot.file = [slot.file] := by
      cases slot <;> decide
    rw [target_plain hplain.1, hplain.2]
    exact hout slot.file
  · have hnot : ∀ {names : List String}, slot.file ∉ names → ¬ names.contains slot.file = true := fun hn hc =>
      hn (List.contains_iff_mem.mp hc)
    rw [Override.loadOne, if_neg (hnot hm)] at hone
    rw [Override.loadOne, if_neg (hnot fun hm' => hm ((hmem _).mp hm'))]
    exact hone

theorem loadRenderer_again {engine : TemplateEngine} (hd : d.Sound) (hd' : d'.Sound) {renderer : Renderer}
    (hl : gives (r.loadRenderer engine config.templates) d = .ok renderer) :
    gives (r.loadRenderer engine config.templates) d' = .ok renderer := by
  cases ht : config.templates with
  | none =>
      rw [ht] at hl
      exact hl
  | some directory =>
      rw [ht, gives_loadRenderer] at hl
      rw [gives_loadRenderer]
      cases hload : gives (Override.load engine (Path.join r.around directory)) d with
      | error e =>
          rw [hload] at hl
          cases hl
      | ok overrides =>
          rw [hload] at hl
          rw [load_again h ho hd hd' ht hload]
          exact hl

end Request

/-- **A run is prepared again as it was**, if nothing has changed but below the project and all that it reads lies
    outside. -/
theorem Plan.make_again {σ : Type} {engine : TemplateEngine} {r : Request} {config : Config} {p p₁ q : Progress σ}
    {plan : Plan} (h : (Plan.make engine config r).run p = (.ok plan, p₁)) (hs : r.skipCreation = true)
    (ho : r.ReadsOutside config p.workspace.disk.here) (hd : p.workspace.disk.Sound) (hd' : q.workspace.disk.Sound)
    (hw : Within (target p.workspace.disk.here r.directory) p.workspace.disk q.workspace.disk) :
    ∃ q₁, (Plan.make engine config r).run q = (.ok plan, q₁) ∧ q₁.workspace = q.workspace := by
  obtain ⟨result, p', hmake, -, hprepared⟩ := Plan.make_outcome engine config r p
  rw [h] at hmake
  cases hmake
  obtain ⟨result', q₁, hmake', hidle, hprepared'⟩ := Plan.make_outcome engine config r q
  cases hprepared with
  | @ok spec renderer ht hspec hrenderer =>
      have ht' := Request.checkTarget_again hw ht hs
      have hspec' := Request.loadSpec_again hw ho hspec
      have hrenderer' := Request.loadRenderer_again hw ho hd hd' hrenderer
      cases hprepared' with
      | ok _ hspec₂ hrenderer₂ =>
          cases hspec'.symm.trans hspec₂
          cases hrenderer'.symm.trans hrenderer₂
          exact ⟨q₁, hmake', hidle.workspace⟩
      | badTarget he => cases ht'.symm.trans he
      | badSpec he => cases hspec'.symm.trans he
      | badTemplates he => cases hrenderer'.symm.trans he

end RouteScaffold
