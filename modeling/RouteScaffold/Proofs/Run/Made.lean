import RouteScaffold.Proofs.Run.Placement
import RouteScaffold.Proofs.Run.Reread
import RouteScaffold.Proofs.Run.Sources

/-!
# What a run has made

A run into a project that is there removes files from its sources, writes, and makes tracked directories.

* `Plan.WroteAll`: what the stages that write leave, one behind the other;
* `Plan.Made`: what a run that succeeds has made of a disk; `Plan.Made.within`: nothing but below the project;
* `Plan.Made.removable`, `Plan.Made.entry?_again`: what would be removed again is there and is written again.
-/

namespace RouteScaffold

open Disk

variable {plan : Plan}

namespace Plan

/-! ## 1. One stage behind the other -/

/-- The tasks of stages have been performed, one stage behind the other. -/
inductive WroteAll : List (List Task) → Disk → Disk → Prop where
  | nil (d : Disk) : WroteAll [] d d
  | cons {tasks : List Task} {rest : List (List Task)} {d d' d'' : Disk} (h : Wrote tasks d d')
      (more : WroteAll rest d' d'') : WroteAll (tasks :: rest) d d''

namespace WroteAll

variable {lists : List (List Task)} {d d' : Disk}

theorem grows (h : WroteAll lists d d') : d.Grows d' := by
  induction h with
  | nil d => exact .refl d
  | cons h _ ih => exact h.grows.trans ih

theorem sound (h : WroteAll lists d d') (hd : d.Sound) : d'.Sound := by
  induction h with
  | nil d => exact hd
  | cons h _ ih => exact ih (h.sound hd)

theorem done (h : WroteAll lists d d') : ∀ tasks ∈ lists, ∀ t ∈ tasks, t.Done d' := by
  induction h with
  | nil d => exact List.forall_mem_nil _
  | cons h more ih => exact List.forall_mem_cons.mpr ⟨fun t ht => (h.done t ht).grows more.grows, ih⟩

theorem others (h : WroteAll lists d d') {x : Place} (hx : ∀ tasks ∈ lists, ∀ t ∈ tasks, t.leaves d.here x = none) :
    d'.entry? x = d.entry? x := by
  induction h with
  | nil d => rfl
  | cons h _ ih =>
      obtain ⟨performed, hperm, hleft⟩ := h.left
      rw [List.forall_mem_cons] at hx
      rw [ih (by rw [hleft.here]; exact hx.2), hleft.others x fun t ht => hx.1 t (hperm.mem_iff.mp ht)]

/-- Where a task leaves something there is something. -/
theorem isSome (h : WroteAll lists d d') {x : Place} {tasks : List Task} (hm : tasks ∈ lists) {t : Task}
    (ht : t ∈ tasks) (hx : t.leaves d.here x ≠ none) : ∃ e, d'.entry? x = some e := by
  induction h with
  | nil d => cases hm
  | cons h more ih =>
      obtain ⟨performed, hperm, hleft⟩ := h.left
      rcases List.mem_cons.mp hm with rfl | hm
      · obtain ⟨e, he⟩ := Option.ne_none_iff_exists'.mp hx
        obtain ⟨_, -, e', -, hentry, -⟩ := hleft.left x t (hperm.mem_iff.mpr ht) e he
        obtain ⟨e'', hentry', -⟩ := more.grows.kind x e' hentry
        exact ⟨e'', hentry'⟩
      · exact ih hm (by rw [hleft.here]; exact hx)

/-- A file that has not been there is left by a task. -/
theorem file (h : WroteAll lists d d') {x : Place} {content : ByteArray} (hx : d'.entry? x = some (.file content))
    (hd : ∀ content, d.entry? x ≠ some (.file content)) :
    ∃ tasks ∈ lists, ∃ t ∈ tasks, ∃ content, t.leaves d.here x = some (.file content) := by
  induction h with
  | nil d => exact absurd hx (hd content)
  | @cons tasks rest d d₁ d' h _ ih =>
      obtain ⟨performed, hperm, hleft⟩ := h.left
      by_cases hfile : ∃ content, d₁.entry? x = some (.file content)
      · obtain ⟨content₁, hfile⟩ := hfile
        obtain ⟨t, ht, e, he⟩ : ∃ t ∈ performed, ∃ e, t.leaves d.here x = some e := by
          by_contra hnone
          refine hd content₁ ((hleft.others x fun t ht => ?_).symm.trans hfile)
          by_contra hleaves
          obtain ⟨e, he⟩ := Option.ne_none_iff_exists'.mp hleaves
          exact hnone ⟨t, ht, e, he⟩
        obtain ⟨t', ht', e', he', hentry, -⟩ := hleft.left x t ht e he
        rw [hfile] at hentry
        cases hentry
        exact ⟨tasks, List.mem_cons_self, t', hperm.mem_iff.mp ht', content₁, he'⟩
      · obtain ⟨tasks', hm, t, ht, content', hleaves⟩ := ih hx fun c hc => hfile ⟨c, hc⟩
        rw [hleft.here] at hleaves
        exact ⟨tasks', List.mem_cons_of_mem _ hm, t, ht, content', hleaves⟩

/-- **What stages leave does not depend on what has been there**, but where they leave nothing. -/
theorem entry_eq {root : String} {e e' : Disk} (h : WroteAll lists d d') (h' : WroteAll lists e e')
    (hhere : e.here = d.here) (hp : ∀ tasks ∈ lists, Placement d.here root tasks) {x : Place}
    (hx : (∀ tasks ∈ lists, ∀ t ∈ tasks, t.leaves d.here x = none) → d.entry? x = e.entry? x) :
    d'.entry? x = e'.entry? x := by
  induction h generalizing e with
  | nil d =>
      cases h'
      exact hx (List.forall_mem_nil _)
  | @cons tasks rest d d₁ d' h _ ih =>
      cases h' with
      | cons g more =>
          obtain ⟨performed, hperm, hleft⟩ := h.left
          obtain ⟨performed', hperm', hleft'⟩ := g.left
          rw [List.forall_mem_cons] at hp hx
          refine ih more ?_ ?_ fun hrest => ?_
          · rw [hleft'.here, hleft.here, hhere]
          · rw [hleft.here]
            exact hp.2
          · rw [hleft.here] at hrest
            refine hleft.entry_eq hleft' hhere (hperm.trans hperm'.symm) (fun t ht t' ht' => ?_) fun hnone => ?_
            · exact hp.1.once t (hperm.mem_iff.mp ht) t' (hperm.mem_iff.mp ht')
            · exact hx ⟨fun t ht => hnone t (hperm.mem_iff.mpr ht), hrest⟩

/-- Stages change nothing but below the root, if it is there. -/
theorem within {root : String} (h : WroteAll lists d d') (hr : d.HasRoot root)
    (hp : ∀ tasks ∈ lists, Placement d.here root tasks) : Within (target d.here root) d d' := by
  induction h with
  | nil d => exact .refl _ d
  | cons h _ ih =>
      obtain ⟨performed, hperm, hleft⟩ := h.left
      rw [List.forall_mem_cons] at hp
      have hfirst := hleft.within hr fun t ht => hp.1.inside t (hperm.mem_iff.mp ht)
      have hrest := ih (hr.keeps hfirst.keeps hfirst.here) (by rw [hleft.here]; exact hp.2)
      rw [hleft.here] at hrest
      exact hfirst.trans hrest

end WroteAll

/-! ## 2. What a run has made -/

/-- The files of the application's root, seen from the project and from the sources. -/
theorem join_app (r : Request) : Path.join r.sources "App.js" = Path.join r.directory "src/App.js" := by
  have hrelative : Path.IsRelative "src" := Path.IsName.isRelative ⟨by decide, by decide⟩
  have hbase : Path.IsBase r.sources := by
    have hsrc : Path.isAbsolute "src" = false := by decide
    rcases Path.toList_join hsrc r.directory with ⟨-, hjoin⟩ | ⟨front, -, -, hjoin⟩
    · exact ⟨['s', 'r'], 'c', by rw [Request.sources, hjoin]; rfl, by decide⟩
    · exact ⟨front ++ ['/', 's', 'r'], 'c', by rw [Request.sources, hjoin, List.append_assoc]; rfl, by decide⟩
  have happ : "src/App.js" = "src" ++ "/App.js" := by decide
  rw [Path.join_name hbase ⟨by decide, by decide⟩, happ, Path.join_append hrelative, String.append_assoc]
  rfl

/-- What a run has made of a disk: it has removed files from the sources, performed the tasks of the stages that write,
    and made tracked directories below the sources. -/
structure Made (plan : Plan) (p : String → Bool) (lists : List (List Task)) (d e : Disk) : Prop where
  made : ∃ c w, Cleared (target d.here plan.request.sources) p d c ∧ WroteAll lists c w ∧
    Supplies (target d.here plan.request.sources) w e
  there : d.Listable plan.request.sources
  sound : e.Sound
  placed : ∀ tasks ∈ lists, Placement d.here plan.request.directory tasks
  /-- The root of the application is among what is written. -/
  app : ∃ tasks ∈ lists, ∃ text, .writeFile (Path.join plan.request.directory "src/App.js") text ∈ tasks
  tracked : ∀ directory ∈ plan.config.directories, e.IsTracked (Path.join plan.request.sources directory)

namespace Made

variable {p : String → Bool} {lists : List (List Task)} {d e : Disk} (h : plan.Made p lists d e)

include h

theorem stand : e.toStandpoint = d.toStandpoint := by
  obtain ⟨c, w, hcleared, hwrote, hsupplies⟩ := h.made
  rw [hsupplies.stand, hwrote.grows.stand, hcleared.stand]

theorem here : e.here = d.here := congrArg Standpoint.here h.stand

theorem done : ∀ tasks ∈ lists, ∀ t ∈ tasks, t.Done e := by
  obtain ⟨c, w, -, hwrote, hsupplies⟩ := h.made
  exact fun tasks hm t ht => (hwrote.done tasks hm t ht).grows hsupplies.grows

theorem keeps : KeepsDirectories d e := by
  obtain ⟨c, w, hcleared, hwrote, hsupplies⟩ := h.made
  exact fun x hx => hsupplies.grows.keeps x (hwrote.grows.keeps x (hcleared.keeps x hx))

/-- **Nothing has changed but below the project.** -/
theorem within (hd : d.Sound) : Within (target d.here plan.request.directory) d e := by
  obtain ⟨c, w, hcleared, hwrote, hsupplies⟩ := h.made
  have hsrc : target d.here plan.request.directory <+: target d.here plan.request.sources := by
    rw [Request.target_sources]
    exact List.prefix_append _ _
  have hroot := Request.hasRoot_directory hd h.there.directory
  have hfirst := hcleared.within.mono hsrc
  have hplaced := h.placed
  rw [← hcleared.here] at hplaced hsrc
  have hmiddle := hwrote.within (hroot.keeps hcleared.keeps hcleared.here) hplaced
  rw [hcleared.here] at hmiddle
  have hlast : Within (target d.here plan.request.sources) w e := by
    refine ⟨hsupplies.stand, hsupplies.grows.keeps, fun x hx => ?_⟩
    obtain ⟨-, hbelow, -⟩ := hsupplies.changed x hx
    exact hbelow
  rw [hcleared.here] at hsrc
  exact (hfirst.trans hmiddle).trans (hlast.mono hsrc)

/-- **Of the files that would be removed again only the root of the application is there**, which a task has written. -/
theorem top {name : String} {content : ByteArray} (hn : p name = true)
    (hfile : e.entry? (target d.here plan.request.sources ++ [name]) = some (.file content)) : name = "App.js" ∧
      ∃ tasks ∈ lists, ∃ text, .writeFile (Path.join plan.request.directory "src/App.js") text ∈ tasks := by
  obtain ⟨c, w, hcleared, hwrote, hsupplies⟩ := h.made
  have hplace : target d.here plan.request.sources ++ [name] =
    target d.here plan.request.directory ++ ["src", name] := by
    rw [Request.target_sources, List.append_assoc]
    rfl
  -- It has not been there when the stages began to write.
  have hstart : ∀ content, c.entry? (target d.here plan.request.sources ++ [name]) ≠ some (.file content) := by
    intro content' hc
    rcases hcleared.kept (target d.here plan.request.sources ++ [name]) with hsame | ⟨hnone, -⟩
    · rw [hcleared.gone name content' hn (by rw [← hsame, hc])] at hc
      cases hc
    · rw [hnone] at hc
      cases hc
  -- It is no file that keeps the sources, as these have not been empty.
  have hend : w.entry? (target d.here plan.request.sources ++ [name]) = some (.file content) := by
    by_contra hne
    obtain ⟨-, -, hmade | ⟨-, directory, hkeeper, hempty⟩⟩ :=
      hsupplies.changed _ fun hsame => hne (hsame.symm.trans hfile)
    · rw [hfile] at hmade
      cases hmade
    · obtain ⟨tasks, hm, text, ht⟩ := h.app
      obtain ⟨place, content', hfind, -⟩ := hwrote.done tasks hm _ ht
      obtain ⟨hplace', -, happ⟩ := leads_find hfind
      have happ' : place = target d.here plan.request.sources ++ ["App.js"] := by
        have hsegments : Path.segments "src/App.js" = ["src", "App.js"] := by decide
        have htarget : place = target w.here (Path.join plan.request.directory "src/App.js") := hplace'
        rw [htarget, hwrote.grows.here, hcleared.here, target_plain (by decide), hsegments, Request.target_sources,
          List.append_assoc]
        rfl
      obtain ⟨hdirectory, -⟩ := List.append_inj' hkeeper rfl
      have hnone := hempty "App.js"
      rw [← hdirectory, ← happ', happ] at hnone
      cases hnone
  obtain ⟨tasks, hm, t, ht, content', hleaves⟩ := hwrote.file hend hstart
  rw [hcleared.here, hplace] at hleaves
  obtain ⟨hname, text, rfl⟩ := (h.placed tasks hm).top t ht name content' hleaves
  exact ⟨hname, tasks, hm, text, ht⟩

/-- **The files that would be removed again can be removed.** -/
theorem removable : ∃ paths c, (Filing.removeWhere plan.request.sources p).run e = (.ok paths, c) := by
  refine Filing.removeWhere_of_found h.sound (h.there.keeps h.keeps h.stand) fun name content hn hfile => ?_
  rw [h.here] at hfile
  obtain ⟨rfl, tasks, hm, text, ht⟩ := h.top hn hfile
  rw [join_app]
  exact h.done tasks hm _ ht

/-- **What is written again is what has been there**: removed is only what is written. -/
theorem entry?_again {c w : Disk} (hc : Cleared (target e.here plan.request.sources) p e c) (hw : WroteAll lists c w)
    (x : Place) : w.entry? x = e.entry? x := by
  obtain ⟨c₁, w₁, hcleared, hwrote, hsupplies⟩ := h.made
  have hhere : c.here = c₁.here := by rw [hc.here, h.here, hcleared.here]
  have hplaced := h.placed
  rw [← hcleared.here] at hplaced
  by_cases htouched : ∀ tasks ∈ lists, ∀ t ∈ tasks, t.leaves c₁.here x = none
  · -- Where no task leaves anything nothing has been removed.
    rw [hw.others (by rw [hhere]; exact htouched)]
    rcases hc.kept x with hsame | ⟨-, name, content, hn, hx, hfile⟩
    · exact hsame
    · rw [hx, h.here] at hfile
      obtain ⟨rfl, tasks, hm, text, ht⟩ := h.top hn hfile
      have hleaves := htouched tasks hm _ ht
      have hsegments : Path.segments "src/App.js" = ["src", "App.js"] := by decide
      rw [Task.leaves, if_pos ?_] at hleaves
      · cases hleaves
      · rw [hx, h.here, hcleared.here, target_plain (by decide), hsegments, Request.target_sources, List.append_assoc]
        rfl
  · have hsame : w₁.entry? x = w.entry? x := hwrote.entry_eq hw hhere hplaced fun hnone => absurd hnone htouched
    simp only [not_forall] at htouched
    obtain ⟨tasks, hm, t, ht, hleaves⟩ := htouched
    obtain ⟨entry, hentry⟩ := hwrote.isSome hm ht hleaves
    rw [← hsame, hentry, hsupplies.kept hentry]

end Made

end Plan

end RouteScaffold
