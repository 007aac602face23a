import RouteScaffold.Proofs.Files.Told
import RouteScaffold.Proofs.Run.Placement
import RouteScaffold.Proofs.Run.Sources

/-!
# Runs that nothing stands in the way of

All that a run plans to write has a dot in its name, and no directory that it plans has one. So its stages that write
succeed wherever names tell files from directories below the project (`Plan.perform_told`), and with tools that change
nothing so does a whole run (`Plan.Unhindered.forM_goThrough`).
-/

namespace RouteScaffold

open Disk

variable {σ : Type}

/-! ## 1. Names of planned files -/

theorem Name.Fragment.not_dot {name : String} (h : Name.Fragment name) : '.' ∉ name.toList := by
  intro hm
  have hfollow := h.follow '.' hm
  revert hfollow
  unfold Name.Follow Name.Start
  decide

/-- Directories whose files are right in them house these, if the paths end in names. -/
theorem Groups.houses_of_inPlace {g : Groups} (h : g.InPlace)
    (hp : ∀ a ∈ g.files, Path.Proper a.path ∧ Path.steps a.path ≠ []) (here : Place) : g.Houses here := by
  induction g with
  | nil => trivial
  | group directory files nested rest ihn ih =>
      simp only [Groups.files, List.forall_mem_append] at hp
      refine ⟨fun a ha x hx => ?_, ihn h.2.1 hp.1.2, ih h.2.2 hp.2⟩
      obtain ⟨hproper, hne⟩ := hp.1.1 a ha
      obtain ⟨parent, hparent, -, -, hway⟩ := way_proper hproper hne
      obtain rfl := Option.some_inj.mp (hparent.symm.trans (h.1 a ha))
      rw [hway, List.mem_append] at hx
      exact hx.symm.imp_left List.mem_singleton.mp

namespace ProjectFiles

theorem filed_all {path : String} (h : path ∈ all.map Prod.fst) : Path.Filed path := by
  have hall : ∀ segments ∈ (all.map Prod.fst).map Path.segments, segments.dropLast ≠ [] ∧
      (∀ segment ∈ segments.dropLast, '.' ∉ segment.toList) ∧ '.' ∈ (segments.getLast?.getD "").toList := by
    rw [segments_all]
    decide +kernel
  obtain ⟨hne, hfront, hname⟩ := hall _ (List.mem_map_of_mem h)
  have hsegments : Path.segments path ≠ [] := fun he => by
    rw [he] at hne
    exact hne rfl
  rw [List.getLast?_eq_some_getLast hsegments] at hname
  exact ⟨plain_all h, _, _, (List.dropLast_append_getLast hsegments).symm, hne, hfront, hname⟩

theorem dotless_tasks {path : String} (h : .makeDirectory path ∈ groups.tasks) : Path.Dotless path := by
  obtain ⟨file, hf, hfile⟩ := mem_tasks_plan.mp h
  obtain ⟨parent, hparent, hdotless, -⟩ := (filed_all (List.mem_map_of_mem hf)).parent?
  rcases hfile with he | he
  · cases he
    rw [hparent]
    exact hdotless
  · cases he

theorem houses_plan (here : Place) (root : String) {files : List (String × String)}
    (h : ∀ file ∈ files, Path.Filed file.1) : ((plan files).under root).Houses here := by
  induction files with
  | nil => trivial
  | cons file rest ih =>
      obtain ⟨path, text⟩ := file
      rw [List.forall_mem_cons] at h
      obtain ⟨parent, hparent, hdotless, name, hname, hsteps⟩ := h.1.parent?
      have hway : ∀ x ∈ way here (Path.join root path), x = target here (Path.join root path) ∨
          x ∈ way here (Path.join root parent) := by
        intro x hx
        rw [way_join_name h.1.plain.isAbsolute hdotless.inner.relative hname hsteps, List.mem_append] at hx
        exact hx.symm.imp_left List.mem_singleton.mp
      have hrest := ih h.2
      rw [plan, hparent, Option.getD_some]
      cases hmore : plan rest with
      | nil => exact ⟨List.forall_mem_singleton.mpr hway, trivial, trivial⟩
      | group next files nested groups =>
          rw [hmore] at hrest
          dsimp only
          split
          · rename_i hnext
            rw [hnext] at hrest
            exact ⟨List.forall_mem_cons.mpr ⟨hway, hrest.1⟩, hrest.2⟩
          · exact ⟨List.forall_mem_singleton.mpr hway, trivial, hrest⟩

theorem ahead_groups (here : Place) (root : String) : DirectoriesAhead here (groups.under root).tasks := by
  have hfiled : ∀ file ∈ all, Path.Filed file.1 := fun _ hf => filed_all (List.mem_map_of_mem hf)
  -- What the files are does not matter from here on, and the plan is not to be computed.
  unfold groups
  generalize all = files at hfiled ⊢
  exact (houses_plan here root hfiled).ahead

end ProjectFiles

namespace Expansion

variable {spec : Spec} (ha : spec.Accepted)

include ha

theorem Placed.filed {path : String} (h : Placed spec path) : Path.Filed path := by
  refine ⟨h.plain ha, ?_⟩
  have hsrc : '.' ∉ "src".toList := by decide
  cases h with
  | @layout key _ he file hf hs =>
      have hkey := ha.keys key (List.mem_map_of_mem (f := Prod.fst) he)
      refine ⟨["src", "Layouts", Name.layout key], file, hs, List.cons_ne_nil _ _, ?_, ?_⟩
      · simp only [List.forall_mem_cons]
        exact ⟨hsrc, by decide, hkey.layout.not_dot, List.forall_mem_nil _⟩
      · rcases List.mem_pair.mp hf with rfl | rfl
        · rw [String.toList_append]
          exact List.mem_append_right _ (by decide)
        · rw [String.toList_append]
          exact List.mem_append_right _ (by decide)
  | @view key layout he view hv file hf hs =>
      have hkey := ha.keys key (List.mem_map_of_mem (f := Prod.fst) he)
      have hview := (ha.layouts _ he).viewKeys view hv
      refine ⟨["src", "Views", Name.capitalize key, Name.view view], file, hs, List.cons_ne_nil _ _, ?_, ?_⟩
      · simp only [List.forall_mem_cons]
        exact ⟨hsrc, by decide, hkey.capitalize.not_dot, hview.view.not_dot, List.forall_mem_nil _⟩
      · rw [List.mem_cons, List.mem_pair] at hf
        rcases hf with rfl | rfl | rfl
        · rw [String.toList_append]
          exact List.mem_append_right _ (by decide)
        · decide
        · rw [String.toList_append]
          exact List.mem_append_right _ (by decide)

section Tasks

variable {r : Renderer} {g : Groups} (hg : ofSpec r spec = .ok g)

include hg

theorem filed_files : ∀ a ∈ g.files, Path.Filed a.path := fun a hm => (placed_files ha hg a hm).filed ha

theorem dotless_tasks {path : String} (h : .makeDirectory path ∈ g.tasks) : Path.Dotless path := by
  have hplain := plain_directory ha hg h
  refine ⟨hplain.inner, ?_, ?_⟩
  · rw [hplain.steps, Path.segments]
    exact fun hnil => Path.pieces_ne_nil _ (List.map_eq_nil_iff.mp hnil)
  · rw [hplain.steps]
    exact fun segment hs => (fragments_of_directory ha hg h segment hs).not_dot

end Tasks

end Expansion

/-! ## 2. Stages that write -/

namespace Plan

variable {plan : Plan} {libs : Libraries σ} {runner : Runner σ}

theorem filed_routingModulePath : Path.Filed routingModulePath :=
  ⟨by rw [Path.Plain, segments_routingModulePath]; decide, ["src", "Data"], "routes.js", segments_routingModulePath,
    List.cons_ne_nil _ _, by decide, by decide⟩

/-- The tasks of writing the routing module make its directory ahead of it. -/
theorem told_routingTasks {source : String} {here : Place}
    (hp : Path.Proper (Path.join plan.request.directory routingModulePath)) :
    (∀ t ∈ plan.routingTasks source, t.Told here plan.request.directory) ∧
      DirectoriesAhead here (plan.routingTasks source) := by
  have hfiled := filed_routingModulePath
  have hrelative := hfiled.plain.isAbsolute
  obtain ⟨above, -, hdotless, name, hname, hsteps⟩ := hfiled.parent?
  have hjoined := Path.steps_join hrelative plan.request.directory
  obtain ⟨parent, hparent, hproper, habsolute, name', hlast⟩ := hp.parent? (by
    rw [hjoined, hsteps]
    exact List.append_ne_nil_of_right_ne_nil _ (List.append_ne_nil_of_right_ne_nil _ (List.cons_ne_nil _ _)))
  rw [hjoined, hsteps, ← List.append_assoc] at hlast
  obtain ⟨hsame, -⟩ := List.append_inj' hlast rfl
  -- The parent is spelled as in the path, and leads where the joined directory does.
  have hway : way here parent = way here (Path.join plan.request.directory above) := by
    have horigin : origin here parent = origin here plan.request.directory := by
      rw [origin, origin, habsolute, Path.isAbsolute_join hrelative]
    rw [way_join hdotless.inner.relative, way, ← hsame, horigin, entered_append]
    rfl
  have htasks : plan.routingTasks source =
      [.makeDirectory parent, .writeFile (Path.join plan.request.directory routingModulePath) source] := by
    rw [routingTasks, tasksWithParents, hparent]
    rfl
  rw [htasks]
  constructor
  · rw [List.forall_mem_cons, List.forall_mem_singleton]
    refine ⟨Task.told_of_way hproper ?_ fun x hx => ?_, Task.told_writeFile hp hfiled source⟩
    · rw [← hsame]
      exact List.append_ne_nil_of_right_ne_nil _ hdotless.leadsOn
    · rw [hway] at hx
      exact not_dotted_of_way hdotless hx
  · intro before path text after hsplit x hx
    obtain ⟨first, rfl⟩ : ∃ first, before = [first] := by
      cases before with
      | nil => cases hsplit
      | cons first more =>
          cases more with
          | nil => exact ⟨first, rfl⟩
          | cons second rest =>
              cases rest with
              | nil => cases hsplit
              | cons third rest => cases hsplit
    cases hsplit
    rw [way_join_name hrelative hdotless.inner.relative hname hsteps, ← hway, List.mem_append] at hx
    refine hx.symm.imp List.mem_singleton.mp fun hx => ⟨_, List.mem_cons_self, ?_⟩
    exact Task.leaves_makeDirectory.mpr ⟨hx, rfl⟩

section Stage

variable (ha : plan.spec.Accepted) {stage : Stage} {tasks : List Task} (h : plan.tasks? stage = some tasks)
  (hp : ∀ t ∈ tasks, Path.Proper t.path)

include ha h hp

/-- **What stages write has a dot in its name**, and its directories are made ahead of it. -/
theorem told_tasks (here : Place) :
    (∀ t ∈ tasks, t.Told here plan.request.directory) ∧ DirectoriesAhead here tasks := by
  rcases tasks?_cases h with ⟨-, htasks⟩ | ⟨-, g, hg, htasks⟩ | ⟨-, source, -, htasks⟩
  · rw [htasks] at hp ⊢
    have hfiles : ∀ a ∈ ProjectFiles.groups.files, Path.Filed a.path := by
      intro a hm
      refine ProjectFiles.filed_all ?_
      rw [← ProjectFiles.paths_plan ProjectFiles.all]
      exact List.mem_map_of_mem hm
    exact ⟨Groups.told_tasks hfiles (fun _ => ProjectFiles.dotless_tasks) hp, ProjectFiles.ahead_groups here _⟩
  · rw [htasks] at hp ⊢
    have htold : ∀ t ∈ (g.under plan.request.directory).tasks, t.Told here plan.request.directory :=
      Groups.told_tasks (Expansion.filed_files ha hg) (fun _ => Expansion.dotless_tasks ha hg) hp
    refine ⟨htold, (Groups.houses_of_inPlace (Expansion.inPlace_ofSpec _ ha hg) (fun a hm => ?_) here).ahead⟩
    have ht := htold _ (Groups.mem_tasks_of_files hm)
    exact ⟨ht.proper, ht.leadsOn⟩
  · rw [htasks] at hp ⊢
    exact told_routingTasks (hp (.writeFile _ source) (List.mem_append_right _ List.mem_cons_self))

/-- **A stage that writes succeeds where names tell files from directories**, if all that it writes is rendered. -/
theorem perform_told (runner : Runner σ) {p : Progress σ}
    (hd : p.workspace.disk.Told (target p.workspace.disk.here plan.request.directory))
    (hr : p.workspace.disk.HasRoot plan.request.directory) :
    ∃ p', (plan.perform libs runner stage).run p = (.ok (), p') ∧
      p'.workspace.disk.Told (target p'.workspace.disk.here plan.request.directory) ∧
      p'.workspace.disk.HasRoot plan.request.directory := by
  obtain ⟨htold, hahead⟩ := told_tasks ha h hp p.workspace.disk.here
  obtain ⟨d, hrun, hlast⟩ := forM_told hd hr htold hahead
  obtain ⟨p', hperform, rfl⟩ := run_perform_of_tasks runner h hrun
  exact ⟨p', hperform, hlast⟩

end Stage

end Plan

/-! ## 3. Short names -/

namespace Name

theorem Fragment.not_zero {name : String} (h : Fragment name) : Char.ofNat 0 ∉ name.toList := by
  intro hm
  have hfollow := h.follow _ hm
  revert hfollow
  unfold Follow Start
  decide

theorem Fragment.utf8ByteSize_capitalize {key : String} (h : Fragment key) :
    (Name.capitalize key).utf8ByteSize = key.utf8ByteSize := by
  obtain ⟨c, rest, hl, hc, -⟩ := h
  have hone : ∀ {c : Char}, Start c → (String.singleton c).utf8ByteSize = 1 := by
    intro c hc
    have hascii := hc.ascii
    rw [String.utf8ByteSize_singleton, Char.utf8Size, if_pos]
    exact UInt32.le_iff_toNat_le.mpr (Nat.le_of_lt_succ (UInt32.lt_iff_toNat_lt.mp hascii))
  have hcapital : Name.capitalize key = String.singleton c.toUpper ++ String.ofList rest := by
    rw [← String.toList_inj, toList_capitalize hl hc, String.toList_append, String.toList_singleton,
      String.toList_ofList]
    rfl
  have hkey : key = String.singleton c ++ String.ofList rest := by
    rw [← String.toList_inj, hl, String.toList_append, String.toList_singleton, String.toList_ofList]
    rfl
  rw [hcapital, hkey, String.utf8ByteSize_append, String.utf8ByteSize_append, hone hc, hone hc.toUpper]

end Name

namespace ProjectFiles

theorem proper_all {path : String} (h : path ∈ all.map Prod.fst) : Path.Proper path ∧ path.utf8ByteSize ≤ 1792 := by
  have hall : ∀ segments ∈ (all.map Prod.fst).map Path.segments,
      (∀ segment ∈ segments, Path.Short segment) ∧ segments.length ≤ 7 := by
    rw [segments_all]
    decide +kernel
  obtain ⟨hshort, hlength⟩ := hall _ (List.mem_map_of_mem h)
  exact (plain_all h).proper hshort hlength

end ProjectFiles

namespace Expansion

/-- A name that is made from a short key is short. -/
theorem short_name {key back : String} (hk : Name.Fragment key) (hs : key.utf8ByteSize ≤ 200)
    (hb : back.utf8ByteSize ≤ 55) (hz : Char.ofNat 0 ∉ back.toList) : Path.Short (Name.capitalize key ++ back) := by
  constructor
  · rw [String.utf8ByteSize_append, hk.utf8ByteSize_capitalize]
    omega
  · rw [String.toList_append, List.mem_append, not_or]
    exact ⟨hk.capitalize.not_zero, hz⟩

/-- So are the names that are made from none. -/
theorem short_fixed : ∀ name ∈ ["src", "Layouts", "Views", "index.jsx"], Path.Short name := by decide

end Expansion

namespace Plan

/-- The names of a plan are short enough for an operating system, and the path of the project is. -/
structure Short (plan : Plan) : Prop where
  zero : Char.ofNat 0 ∉ plan.request.directory.toList
  path : plan.request.directory.utf8ByteSize ≤ 2000
  names : ∀ step ∈ Path.steps plan.request.directory, step.utf8ByteSize ≤ 255 ∧ step ≠ ".."
  keys : ∀ entry ∈ plan.spec.layouts, entry.1.utf8ByteSize ≤ 200 ∧ ∀ key ∈ entry.2.views.keys, key.utf8ByteSize ≤ 200

variable {plan : Plan} (h : plan.Short)

include h

theorem Short.join {path : String} (hp : Path.Proper path) (hr : Path.isAbsolute path = false)
    (hne : Path.steps path ≠ [])
    (hs : path.utf8ByteSize ≤ 1792) : Path.Proper (Path.join plan.request.directory path) := by
  refine hp.join hr hne h.zero h.names ?_
  have hpath := h.path
  omega

theorem Short.plain {path : String} (hp : Path.Plain path) (hs : ∀ segment ∈ Path.segments path, Path.Short segment)
    (hl : (Path.segments path).length ≤ 7) : Path.Proper (Path.join plan.request.directory path) := by
  obtain ⟨hproper, hsize⟩ := hp.proper hs hl
  refine h.join hproper hp.isAbsolute ?_ hsize
  rw [hp.steps, Path.segments]
  exact fun hnil => Path.pieces_ne_nil _ (List.map_eq_nil_iff.mp hnil)

theorem Short.projectFiles : ∀ t ∈ (ProjectFiles.groups.under plan.request.directory).tasks, Path.Proper t.path := by
  intro t ht
  rw [Groups.tasks_under] at ht
  obtain ⟨task, hm, rfl⟩ := List.mem_map.mp ht
  obtain ⟨file, hf, hfile⟩ := ProjectFiles.mem_tasks_plan.mp hm
  have hfiled := ProjectFiles.filed_all (List.mem_map_of_mem hf)
  obtain ⟨hproper, hsize⟩ := ProjectFiles.proper_all (List.mem_map_of_mem hf)
  obtain ⟨parent, hparent, hdotless, name, -, hsteps⟩ := hfiled.parent?
  have hne : Path.steps file.1 ≠ [] := by
    rw [hsteps]
    exact List.append_ne_nil_of_right_ne_nil _ (List.cons_ne_nil _ _)
  rcases hfile with rfl | rfl
  · obtain ⟨parent', hparent', hproper', -⟩ := hproper.parent? hne
    cases Option.some_inj.mp (hparent.symm.trans hparent')
    show Path.Proper (Path.join plan.request.directory ((Path.parent? file.1).getD ""))
    rw [hparent]
    refine h.join hproper' hdotless.inner.relative hdotless.leadsOn ?_
    exact (Path.utf8ByteSize_mono (Path.toList_parent? hparent)).trans hsize
  · exact h.join hproper hfiled.plain.isAbsolute hne hsize

section Components

variable (ha : plan.spec.Accepted)

include ha

section Layout

variable {key : String} {layout : Layout} (he : (key, layout) ∈ plan.spec.layouts) {back : String}

include he

theorem Short.layoutName (hb : back.utf8ByteSize ≤ 55) (hz : Char.ofNat 0 ∉ back.toList) :
    Path.Short (Name.capitalize key ++ back) :=
  Expansion.short_name (ha.keys key (List.mem_map_of_mem (f := Prod.fst) he)) (h.keys _ he).1 hb hz

/-- The directory of views is named after their layout, without anything behind. -/
theorem Short.layoutDirectory : Path.Short (Name.capitalize key) := by
  have hshort : Path.Short (Name.capitalize key ++ "") := h.layoutName ha he (by decide) (by decide)
  rwa [String.append_empty] at hshort

theorem Short.viewName {view : String} (hv : view ∈ layout.views.keys) (hb : back.utf8ByteSize ≤ 55)
    (hz : Char.ofNat 0 ∉ back.toList) : Path.Short (Name.capitalize view ++ back) :=
  Expansion.short_name ((ha.layouts _ he).viewKeys view hv) ((h.keys _ he).2 view hv) hb hz

end Layout

theorem Short.directory {r : Renderer} {g : Groups} (hg : Expansion.ofSpec r plan.spec = .ok g) {path : String}
    (hm : .makeDirectory path ∈ g.tasks) : Path.Proper (Path.join plan.request.directory path) := by
  have hplain := Expansion.plain_directory ha hg hm
  obtain ⟨⟨key, layout⟩, he, hs | ⟨view, hv, hs⟩⟩ := Expansion.segments_of_directory ha hg hm
  · refine h.plain hplain ?_ (by simp [hs])
    rw [hs]
    simp only [List.forall_mem_cons]
    exact ⟨Expansion.short_fixed _ (by decide), Expansion.short_fixed _ (by decide),
      h.layoutName ha he (by decide) (by decide), List.forall_mem_nil _⟩
  · refine h.plain hplain ?_ (by simp [hs])
    rw [hs]
    simp only [List.forall_mem_cons]
    exact ⟨Expansion.short_fixed _ (by decide), Expansion.short_fixed _ (by decide), h.layoutDirectory ha he,
      h.viewName ha he hv (by decide) (by decide), List.forall_mem_nil _⟩

theorem Short.placed {path : String} (hp : Expansion.Placed plan.spec path) :
    Path.Proper (Path.join plan.request.directory path) := by
  have hplain := hp.plain ha
  cases hp with
  | @layout key layout he file hf hs =>
      refine h.plain hplain ?_ (by simp [hs])
      rw [hs]
      simp only [List.forall_mem_cons]
      refine ⟨Expansion.short_fixed _ (by decide), Expansion.short_fixed _ (by decide),
        h.layoutName ha he (by decide) (by decide), ?_, List.forall_mem_nil _⟩
      rcases List.mem_pair.mp hf with rfl | rfl
      · rw [Name.layout, String.append_assoc]
        exact h.layoutName ha he (by decide) (by decide)
      · rw [Name.layout, String.append_assoc]
        exact h.layoutName ha he (by decide) (by decide)
  | @view key layout he view hv file hf hs =>
      refine h.plain hplain ?_ (by simp [hs])
      rw [hs]
      simp only [List.forall_mem_cons]
      refine ⟨Expansion.short_fixed _ (by decide), Expansion.short_fixed _ (by decide), h.layoutDirectory ha he,
        h.viewName ha he hv (by decide) (by decide), ?_, List.forall_mem_nil _⟩
      rw [List.mem_cons, List.mem_pair] at hf
      rcases hf with rfl | rfl | rfl
      · rw [Name.view, String.append_assoc]
        exact h.viewName ha he hv (by decide) (by decide)
      · exact Expansion.short_fixed _ (by decide)
      · rw [Name.view, String.append_assoc]
        exact h.viewName ha he hv (by decide) (by decide)

theorem Short.components {r : Renderer} {g : Groups} (hg : Expansion.ofSpec r plan.spec = .ok g) :
    ∀ t ∈ (g.under plan.request.directory).tasks, Path.Proper t.path := by
  intro t ht
  rw [Groups.tasks_under] at ht
  obtain ⟨task, hm, rfl⟩ := List.mem_map.mp ht
  cases task with
  | makeDirectory path => exact h.directory ha hg hm
  | writeFile path text =>
      obtain ⟨a, hfile, rfl, -⟩ := Groups.mem_files_of_tasks hm
      exact h.placed ha (Expansion.placed_files ha hg a hfile)

end Components

theorem Short.routingModule {source : String} : ∀ t ∈ plan.routingTasks source, Path.Proper t.path := by
  have hproper : Path.Proper (Path.join plan.request.directory routingModulePath) := by
    refine h.plain filed_routingModulePath.plain ?_ ?_
    · rw [segments_routingModulePath]
      decide
    · rw [segments_routingModulePath]
      decide
  intro t ht
  rcases List.mem_append.mp ht with ht | ht
  · obtain ⟨parent, hparent, rfl⟩ := List.mem_map.mp ht
    have hsteps : Path.steps (Path.join plan.request.directory routingModulePath) ≠ [] := by
      rw [Path.steps_join filed_routingModulePath.plain.isAbsolute, filed_routingModulePath.plain.steps,
        segments_routingModulePath]
      exact List.append_ne_nil_of_right_ne_nil _ (List.cons_ne_nil _ _)
    obtain ⟨parent', hparent', hproper', -⟩ := hproper.parent? hsteps
    cases Option.some_inj.mp (hparent'.symm.trans (Option.mem_toList.mp hparent))
    exact hproper'
  · rw [List.mem_singleton.mp ht]
    exact hproper

/-- **All that a plan with short names writes has a path that an operating system takes.** -/
theorem Short.proper (ha : plan.spec.Accepted) {stage : Stage} {tasks : List Task}
    (ht : plan.tasks? stage = some tasks) :
    ∀ t ∈ tasks, Path.Proper t.path := by
  rcases tasks?_cases ht with ⟨-, htasks⟩ | ⟨-, g, hg, htasks⟩ | ⟨-, source, -, htasks⟩
  · rw [htasks]
    exact h.projectFiles
  · rw [htasks]
    exact h.components ha hg
  · rw [htasks]
    exact h.routingModule

end Plan

/-! ## 4. Runs -/

namespace Plan

variable {plan : Plan} {libs : Libraries σ} {runner : Runner σ} {p : Progress σ}

/-- **The stages that write succeed where names tell files from directories**, if the project is there, its names are
    short, and all that is written is rendered. -/
theorem forM_goThrough_told (ha : plan.spec.Accepted) (h : plan.Short) (runner : Runner σ) {stages : List Stage}
    (hs : ∀ stage ∈ stages, ∃ tasks, plan.tasks? stage = some tasks)
    (hd : p.workspace.disk.Told (target p.workspace.disk.here plan.request.directory))
    (hr : p.workspace.disk.HasRoot plan.request.directory) :
    ∃ p', (stages.forM (plan.goThrough libs runner)).run p = (.ok (), p') ∧
      p'.workspace.disk.Told (target p'.workspace.disk.here plan.request.directory) := by
  induction stages generalizing p with
  | nil => exact ⟨p, rfl, hd⟩
  | cons stage rest ih =>
      rw [List.forall_mem_cons] at hs
      obtain ⟨tasks, htasks⟩ := hs.1
      obtain ⟨p₁, hstage, hd₁, hr₁⟩ := perform_told ha htasks (h.proper ha htasks) runner (p := announced stage p) hd hr
      obtain ⟨p', hrest, hlast⟩ := ih hs.2 hd₁ hr₁
      have hgo : (plan.goThrough libs runner stage).run p = (.ok (), p₁) :=
        (run_bind_of_ok (Run.run_report _ p)).trans hstage
      exact ⟨p', (run_bind_of_ok hgo).trans hrest, hlast⟩

/-- A stage that can only succeed is gone through. -/
theorem goThrough_ok (plan : Plan) (libs : Libraries σ) (runner : Runner σ) (stage : Stage) (p : Progress σ)
    (h : ∀ {result p'}, plan.Performs libs runner (announced stage p) stage result p' → result = .ok ()) : ∃ p',
      (plan.goThrough libs runner stage).run p = (.ok (), p') ∧
        plan.Performs libs runner (announced stage p) stage (.ok ()) p' := by
  have hgo : (plan.goThrough libs runner stage).run p = (plan.perform libs runner stage).run (announced stage p) :=
    run_bind_of_ok (Run.run_report _ p)
  have hperforms := plan.performs_perform libs runner stage (announced stage p)
  rcases hstage : (plan.perform libs runner stage).run (announced stage p) with ⟨result, p'⟩
  rw [hstage] at hperforms hgo
  obtain rfl := h hperforms
  exact ⟨p', hgo, hperforms⟩

/-- Nothing stands in the way of a plan on a disk: what it is to write is rendered, the project is there, nothing in it
    is refused, names tell files from directories in it, and an operating system takes all paths. -/
structure Unhindered (plan : Plan) (patterns : PatternEngine) (d : Disk) : Prop where
  accepted : plan.spec.Accepted
  check : plan.config.check patterns = .ok plan.config
  short : plan.Short
  rendered : ∀ stage ∈ writing, ∃ tasks, plan.tasks? stage = some tasks
  sound : d.Sound
  sources : d.isDirectory plan.request.sources = true
  told : d.Told (target d.here plan.request.directory)
  cleanup : ∃ fits, patterns.compile plan.config.cleanup = .ok fits
  removable : ∀ name content, d.entry? (target d.here plan.request.sources ++ [name]) = some (.file content) →
    Path.Proper (Path.join plan.request.sources name)
  directories : ∀ directory ∈ plan.config.directories, Path.Dotless directory ∧
    Path.Proper (Path.join plan.request.sources directory) ∧
    Path.Proper (Path.join (Path.join plan.request.sources directory) keeper)

/-- Removing files leaves names that tell. -/
theorem told_of_cleared {base directory : Place} {fits : String → Bool} {d d' : Disk}
    (hc : Cleared directory fits d d') (h : d.Told base) : d'.Told base where
  permits access x hx := by
    rw [hc.stand]
    exact h.permits access x hx
  tells x e hbelow he := by
    rcases hc.kept x with hkept | ⟨hnone, -⟩
    · exact h.tells x e hbelow (hkept.symm.trans he)
    · cases hnone.symm.trans he

/-- What holds below the project holds below its sources. -/
theorem told_sources {r : Request} {d : Disk} (h : d.Told (target d.here r.directory)) :
    d.Told (target d.here r.sources) := by
  refine h.mono ?_
  rw [Request.target_sources]
  exact List.prefix_append _ _

/-- **Nothing stands in the way of removing the unwanted files.** -/
theorem Unhindered.removeWhere {patterns : PatternEngine} {d : Disk} (h : plan.Unhindered patterns d)
    (fits : String → Bool) :
    ∃ removed d', (Filing.removeWhere plan.request.sources fits).run d = (.ok removed, d') := by
  have htold := told_sources h.told
  exact Filing.removeWhere_proper h.sound ⟨h.sources, htold.permits .look _ (List.prefix_refl _)⟩
    (fun name => htold.permits .change _ (List.prefix_append _ _)) h.removable

/-- **A run that nothing stands in the way of succeeds**, with tools that change nothing, into a project that is
    there. -/
theorem Unhindered.forM_goThrough (h : plan.Unhindered libs.patterns p.workspace.disk) (hr : runner.Harmless)
    (hs : plan.request.skipCreation = true) (hn : plan.request.noCommit = true) :
    ∃ p', (plan.stages.forM (plan.goThrough libs runner)).run p = (.ok (), p') := by
  obtain ⟨p₁, hinstall, hperforms⟩ := goThrough_ok plan libs runner .install p fun hperforms =>
    (hperforms.harmless hr rfl).1
  have hsame : p₁.workspace = p.workspace := (hperforms.harmless hr rfl).2
  rw [← hsame] at h
  obtain ⟨pattern, hpattern⟩ := h.cleanup
  obtain ⟨p₂, hcleanup, hperforms⟩ := goThrough_ok plan libs runner .cleanup p₁ fun hperforms =>
    hperforms.cleared_again hpattern (h.removeWhere pattern)
  -- Removing files leaves names that tell, and the project.
  obtain ⟨_, -, -, -, hcleared⟩ := hperforms.cleared h.sound
  rw [announced_workspace] at hcleared
  have htold : p₂.workspace.disk.Told (target p₂.workspace.disk.here plan.request.directory) := by
    rw [hcleared.here]
    exact told_of_cleared hcleared h.told
  have hroot : p₂.workspace.disk.HasRoot plan.request.directory :=
    (Request.hasRoot_directory h.sound h.sources).keeps hcleared.keeps hcleared.here
  obtain ⟨p₃, hwriting, htold⟩ := forM_goThrough_told h.accepted h.short runner h.rendered htold hroot
  -- The stages that write leave the sources behind, so that directories can be made in them.
  obtain ⟨_, hcourse⟩ := plan.course_forM libs runner writing p₂
  rw [hwriting] at hcourse
  have hsources := Request.hasRoot_sources hcourse.isDirectory_sources
  have htrackable : ∀ path ∈ plan.config.directories.map (Path.join plan.request.sources),
      p₃.workspace.disk.Trackable (target p₃.workspace.disk.here plan.request.sources) path :=
    List.forall_mem_map.mpr fun directory hd =>
      have ⟨hdotless, hproper, hkeeper⟩ := h.directories directory hd
      .of_dotless hdotless hsources hproper hkeeper
  obtain ⟨d, hall⟩ := Filing.ensureAllTracked_told (told_sources htold) htrackable
  obtain ⟨p₄, hdirectories, -⟩ := goThrough_ok plan libs runner .directories p₃ fun hperforms => by
    have hrun := hperforms.eq_perform (by decide) (by decide)
    obtain ⟨n, hmake⟩ := plan.run_makeDirectories (fun directory hd => Config.plain_directory h.check hd)
      (announced .directories p₃)
    rw [perform, hmake, announced_workspace, hall] at hrun
    cases hrun
    rfl
  obtain ⟨p', hformat, -⟩ := goThrough_ok plan libs runner .format p₄ fun hperforms =>
    (hperforms.harmless hr rfl).1
  have happend : (writing ++ [Stage.directories, .format]).forM (plan.goThrough libs runner) =
      writing.forM (plan.goThrough libs runner) >>= fun _ =>
        [Stage.directories, .format].forM (plan.goThrough libs runner) :=
    List.forM_append
  have hlast : ((writing ++ [Stage.directories, .format]).forM (plan.goThrough libs runner)).run p₂ = (.ok (), p') := by
    rw [happend, run_bind_of_ok hwriting]
    exact (run_bind_of_ok hdirectories).trans ((run_bind_of_ok hformat).trans rfl)
  refine ⟨p', ?_⟩
  rw [stages_eq hs hn]
  exact (run_bind_of_ok hinstall).trans ((run_bind_of_ok hcleanup).trans hlast)

/-- With the built-in texts all that the stages write is rendered. -/
theorem rendered_builtin (h : plan.renderer = .builtin) :
    ∀ stage ∈ writing, ∃ tasks, plan.tasks? stage = some tasks := by
  intro stage hs
  rcases mem_writing.mp hs with rfl | rfl | rfl
  · exact ⟨_, rfl⟩
  · obtain ⟨g, hg⟩ := Expansion.ofSpec_builtin plan.spec
    exact ⟨(g.under plan.request.directory).tasks, by rw [tasks?, h, hg]; rfl⟩
  · exact ⟨_, by rw [tasks?, h]; rfl⟩

end Plan

/-! ## 5. A shop -/

/-- Tools that do nothing, and succeed. -/
def Runner.quiet : Runner σ := fun w _ => ⟨w, .empty, .empty, .ok (.status 0)⟩

theorem Runner.harmless_quiet : (quiet : Runner σ).Harmless := fun _ _ => ⟨rfl, rfl⟩

/-- A project with a test in its sources, and routes beside it. -/
def Disk.shop : Disk where
  entries := [(["shop"], .directory), (["shop", "src"], .directory), (["shop", "src", "App.test.js"], .file .empty),
    (["routes.yaml"], .file "home: {path: /, routes: {list: {}}}".toUTF8)]
  here := []

theorem Disk.sound_shop : shop.Sound := .of_places (by decide) (by decide) (by decide) rfl

/-- The request for a run into the shop. -/
def Request.shop : Request where
  project := "shop"
  routesFile := "routes.yaml"
  skipCreation := true
  noCommit := true
  around := ""

/-- A configuration with a directory that holds something, and one that is spelled with more than it needs. -/
def Config.shop : Config := { Config.standard with directories := ["Data", "./Hooks//use"] }

namespace Request

theorem check_shop : Config.shop.check .standard = .ok Config.shop := Config.check_ok_iff.mpr (by decide +kernel)

/-- Nothing but the shop, without a repository. -/
def atShop : Git.Workspace Git.Memory := ⟨.shop, []⟩

/-- The plan of the run into the shop. -/
theorem make_shop : ∃ plan p', (Plan.make .standard .shop shop).run (.start atShop) = (.ok plan, p') ∧
    plan.renderer = .builtin ∧ ∀ entry ∈ plan.spec.layouts, entry.1.utf8ByteSize ≤ 200 ∧
      ∀ key ∈ entry.2.views.keys, key.utf8ByteSize ≤ 200 := by
  have hmake : (match (Plan.make .standard .shop shop).run (.start atShop) with
      | (.ok plan, _) => plan.renderer.templates.isEmpty && decide (∀ entry ∈ plan.spec.layouts,
          entry.1.utf8ByteSize ≤ 200 ∧ ∀ key ∈ entry.2.views.keys, key.utf8ByteSize ≤ 200)
      | (.error _, _) => false) = true := by decide +kernel
  rcases hshop : (Plan.make .standard .shop shop).run (.start atShop) with ⟨e | plan, p'⟩
  · rw [hshop] at hmake
    cases hmake
  · rw [hshop] at hmake
    obtain ⟨hnone, hkeys⟩ := Bool.and_eq_true_iff.mp hmake
    refine ⟨plan, p', rfl, ?_, of_decide_eq_true hkeys⟩
    rw [Renderer.builtin, ← List.isEmpty_iff.mp hnone]

/-- Nothing stands in the way of a plan for the shop. -/
theorem unhindered_shop {plan : Plan} (hr : plan.request = shop) (hc : plan.config = .shop) (ha : plan.spec.Accepted)
    (hb : plan.renderer = .builtin) (hk : ∀ entry ∈ plan.spec.layouts, entry.1.utf8ByteSize ≤ 200 ∧
      ∀ key ∈ entry.2.views.keys, key.utf8ByteSize ≤ 200) : plan.Unhindered .standard .shop where
  accepted := ha
  check := by rw [hc, check_shop]
  short := ⟨by rw [hr]; decide, by rw [hr]; decide, by rw [hr]; decide, hk⟩
  rendered := Plan.rendered_builtin hb
  sound := sound_shop
  sources := by
    rw [hr]
    decide +kernel
  told := by
    refine ⟨fun _ _ _ => rfl, fun x e hbelow he => ?_⟩
    have hne : x ≠ [] := by
      rintro rfl
      exact hbelow.2 (List.prefix_nil.mp hbelow.1).symm
    have hmem := mem_entries_of_eq he hne
    simp only [Disk.shop, List.mem_cons, Prod.mk.injEq, List.not_mem_nil, or_false] at hmem
    rcases hmem with ⟨rfl, rfl⟩ | ⟨rfl, rfl⟩ | ⟨rfl, rfl⟩ | ⟨rfl, rfl⟩
    all_goals decide
  cleanup := by
    have hread : (Pattern.read? Config.shop.cleanup).isSome = true := by decide +kernel
    obtain ⟨pattern, hpattern⟩ := Option.isSome_iff_exists.mp hread
    rw [hc]
    exact ⟨pattern.isIn, PatternEngine.compile_standard hpattern⟩
  removable := by
    rw [hr]
    intro name content he
    have hsources : target Disk.shop.here shop.sources = ["shop", "src"] := by decide +kernel
    rw [hsources] at he
    have hmem := mem_entries_of_eq he (List.cons_ne_nil _ _)
    have hname : name = "App.test.js" ∧ content = .empty := by simpa [Disk.shop] using hmem
    rw [hname.1]
    decide +kernel
  directories := by
    rw [hr, hc]
    decide +kernel

/-- The run into the shop succeeds. -/
theorem run_shop : ∃ plan p', (shop.run .shop .standard .quiet).run (.start atShop) = (.ok plan, p') := by
  obtain ⟨plan, p, hmake, hbuiltin, hkeys⟩ := make_shop
  obtain ⟨hrequest, hconfig, haccepted, hidle⟩ := of_make hmake
  have hdisk : p.workspace.disk = .shop := by
    rw [hidle.workspace]
    rfl
  have hfree := unhindered_shop hrequest hconfig haccepted hbuiltin hkeys
  rw [← hdisk] at hfree
  have hfree : plan.Unhindered Libraries.standard.patterns p.workspace.disk := hfree
  obtain ⟨p', hstages⟩ := hfree.forM_goThrough Runner.harmless_quiet (by rw [hrequest]; rfl) (by rw [hrequest]; rfl)
  exact ⟨plan, p', (run_bind_of_ok hmake).trans ((run_bind_of_ok hstages).trans rfl)⟩

end Request

end RouteScaffold
