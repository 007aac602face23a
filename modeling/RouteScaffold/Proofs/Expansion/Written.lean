import RouteScaffold.Proofs.Files.Inside
import RouteScaffold.Proofs.Writing.OnDisk

/-!
# What an expansion leaves on a disk

* `Placed`: where the files of an expansion stand: in the directories of its layouts and views, and not below them;
* `written_once`: seen from any root, files with other paths are at other places;
* `one_mapping`: so writers side by side leave the same disk in whatever order they write.
-/

namespace RouteScaffold

namespace Expansion

variable {spec : Spec}

/-! ## 1. Where the files stand -/

/-- A file stands right in the directory of a layout, or right in that of one of its views. -/
inductive Placed (spec : Spec) (path : String) : Prop where
  | layout {key : String} {layout : Layout} (h : (key, layout) ∈ spec.layouts) {file : String}
      (hf : file ∈ [Name.layout key ++ ".jsx", Name.layout key ++ ".module.css"])
      (hs : Path.segments path = ["src", "Layouts", Name.layout key, file])
  | view {key : String} {layout : Layout} (h : (key, layout) ∈ spec.layouts) {view : String}
      (hv : view ∈ layout.views.keys) {file : String}
      (hf : file ∈ [Name.view view ++ ".jsx", "index.jsx", Name.view view ++ ".module.css"])
      (hs : Path.segments path = ["src", "Views", Name.capitalize key, Name.view view, file])

theorem placed_of_mem (h : spec.Accepted) {path : String} (hp : path ∈ paths spec) : Placed spec path := by
  obtain ⟨⟨key, layout⟩, he, hp⟩ := List.mem_flatMap.mp hp
  have hkey := h.keys key (List.mem_map_of_mem (f := Prod.fst) he)
  rcases List.mem_append.mp hp with hp | hp
  · have hm := List.mem_map_of_mem (f := Path.segments) hp
    rw [segments_layoutPaths hkey, List.mem_pair] at hm
    rcases hm with hm | hm
    · exact .layout he (List.mem_pair.mpr (.inl rfl)) hm
    · exact .layout he (List.mem_pair.mpr (.inr rfl)) hm
  · obtain ⟨view, hv, hp⟩ := List.mem_flatMap.mp hp
    have hm := List.mem_map_of_mem (f := Path.segments) hp
    rw [segments_viewPaths hkey ((h.layouts _ he).viewKeys view hv), List.mem_cons, List.mem_pair] at hm
    rcases hm with hm | hm | hm
    · exact .view he hv (List.mem_cons_self) hm
    · exact .view he hv (List.mem_cons_of_mem _ List.mem_cons_self) hm
    · exact .view he hv (List.mem_cons_of_mem _ (List.mem_pair.mpr (.inr rfl))) hm

/-- What begins like an identifier leads on. -/
theorem leads_fragment {name : String} (h : Name.Fragment name) (back : String) : Path.Leads (name ++ back) := by
  obtain ⟨c, rest, hl, hc, -⟩ := h
  have hdot : c ≠ '.' := by
    rintro rfl
    revert hc
    unfold Name.Start
    decide
  have hlist : (name ++ back).toList = c :: (rest ++ back.toList) := by
    rw [String.toList_append, hl]
    rfl
  have hne : ∀ text : String, text.toList.head?.getD '.' = '.' → name ++ back ≠ text := by
    rintro text ht rfl
    rw [hlist] at ht
    exact hdot ht
  exact ⟨Path.isStep_iff.mpr fun he => he.elim (hne "." rfl) (hne "" rfl), hne ".." rfl⟩

theorem leads_name {name : String} (h : Name.Fragment name) : Path.Leads name := by
  have hempty := leads_fragment h ""
  rwa [String.append_empty] at hempty

/-- The path of a file is plain. -/
theorem Placed.plain {path : String} (hp : Placed spec path) (h : spec.Accepted) : Path.Plain path := by
  have hsrc : Path.Leads "src" := ⟨by decide, by decide⟩
  cases hp with
  | @layout key _ he file hf hs =>
      have hkey := h.keys key (List.mem_map_of_mem (f := Prod.fst) he)
      have hfile : Path.Leads file := by
        rcases List.mem_pair.mp hf with rfl | rfl
        · exact leads_fragment hkey.layout _
        · exact leads_fragment hkey.layout _
      rw [Path.Plain, hs]
      simp only [List.forall_mem_cons]
      exact ⟨hsrc, ⟨by decide, by decide⟩, leads_name hkey.layout, hfile, List.forall_mem_nil _⟩
  | @view key _ he view hv file hf hs =>
      have hkey := h.keys key (List.mem_map_of_mem (f := Prod.fst) he)
      have hview := (h.layouts _ he).viewKeys view hv
      have hfile : Path.Leads file := by
        rw [List.mem_cons, List.mem_pair] at hf
        rcases hf with rfl | rfl | rfl
        · exact leads_fragment hview.view _
        · exact ⟨by decide, by decide⟩
        · exact leads_fragment hview.view _
      rw [Path.Plain, hs]
      simp only [List.forall_mem_cons]
      exact ⟨hsrc, ⟨by decide, by decide⟩, leads_name hkey.capitalize, leads_name hview.view, hfile,
        List.forall_mem_nil _⟩

/-! ## 2. What is left -/

/-- What is known of the files of an expansion, and of the disks on which writers side by side write them. -/
structure Settled (spec : Spec) (g : Groups) : Prop where
  distinct : (g.files.map Artifact.path).Nodup
  placed : ∀ a ∈ g.files, Placed spec a.path
  /-- When all writers have finished every file is there with its text, -/
  written : ∀ root d n d', g.Writes root d (.ok n) d' → ∀ a ∈ g.files,
    d'.entry? (Disk.target d.here (Path.join root a.path)) = some (.file a.content.text.toUTF8)
  /-- and whatever the order in which they wrote, the disk is the same. -/
  same : ∀ root d n₁ d₁ n₂ d₂, g.Writes root d (.ok n₁) d₁ → g.Writes root d (.ok n₂) d₂ →
    n₁ = n₂ ∧ d₁.here = d₂.here ∧ (∀ place, d₁.entry? place = d₂.entry? place) ∧ ∀ path, d₁.read path = d₂.read path

section Once

variable {r : Renderer} {g : Groups} (h : spec.Accepted) (hg : ofSpec r spec = .ok g)

include h hg

theorem placed_files : ∀ a ∈ g.files, Placed spec a.path := by
  intro a ha
  refine placed_of_mem h ?_
  rw [← paths_ofSpec hg]
  exact List.mem_map_of_mem ha

theorem nodup_files : (g.files.map Artifact.path).Nodup := by
  rw [paths_ofSpec hg]
  exact nodup_paths h

/-- **No two files of an expansion are written at one place.** -/
theorem written_once (root : String) (here : Place) : ∀ t ∈ (g.under root).tasks, ∀ t' ∈ (g.under root).tasks, ∀ x c c',
    t.leaves here x = some (.file c) → t'.leaves here x = some (.file c') → c = c' :=
  Groups.written_once (fun a ha => (placed_files h hg a ha).plain h) root here (nodup_files h hg)

theorem settled : Settled spec g where
  distinct := nodup_files h hg
  placed := placed_files h hg
  written := by
    intro root d n d' hw a ha
    obtain ⟨-, tasks, hperm, hleft⟩ := hw.left
    have htask : (a.task).under root ∈ (g.under root).tasks := by
      rw [Groups.tasks_under]
      exact List.mem_map_of_mem (Groups.mem_tasks_of_files ha)
    have hleaves : (a.task.under root).leaves d.here (Disk.target d.here (Path.join root a.path)) =
        some (.file a.content.text.toUTF8) := Task.leaves_writeFile.mpr ⟨rfl, rfl⟩
    obtain ⟨t, ht, e, hte, hentry, hkind⟩ := hleft.left _ _ (hperm.mem_iff.mpr htask) _ hleaves
    cases e with
    | directory => cases hkind
    | file c => rw [hentry, written_once h hg root d.here t (hperm.mem_iff.mp ht) _ htask _ _ _ hte hleaves]
  same := by
    intro root d n₁ d₁ n₂ d₂ hw₁ hw₂
    obtain ⟨hn₁, tasks₁, hperm₁, hleft₁⟩ := hw₁.left
    obtain ⟨hn₂, tasks₂, hperm₂, hleft₂⟩ := hw₂.left
    have hstand : d₁.toStandpoint = d₂.toStandpoint := hleft₁.stand.trans hleft₂.stand.symm
    have hentry : ∀ place, d₁.entry? place = d₂.entry? place := by
      refine fun place => hleft₁.entry_eq hleft₂ rfl (hperm₁.trans hperm₂.symm) (fun t ht t' ht' => ?_) fun _ => rfl
      exact written_once h hg root d.here t (hperm₁.mem_iff.mp ht) t' (hperm₁.mem_iff.mp ht')
    exact ⟨hn₁.trans hn₂.symm, congrArg Standpoint.here hstand, hentry, Disk.read_congr hstand hentry⟩

end Once

/-- **The files of an expansion have places of their own, and writers side by side leave one disk**, in whatever order
    they write, on every disk and below every root. -/
theorem one_mapping {defaults : Defaults} {document : Document} (h : Spec.validate defaults document = .ok spec) :
    (∃ g, ofSpec .builtin spec = .ok g) ∧ ∀ r g, ofSpec r spec = .ok g → Settled spec g :=
  ⟨ofSpec_builtin spec, fun _ _ hg => settled (Spec.accepted_of_validate h) hg⟩

/-- The writers of two layouts write one after the other and the other way round; what is read is the same, though the
    disks list their entries in different orders. -/
theorem two_orders_one_mapping : ∃ spec g d d₁ d₂,
    Spec.validate .standard (.map [("home", .map []), ("admin", .map [])]) = .ok spec ∧
    ofSpec .builtin spec = .ok g ∧ g.Writes "app" d (.ok 4) d₁ ∧ g.Writes "app" d (.ok 4) d₂ ∧
    d₁.entries.map Prod.fst ≠ d₂.entries.map Prod.fst ∧ ∀ path, d₁.read path = d₂.read path := by
  obtain ⟨spec, g, d, d₁, d₂, hv, hg, hfirst, hsecond, hentries⟩ : ∃ spec g d d₁ d₂,
      Spec.validate .standard (.map [("home", .map []), ("admin", .map [])]) = .ok spec ∧
      ofSpec .builtin spec = .ok g ∧ g.Writes "app" d (.ok 4) d₁ ∧ g.Writes "app" d (.ok 4) d₂ ∧
      d₁.entries.map Prod.fst ≠ d₂.entries.map Prod.fst := by
    refine ⟨_, _, { here := [], entries := [(["app"], .directory), (["app", "src"], .directory),
        (["app", "src", "Layouts"], .directory), (["app", "src", "Layouts", "HomeLayout"], .directory),
        (["app", "src", "Layouts", "AdminLayout"], .directory)] },
      _, _, rfl, rfl, Groups.writes_of_write (And.left ?both),
      @Groups.writes_of_run _ _ [_, _, _, _, _, _] _ _ _
        (.perform (.besideWorking .done) <| .perform (.besideWorking .done) <| .perform (.besideWorking .done) <|
          .perform .done <| .perform .done <| .perform .done <| .refl _)
        (@Writers.Returns.ok _ _ [2, 2] rfl) (And.left (And.right ?both)), And.right (And.right ?both)⟩
    -- Both orders are run in one evaluation.
    decide +kernel
  obtain ⟨-, hsettled⟩ := one_mapping hv
  have hsame := (hsettled _ _ hg).same _ _ _ _ _ _ hfirst hsecond
  exact ⟨spec, g, d, d₁, d₂, hv, hg, hfirst, hsecond, hentries, hsame.2.2.2⟩

end Expansion

end RouteScaffold
