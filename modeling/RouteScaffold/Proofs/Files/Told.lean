import RouteScaffold.Proofs.Files.Inside
import RouteScaffold.Proofs.Files.Passable

/-!
# Plans that nothing stands in the way of

Planned files have a dot in their names, and planned directories have none. Where names tell files from directories on a
disk too, no file is in the way of a directory, nor the other way round.

* `Task.perform_ok`, `Task.told_perform`: there a task succeeds if the directories on the way to a file are made, and
  names go on telling;
* `forM_told`: so do tasks one behind the other, if the directories of a file are made ahead of it;
* `Filing.ensureAllTracked_told`: and so are tracked directories made.
-/

namespace RouteScaffold

open Disk

/-! ## 1. Names that tell -/

/-- The name at a place has a dot. -/
def Disk.Dotted (x : Place) : Prop := ∃ front name, x = front ++ [name] ∧ '.' ∈ name.toList

theorem Disk.dotted_append {front : Place} {name : String} : Dotted (front ++ [name]) ↔ '.' ∈ name.toList := by
  constructor
  · rintro ⟨front', name', hsame, hdot⟩
    rw [(List.cons.inj (List.append_inj' hsame rfl).2).1]
    exact hdot
  · exact fun hdot => ⟨front, name, rfl, hdot⟩

theorem Disk.dotted_iff {x : Place} : Dotted x ↔ '.' ∈ (x.getLast?.getD "").toList := by
  rcases List.eq_nil_or_concat' x with rfl | ⟨front, name, rfl⟩
  · refine iff_of_false (fun ⟨front, name, hx, _⟩ => ?_) (by decide)
    exact List.append_ne_nil_of_right_ne_nil _ (List.cons_ne_nil _ _) hx.symm
  · rw [dotted_append, List.getLast?_concat, Option.getD_some]

instance (x : Place) : Decidable (Disk.Dotted x) := decidable_of_iff _ Disk.dotted_iff.symm

/-- From a place on nothing is refused, and below it files have a dot in their names, and directories have none. -/
structure Disk.Told (base : Place) (d : Disk) : Prop where
  permits : ∀ access x, base <+: x → d.refuses access x = false
  tells : ∀ x e, Below base x → d.entry? x = some e → (Dotted x ↔ Filing.isFileEntry e = true)

theorem Disk.Told.mono {base base' : Place} {d : Disk} (h : d.Told base) (hb : base <+: base') : d.Told base' :=
  ⟨fun access x hx => h.permits access x (hb.trans hx), fun x e hbelow => h.tells x e (.trans hb hbelow)⟩

/-- A task that leaves files with a dot in their names and directories without, below a root. -/
structure Task.Told (here : Place) (root : String) (t : Task) : Prop where
  proper : Path.Proper t.path
  leadsOn : Path.steps t.path ≠ []
  leaves : ∀ x e, t.leaves here x = some e → e = .directory ∧ x ∈ way here root ∨
    Below (target here root) x ∧ (Dotted x ↔ Filing.isFileEntry e = true)

section Perform

variable {root : String} {d : Disk} (hd : d.Told (target d.here root)) (hr : d.HasRoot root)

include hd hr

/-- **A task succeeds where names tell files from directories**, if the directories on the way to a file are there, -/
theorem Task.perform_ok {t : Task} (ht : t.Told d.here root)
    (ha : ∀ path text, t = .writeFile path text →
      ∀ x ∈ way d.here path, x = target d.here path ∨ d.entry? x = some .directory) :
    ∃ d', t.perform.run d = (.ok (), d') := by
  cases t with
  | makeDirectory path =>
      refine Filing.ensureDirectory_proper ht.proper fun x hx => ?_
      rcases ht.leaves x .directory (Task.leaves_makeDirectory.mpr ⟨hx, rfl⟩) with ⟨-, hroot⟩ | ⟨hbelow, hdot⟩
      · exact .inl (hr.way x hroot)
      · cases hentry : d.entry? x with
        | none => exact .inr ⟨hentry, hd.permits .change x hbelow.1⟩
        | some e =>
            cases e with
            | directory => exact .inl hentry
            | file content =>
                have hfile := hdot.mp ((hd.tells x _ hbelow hentry).mpr rfl)
                cases hfile
  | writeFile path text =>
      obtain ⟨hdirectory, -⟩ | ⟨hbelow, hdot⟩ := ht.leaves _ _ (Task.leaves_writeFile.mpr ⟨rfl, rfl⟩)
      · cases hdirectory
      refine Filing.write_proper ht.proper ht.leadsOn (ha path text rfl) (fun he => ?_) (hd.permits _ _ hbelow.1) _
      have hfile := (hd.tells _ _ hbelow he).mp (hdot.mpr rfl)
      cases hfile

/-- and behind it names go on telling. -/
theorem Task.told_perform {t : Task} (ht : t.Told d.here root) {d' : Disk} (hrun : t.perform.run d = (.ok (), d')) :
    d'.Told (target d'.here root) := by
  have hleft := left_perform hrun
  refine ⟨fun access x hx => ?_, fun x e hbelow he => ?_⟩
  · rw [hleft.here] at hx
    rw [hleft.stand]
    exact hd.permits access x hx
  rw [hleft.here] at hbelow
  cases hentry : d.entry? x with
  | some old =>
      obtain ⟨e', he', hkind⟩ := hleft.kind x old hentry
      rw [he] at he'
      rw [Option.some_inj.mp he', ← hkind]
      exact hd.tells x old hbelow hentry
  | none =>
      cases hleaves : t.leaves d.here x with
      | none =>
          rw [hleft.others x fun t' ht' => by rw [List.mem_singleton.mp ht']; exact hleaves, hentry] at he
          cases he
      | some left =>
          obtain ⟨t', ht', e', hleft', he', -⟩ := hleft.left x t List.mem_cons_self left hleaves
          rw [List.mem_singleton.mp ht', hleaves] at hleft'
          rw [he] at he'
          cases hleft'
          cases he'
          rcases ht.leaves x e hleaves with ⟨-, hroot⟩ | ⟨-, hdot⟩
          · rw [hr.way x hroot] at hentry
            cases hentry
          · exact hdot

end Perform

/-! ## 2. One behind the other -/

/-- The directories on the way to a file are made ahead of it. -/
def DirectoriesAhead (here : Place) (tasks : List Task) : Prop :=
  ∀ before path text after, tasks = before ++ .writeFile path text :: after →
    ∀ x ∈ way here path, x = target here path ∨ ∃ t ∈ before, t.leaves here x = some .directory

theorem DirectoriesAhead.append {here : Place} {tasks more : List Task} (h : DirectoriesAhead here tasks)
    (h' : DirectoriesAhead here more) : DirectoriesAhead here (tasks ++ more) := by
  intro before path text after hsplit x hx
  rcases List.append_eq_append_iff.mp hsplit with ⟨middle, rfl, hmore⟩ | ⟨middle, htasks, hafter⟩
  · refine (h' middle path text after hmore x hx).imp_right fun ⟨t, ht, hleaves⟩ => ?_
    exact ⟨t, List.mem_append_right _ ht, hleaves⟩
  · cases middle with
    | nil =>
        refine (h' [] path text after hafter.symm x hx).imp_right fun ⟨t, ht, _⟩ => ?_
        cases ht
    | cons first middle =>
        rw [List.cons_append, List.cons.injEq] at hafter
        rw [← hafter.1] at htasks
        exact h before path text middle htasks x hx

/-- **Tasks one behind the other succeed where names tell files from directories**, and names go on telling. -/
theorem forM_told {root : String} {tasks : List Task} {d : Disk} (hd : d.Told (target d.here root))
    (hr : d.HasRoot root) (ht : ∀ t ∈ tasks, t.Told d.here root) (ha : DirectoriesAhead d.here tasks) :
    ∃ d', (tasks.forM Task.perform).run d = (.ok (), d') ∧ d'.Told (target d'.here root) ∧ d'.HasRoot root := by
  -- The induction is on the tasks that are left; of those ahead it is known what they have left.
  have hrest : ∀ (rest before : List Task) (d₁ : Disk), tasks = before ++ rest → d₁.here = d.here →
      d₁.Told (target d₁.here root) → d₁.HasRoot root →
      (∀ t ∈ before, ∀ x, t.leaves d.here x = some .directory → d₁.entry? x = some .directory) →
      ∃ d', (rest.forM Task.perform).run d₁ = (.ok (), d') ∧ d'.Told (target d'.here root) ∧ d'.HasRoot root := by
    intro rest
    induction rest with
    | nil => exact fun before d₁ _ _ htold hroot _ => ⟨d₁, rfl, htold, hroot⟩
    | cons t rest ih =>
        intro before d₁ hsplit hhere htold hroot hmade
        have htask : t.Told d₁.here root := by
          rw [hhere]
          exact ht t (by rw [hsplit]; exact List.mem_append_right _ List.mem_cons_self)
        obtain ⟨d₂, hrun⟩ := Task.perform_ok htold hroot htask (by
          rintro path text rfl x hx
          rw [hhere] at hx ⊢
          exact (ha before path text rest hsplit x hx).imp_right fun ⟨t, hm, hleaves⟩ => hmade t hm x hleaves)
        have htold₂ := Task.told_perform htold hroot htask hrun
        have hleft := left_perform hrun
        obtain ⟨d', hmore, hlast⟩ := ih (before ++ [t]) d₂ (by rw [hsplit, List.append_assoc]; rfl)
          (hleft.here.trans hhere) htold₂ (hroot.keeps hleft.grows.keeps hleft.here) (by
            intro t' ht' x hleaves
            rcases List.mem_append.mp ht' with ht' | ht'
            · exact hleft.grows.keeps x (hmade t' ht' x hleaves)
            · rw [← hhere] at hleaves
              obtain ⟨_, -, e, -, hentry, hkind⟩ := hleft.left x t' ht' _ hleaves
              cases e with
              | directory => exact hentry
              | file => cases hkind)
        exact ⟨d', run_bind_eq_ok.mpr ⟨(), d₂, hrun, hmore⟩, hlast⟩
  exact hrest tasks [] d rfl rfl hd hr (List.forall_mem_nil _)

/-! ## 3. Planned files -/

namespace Path

/-- A plain path to a file below a directory: its name has a dot, and the names ahead of it have none. -/
structure Filed (path : String) : Prop where
  plain : Plain path
  dots : ∃ front name, segments path = front ++ [name] ∧ front ≠ [] ∧ (∀ segment ∈ front, '.' ∉ segment.toList) ∧
    '.' ∈ name.toList

/-- An inner path to a directory: none of its names has a dot. -/
structure Dotless (path : String) : Prop where
  inner : Inner path
  leadsOn : steps path ≠ []
  dots : ∀ step ∈ steps path, '.' ∉ step.toList

instance (path : String) : Decidable (Dotless path) :=
  decidable_of_iff ((isAbsolute path = false ∧ ∀ step ∈ steps path, Leads step) ∧ steps path ≠ [] ∧
    ∀ step ∈ steps path, '.' ∉ step.toList)
    ⟨fun ⟨inner, leadsOn, dots⟩ => ⟨⟨inner.1, inner.2⟩, leadsOn, dots⟩,
      fun h => ⟨⟨h.inner.relative, h.inner.names⟩, h.leadsOn, h.dots⟩⟩

/-- **The parent of a path to a file is a path to a directory**, a name shorter. -/
theorem Filed.parent? {path : String} (h : Filed path) : ∃ parent, Path.parent? path = some parent ∧ Dotless parent ∧
    ∃ name, Leads name ∧ steps path = steps parent ++ [name] := by
  obtain ⟨front, name, hsegments, hne, hfront, -⟩ := h.dots
  have hsteps : steps path = front ++ [name] := h.plain.steps.trans hsegments
  have hname : Leads name := h.plain name (by rw [hsegments]; exact List.mem_append_right _ List.mem_cons_self)
  obtain ⟨parent, hparent, -, -, name', hlast⟩ := parent?_of_ends (.inr ⟨front, name, hsegments, hname.1⟩)
    (by rw [hsteps]; exact List.append_ne_nil_of_right_ne_nil _ (List.cons_ne_nil _ _))
  obtain ⟨rfl, hsame⟩ := List.append_inj' (hsteps.symm.trans hlast) rfl
  cases hsame
  exact ⟨parent, hparent, ⟨h.plain.inner.parent? hparent, hne, hfront⟩, name, hname, hlast⟩

/-! ## 4. Short names -/

/-- A name that an operating system takes. -/
def Short (name : String) : Prop := name.utf8ByteSize ≤ 255 ∧ Char.ofNat 0 ∉ name.toList

instance (name : String) : Decidable (Short name) := inferInstanceAs (Decidable (_ ∧ _))

theorem utf8ByteSize_intercalate {parts : List (List Char)}
    (h : ∀ part ∈ parts, (String.ofList part).utf8ByteSize ≤ 255) :
    (String.ofList (['/'].intercalate parts)).utf8ByteSize ≤ 256 * parts.length := by
  induction parts with
  | nil => exact Nat.zero_le _
  | cons part rest ih =>
      rw [List.forall_mem_cons] at h
      rw [List.length_cons]
      by_cases hnone : rest = []
      · rw [hnone, List.intercalate_singleton]
        exact h.1.trans (by decide)
      · have hslash : (String.ofList ['/']).utf8ByteSize = 1 := by decide
        have hrest := ih h.2
        rw [List.intercalate_cons_of_ne_nil hnone, String.ofList_append, String.utf8ByteSize_append,
          String.ofList_append, String.utf8ByteSize_append, hslash]
        omega

theorem exists_piece {chars : List Char} {c : Char} (h : c ∈ chars) (hc : c ≠ '/') :
    ∃ piece ∈ pieces chars, c ∈ piece := by
  induction chars with
  | nil => cases h
  | cons first rest ih =>
      rw [pieces]
      by_cases hslash : first = '/'
      · rw [if_pos hslash]
        obtain ⟨piece, hp, hm⟩ := ih ((List.mem_cons.mp h).resolve_left fun he => hc (he.trans hslash))
        exact ⟨piece, List.mem_cons_of_mem _ hp, hm⟩
      · rw [if_neg hslash]
        cases hr : pieces rest with
        | nil => exact absurd hr (pieces_ne_nil rest)
        | cons piece more =>
            rcases List.mem_cons.mp h with rfl | h
            · exact ⟨_, List.mem_cons_self, List.mem_cons_self⟩
            · obtain ⟨other, hp, hm⟩ := ih h
              rw [hr] at hp
              rcases List.mem_cons.mp hp with rfl | hp
              · exact ⟨_, List.mem_cons_self, List.mem_cons_of_mem _ hm⟩
              · exact ⟨other, List.mem_cons_of_mem _ hp, hm⟩

/-- **A plain path of a few short names is proper.** -/
theorem Plain.proper {path : String} (h : Plain path) (hs : ∀ segment ∈ segments path, Short segment)
    (hl : (segments path).length ≤ 7) : Proper path ∧ path.utf8ByteSize ≤ 1792 := by
  have hpieces : ∀ piece ∈ pieces path.toList, Short (String.ofList piece) :=
    fun piece hp => hs _ (List.mem_map_of_mem hp)
  have hsize : path.utf8ByteSize ≤ 1792 := by
    have hbound := utf8ByteSize_intercalate fun piece hp => (hpieces piece hp).1
    rw [intercalate_pieces, String.ofList_toList] at hbound
    rw [segments, List.length_map] at hl
    omega
  refine ⟨⟨fun hzero => ?_, hsize.trans (by decide), fun step hm => ?_, ?_⟩, hsize⟩
  · obtain ⟨piece, hp, hm⟩ := exists_piece hzero (by decide)
    refine (hpieces piece hp).2 ?_
    rwa [String.toList_ofList]
  · rw [h.steps] at hm
    exact ⟨(hs step hm).1, (h step hm).2⟩
  · obtain ⟨front, name, hsegments⟩ : ∃ front name, segments path = front ++ [name] :=
      (List.eq_nil_or_concat' _).resolve_left fun hnil => pieces_ne_nil _ (List.map_eq_nil_iff.mp hnil)
    exact .inr ⟨front, name, hsegments,
      (h name (by rw [hsegments]; exact List.mem_append_right _ List.mem_cons_self)).1⟩

/-- A proper path stays proper when it is joined to a root, if this is not too long. -/
theorem Proper.join {root path : String} (h : Proper path) (hr : isAbsolute path = false) (hne : steps path ≠ [])
    (hz : Char.ofNat 0 ∉ root.toList) (hn : ∀ step ∈ steps root, step.utf8ByteSize ≤ 255 ∧ step ≠ "..")
    (hs : root.utf8ByteSize + 1 + path.utf8ByteSize ≤ 4095) : Proper (join root path) := by
  refine ⟨?_, ?_, fun step hm => ?_, ?_⟩
  · rcases toList_join hr root with ⟨-, hjoin⟩ | ⟨front, hroot, -, hjoin⟩
    · rw [hjoin]
      exact h.zero
    · rw [hjoin, List.mem_append, List.mem_cons, not_or, not_or]
      refine ⟨fun hm => hz ?_, by decide, h.zero⟩
      rcases hroot with hroot | hroot
      · rwa [hroot]
      · rw [hroot]
        exact List.mem_append_left _ hm
  · refine Nat.le_trans ?_ hs
    rw [Path.join, if_neg (by rw [hr]; exact Bool.false_ne_true)]
    have hslash : "/".utf8ByteSize = 1 := by decide
    split
    · rw [String.utf8ByteSize_append]
      omega
    · rw [String.utf8ByteSize_append, String.utf8ByteSize_append, hslash]
  · rw [steps_join hr, List.mem_append] at hm
    exact hm.elim (hn step) (h.names step)
  · obtain ⟨front, name, hsegments, hname⟩ := h.exists_name hne
    obtain ⟨ahead, -, hjoin⟩ := pieces_join hr root
    refine .inr ⟨ahead.map String.ofList ++ front, name, ?_, hname⟩
    rw [segments, hjoin, List.map_append, ← segments, hsegments, List.append_assoc]

end Path

/-! ## 5. Planned tasks -/

section Entered

variable {names : List String} (h : ∀ name ∈ names, Path.Leads name)

include h

/-- Names are entered one behind the other. -/
theorem Disk.mem_entered {place x : Place} (hx : x ∈ entered place names) :
    ∃ front name, front ++ [name] <+: names ∧ x = place ++ (front ++ [name]) := by
  induction names generalizing place with
  | nil => cases hx
  | cons first rest ih =>
      rw [List.forall_mem_cons] at h
      rw [entered, if_neg (Path.isStep_iff.mp h.1.1), if_neg h.1.2, List.mem_cons] at hx
      rcases hx with rfl | hx
      · exact ⟨[], first, List.cons_prefix_cons.mpr ⟨rfl, List.nil_prefix⟩, rfl⟩
      · obtain ⟨front, name, hfront, rfl⟩ := ih h.2 hx
        exact ⟨first :: front, name, List.cons_prefix_cons.mpr ⟨rfl, hfront⟩, List.append_assoc _ _ _⟩

end Entered

/-- The way to a name below a root is the way to what is ahead of it, and the name. -/
theorem Disk.way_join_name {path directory name : String} (hp : Path.isAbsolute path = false)
    (hd : Path.isAbsolute directory = false) (hn : Path.Leads name)
    (hs : Path.steps path = Path.steps directory ++ [name]) (here : Place) (root : String) :
    way here (Path.join root path) = way here (Path.join root directory) ++ [target here (Path.join root path)] := by
  have hstep := Path.isStep_iff.mp hn.1
  rw [way_join hp, way_join hd, target_join hp, hs, entered_append, placeFrom_append, List.append_assoc, entered,
    placeFrom, if_neg hstep, if_neg hstep, if_neg hn.2, if_neg hn.2]
  rfl

/-- On the way to a path without dots nothing has a dot below the root. -/
theorem Disk.not_dotted_of_way {path : String} (h : Path.Dotless path) {here : Place} {root : String} {x : Place}
    (hx : x ∈ way here (Path.join root path)) : x ∈ way here root ∨ Below (target here root) x ∧ ¬Dotted x := by
  rw [way_join h.inner.relative, List.mem_append] at hx
  refine hx.imp_right fun hbelow => ⟨below_entered h.inner.names hbelow, ?_⟩
  obtain ⟨front, name, hfront, rfl⟩ := mem_entered h.inner.names hbelow
  rw [← List.append_assoc, dotted_append]
  exact h.dots name (hfront.subset (List.mem_append_right _ List.mem_cons_self))

namespace Task

variable {root path : String} {here : Place}

theorem told_writeFile (hp : Path.Proper (Path.join root path)) (h : Path.Filed path) (text : String) :
    ((writeFile path text).under root).Told here root := by
  obtain ⟨front, name, hsegments, -, hfront, hname⟩ := h.dots
  refine ⟨hp, ?_, fun x e hx => .inr ?_⟩
  · show Path.steps (Path.join root path) ≠ []
    rw [Path.steps_join h.plain.isAbsolute, h.plain.steps, hsegments]
    exact List.append_ne_nil_of_right_ne_nil _ (List.append_ne_nil_of_right_ne_nil _ (List.cons_ne_nil _ _))
  · obtain ⟨rfl, rfl⟩ := Task.leaves_writeFile.mp hx
    rw [target_plain h.plain, hsegments]
    refine ⟨below_append _ (List.append_ne_nil_of_right_ne_nil _ (List.cons_ne_nil _ _)), ?_⟩
    rw [← List.append_assoc, dotted_append]
    exact ⟨fun _ => rfl, fun _ => hname⟩

/-- A directory on whose way nothing has a dot below the root. -/
theorem told_of_way {directory : String} (hp : Path.Proper directory) (hne : Path.steps directory ≠ [])
    (h : ∀ x ∈ way here directory, x ∈ way here root ∨ Below (target here root) x ∧ ¬Dotted x) :
    (makeDirectory directory).Told here root := by
  refine ⟨hp, hne, fun x e hx => ?_⟩
  obtain ⟨hway, rfl⟩ := Task.leaves_makeDirectory.mp hx
  refine (h x hway).imp (fun hroot => ⟨rfl, hroot⟩) fun ⟨hbelow, hdot⟩ => ⟨hbelow, ?_⟩
  exact ⟨fun h => absurd h hdot, fun hfile => by cases hfile⟩

theorem told_makeDirectory (hp : Path.Proper (Path.join root path)) (h : Path.Dotless path) :
    ((makeDirectory path).under root).Told here root := by
  refine told_of_way hp ?_ fun x hx => not_dotted_of_way h hx
  rw [Path.steps_join h.inner.relative]
  exact List.append_ne_nil_of_right_ne_nil _ h.leadsOn

end Task

namespace Groups

/-- On the way to the files of a directory there is nothing but what is on the way to the directory. -/
def Houses (here : Place) : Groups → Prop
  | .nil => True
  | .group directory files nested rest =>
    (∀ a ∈ files, ∀ x ∈ way here a.path, x = target here a.path ∨ x ∈ way here directory) ∧
      nested.Houses here ∧ rest.Houses here

/-- **Directories that house their files are made ahead of them.** -/
theorem Houses.ahead {here : Place} {g : Groups} (h : g.Houses here) : DirectoriesAhead here g.tasks := by
  induction g with
  | nil =>
      intro before path text after hsplit
      cases before with
      | nil => cases hsplit
      | cons => cases hsplit
  | group directory files nested rest ihn ih =>
      refine .append (.append ?_ (ihn h.2.1)) (ih h.2.2)
      intro before path text after hsplit x hx
      cases before with
      | nil => cases hsplit
      | cons first before =>
          obtain ⟨rfl, hfiles⟩ := List.cons.inj hsplit
          have hmem : Task.writeFile path text ∈ files.map Artifact.task := by
            rw [hfiles]
            exact List.mem_append_right _ List.mem_cons_self
          obtain ⟨a, ha, htask⟩ := List.mem_map.mp hmem
          cases htask
          refine (h.1 a ha x hx).imp_right fun hway => ⟨_, List.mem_cons_self, ?_⟩
          exact Task.leaves_makeDirectory.mpr ⟨hway, rfl⟩

section Plan

variable {g : Groups} {root : String} {here : Place} (hf : ∀ a ∈ g.files, Path.Filed a.path)
  (hd : ∀ path, .makeDirectory path ∈ g.tasks → Path.Dotless path)
  (hp : ∀ t ∈ (g.under root).tasks, Path.Proper t.path)

include hf hd hp

theorem told_tasks : ∀ t ∈ (g.under root).tasks, t.Told here root := by
  intro t ht
  have hproper := hp t ht
  rw [tasks_under] at ht
  obtain ⟨task, hm, rfl⟩ := List.mem_map.mp ht
  cases task with
  | makeDirectory path => exact Task.told_makeDirectory hproper (hd path hm)
  | writeFile path text =>
      obtain ⟨a, ha, rfl, -⟩ := mem_files_of_tasks hm
      exact Task.told_writeFile hproper (hf a ha) text

end Plan

end Groups

/-! ## 6. Tracked directories -/

/-- A path to a directory below a place, in whose way no file is where files have a dot in their names. -/
structure Disk.Trackable (base : Place) (d : Disk) (path : String) : Prop where
  proper : Path.Proper path
  leadsOn : Path.steps path ≠ []
  keeper : Path.Proper (Path.join path keeper)
  target : base <+: target d.here path
  way : ∀ x ∈ way d.here path, d.entry? x = some .directory ∨ Below base x ∧ ¬Dotted x

namespace Disk.Trackable

variable {base : Place} {d d' : Disk} {path : String}

theorem grows (h : d.Trackable base path) (hg : d.Grows d') : d'.Trackable base path := by
  refine ⟨h.proper, h.leadsOn, h.keeper, ?_, ?_⟩
  · rw [hg.here]
    exact h.target
  · rw [hg.here]
    exact fun x hx => (h.way x hx).imp_left (hg.keeps x)

/-- A path without dots below a root. -/
theorem of_dotless {root : String} (h : Path.Dotless path) (hr : d.HasRoot root)
    (hp : Path.Proper (Path.join root path)) (hk : Path.Proper (Path.join (Path.join root path) RouteScaffold.keeper)) :
    d.Trackable (Disk.target d.here root) (Path.join root path) := by
  refine ⟨hp, ?_, hk, ?_, fun x hx => (not_dotted_of_way h hx).imp_left (hr.way x)⟩
  · rw [Path.steps_join h.inner.relative]
    exact List.append_ne_nil_of_right_ne_nil _ h.leadsOn
  · rw [target_inner h.inner]
    exact List.prefix_append _ _

/-- Where a tracked directory is made names go on telling, since the file that keeps it has a dot in its name. -/
theorem told_furnishes (h : d.Trackable base path) (ht : d.Told base) (hf : Furnishes [path] d d') : d'.Told base where
  permits access x hx := by
    rw [hf.stand]
    exact ht.permits access x hx
  tells x e hbelow he := by
    by_cases hsame : d'.entry? x = d.entry? x
    · exact ht.tells x e hbelow (hsame.symm.trans he)
    obtain ⟨hnone, _, hp, hmade⟩ := hf.changed x hsame
    obtain rfl := List.mem_singleton.mp hp
    rcases hmade with ⟨hway, hmade⟩ | ⟨rfl, hmade, -⟩
    · cases he.symm.trans hmade
      rcases h.way x hway with hdirectory | ⟨-, hdot⟩
      · cases hnone.symm.trans hdirectory
      · exact iff_of_false hdot Bool.false_ne_true
    · cases he.symm.trans hmade
      exact iff_of_true (dotted_append.mpr (by decide)) rfl

/-- **No file is in the way of a directory where names tell.** -/
theorem passes (h : d.Trackable base path) (ht : d.Told base) : ∀ x ∈ Disk.way d.here path, d.Passes x := by
  intro x hx
  rcases h.way x hx with hdirectory | ⟨hbelow, hdot⟩
  · exact .inl hdirectory
  · cases hentry : d.entry? x with
    | none => exact .inr ⟨hentry, ht.permits .change x hbelow.1⟩
    | some e =>
        cases e with
        | directory => exact .inl hentry
        | file content => exact absurd ((ht.tells x _ hbelow hentry).mpr rfl) hdot

end Disk.Trackable

/-- **Tracked directories are made one after the other where names tell files from directories**, as those of the files
    do that keep them. -/
theorem Filing.ensureAllTracked_told {base : Place} {paths : List String} {d : Disk} (ht : d.Told base)
    (h : ∀ path ∈ paths, d.Trackable base path) : ∃ d', (ensureAllTracked paths).run d = (.ok (), d') := by
  induction paths generalizing d with
  | nil => exact ⟨d, rfl⟩
  | cons path rest ih =>
      rw [List.forall_mem_cons] at h
      obtain ⟨kept, d₁, hrun⟩ := ensureTracked_proper h.1.proper h.1.leadsOn h.1.keeper (h.1.passes ht)
        (ht.permits _ _ h.1.target) (ht.permits _ _ (h.1.target.trans (List.prefix_append _ _)))
      have hfurnishes := furnishes_ensureTracked path d
      rw [hrun] at hfurnishes
      obtain ⟨d', hmore⟩ := ih (h.1.told_furnishes ht hfurnishes) fun path hp => (h.2 path hp).grows hfurnishes.grows
      refine ⟨d', ?_⟩
      rw [ensureAllTracked, run_bind_of_ok hrun]
      exact hmore

end RouteScaffold
