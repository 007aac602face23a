import RouteScaffold.Proofs.Files.Kept

/-!
# Tracked directories

A directory is made below another, and gets a file that keeps it if it is empty.

* `Disk.Adds`: what making directories changes, also where it fails (`Filing.adds_ensureDirectory`);
* `Disk.Furnishes`: what tracked directories change (`Filing.furnishes_ensureTracked`), and `Disk.Supplies`, where it is
  below a place (`Filing.supplies_ensureTracked`);
* `Filing.ensureTracked_of_isTracked`: a directory that is tracked is left as it is;
* `Filing.ensureAllTracked`: all this for one directory after the other.
-/

namespace RouteScaffold

open Disk

/-! ## 1. Directories -/

/-- Directories are made at some places where nothing has been. -/
structure Disk.Adds (places : List Place) (d d' : Disk) : Prop where
  stand : d'.toStandpoint = d.toStandpoint
  changed : ∀ x, d'.entry? x ≠ d.entry? x → x ∈ places ∧ d.entry? x = none ∧ d'.entry? x = some .directory

namespace Disk

variable {d d' d'' : Disk}

theorem Adds.here {places : List Place} (h : Adds places d d') : d'.here = d.here := congrArg Standpoint.here h.stand

/-- Where only what has been free changes, all that is there stays as it is. -/
theorem kept_of_free (h : ∀ x, d'.entry? x ≠ d.entry? x → d.entry? x = none) {x : Place} {e : Entry}
    (he : d.entry? x = some e) : d'.entry? x = some e := by
  by_contra hnot
  have hfree := h x fun hsame => hnot (hsame.trans he)
  rw [he] at hfree
  cases hfree

theorem Adds.refl (places : List Place) (d : Disk) : Adds places d d := ⟨rfl, fun _ hx => absurd rfl hx⟩

theorem Adds.mono {places more : List Place} (h : Adds places d d') (hsub : places ⊆ more) : Adds more d d' :=
  ⟨h.stand, fun x hx => ⟨hsub (h.changed x hx).1, (h.changed x hx).2⟩⟩

theorem Adds.trans {places : List Place} (h : Adds places d d') (h' : Adds places d' d'') : Adds places d d'' where
  stand := h'.stand.trans h.stand
  changed x hx := by
    by_cases hfirst : d'.entry? x = d.entry? x
    · rw [← hfirst] at hx ⊢
      exact h'.changed x hx
    · obtain ⟨hmem, hnone, hmade⟩ := h.changed x hfirst
      refine ⟨hmem, hnone, ?_⟩
      by_contra hnot
      obtain ⟨-, hfree, -⟩ := h'.changed x fun he => hnot (he.trans hmade)
      rw [hmade] at hfree
      cases hfree

/-- What is new is a directory. -/
theorem Adds.made {places : List Place} (h : Adds places d d') {x : Place} {e : Entry} (hnone : d.entry? x = none)
    (he : d'.entry? x = some e) : x ∈ places ∧ e = .directory := by
  have hne : d'.entry? x ≠ d.entry? x := by
    rw [he, hnone]
    exact Option.some_ne_none e
  obtain ⟨hmem, -, hmade⟩ := h.changed x hne
  rw [he] at hmade
  exact ⟨hmem, Option.some_inj.mp hmade⟩

theorem Makes.adds {places : List Place} (h : Makes places d d') : Adds places d d' where
  stand := h.stand
  changed x hx := by
    have hmem : x ∈ places := by_contra fun hmem => hx (h.others x hmem)
    refine ⟨hmem, (h.free x hmem).resolve_right fun hd => hx ?_, h.made x hmem⟩
    rw [h.made x hmem, hd]

end Disk

namespace Filing

theorem MadeAll.adds {path : String} {d d' : Disk} {result : Except SystemError Unit} (h : MadeAll path d result d') :
    Adds (way d.here path) d d' := by
  induction h with
  | empty d => exact .refl _ d
  | there => exact .refl _ _
  | made hmake => exact (makes_makeDirectory hmake).adds
  | failed => exact .refl _ _
  | failedAbove hp above ih => exact ih.mono (way_parent? hp _)
  | behind hp above own iha iho =>
      have habove := iha.mono (way_parent? hp _)
      rw [habove.here] at iho
      exact habove.trans iho

theorem run_ensureDirectory (path : String) (d : Disk) : (ensureDirectory path).run d =
    ((makeAll (path.length + 1) path d).1.mapError (.ofSystem "create directory" path),
      (makeAll (path.length + 1) path d).2) := by
  have hget : (get : Filing Disk).run d = (.ok d, d) := rfl
  have hset : ∀ d' : Disk, (set d' : Filing PUnit).run d = (.ok ⟨⟩, d') := fun _ => rfl
  rw [ensureDirectory, run_bind_of_ok hget]
  rcases makeAll (path.length + 1) path d with ⟨e | ⟨⟩, d'⟩
  · rw [run_bind_of_ok (hset d')]
    rfl
  · rw [run_bind_of_ok (hset d')]
    rfl

/-- **Directories are made on the way only**, and only where nothing has been, also if making them fails. -/
theorem adds_ensureDirectory (path : String) (d : Disk) :
    Adds (way d.here path) d ((ensureDirectory path).run d).2 := by
  rw [run_ensureDirectory]
  exact (madeAll_makeAll _ path d).adds

theorem isDirectory_of_makeDirectory {path : String} {d d' : Disk} (h : d.makeDirectory path = .ok d') :
    d'.isDirectory path = true := by
  have hmakes := makes_makeDirectory h
  obtain ⟨⟨slash, hfind⟩, rfl⟩ := makeDirectory_eq_ok h
  obtain ⟨-, hne, -⟩ := leads_find hfind
  have hfind' := find_of_keeps hmakes.grows.keeps hmakes.here hfind
  rw [Found.on, foundAt, entry?_put d hne, if_pos rfl] at hfind'
  rw [isDirectory, hfind']

/-- **A directory that was made is there.** -/
theorem isDirectory_of_ensureDirectory {path : String} {d d' : Disk} (h : (ensureDirectory path).run d = (.ok (), d')) :
    path = "" ∨ d'.isDirectory path = true := by
  have hthere : ∀ {path : String} {d d' : Disk} {result : Except SystemError Unit}, MadeAll path d result d' →
      result = .ok () → path = "" ∨ d'.isDirectory path = true := by
    intro path d d' result hmade hr
    induction hmade with
    | empty d => exact .inl rfl
    | there hdirectory => exact .inr hdirectory
    | made hmake => exact .inr (isDirectory_of_makeDirectory hmake)
    | failed => cases hr
    | failedAbove => cases hr
    | behind hp above own iha iho => exact iho hr
  have hmade := madeAll_makeAll (path.length + 1) path d
  rw [run_ensureDirectory] at h
  obtain ⟨hresult, hafter⟩ := Prod.mk.inj h
  rw [hafter] at hmade
  exact hthere hmade (ok_of_mapError hresult)

/-- **A directory that is there is not made again.** -/
theorem ensureDirectory_of_isDirectory {path : String} {d : Disk} (h : d.isDirectory path = true) :
    (ensureDirectory path).run d = (.ok (), d) := by
  have hmake : d.makeDirectory path = .error .exists_ := by
    obtain ⟨slash, hfind⟩ := isDirectory_iff.mp h
    rw [makeDirectory, hfind]
    rfl
  have hall : makeAll (path.length + 1) path d = (.ok (), d) := by
    rw [makeAll]
    split
    · rfl
    · rw [hmake]
      dsimp only
      rw [if_neg (by decide)]
  rw [run_ensureDirectory, hall]
  rfl

end Filing

/-! ## 2. Directories that are tracked -/

/-- The name of the file that keeps a directory. -/
def keeper : String := ".gitkeep"

/-- Directories are made on the way of paths where nothing has been, and files that keep those at their ends in which
    there has been nothing. -/
structure Disk.Furnishes (paths : List String) (d d' : Disk) : Prop where
  stand : d'.toStandpoint = d.toStandpoint
  changed : ∀ x, d'.entry? x ≠ d.entry? x → d.entry? x = none ∧ ∃ path ∈ paths,
    x ∈ way d.here path ∧ d'.entry? x = some .directory ∨ x = target d.here path ++ [keeper] ∧
      d'.entry? x = some (.file .empty) ∧ ∀ name, d.entry? (target d.here path ++ [name]) = none

/-- Below a place directories are made where nothing has been, and files that keep directories in which there has been
    nothing. -/
structure Disk.Supplies (base : Place) (d d' : Disk) : Prop where
  stand : d'.toStandpoint = d.toStandpoint
  changed : ∀ x, d'.entry? x ≠ d.entry? x → d.entry? x = none ∧ Below base x ∧
    (d'.entry? x = some .directory ∨ d'.entry? x = some (.file .empty) ∧
      ∃ directory, x = directory ++ [keeper] ∧ ∀ name, d.entry? (directory ++ [name]) = none)

namespace Disk

variable {d d' d'' : Disk} {base : Place} {paths more : List String}

theorem Furnishes.here (h : Furnishes paths d d') : d'.here = d.here := congrArg Standpoint.here h.stand

theorem Furnishes.refl (paths : List String) (d : Disk) : Furnishes paths d d := ⟨rfl, fun _ hx => absurd rfl hx⟩

theorem Furnishes.mono (h : Furnishes paths d d') (hsub : paths ⊆ more) : Furnishes more d d' where
  stand := h.stand
  changed x hx := by
    obtain ⟨hnone, path, hp, hmade⟩ := h.changed x hx
    exact ⟨hnone, path, hsub hp, hmade⟩

/-- What is there stays as it is, -/
theorem Furnishes.kept (h : Furnishes paths d d') {x : Place} {e : Entry} (hx : d.entry? x = some e) :
    d'.entry? x = some e := kept_of_free (fun x hx => (h.changed x hx).1) hx

/-- and what is new is a directory on the way of one of the paths, or keeps the directory at its end. -/
theorem Furnishes.added (h : Furnishes paths d d') {x : Place} {e : Entry} (hnone : d.entry? x = none)
    (he : d'.entry? x = some e) : ∃ path ∈ paths,
      x ∈ way d.here path ∧ e = .directory ∨ x = target d.here path ++ [keeper] ∧ e = .file .empty := by
  have hne : d'.entry? x ≠ d.entry? x := by
    rw [he, hnone]
    exact Option.some_ne_none e
  obtain ⟨-, path, hp, hmade⟩ := h.changed x hne
  rw [he] at hmade
  exact ⟨path, hp, hmade.imp (And.imp_right Option.some_inj.mp) (And.imp_right fun hfile => Option.some_inj.mp hfile.1)⟩

theorem Furnishes.grows (h : Furnishes paths d d') : d.Grows d' := ⟨h.stand, fun _ e he => ⟨e, h.kept he, rfl⟩⟩

theorem Furnishes.trans (h : Furnishes paths d d') (h' : Furnishes paths d' d'') : Furnishes paths d d'' where
  stand := h'.stand.trans h.stand
  changed x hx := by
    have hfree : ∀ {y : Place}, d'.entry? y = none → d.entry? y = none := by
      intro y hy
      by_contra hsome
      obtain ⟨e, he⟩ := Option.ne_none_iff_exists'.mp hsome
      rw [h.kept he] at hy
      cases hy
    by_cases hfirst : d'.entry? x = d.entry? x
    · rw [← hfirst] at hx ⊢
      obtain ⟨hnone, path, hp, hmade⟩ := h'.changed x hx
      rw [h.here] at hmade
      exact ⟨hnone, path, hp, hmade.imp_right fun ⟨hplace, hfile, hempty⟩ =>
        ⟨hplace, hfile, fun name => hfree (hempty name)⟩⟩
    · obtain ⟨hnone, path, hp, hmade⟩ := h.changed x hfirst
      exact ⟨hnone, path, hp, hmade.imp (And.imp_right h'.kept) (And.imp_right (And.imp_left h'.kept))⟩

theorem Adds.furnishes {path : String} (h : Adds (way d.here path) d d') : Furnishes [path] d d' where
  stand := h.stand
  changed x hx := by
    obtain ⟨hmem, hnone, hmade⟩ := h.changed x hx
    exact ⟨hnone, path, List.mem_cons_self, .inl ⟨hmem, hmade⟩⟩

theorem Supplies.refl (base : Place) (d : Disk) : Supplies base d d := ⟨rfl, fun _ hx => absurd rfl hx⟩

/-- What is there stays as it is. -/
theorem Supplies.kept (h : Supplies base d d') {x : Place} {e : Entry} (hx : d.entry? x = some e) :
    d'.entry? x = some e := kept_of_free (fun x hx => (h.changed x hx).1) hx

theorem Supplies.free (h : Supplies base d d') {x : Place} (hx : d'.entry? x = none) : d.entry? x = none := by
  cases he : d.entry? x with
  | none => rfl
  | some e =>
      rw [h.kept he] at hx
      cases hx

theorem Supplies.grows (h : Supplies base d d') : d.Grows d' := ⟨h.stand, fun _ e he => ⟨e, h.kept he, rfl⟩⟩

theorem Supplies.trans (h : Supplies base d d') (h' : Supplies base d' d'') : Supplies base d d'' where
  stand := h'.stand.trans h.stand
  changed x hx := by
    by_cases hfirst : d'.entry? x = d.entry? x
    · rw [← hfirst] at hx ⊢
      obtain ⟨hnone, hbelow, hmade⟩ := h'.changed x hx
      refine ⟨hnone, hbelow, hmade.imp_right fun ⟨hfile, directory, hplace, hempty⟩ => ?_⟩
      exact ⟨hfile, directory, hplace, fun name => h.free (hempty name)⟩
    · obtain ⟨hnone, hbelow, hmade⟩ := h.changed x hfirst
      refine ⟨hnone, hbelow, ?_⟩
      rcases hmade with hmade | ⟨hmade, hempty⟩
      · exact .inl (h'.kept hmade)
      · exact .inr ⟨h'.kept hmade, hempty⟩

/-- A path leads below a place, and all on the way that is not below the place is there. -/
structure LeadsBelow (base : Place) (d : Disk) (path : String) : Prop where
  target : base <+: target d.here path
  way : ∀ x ∈ way d.here path, d.entry? x = some .directory ∨ Below base x

theorem LeadsBelow.grows {path : String} (h : d.LeadsBelow base path) (hg : d.Grows d') : d'.LeadsBelow base path where
  target := by
    rw [hg.here]
    exact h.target
  way := by
    rw [hg.here]
    exact fun x hx => (h.way x hx).imp_left (hg.keeps x)

/-- **What is made for paths that lead below a place is made below it.** -/
theorem Furnishes.supplies (h : Furnishes paths d d') (hp : ∀ path ∈ paths, d.LeadsBelow base path) :
    Supplies base d d' where
  stand := h.stand
  changed x hx := by
    obtain ⟨hnone, path, hm, ⟨hway, hmade⟩ | ⟨rfl, hmade, hempty⟩⟩ := h.changed x hx
    · refine ⟨hnone, ((hp path hm).way x hway).resolve_left fun hd => ?_, .inl hmade⟩
      rw [hnone] at hd
      cases hd
    · exact ⟨hnone, .trans (hp path hm).target (below_append _ (List.cons_ne_nil _ _)), .inr ⟨hmade, _, rfl, hempty⟩⟩

/-- A directory is there and may be listed. -/
structure Listable (d : Disk) (path : String) : Prop where
  directory : d.isDirectory path = true
  permitted : d.refuses .look (target d.here path) = false

theorem Listable.keeps {path : String} (h : d.Listable path) (hk : KeepsDirectories d d')
    (hs : d'.toStandpoint = d.toStandpoint) : d'.Listable path where
  directory := isDirectory_of_keeps hk (congrArg Standpoint.here hs) h.directory
  permitted := by
    rw [hs]
    exact h.permitted

/-- A directory is there, may be listed and holds something. -/
def IsTracked (d : Disk) (path : String) : Prop :=
  d.Listable path ∧ ∃ name, (d.entry? (target d.here path ++ [name])).isSome

theorem IsTracked.grows {path : String} (h : d.IsTracked path) (hg : d.Grows d') : d'.IsTracked path := by
  obtain ⟨hlistable, name, hname⟩ := h
  obtain ⟨e, he⟩ := Option.isSome_iff_exists.mp hname
  obtain ⟨e', he', -⟩ := hg.kind _ e he
  refine ⟨hlistable.keeps hg.keeps hg.stand, name, ?_⟩
  rw [hg.here, he']
  rfl

theorem childName?_append (directory : Place) (name : String) :
    childName? directory (directory ++ [name]) = some name := by
  unfold childName?
  rw [if_pos (List.isPrefixOf_iff_prefix.mpr (List.prefix_append _ _)), List.drop_left]

theorem eq_append_of_childName? {directory place : Place} {name : String} (h : childName? directory place = some name) :
    place = directory ++ [name] := by
  unfold childName? at h
  split at h
  · rename_i hprefix
    obtain ⟨rest, rfl⟩ := List.isPrefixOf_iff_prefix.mp hprefix
    rw [List.drop_left] at h
    split at h
    · rw [Option.some_inj.mp h]
    · cases h
  · cases h

theorem entry?_eq_lookup {place : Place} (hne : place ≠ []) : d.entry? place = d.entries.lookup place := by
  have hempty : place.isEmpty = false := by simpa using hne
  unfold entry?
  rw [hempty, if_neg Bool.false_ne_true]

theorem mem_entries_of_eq {place : Place} {entry : Entry} (h : d.entry? place = some entry) (hne : place ≠ []) :
    (place, entry) ∈ d.entries := by
  rw [entry?_eq_lookup hne] at h
  obtain ⟨before, after, hentries, -⟩ := List.lookup_eq_some_iff.mp h
  rw [hentries]
  exact List.mem_append_right _ List.mem_cons_self

theorem isSome_of_mem {place : Place} {entry : Entry} (h : (place, entry) ∈ d.entries) : (d.entry? place).isSome := by
  unfold entry?
  split
  · rfl
  · exact List.lookup_isSome_iff.mpr ⟨(place, entry), h, beq_self_eq_true place⟩

/-- **A directory has no children exactly if nothing stands right below it.** -/
theorem children_eq_nil_iff {place : Place} : d.children place = [] ↔ ∀ name, d.entry? (place ++ [name]) = none := by
  rw [children, List.filterMap_eq_nil_iff]
  constructor
  · intro h name
    cases he : d.entry? (place ++ [name]) with
    | none => rfl
    | some entry =>
        have hmem := mem_entries_of_eq he (List.append_ne_nil_of_right_ne_nil _ (List.cons_ne_nil _ _))
        have hchild := h _ hmem
        dsimp only at hchild
        rw [childName?_append] at hchild
        cases hchild
  · rintro h ⟨other, entry⟩ hmem
    dsimp only
    cases hchild : childName? place other with
    | none => rfl
    | some name =>
        have hsome := isSome_of_mem hmem
        rw [eq_append_of_childName? hchild, h name] at hsome
        cases hsome

end Disk

namespace Filing

theorem run_change (action path : String) (f : Disk → Except SystemError Disk) (d : Disk) :
    (change action path f).run d = match f d with
      | .ok d' => (.ok (), d')
      | .error e => (.error (.ofSystem action path e), d) := by
  rw [change]
  cases hf : f d with
  | error e => rw [run_ask_bind_of_error hf]
  | ok after =>
      rw [run_ask_bind_of_ok hf]
      rfl

/-- The file that keeps a directory is right in it. -/
theorem target_keeper (here : Place) (path : String) :
    target here (Path.join path keeper) = target here path ++ [keeper] := by
  have hsteps : Path.steps keeper = [keeper] := by decide
  rw [target_join (by decide), hsteps]
  rfl

section Tracked

variable {path : String} {d : Disk}

theorem list_eq_ok_iff {entries : List (String × Entry)} :
    d.list path = .ok entries ↔ d.Listable path ∧ entries = d.children (target d.here path) := by
  constructor
  · intro h
    obtain ⟨⟨found, slash⟩, hfind, hlist⟩ := bind_eq_ok.mp h
    have hleads := leads_find hfind
    cases found with
    | directory place =>
        obtain ⟨hpermitted, ⟨⟩⟩ := permit_bind_eq_ok.mp hlist
        rw [hleads.1] at hpermitted ⊢
        exact ⟨⟨by rw [isDirectory, hfind], hpermitted⟩, rfl⟩
    | file place content => cases hlist
    | absent place => cases hlist
  · rintro ⟨⟨hdirectory, hpermitted⟩, rfl⟩
    obtain ⟨slash, hfind⟩ := isDirectory_iff.mp hdirectory
    exact bind_eq_ok.mpr ⟨_, hfind, permit_bind_eq_ok.mpr ⟨hpermitted, rfl⟩⟩

/-- The file that keeps an empty directory is put where nothing has been. -/
theorem furnishes_touch (hempty : d.children (target d.here path) = []) :
    Furnishes [path] d ((touch (Path.join path keeper)).run d).2 := by
  rcases htouch : (touch (Path.join path keeper)).run d with ⟨e | ⟨⟩, d'⟩
  · rw [touch, write, run_change] at htouch
    split at htouch
    · cases htouch
    · cases htouch
      exact .refl _ d
  · obtain ⟨hne, rfl, -⟩ := put_write htouch
    rw [target_keeper] at hne ⊢
    rw [children_eq_nil_iff] at hempty
    refine ⟨rfl, fun x hx => ?_⟩
    rw [entry?_put d hne] at hx ⊢
    by_cases hplace : x = target d.here path ++ [keeper]
    · rw [if_pos hplace, hplace]
      exact ⟨hempty keeper, path, List.mem_cons_self, .inr ⟨rfl, rfl, hempty⟩⟩
    · rw [if_neg hplace] at hx
      exact absurd rfl hx

theorem ensureTracked_eq (path : String) : ensureTracked path =
    (ensureDirectory path >>= fun _ => ask "list" path (·.list path) >>= fun entries =>
      if entries.isEmpty then touch (Path.join path keeper) >>= fun _ => pure true else pure false) := rfl

/-- **A tracked directory changes nothing but on its way and right in it**, also if making it fails. -/
theorem furnishes_ensureTracked (path : String) (d : Disk) : Furnishes [path] d ((ensureTracked path).run d).2 := by
  have hadds := (adds_ensureDirectory path d).furnishes
  rw [ensureTracked_eq]
  rcases hmade : (ensureDirectory path).run d with ⟨e | ⟨⟩, d₁⟩
  · rw [hmade] at hadds
    rw [run_bind_of_error hmade]
    exact hadds
  rw [hmade] at hadds
  rw [run_bind_of_ok hmade]
  cases hlist : d₁.list path with
  | error e =>
      rw [run_ask_bind_of_error hlist]
      exact hadds
  | ok entries =>
      rw [run_ask_bind_of_ok hlist]
      cases hentries : entries.isEmpty with
      | false => exact hadds
      | true =>
          obtain ⟨-, rfl⟩ := list_eq_ok_iff.mp hlist
          have htouch := hadds.trans (furnishes_touch (List.isEmpty_iff.mp hentries))
          rw [if_pos rfl]
          rcases hrun : (touch (Path.join path keeper)).run d₁ with ⟨e | ⟨⟩, d₂⟩
          · rw [hrun] at htouch
            rw [run_bind_of_error hrun]
            exact htouch
          · rw [hrun] at htouch
            rw [run_bind_of_ok hrun]
            exact htouch

/-- **A tracked directory below a place changes nothing but there.** -/
theorem supplies_ensureTracked {base : Place} (h : d.LeadsBelow base path) :
    Supplies base d ((ensureTracked path).run d).2 :=
  (furnishes_ensureTracked path d).supplies (List.forall_mem_singleton.mpr h)

/-- **What has been made a tracked directory is one.** -/
theorem isTracked_of_ensureTracked {path : String} {made : Bool} {d d' : Disk}
    (h : (ensureTracked path).run d = (.ok made, d')) : d'.IsTracked path := by
  rw [ensureTracked_eq] at h
  obtain ⟨⟨⟩, d₁, -, h⟩ := run_bind_eq_ok.mp h
  obtain ⟨entries, _, hask, h⟩ := run_bind_eq_ok.mp h
  obtain ⟨hlist, rfl⟩ := ask_eq_ok_iff.mp hask
  obtain ⟨hlistable, rfl⟩ := list_eq_ok_iff.mp hlist
  cases hempty : (d₁.children (target d₁.here path)).isEmpty with
  | true =>
      rw [hempty, if_pos rfl] at h
      obtain ⟨⟨⟩, d₂, htouch, h⟩ := run_bind_eq_ok.mp h
      cases h
      obtain ⟨hne, rfl, -⟩ := put_write htouch
      have hleft : Left [.writeFile (Path.join path keeper) ""] d₁ _ := left_perform htouch
      have hgrows := hleft.grows
      refine ⟨hlistable.keeps hgrows.keeps hgrows.stand, keeper, ?_⟩
      rw [hgrows.here, ← target_keeper, entry?_put d₁ hne, if_pos rfl]
      rfl
  | false =>
      rw [hempty, if_neg Bool.false_ne_true] at h
      cases h
      refine ⟨hlistable, ?_⟩
      by_contra hnone
      simp only [not_exists, Option.not_isSome_iff_eq_none] at hnone
      rw [children_eq_nil_iff.mpr hnone] at hempty
      cases hempty

/-- **A tracked directory is left as it is.** -/
theorem ensureTracked_of_isTracked (h : d.IsTracked path) : (ensureTracked path).run d = (.ok false, d) := by
  obtain ⟨hlistable, name, hname⟩ := h
  have hempty : (d.children (target d.here path)).isEmpty = false := by
    rw [Bool.eq_false_iff]
    intro he
    rw [children_eq_nil_iff.mp (List.isEmpty_iff.mp he) name] at hname
    cases hname
  rw [ensureTracked_eq, run_bind_of_ok (ensureDirectory_of_isDirectory hlistable.directory),
    run_ask_bind_of_ok (list_eq_ok_iff.mpr ⟨hlistable, rfl⟩), hempty]
  rfl

end Tracked

/-! ## 4. One after the other -/

/-- Makes tracked directories one after the other. -/
def ensureAllTracked : List String → Filing Unit
  | [] => pure ()
  | path :: rest => ensureTracked path >>= fun _ => ensureAllTracked rest

/-- **Tracked directories below a place change nothing but there**, up to the first that fails. -/
theorem supplies_ensureAllTracked {base : Place} {paths : List String} {d : Disk}
    (h : ∀ path ∈ paths, d.LeadsBelow base path) : Supplies base d ((ensureAllTracked paths).run d).2 := by
  induction paths generalizing d with
  | nil => exact .refl base d
  | cons path rest ih =>
      rw [List.forall_mem_cons] at h
      have hfirst := supplies_ensureTracked h.1
      rw [ensureAllTracked]
      rcases hrun : (ensureTracked path).run d with ⟨e | made, d₁⟩
      · rw [hrun] at hfirst
        rw [run_bind_of_error hrun]
        exact hfirst
      · rw [hrun] at hfirst
        rw [run_bind_of_ok hrun]
        exact hfirst.trans (ih fun path hp => (h.2 path hp).grows hfirst.grows)

theorem isTracked_of_ensureAllTracked {base : Place} {paths : List String} {d d' : Disk}
    (hp : ∀ path ∈ paths, d.LeadsBelow base path) (h : (ensureAllTracked paths).run d = (.ok (), d')) :
    ∀ path ∈ paths, d'.IsTracked path := by
  induction paths generalizing d with
  | nil => exact List.forall_mem_nil _
  | cons path rest ih =>
      rw [List.forall_mem_cons] at hp
      have hfirst := supplies_ensureTracked hp.1
      obtain ⟨made, d₁, hrun, hmore⟩ := run_bind_eq_ok.mp h
      rw [hrun] at hfirst
      have hrest : ∀ path ∈ rest, d₁.LeadsBelow base path := fun path hm => (hp.2 path hm).grows hfirst.grows
      have hgrows := (supplies_ensureAllTracked hrest).grows
      rw [hmore] at hgrows
      exact List.forall_mem_cons.mpr ⟨(isTracked_of_ensureTracked hrun).grows hgrows, ih hrest hmore⟩

/-- **Tracked directories are left as they are.** -/
theorem ensureAllTracked_of_isTracked {paths : List String} {d : Disk} (h : ∀ path ∈ paths, d.IsTracked path) :
    (ensureAllTracked paths).run d = (.ok (), d) := by
  induction paths with
  | nil => rfl
  | cons path rest ih =>
      rw [List.forall_mem_cons] at h
      rw [ensureAllTracked, run_bind_of_ok (ensureTracked_of_isTracked h.1), ih h.2]

end Filing

end RouteScaffold
