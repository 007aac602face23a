import RouteScaffold.Config.Load
import RouteScaffold.Proofs.Joining

/-!
# Accepted configurations

What a configuration is asked for (`check_ok_iff`), and what of its settings that ensures: its directories stay below
the sources (`plain_directory`), while its package of icons is any text that is not blank (`check_iconPackage_iff`).
-/

namespace RouteScaffold.Config

variable {engine : PatternEngine} {config : Config}

theorem check_ok_iff : config.check engine = .ok config ↔ config.flaws engine = [] := by
  unfold check
  cases config.flaws engine with
  | nil => exact iff_of_true rfl rfl
  | cons flaw more => exact iff_of_false (fun h => by cases h) (List.cons_ne_nil _ _)

/-- **The directories of an accepted configuration are relative and go up nowhere**. -/
theorem plain_directory (h : config.check engine = .ok config) {directory : String}
    (hd : directory ∈ config.directories) :
    Path.isAbsolute directory = false ∧ .parent ∉ Path.components directory := by
  rw [check_ok_iff, flaws] at h
  simp only [List.append_eq_nil_iff, List.map_eq_nil_iff, List.filter_eq_nil_iff] at h
  have hstray := h.1.1.2 directory hd
  rw [isStray, Bool.or_eq_true, not_or, Option.isNone_iff_eq_none] at hstray
  obtain ⟨joined, hjoined⟩ := Option.ne_none_iff_exists'.mp hstray.2
  exact (Path.below?_eq_some_iff.mp hjoined).1

/-- **Of its package an accepted configuration is asked only that it is not blank.** -/
theorem check_iconPackage_iff (h : config.check engine = .ok config) (package : String) :
    ({ config with iconPackage := package } : Config).check engine = .ok { config with iconPackage := package } ↔
      isBlank package = false := by
  rw [check_ok_iff, flaws] at h ⊢
  simp only [List.append_eq_nil_iff] at h ⊢
  obtain ⟨⟨⟨⟨htools, hpattern⟩, hdirectories⟩, -⟩, hmessage⟩ := h
  rw [htools, hpattern, hdirectories, hmessage]
  cases isBlank package with
  | false => exact iff_of_true ⟨⟨⟨⟨rfl, rfl⟩, rfl⟩, rfl⟩, rfl⟩ rfl
  | true => exact iff_of_false (fun hn => List.cons_ne_nil _ _ hn.1.2) Bool.false_ne_true.symm

end RouteScaffold.Config
