import RouteScaffold.Git.InMemory
import RouteScaffold.Pattern.Search
import RouteScaffold.Template.Engine

/-!
# Libraries of a run

What a run leaves to libraries: to read and render templates, to read patterns, and to keep repositories, whose states
are of a type of the library's own.
-/

namespace RouteScaffold

/-- The libraries of a run. -/
structure Libraries (σ : Type) where
  templates : TemplateEngine
  patterns : PatternEngine
  git : Git.Library σ

/-- The libraries of this project: its own engines for templates and patterns, and repositories that are kept in
memory. -/
def Libraries.standard : Libraries Git.Memory := ⟨.standard, .standard, .inMemory⟩

end RouteScaffold
