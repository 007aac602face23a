import RouteScaffold.Name
import RouteScaffold.Text.Markup

/-!
# Generated components

The texts of the components that are generated for a key: a layout, with or without the sidebar, a view
and the index that hands the view on. Each is given line by line.
-/

namespace RouteScaffold.Component

/-! ## 1. Layouts -/

/-- The component of a layout. -/
def layout (key : String) : String :=
  let name := Name.layout key
  Text.unlines
    ["import React from \"react\";",
     "",
     "// Libraries",
     "import \x7b Outlet \x7d from \"react-router-dom\";",
     "",
     "// Styles",
     "// import Style from \"./" ++ name ++ ".module.css\";",
     "",
     "const " ++ name ++ " = () => \x7b",
     "  return (",
     "    <div>",
     "      <main>",
     "        <Outlet />",
     "      </main>",
     "    </div>",
     "  );",
     "\x7d;",
     "",
     "export default " ++ name ++ ";"]

/-- The component of a layout with the sidebar. -/
def sidebarLayout (key : String) : String :=
  let name := Name.layout key
  Text.unlines
    ["import React, \x7b useState \x7d from \"react\";",
     "",
     "// Components",
     "import Sidebar from \"../../Components/UIKit/Sidebar/Sidebar\";",
     "import Navbar from \"../../Components/UIKit/Navbar/Navbar\";",
     "",
     "// Libraries",
     "import \x7b Outlet \x7d from \"react-router-dom\";",
     "",
     "// Data",
     "import \x7b routes \x7d from \"../../Data/routes\";",
     "",
     "// Styles",
     "import Style from \"./" ++ name ++ ".module.css\";",
     "",
     "const " ++ name ++ " = () => \x7b",
     "  const [sidebarIsOpen, setSidebarIsOpen] = useState(false);",
     "",
     "  const closeSidebar = () => \x7b",
     "    if (window.innerWidth < 991 && sidebarIsOpen) \x7b",
     "      setSidebarIsOpen(false);",
     "    \x7d",
     "  \x7d;",
     "",
     "  return (",
     "    <div className=\x7bStyle.layouting\x7d>",
     "      <Sidebar sidebarIsOpen=\x7bsidebarIsOpen\x7d route=\x7broutes[\"" ++ Text.escapeMarkup key ++ "\"]\x7d />",
     "      <div className=\x7bStyle.mainContainer\x7d onClick=\x7b() => closeSidebar()\x7d>",
     "        <Navbar",
     "          sidebarIsOpen=\x7bsidebarIsOpen\x7d",
     "          setSidebarIsOpen=\x7bsetSidebarIsOpen\x7d",
     "        />",
     "        <main className=\x7bStyle.contentContainer\x7d>",
     "          <Outlet />",
     "        </main>",
     "      </div>",
     "    </div>",
     "  );",
     "\x7d;",
     "",
     "export default " ++ name ++ ";"]

/-- The stylesheet of a layout with the sidebar. -/
def sidebarStylesheet : String :=
  Text.unlines
    [".layouting \x7b",
     "  display: flex;",
     "  min-height: 100vh;",
     "  width: 100%;",
     "\x7d",
     "",
     ".mainContainer \x7b",
     "  display: flex;",
     "  flex: 1;",
     "  flex-direction: column;",
     "  min-width: 0;",
     "\x7d",
     "",
     ".contentContainer \x7b",
     "  flex: 1;",
     "  padding: 2rem;",
     "  overflow-x: hidden;",
     "\x7d",
     "",
     "@media (max-width: 991px) \x7b",
     "  .contentContainer \x7b",
     "    padding: 1rem;",
     "  \x7d",
     "\x7d"]

/-! ## 2. Views -/

/-- Lines that are there only under a condition. -/
def onlyIf (condition : Bool) (lines : List String) : List String := if condition then lines else []

/-- The component of a view. -/
def view (key title : String) (sitemap : Bool) : String :=
  let name := Name.view key
  Text.unlines <|
    ["import React from \"react\";", ""] ++
    onlyIf sitemap
      ["// Data", "import \x7b sitemap \x7d from \"../../../Data/routes\";", ""] ++
    ["// Styles",
     "// import Style from \"./" ++ name ++ ".module.css\";",
     "",
     "const " ++ name ++ " = () => \x7b",
     "  return (",
     "    <div>",
     "      <h2>" ++ Text.jsxText title ++ "</h2>",
     "      <p>Under construction</p>"] ++
    onlyIf sitemap ["      \x7bsitemap\x7d"] ++
    ["    </div>",
     "  );",
     "\x7d;",
     "",
     "export default " ++ name ++ ";"]

/-- The index of a view's directory. -/
def viewIndex (key : String) : String :=
  Text.unlines
    ["export \x7b default \x7d from \"./" ++ Name.view key ++ "\";"]

end RouteScaffold.Component
