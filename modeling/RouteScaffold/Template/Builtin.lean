import RouteScaffold.Template.Engine
import RouteScaffold.Text.Markup

/-!
# Built-in templates

The texts of the templates that a run begins with (`Slot.source`).
-/

namespace RouteScaffold.Slot

/-- The built-in template of a kind. -/
def source (slot : Slot) : String :=
  Text.unlines <|
    match slot with
    | .layout =>
      ["import React from \"react\";",
       "",
       "// Libraries",
       "import \x7b Outlet \x7d from \"react-router-dom\";",
       "",
       "// Styles",
       "// import Style from \"./\x7b\x7blayoutName componentKey\x7d\x7d.module.css\";",
       "",
       "const \x7b\x7blayoutName componentKey\x7d\x7d = () => \x7b",
       "  return (",
       "    <div>",
       "      <main>",
       "        <Outlet />",
       "      </main>",
       "    </div>",
       "  );",
       "\x7d;",
       "",
       "export default \x7b\x7blayoutName componentKey\x7d\x7d;"]
    | .sidebarLayout =>
      ["import React, \x7b useState \x7d from \"react\";",
       "",
       "// Components",
       "import Sidebar from \"../../Components/UIKit/Sidebar/Sidebar\";",
       "import Navbar from \"../../Components/UIKit/Navbar/Navbar\";",
       "",
       "// Libraries",
       "import \x7b Outlet \x7d from \"react-router-dom\";",
       "",
       "// Data",
       "import \x7b routes \x7d from \"../../Data/routes\";",
       "",
       "// Styles",
       "import Style from \"./\x7b\x7blayoutName componentKey\x7d\x7d.module.css\";",
       "",
       "const \x7b\x7blayoutName componentKey\x7d\x7d = () => \x7b",
       "  const [sidebarIsOpen, setSidebarIsOpen] = useState(false);",
       "",
       "  const closeSidebar = () => \x7b",
       "    if (window.innerWidth < 991 && sidebarIsOpen) \x7b",
       "      setSidebarIsOpen(false);",
       "    \x7d",
       "  \x7d;",
       "",
       "  return (",
       "    <div className=\x7bStyle.layouting\x7d>",
       "      <Sidebar sidebarIsOpen=\x7bsidebarIsOpen\x7d route=\x7broutes[\"\x7b\x7bcomponentKey\x7d\x7d\"]\x7d />",
       "      <div className=\x7bStyle.mainContainer\x7d onClick=\x7b() => closeSidebar()\x7d>",
       "        <Navbar",
       "          sidebarIsOpen=\x7bsidebarIsOpen\x7d",
       "          setSidebarIsOpen=\x7bsetSidebarIsOpen\x7d",
       "        />",
       "        <main className=\x7bStyle.contentContainer\x7d>",
       "          <Outlet />",
       "        </main>",
       "      </div>",
       "    </div>",
       "  );",
       "\x7d;",
       "",
       "export default \x7b\x7blayoutName componentKey\x7d\x7d;"]
    | .view =>
      ["import React from \"react\";",
       "",
       "\x7b\x7b#if sitemap\x7d\x7d",
       "// Data",
       "import \x7b sitemap \x7d from \"../../../Data/routes\";",
       "",
       "\x7b\x7b/if\x7d\x7d",
       "// Styles",
       "// import Style from \"./\x7b\x7bviewName componentKey\x7d\x7d.module.css\";",
       "",
       "const \x7b\x7bviewName componentKey\x7d\x7d = () => \x7b",
       "  return (",
       "    <div>",
       "      <h2>\x7b\x7bjsxText title\x7d\x7d</h2>",
       "      <p>Under construction</p>",
       "\x7b\x7b#if sitemap\x7d\x7d",
       "      \x7bsitemap\x7d",
       "\x7b\x7b/if\x7d\x7d",
       "    </div>",
       "  );",
       "\x7d;",
       "",
       "export default \x7b\x7bviewName componentKey\x7d\x7d;"]
    | .viewIndex =>
      ["export \x7b default \x7d from \"./\x7b\x7bviewName componentKey\x7d\x7d\";"]
    | .routes =>
      ["import \x7b Route \x7d from \"react-router-dom\";",
       "\x7b\x7b#if icons\x7d\x7d",
       "",
       "// Icons",
       "import \x7b \x7b\x7b\x7bicons\x7d\x7d\x7d \x7d from \"\x7b\x7b\x7biconPackage\x7d\x7d\x7d\";",
       "\x7b\x7b/if\x7d\x7d",
       "",
       "// Layouts",
       "\x7b\x7b#each layouts\x7d\x7d",
       "import \x7b\x7b\x7bbinding\x7d\x7d\x7d from \"\x7b\x7b\x7bsource\x7d\x7d\x7d\";",
       "\x7b\x7b/each\x7d\x7d",
       "\x7b\x7b#each viewGroups\x7d\x7d",
       "",
       "// \x7b\x7bcamelName layoutKey\x7d\x7d Views",
       "\x7b\x7b#each views\x7d\x7d",
       "import \x7b\x7b\x7bbinding\x7d\x7d\x7d from \"\x7b\x7b\x7bsource\x7d\x7d\x7d\";",
       "\x7b\x7b/each\x7d\x7d",
       "\x7b\x7b/each\x7d\x7d",
       "",
       "const routes = \x7b\x7b\x7broutes\x7d\x7d\x7d;",
       "",
       "\x7b\x7b\x7bruntime\x7d\x7d\x7d"]

end RouteScaffold.Slot
