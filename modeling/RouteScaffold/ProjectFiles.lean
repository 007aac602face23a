import RouteScaffold.Artifact
import RouteScaffold.Path
import RouteScaffold.Text.Markup

/-!
# The files of every project

The files that every project gets as they are, by their paths in the project: the root of the application,
logos, the bar at the top, the sidebar, and the view of paths without a route. `ProjectFiles.groups` plans
them by directory.
-/

namespace RouteScaffold.ProjectFiles

/-! ## 1. The texts, line by line -/

/-- The root of the application. -/
def app : String :=
  Text.unlines
    ["// Libraries",
     "import \x7b BrowserRouter, Routes, Route \x7d from \"react-router-dom\";",
     "import \x7b generateApiClient, ApiProvider \x7d from \"@hybris-software/use-query\";",
     "import \x7b AuthProvider \x7d from \"@hybris-software/use-auth\";",
     "",
     "// Data",
     "import config from \"./Data/config\";",
     "import \x7b routeComponents \x7d from \"./Data/routes\";",
     "",
     "// Views",
     "import NotFoundView from \"./Views/Generic/NotFoundView\";",
     "",
     "function App() \x7b",
     "  const apiClient = generateApiClient(\x7b",
     "    baseUrl: config.API_BASE_URL,",
     "    authorizationHeader: \"Authorization\",",
     "    authorizationPrefix: \"Bearer\",",
     "  \x7d);",
     "",
     "  const authUrl = `$\x7bconfig.API_BASE_URL\x7d/auth`;",
     "",
     "  return (",
     "    <BrowserRouter>",
     "      <ApiProvider apiClient=\x7bapiClient\x7d>",
     "        <AuthProvider apiClient=\x7bapiClient\x7d authUrl=\x7bauthUrl\x7d>",
     "          <Routes>",
     "            \x7brouteComponents\x7d",
     "            <Route path=\"*\" element=\x7b<NotFoundView />\x7d />",
     "          </Routes>",
     "        </AuthProvider>",
     "      </ApiProvider>",
     "    </BrowserRouter>",
     "  );",
     "\x7d",
     "",
     "export default App;"]

/-- The logo with its name. -/
def logoBlack : String :=
  Text.unlines
    ["<svg xmlns=\"http://www.w3.org/2000/svg\" width=\"160\" height=\"40\" viewBox=\"0 0 160 40\">",
     "  <circle cx=\"20\" cy=\"20\" r=\"16\" fill=\"none\" stroke=\"#23262f\" stroke-width=\"3\"/>",
     "  <circle cx=\"20\" cy=\"20\" r=\"4\" fill=\"#23262f\"/>",
     "  <text x=\"44\" y=\"27\" font-family=\"sans-serif\" font-size=\"18\" font-weight=\"700\" fill=\"#23262f\">magic react</text>",
     "</svg>"]

/-- The logo alone. -/
def logoCompact : String :=
  Text.unlines
    ["<svg xmlns=\"http://www.w3.org/2000/svg\" width=\"40\" height=\"40\" viewBox=\"0 0 40 40\">",
     "  <circle cx=\"20\" cy=\"20\" r=\"16\" fill=\"none\" stroke=\"#23262f\" stroke-width=\"3\"/>",
     "  <circle cx=\"20\" cy=\"20\" r=\"4\" fill=\"#23262f\"/>",
     "</svg>"]

/-- The bar at the top of a page. -/
def navbar : String :=
  Text.unlines
    ["import React from \"react\";",
     "",
     "// Icons",
     "import \x7b BiMenuAltLeft \x7d from \"react-icons/bi\";",
     "import \x7b HiOutlineMenuAlt1 \x7d from \"react-icons/hi\";",
     "",
     "// Styles",
     "import Style from \"./Navbar.module.css\";",
     "",
     "const Navbar = (\x7b sidebarIsOpen, setSidebarIsOpen \x7d) => \x7b",
     "  return (",
     "    <div className=\x7bStyle.mainContainer\x7d>",
     "      <div className=\x7bStyle.content\x7d>",
     "        <div className=\x7bStyle.contentLeft\x7d>",
     "          <div",
     "            className=\x7bStyle.menuButton\x7d",
     "            onClick=\x7b() => setSidebarIsOpen(!sidebarIsOpen)\x7d",
     "          >",
     "            \x7bsidebarIsOpen ? <BiMenuAltLeft /> : <HiOutlineMenuAlt1 />\x7d",
     "          </div>",
     "        </div>",
     "      </div>",
     "    </div>",
     "  );",
     "\x7d;",
     "",
     "export default Navbar;"]

/-- The stylesheet of the bar at the top. -/
def navbarStylesheet : String :=
  Text.unlines
    [".mainContainer \x7b",
     "  position: sticky;",
     "  top: 0;",
     "  z-index: 10;",
     "  background: #ffffff;",
     "  border-bottom: 1px solid #e6e8ec;",
     "\x7d",
     "",
     ".content \x7b",
     "  display: flex;",
     "  align-items: center;",
     "  justify-content: space-between;",
     "  height: 64px;",
     "  padding: 0 1.5rem;",
     "\x7d",
     "",
     ".contentLeft \x7b",
     "  display: flex;",
     "  align-items: center;",
     "\x7d",
     "",
     ".menuButton \x7b",
     "  display: flex;",
     "  cursor: pointer;",
     "  font-size: 1.75rem;",
     "  color: #23262f;",
     "\x7d"]

/-- The sidebar with its entries. -/
def sidebar : String :=
  Text.unlines
    ["import React, \x7b useState \x7d from \"react\";",
     "",
     "// Components",
     "import \x7b Link, useLocation \x7d from \"react-router-dom\";",
     "",
     "// Assets",
     "import LogoBlack from \"../../../Assets/logos/logo-black.svg\";",
     "import LogoCompact from \"../../../Assets/logos/logo-compact.svg\";",
     "import \x7b FiChevronDown \x7d from \"react-icons/fi\";",
     "",
     "// Hooks",
     "import useMediaQuery from \"../../../Hooks/useMediaQuery\";",
     "",
     "// Utils",
     "import classNames from \"../../../Utils/classNames\";",
     "",
     "// Styles",
     "import Style from \"./Sidebar.module.css\";",
     "",
     "const joinPath = (parentPath, path) =>",
     "  parentPath.endsWith(\"/\") && path.startsWith(\"/\")",
     "    ? parentPath + path.slice(1)",
     "    : parentPath + path;",
     "",
     "const sidebarClass = (sidebarIsOpen, over, isDesktop) => \x7b",
     "  if (isDesktop) \x7b",
     "    return sidebarIsOpen || over ? Style.sidebar : Style.sidebarCollapse;",
     "  \x7d",
     "  return sidebarIsOpen ? Style.sidebarMobile : Style.sidebarCollapseMobile;",
     "\x7d;",
     "",
     "const entryClass = (href, location) =>",
     "  location.pathname === href ? Style.elementActive : Style.element;",
     "",
     "const Sidebar = (\x7b route, sidebarIsOpen \x7d) => \x7b",
     "  const views = route.routes || \x7b\x7d;",
     "  const [over, setOver] = useState(false);",
     "  const [openDropdowns, setOpenDropdowns] = useState(",
     "    Object.keys(views).map(() => false)",
     "  );",
     "  const isDesktop = useMediaQuery(\"(min-width: 991px)\");",
     "  const expanded = sidebarIsOpen || over;",
     "",
     "  const setDropdownOpen = (index, open) => \x7b",
     "    setOpenDropdowns((current) => \x7b",
     "      const next = [...current];",
     "      next[index] = open;",
     "      return next;",
     "    \x7d);",
     "  \x7d;",
     "",
     "  return (",
     "    <div",
     "      className=\x7bsidebarClass(sidebarIsOpen, over, isDesktop)\x7d",
     "      onMouseOver=\x7b() => setOver(true)\x7d",
     "      onMouseLeave=\x7b() => setOver(false)\x7d",
     "    >",
     "      <div className=\x7bStyle.boxLogo\x7d>",
     "        \x7bisDesktop && expanded ? (",
     "          <img src=\x7bLogoBlack\x7d alt=\"Logo\" />",
     "        ) : (",
     "          <img src=\x7bLogoCompact\x7d alt=\"\" />",
     "        )\x7d",
     "      </div>",
     "",
     "      <div className=\x7bStyle.boxNav\x7d>",
     "        <nav className=\x7bStyle.navigator\x7d>",
     "          <ul>",
     "            \x7bObject.entries(views).map(([key, view], i) =>",
     "              view.routes ? (",
     "                <NavMenu",
     "                  key=\x7bkey\x7d",
     "                  route=\x7bview\x7d",
     "                  basePath=\x7broute.path\x7d",
     "                  isOpen=\x7bexpanded && openDropdowns[i]\x7d",
     "                  setOpen=\x7b(open) => setDropdownOpen(i, open)\x7d",
     "                />",
     "              ) : (",
     "                <NavSimple key=\x7bkey\x7d route=\x7bview\x7d basePath=\x7broute.path\x7d />",
     "              )",
     "            )\x7d",
     "          </ul>",
     "        </nav>",
     "      </div>",
     "    </div>",
     "  );",
     "\x7d;",
     "",
     "const Label = (\x7b icon, title, children \x7d) => (",
     "  <div className=\x7bStyle.innerCategory\x7d>",
     "    <div className=\x7bStyle.icon\x7d>\x7bicon\x7d</div>",
     "    <span className=\x7bStyle.categoryText\x7d>\x7btitle\x7d</span>",
     "    \x7bchildren\x7d",
     "  </div>",
     ");",
     "",
     "const NavSimple = (\x7b route, basePath \x7d) => \x7b",
     "  const location = useLocation();",
     "  const href = joinPath(basePath, route.path);",
     "",
     "  return (",
     "    <li className=\x7bentryClass(href, location)\x7d>",
     "      <Link to=\x7bhref\x7d className=\x7bStyle.mainCategory\x7d>",
     "        <Label icon=\x7broute.icon\x7d title=\x7broute.title\x7d />",
     "      </Link>",
     "    </li>",
     "  );",
     "\x7d;",
     "",
     "const NavMenu = (\x7b route, basePath, isOpen, setOpen \x7d) => \x7b",
     "  const location = useLocation();",
     "  const href = joinPath(basePath, route.path);",
     "",
     "  return (",
     "    <li className=\x7bentryClass(href, location)\x7d>",
     "      <div",
     "        className=\x7bisOpen ? Style.mainCategoryOpen : Style.mainCategory\x7d",
     "        onClick=\x7b() => setOpen(!isOpen)\x7d",
     "      >",
     "        <Label icon=\x7broute.icon\x7d title=\x7broute.title\x7d>",
     "          <FiChevronDown",
     "            className=\x7bclassNames(Style.arrow, \x7b",
     "              class: Style.arrowActive,",
     "              condition: isOpen,",
     "            \x7d)\x7d",
     "          />",
     "        </Label>",
     "      </div>",
     "      <ul",
     "        className=\x7bclassNames(Style.dropdown, \x7b",
     "          class: Style.dropdownOpen,",
     "          condition: isOpen,",
     "        \x7d)\x7d",
     "      >",
     "        <li>",
     "          <Link",
     "            to=\x7bhref\x7d",
     "            className=\x7b",
     "              location.pathname === href ? Style.subElementActive : Style.subElement",
     "            \x7d",
     "          >",
     "            \x7broute.title\x7d",
     "          </Link>",
     "        </li>",
     "        \x7bObject.entries(route.routes).map(([key, child]) => (",
     "          <DropdownElement key=\x7bkey\x7d route=\x7bchild\x7d basePath=\x7bhref\x7d />",
     "        ))\x7d",
     "      </ul>",
     "    </li>",
     "  );",
     "\x7d;",
     "",
     "const DropdownElement = (\x7b route, basePath \x7d) => \x7b",
     "  const location = useLocation();",
     "  const href = joinPath(basePath, route.path);",
     "",
     "  return (",
     "    <>",
     "      <li>",
     "        <Link",
     "          to=\x7bhref\x7d",
     "          className=\x7b",
     "            location.pathname === href ? Style.subElementActive : Style.subElement",
     "          \x7d",
     "        >",
     "          \x7broute.title\x7d",
     "        </Link>",
     "      </li>",
     "      \x7broute.routes &&",
     "        Object.entries(route.routes).map(([key, child]) => (",
     "          <DropdownElement key=\x7bkey\x7d route=\x7bchild\x7d basePath=\x7bhref\x7d />",
     "        ))\x7d",
     "    </>",
     "  );",
     "\x7d;",
     "",
     "export default Sidebar;"]

/-- The stylesheet of the sidebar. -/
def sidebarStylesheet : String :=
  Text.unlines
    [".sidebar,",
     ".sidebarCollapse,",
     ".sidebarMobile,",
     ".sidebarCollapseMobile \x7b",
     "  display: flex;",
     "  flex-direction: column;",
     "  height: 100vh;",
     "  position: sticky;",
     "  top: 0;",
     "  background: #ffffff;",
     "  border-right: 1px solid #e6e8ec;",
     "  overflow: hidden;",
     "  transition: width 0.2s ease;",
     "  z-index: 20;",
     "\x7d",
     "",
     ".sidebar \x7b",
     "  width: 260px;",
     "\x7d",
     "",
     ".sidebarCollapse \x7b",
     "  width: 72px;",
     "\x7d",
     "",
     ".sidebarMobile,",
     ".sidebarCollapseMobile \x7b",
     "  position: fixed;",
     "  left: 0;",
     "\x7d",
     "",
     ".sidebarMobile \x7b",
     "  width: 260px;",
     "\x7d",
     "",
     ".sidebarCollapseMobile \x7b",
     "  width: 0;",
     "  border-right: none;",
     "\x7d",
     "",
     ".boxLogo \x7b",
     "  display: flex;",
     "  align-items: center;",
     "  height: 64px;",
     "  padding: 0 1rem;",
     "\x7d",
     "",
     ".boxLogo img \x7b",
     "  max-height: 40px;",
     "\x7d",
     "",
     ".boxNav \x7b",
     "  flex: 1;",
     "  overflow-y: auto;",
     "\x7d",
     "",
     ".navigator ul \x7b",
     "  list-style: none;",
     "  margin: 0;",
     "  padding: 0;",
     "\x7d",
     "",
     ".element,",
     ".elementActive \x7b",
     "  margin: 0.25rem 0.75rem;",
     "  border-radius: 8px;",
     "\x7d",
     "",
     ".elementActive \x7b",
     "  background: #f4f5f6;",
     "\x7d",
     "",
     ".mainCategory,",
     ".mainCategoryOpen \x7b",
     "  display: block;",
     "  padding: 0.75rem;",
     "  color: #23262f;",
     "  text-decoration: none;",
     "  cursor: pointer;",
     "\x7d",
     "",
     ".mainCategoryOpen \x7b",
     "  font-weight: 600;",
     "\x7d",
     "",
     ".innerCategory \x7b",
     "  display: flex;",
     "  align-items: center;",
     "  white-space: nowrap;",
     "\x7d",
     "",
     ".icon \x7b",
     "  display: flex;",
     "  width: 20px;",
     "  margin-right: 10px;",
     "\x7d",
     "",
     ".categoryText \x7b",
     "  flex: 1;",
     "\x7d",
     "",
     ".arrow \x7b",
     "  transition: transform 0.2s ease;",
     "\x7d",
     "",
     ".arrowActive \x7b",
     "  transform: rotate(180deg);",
     "\x7d",
     "",
     ".dropdown \x7b",
     "  max-height: 0;",
     "  overflow: hidden;",
     "  transition: max-height 0.2s ease;",
     "\x7d",
     "",
     ".dropdownOpen \x7b",
     "  max-height: 100vh;",
     "\x7d",
     "",
     ".subElement,",
     ".subElementActive \x7b",
     "  display: block;",
     "  padding: 0.5rem 0.75rem 0.5rem 2.75rem;",
     "  color: #777e90;",
     "  text-decoration: none;",
     "  white-space: nowrap;",
     "\x7d",
     "",
     ".subElementActive \x7b",
     "  color: #23262f;",
     "  font-weight: 600;",
     "\x7d"]

/-- The settings of the application. -/
def settings : String :=
  Text.unlines
    ["const config = \x7b",
     "  API_BASE_URL: process.env.REACT_APP_API_BASE_URL || \"http://localhost:8000/api\",",
     "\x7d;",
     "",
     "export default config;"]

/-- Whether a media query holds. -/
def mediaQuery : String :=
  Text.unlines
    ["import \x7b useEffect, useState \x7d from \"react\";",
     "",
     "const getMatches = (query) =>",
     "  typeof window !== \"undefined\" && window.matchMedia(query).matches;",
     "",
     "const useMediaQuery = (query) => \x7b",
     "  const [matches, setMatches] = useState(() => getMatches(query));",
     "",
     "  useEffect(() => \x7b",
     "    const mediaQueryList = window.matchMedia(query);",
     "    const onChange = () => setMatches(mediaQueryList.matches);",
     "",
     "    onChange();",
     "    mediaQueryList.addEventListener(\"change\", onChange);",
     "    return () => mediaQueryList.removeEventListener(\"change\", onChange);",
     "  \x7d, [query]);",
     "",
     "  return matches;",
     "\x7d;",
     "",
     "export default useMediaQuery;"]

/-- The joining of class names. -/
def classNames : String :=
  Text.unlines
    ["// classNames(Style.base, \x7b class: Style.active, condition: isOpen \x7d, ...)",
     "const classNames = (...items) =>",
     "  items",
     "    .map((item) => \x7b",
     "      if (!item) return null;",
     "      if (typeof item === \"string\") return item;",
     "      return item.condition ? item.class : null;",
     "    \x7d)",
     "    .filter(Boolean)",
     "    .join(\" \");",
     "",
     "export default classNames;"]

/-- The view of paths without a route. -/
def notFoundView : String :=
  Text.unlines
    ["import React from \"react\";",
     "",
     "// Styles",
     "// import Style from \"./NotFoundView.module.css\";",
     "",
     "const NotFoundView = () => \x7b",
     "  return (",
     "    <div>",
     "      <h2>404</h2>",
     "      <p>Page not found</p>",
     "    </div>",
     "  );",
     "\x7d;",
     "",
     "export default NotFoundView;"]

/-- The index that hands the view on. -/
def notFoundIndex : String :=
  Text.unlines
    ["export \x7b default \x7d from \"./NotFoundView\";"]

/-! ## 2. The files -/

/-- All files with their texts, those of a directory together. -/
def all : List (String × String) :=
  [("src/App.js", app),
   ("src/Assets/logos/logo-black.svg", logoBlack),
   ("src/Assets/logos/logo-compact.svg", logoCompact),
   ("src/Components/UIKit/Navbar/Navbar.jsx", navbar),
   ("src/Components/UIKit/Navbar/Navbar.module.css", navbarStylesheet),
   ("src/Components/UIKit/Sidebar/Sidebar.jsx", sidebar),
   ("src/Components/UIKit/Sidebar/Sidebar.module.css", sidebarStylesheet),
   ("src/Data/config.js", settings),
   ("src/Hooks/useMediaQuery.js", mediaQuery),
   ("src/Utils/classNames.js", classNames),
   ("src/Views/Generic/NotFoundView/NotFoundView.jsx", notFoundView),
   ("src/Views/Generic/NotFoundView/NotFoundView.module.css", ""),
   ("src/Views/Generic/NotFoundView/index.jsx", notFoundIndex)]

/-- Plans some files: one directory for those side by side that have the same. -/
def plan : List (String × String) → Groups
  | [] => .nil
  | (path, text) :: rest =>
    let directory := (Path.parent? path).getD ""
    let file : Artifact := ⟨path, .copied text⟩
    match plan rest with
    | .group next files nested groups =>
      if next = directory then .group directory (file :: files) nested groups
      else .group directory [file] .nil (.group next files nested groups)
    | .nil => .group directory [file] .nil .nil

/-- The plan of all files. -/
def groups : Groups := plan all

end RouteScaffold.ProjectFiles
