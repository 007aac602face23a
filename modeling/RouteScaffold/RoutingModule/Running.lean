import RouteScaffold.Text.Markup

/-!
# The running part of the routing module

What the routing module does with its routes when it is loaded: it joins paths and builds the table of
paths, the routing entries and the sitemap. The text ends the module, behind the literal of the routes.
-/

namespace RouteScaffold.RoutingModule

/-- The functions of the routing module and the values it exports. -/
def runtimeText : String :=
  Text.unlines
    ["function joinPath(parentPath, path) \x7b",
     "  if (parentPath.endsWith(\"/\") && path.startsWith(\"/\")) \x7b",
     "    return parentPath + path.slice(1);",
     "  \x7d",
     "  return parentPath + path;",
     "\x7d",
     "",
     "function buildPaths(routes, parentPath = \"\") \x7b",
     "  const paths = \x7b\x7d;",
     "  Object.entries(routes).forEach(([routeName, route]) => \x7b",
     "    const path = joinPath(parentPath, route.path);",
     "    paths[routeName] = route.routes ? buildPaths(route.routes, path) : path;",
     "  \x7d);",
     "  return paths;",
     "\x7d",
     "",
     "function buildElementTree(routes, parentPath) \x7b",
     "  if (parentPath === undefined) \x7b",
     "    // Layouts wrap their views",
     "    return Object.entries(routes).map(([routeName, route]) => (",
     "      <Route key=\x7brouteName\x7d element=\x7broute.element\x7d>",
     "        \x7broute.routes ? buildElementTree(route.routes, route.path) : null\x7d",
     "      </Route>",
     "    ));",
     "  \x7d",
     "",
     "  // Views are flattened into siblings",
     "  const views = [];",
     "  Object.entries(routes).forEach(([routeName, route]) => \x7b",
     "    const path = joinPath(parentPath, route.path);",
     "    views.push(<Route key=\x7brouteName\x7d path=\x7bpath\x7d element=\x7broute.element\x7d />);",
     "    if (route.routes) \x7b",
     "      views.push(...buildElementTree(route.routes, path));",
     "    \x7d",
     "  \x7d);",
     "  return views;",
     "\x7d",
     "",
     "function buildSitemap(routes, parentPath) \x7b",
     "  return (",
     "    <ol style=" ++ "\x7b\x7b marginLeft: \"2em\" \x7d\x7d" ++ ">",
     "      \x7bObject.entries(routes).map(([routeName, route]) => \x7b",
     "        const path =",
     "          parentPath === undefined ? route.path : joinPath(parentPath, route.path);",
     "        return (",
     "          <li key=\x7brouteName\x7d>",
     "            \x7bparentPath === undefined ? (",
     "              route.title",
     "            ) : (",
     "              <a href=\x7bpath\x7d>",
     "                \x7broute.title\x7d (\x7bpath\x7d)",
     "              </a>",
     "            )\x7d",
     "            \x7broute.routes && buildSitemap(route.routes, path)\x7d",
     "          </li>",
     "        );",
     "      \x7d)\x7d",
     "    </ol>",
     "  );",
     "\x7d",
     "",
     "const paths = buildPaths(routes);",
     "const routeComponents = buildElementTree(routes);",
     "const sitemap = buildSitemap(routes);",
     "",
     "export \x7b routes, paths, routeComponents, sitemap \x7d;"]

end RouteScaffold.RoutingModule
