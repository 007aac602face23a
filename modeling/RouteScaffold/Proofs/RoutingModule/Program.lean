import Mathlib.Data.List.Basic
import Mathlib.Data.Option.Basic
import RouteScaffold.Proofs.Script.Evaluation
import RouteScaffold.Routing.RouteTable
import RouteScaffold.RoutingModule.Running

/-!
# The running part as a script

The text of the running part of the routing module is that of a script (`running`, `tokens_runtimeText`), so that what
is said of the functions of the script is said of the text. What each function gives is said once, by the steps that it
takes for one route (`call_joinPath`, `call_buildPaths`, `call_buildElementTree`, `call_buildSitemap` and, below a path,
`call_buildElementTree_below`, `call_buildSitemap_below`).
-/

namespace RouteScaffold.RoutingModule

open Script

/-! ## 1. The functions -/

def joinPathFunction : Function where
  name := "joinPath"
  parameters := [⟨"parentPath", none⟩, ⟨"path", none⟩]
  body := [
    .ifTrue (.both (.method (.name "parentPath") "endsWith" (.text "/"))
        (.method (.name "path") "startsWith" (.text "/"))) [
      .give (.plus (.name "parentPath") (.method (.name "path") "slice" (.number 1)))],
    .give (.plus (.name "parentPath") (.name "path"))]

/-- The full path of a route: that of its parent and its own. -/
def pathJoined : Expr := .call "joinPath" [.name "parentPath", .member (.name "route") "path"]

def buildPathsFunction : Function where
  name := "buildPaths"
  parameters := [⟨"routes", none⟩, ⟨"parentPath", some (.text "")⟩]
  body := [
    .constant "paths" (.object []),
    .forEntries (.name "routes") "routeName" "route" [
      .constant "path" pathJoined,
      .put "paths" "routeName" (.choose (.member (.name "route") "routes")
        (.call "buildPaths" [.member (.name "route") "routes", .name "path"]) (.name "path"))],
    .give (.name "paths")]

def buildElementTreeFunction : Function where
  name := "buildElementTree"
  parameters := [⟨"routes", none⟩, ⟨"parentPath", none⟩]
  body := [
    .ifTrue (.same (.name "parentPath") .missing) [
      .remark " Layouts wrap their views",
      .give (.eachEntry (.name "routes") "routeName" "route" (.group
        (.markup "Route" [("key", .name "routeName"), ("element", .member (.name "route") "element")] [
          .braced (.choose (.member (.name "route") "routes")
            (.call "buildElementTree" [.member (.name "route") "routes", .member (.name "route") "path"])
            .nothing)])))],
    .remark " Views are flattened into siblings",
    .constant "views" .noItems,
    .forEntries (.name "routes") "routeName" "route" [
      .constant "path" pathJoined,
      .push "views" (.markup "Route" [("key", .name "routeName"), ("path", .name "path"),
        ("element", .member (.name "route") "element")] []),
      .ifTrue (.member (.name "route") "routes") [
        .pushAll "views" (.call "buildElementTree" [.member (.name "route") "routes", .name "path"])]],
    .give (.name "views")]

def buildSitemapFunction : Function where
  name := "buildSitemap"
  parameters := [⟨"routes", none⟩, ⟨"parentPath", none⟩]
  body := [
    .give (.group (.markup "ol" [("style", .object [("marginLeft", .text "2em")])] [
      .braced (.eachEntryBy (.name "routes") "routeName" "route" [
        .constant "path" (.choose (.same (.name "parentPath") .missing) (.member (.name "route") "path") pathJoined),
        .give (.group (.markup "li" [("key", .name "routeName")] [
          .braced (.choose (.same (.name "parentPath") .missing) (.group (.member (.name "route") "title"))
            (.group (.markup "a" [("href", .name "path")] [
              .braced (.member (.name "route") "title"), .words " (", .braced (.name "path"), .words ")"]))),
          .braced (.both (.member (.name "route") "routes")
            (.call "buildSitemap" [.member (.name "route") "routes", .name "path"]))]))])]))]

/-! ## 2. The script -/

/-- The running part of the routing module. -/
def running : Module where
  functions := [joinPathFunction, buildPathsFunction, buildElementTreeFunction, buildSitemapFunction]
  body := [
    .constant "paths" (.call "buildPaths" [.name "routes"]),
    .constant "routeComponents" (.call "buildElementTree" [.name "routes"]),
    .constant "sitemap" (.call "buildSitemap" [.name "routes"])]
  exported := ["routes", "paths", "routeComponents", "sitemap"]

/-- The tokens of a line that is given by its characters. -/
theorem tokens_ofList (chars : List Char) (rest : List String) :
    (String.ofList chars :: rest).flatMap tokens =
      (linesFrom [] chars).flatMap lineTokens ++ rest.flatMap tokens := by
  rw [List.flatMap_cons, tokens, byLine, String.toList_ofList]

/-- **The text of the running part is the script.** -/
theorem tokens_runtimeText : tokens runtimeText = running.tokens := by
  unfold runtimeText
  rw [tokens_unlines]
  simp only [String.reduceAppend]
  -- Line by line the literal becomes its characters: taking it apart by evaluation is slow.
  repeat rw [tokens_ofList]
  decide +kernel

/-! ## 3. Joining paths -/

theorem isSuffixOf_singleton (c : Char) (chars : List Char) :
    [c].isSuffixOf chars = true ↔ chars.getLast? = some c := by
  rw [List.isSuffixOf_iff_suffix]
  constructor
  · rintro ⟨front, rfl⟩
    exact List.getLast?_concat
  · intro h
    exact ⟨chars.dropLast, List.dropLast_append_getLast? c h⟩

theorem isPrefixOf_singleton (c : Char) (chars : List Char) :
    [c].isPrefixOf chars = true ↔ chars.head? = some c := by
  cases chars with
  | nil => simp [List.isPrefixOf]
  | cons d rest =>
      simp only [List.isPrefixOf, Bool.and_true, beq_iff_eq, List.head?_cons, Option.some.injEq]
      exact eq_comm

/-- Where both sides of the seam have a slash, the second side loses its own. -/
theorem joinPath_shared {parent segment : String} {more : List Char} (hp : parent.toList.getLast? = some '/')
    (hs : segment.toList = '/' :: more) : joinPath parent segment = parent ++ String.ofList more := by
  have hhead : segment.toList.head? = some '/' := by rw [hs, List.head?_cons]
  have hparent := List.dropLast_append_getLast? '/' hp
  rw [joinPath, if_pos ⟨hp, hhead⟩, ← String.toList_inj, String.toList_append, String.toList_ofList,
    String.toList_ofList, hs]
  conv_rhs => rw [← hparent]
  rw [List.append_assoc, List.singleton_append]

section Calls

variable (depth : Nat)

/-- **The script joins paths as the specification does.** -/
theorem call_joinPath (parent segment : String) :
    running.call? (depth + 1) "joinPath" [.text parent, .text segment] = some (.text (joinPath parent segment)) := by
  have hcall : running.call? (depth + 1) "joinPath" [.text parent, .text segment] =
      (runAll? (running.call? depth) joinPathFunction.body
        [("path", .text segment), ("parentPath", .text parent)]).map fun outcome => outcome.given.getD .missing := rfl
  have hends : method? (.text parent) "endsWith" (.text "/") = some (.truth (['/'].isSuffixOf parent.toList)) := rfl
  have hstarts : method? (.text segment) "startsWith" (.text "/") =
      some (.truth (['/'].isPrefixOf segment.toList)) := rfl
  have hslice : method? (.text segment) "slice" (.number 1) =
      (dropUnits? 1 segment.toList).map fun chars => .text (String.ofList chars) := rfl
  have hplus : ∀ a b, (Value.text a).plus? (.text b) = some (.text (a ++ b)) := fun _ _ => rfl
  have hp := isSuffixOf_singleton '/' parent.toList
  have hs := isPrefixOf_singleton '/' segment.toList
  rw [hcall, joinPathFunction]
  simp only [runAll?_ifTrue, runAll?_give, Expr.eval?, Keyed.get?_cons, String.reduceEq, reduceIte, Option.bind_some,
    hends, hstarts, hslice, hplus, Value.isTrue_truth, Option.map_some, Option.bind_map]
  cases hends : ['/'].isSuffixOf parent.toList with
  | false =>
      have hnot : ¬(parent.toList.getLast? = some '/' ∧ segment.toList.head? = some '/') := fun h => by
        rw [hp.mpr h.1] at hends
        cases hends
      rw [joinPath, if_neg hnot]
      rfl
  | true =>
      cases hstarts : ['/'].isPrefixOf segment.toList with
      | false =>
          have hnot : ¬(parent.toList.getLast? = some '/' ∧ segment.toList.head? = some '/') := fun h => by
            rw [hs.mpr h.2] at hstarts
            cases hstarts
          rw [joinPath, if_neg hnot]
          rfl
      | true =>
          obtain ⟨more, hmore⟩ := List.head?_eq_some_iff.mp (hs.mp hstarts)
          have hdrop : dropUnits? 1 ('/' :: more) = some more := by rw [dropUnits?, if_pos (by decide), dropUnits?]
          rw [joinPath_shared (hp.mp hends) hmore, hmore, hdrop]
          rfl

/-- The full path of a route below a path. -/
def joined? (parent route : Value) : Option Value :=
  (route.member? "path").bind fun path => running.call? depth "joinPath" [parent, path]

/-! ## 4. The path table -/

/-- Sets what the path table has for a route. -/
def setPath? (parent table : Value) (entry : String × Value) : Option Value :=
  (joined? depth parent entry.2).bind fun path => (entry.2.member? "routes").bind fun below =>
    (if below.isTrue then running.call? depth "buildPaths" [below, path] else some path).bind fun value =>
      table.put? (.text entry.1) value

/-- The path table is set route by route. -/
theorem call_buildPaths (members : Members) (parent : String) :
    running.call? (depth + 1) "buildPaths" [.plain members, .text parent] =
      members.foldlM (setPath? depth (.text parent)) (.plain []) := by
  have hcall : running.call? (depth + 1) "buildPaths" [.plain members, .text parent] =
      (runAll? (running.call? depth) buildPathsFunction.body
        [("parentPath", .text parent), ("routes", .plain members)]).map fun outcome =>
          outcome.given.getD .missing := rfl
  rw [hcall, buildPathsFunction]
  simp only [runAll?_constant, runAll?_give, runAll?_forEntries, Expr.eval?, fieldValues?, Keyed.get?_cons,
    String.reduceEq, reduceIte, Option.bind_some, Option.map_some, Value.entries?, Value.plain]
  rw [foldlM_round? _ (setPath? depth (.text parent))]
  · simp [Keyed.get?_cons, Option.bind_assoc]
  · intro table entry
    simp [round?, pathJoined, setPath?, joined?, Keyed.get?_cons, Frame.update?, Frame.leave, bind_ite, bind_isTrue,
      Option.bind_assoc, Option.map_eq_bind]

/-! ## 5. Routing entries -/

/-- The markup of the routing entry of a view. -/
def viewMarkup (key : String) (path element : Value) : Value :=
  .markup "Route" [("key", .text key), ("path", path), ("element", element)] []

/-- The markup of the routing entry of a layout around those of its views. -/
def layoutMarkup (key : String) (element views : Value) : Value :=
  .markup "Route" [("key", .text key), ("element", element)] [views]

/-- The routing entry of a layout. -/
def layoutElement? (entry : String × Value) : Option Value :=
  (entry.2.member? "element").bind fun element => (entry.2.member? "routes").bind fun below =>
    (if below.isTrue then
      (entry.2.member? "path").bind fun path => running.call? depth "buildElementTree" [below, path]
    else some .nothing).bind fun views => some (layoutMarkup entry.1 element views)

/-- The routing entries of layouts are made layout by layout. -/
theorem call_buildElementTree (members : Members) :
    running.call? (depth + 1) "buildElementTree" [.plain members] =
      (members.mapM (layoutElement? depth)).map .array := by
  have hcall : running.call? (depth + 1) "buildElementTree" [.plain members] =
      (runAll? (running.call? depth) buildElementTreeFunction.body
        [("parentPath", .missing), ("routes", .plain members)]).map fun outcome => outcome.given.getD .missing := rfl
  rw [hcall, buildElementTreeFunction]
  unfold layoutElement? layoutMarkup
  simp [Keyed.get?_cons, Value.entries?, Value.plain, Value.same?, Value.isTrue_truth, bind_ite, bind_isTrue,
    Option.bind_assoc, Option.map_eq_bind]

/-- Adds the routing entries of a view and of the views below it. -/
def addEntries? (parent items : Value) (entry : String × Value) : Option Value :=
  (joined? depth parent entry.2).bind fun path => (entry.2.member? "element").bind fun element =>
    (items.pushAll? (.array [viewMarkup entry.1 path element])).bind fun items =>
      (entry.2.member? "routes").bind fun below =>
        if below.isTrue then (running.call? depth "buildElementTree" [below, path]).bind items.pushAll?
        else some items

/-- The routing entries of views are added view by view. -/
theorem call_buildElementTree_below (members : Members) (parent : String) :
    running.call? (depth + 1) "buildElementTree" [.plain members, .text parent] =
      members.foldlM (addEntries? depth (.text parent)) (.array []) := by
  have hcall : running.call? (depth + 1) "buildElementTree" [.plain members, .text parent] =
      (runAll? (running.call? depth) buildElementTreeFunction.body
        [("parentPath", .text parent), ("routes", .plain members)]).map fun outcome =>
          outcome.given.getD .missing := rfl
  have hsame : (Value.text parent).same? .missing = some false := rfl
  rw [hcall, buildElementTreeFunction]
  simp only [runAll?_ifTrue, runAll?_remark, runAll?_constant, runAll?_give, runAll?_forEntries, Expr.eval?,
    Keyed.get?_cons, String.reduceEq, reduceIte, Option.bind_some, Option.map_some, Value.entries?, Value.plain, hsame,
    Value.isTrue_truth, Bool.false_eq_true]
  rw [foldlM_round? _ (addEntries? depth (.text parent))]
  · simp [Keyed.get?_cons, Option.bind_assoc]
  · intro items entry
    simp [round?, pathJoined, addEntries?, viewMarkup, joined?, Keyed.get?_cons, Frame.update?, Frame.leave, bind_ite,
      bind_isTrue, Option.bind_assoc, Option.map_eq_bind]

/-! ## 6. The sitemap -/

/-- The markup of a list. -/
def listMarkup (items : List Value) : Value :=
  .markup "ol" [("style", .plain [("marginLeft", .text "2em")])] [.array items]

/-- The markup of an item with what it shows and the list below it. -/
def itemMarkup (key : String) (shown below : Value) : Value := .markup "li" [("key", .text key)] [shown, below]

/-- The markup of a link. -/
def linkMarkup (title path : Value) : Value := .markup "a" [("href", path)] [title, .text " (", path, .text ")"]

/-- The list below a route. -/
def listBelow? (route path : Value) : Option Value :=
  (route.member? "routes").bind fun below =>
    if below.isTrue then running.call? depth "buildSitemap" [below, path] else some below

/-- The item of a layout, which shows its title only. -/
def layoutItem? (entry : String × Value) : Option Value :=
  (entry.2.member? "path").bind fun path => (entry.2.member? "title").bind fun title =>
    (listBelow? depth entry.2 path).bind fun below => some (itemMarkup entry.1 title below)

/-- The item of a view, which shows its title and leads to its full path. -/
def viewItem? (parent : Value) (entry : String × Value) : Option Value :=
  (joined? depth parent entry.2).bind fun path => (entry.2.member? "title").bind fun title =>
    (listBelow? depth entry.2 path).bind fun below => some (itemMarkup entry.1 (linkMarkup title path) below)

/-- The sitemap is made layout by layout. -/
theorem call_buildSitemap (members : Members) :
    running.call? (depth + 1) "buildSitemap" [.plain members] =
      (members.mapM (layoutItem? depth)).map listMarkup := by
  have hcall : running.call? (depth + 1) "buildSitemap" [.plain members] =
      (runAll? (running.call? depth) buildSitemapFunction.body
        [("parentPath", .missing), ("routes", .plain members)]).map fun outcome => outcome.given.getD .missing := rfl
  rw [hcall, buildSitemapFunction]
  unfold layoutItem? listBelow? listMarkup itemMarkup
  simp [Keyed.get?_cons, Value.entries?, Value.plain, Value.same?, Value.isTrue_truth, bind_ite, bind_isTrue,
    Option.bind_assoc, Option.map_eq_bind]

/-- Below a layout the sitemap is made view by view. -/
theorem call_buildSitemap_below (members : Members) (parent : String) :
    running.call? (depth + 1) "buildSitemap" [.plain members, .text parent] =
      (members.mapM (viewItem? depth (.text parent))).map listMarkup := by
  have hcall : running.call? (depth + 1) "buildSitemap" [.plain members, .text parent] =
      (runAll? (running.call? depth) buildSitemapFunction.body
        [("parentPath", .text parent), ("routes", .plain members)]).map fun outcome =>
          outcome.given.getD .missing := rfl
  have hsame : (Value.text parent).same? .missing = some false := rfl
  rw [hcall, buildSitemapFunction]
  unfold viewItem? listBelow? joined? listMarkup itemMarkup linkMarkup
  simp [Keyed.get?_cons, pathJoined, Value.entries?, Value.plain, hsame, Value.isTrue_truth, bind_ite, bind_isTrue,
    Option.bind_assoc, Option.map_eq_bind]

/-! ## 7. Loading -/

/-- **Loading the script** gives the results of its functions for the routes their names. -/
theorem load?_running {members : Members} {paths entries sitemap : Value}
    (hpaths : running.call? depth "buildPaths" [.plain members, .text ""] = some paths)
    (hentries : running.call? depth "buildElementTree" [.plain members] = some entries)
    (hsitemap : running.call? depth "buildSitemap" [.plain members] = some sitemap) :
    running.load? depth [("routes", .plain members)] = some [("sitemap", sitemap), ("routeComponents", entries),
      ("paths", paths), ("routes", .plain members)] := by
  -- The path of the parent is the empty text unless one is given.
  have hplain : running.call? depth "buildPaths" [.plain members] =
      running.call? depth "buildPaths" [.plain members, .text ""] := by cases depth <;> rfl
  have hload : running.load? depth [("routes", .plain members)] = (runAll? (running.call? depth) [
      .constant "paths" (.call "buildPaths" [.name "routes"]),
      .constant "routeComponents" (.call "buildElementTree" [.name "routes"]),
      .constant "sitemap" (.call "buildSitemap" [.name "routes"])] [("routes", .plain members)]).map
        Outcome.frame := rfl
  rw [hload]
  simp [Keyed.get?_cons, hplain, hpaths, hentries, hsitemap]

end Calls

end RouteScaffold.RoutingModule
