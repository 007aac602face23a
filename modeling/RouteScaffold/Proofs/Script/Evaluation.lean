import RouteScaffold.Keyed
import RouteScaffold.Proofs.Script.Syntax
import RouteScaffold.Proofs.Script.Value

/-!
# Running scripts

What expressions and statements of a script give (`Expr.eval?`, `Stmt.run?`), and what a function gives for arguments
(`Module.call?`). Calls are bounded by a depth. Nothing is given where a script would stop with an error, and where
what it does depends on something that values here do not tell.

Values are copied. That is what a script does with an object or array as long as it changes it only under the name under
which it made it, and no longer once it has handed it on.
-/

namespace RouteScaffold.Script

/-! ## 1. Values -/

namespace Value

/-- Does the value count as true? -/
def isTrue : Value → Bool
  | .missing | .nothing => false
  | .truth value => value
  | .number value => value != 0
  | .text value => value != ""
  | .array _ | .object _ _ | .markup _ _ _ => true

theorem isTrue_truth (value : Bool) : (truth value).isTrue = value := rfl

theorem isTrue_plain (own : Members) : (plain own).isTrue = true := rfl

/-- Is it an object, of whatever kind? -/
def isObject : Value → Bool
  | .array _ | .object _ _ | .markup _ _ _ => true
  | _ => false

/-- Are the values the same? Of two objects only a script itself can tell. -/
def same? : Value → Value → Option Bool
  | .missing, .missing | .nothing, .nothing => some true
  | .truth a, .truth b => some (a == b)
  | .number a, .number b => some (a == b)
  | .text a, .text b => some (a == b)
  | a, b => if a.isObject && b.isObject then none else some false

/-- The member of an object under a name. An object with members of its own only has no others, but for names that the
    common object has; those are not asked for. -/
def member? : Value → String → Option Value
  | .object own behind, name =>
    match Keyed.get? own name, behind with
    | some value, _ => some value
    | none, none => some .missing
    | none, some _ => none
  | _, _ => none

/-- The own members of an object in order. -/
def entries? : Value → Option Members
  | .object own _ => some own
  | _ => none

/-- Can the value stand behind an object? -/
def canStandBehind : Value → Bool
  | .nothing => true
  | value => value.isObject

/-- The object with a member set. The name `__proto__` is no member unless the object has it already: under it, an
    object or nothing is put behind the object, and any other value is passed over. -/
def put? : Value → Value → Value → Option Value
  | .object own behind, .text name, value =>
    if name = "__proto__" ∧ (Keyed.get? own name).isNone then
      match behind with
      | none => some (.object own (if value.canStandBehind then some value else none))
      | some _ => none
    else some (.object (Keyed.set own name value) behind)
  | _, _, _ => none

theorem put?_member {name : String} (h : name ≠ "__proto__") (own : Members) (behind : Option Value) (value : Value) :
    (object own behind).put? (.text name) value = some (object (Keyed.set own name value) behind) :=
  if_neg fun hm => h hm.1

theorem put?_behind {own : Members} (h : Keyed.get? own "__proto__" = none) (value : Value) :
    (object own none).put? (.text "__proto__") value =
      some (object own (if value.canStandBehind then some value else none)) :=
  if_pos ⟨rfl, by rw [h]; rfl⟩

/-- Two texts put together. -/
def plus? : Value → Value → Option Value
  | .text a, .text b => some (.text (a ++ b))
  | _, _ => none

/-- The array with items added. -/
def pushAll? : Value → Value → Option Value
  | .array items, .array more => some (.array (items ++ more))
  | _, _ => none

theorem pushAll?_array (items more : List Value) : (array items).pushAll? (array more) = some (array (items ++ more)) :=
  rfl

end Value

/-- How many units of sixteen bits a character takes. -/
def units (c : Char) : Nat := if c.toNat < 0x10000 then 1 else 2

/-- The characters behind a number of units; not within a character. -/
def dropUnits? : Nat → List Char → Option (List Char)
  | 0, chars => some chars
  | _, [] => some []
  | n + 1, c :: rest => if units c = 1 then dropUnits? n rest else if n = 0 then none else dropUnits? (n - 1) rest

/-- What the methods of a text give. -/
def method? (value : Value) (name : String) (argument : Value) : Option Value :=
  match value, argument with
  | .text a, .text b =>
    if name = "endsWith" then some (.truth (b.toList.isSuffixOf a.toList))
    else if name = "startsWith" then some (.truth (b.toList.isPrefixOf a.toList))
    else none
  | .text a, .number n =>
    if name = "slice" then (dropUnits? n a.toList).map fun chars => .text (String.ofList chars)
    else none
  | _, _ => none

/-- What comes behind a choice comes behind both of its parts. -/
theorem bind_ite {α β : Type} (c : Prop) [Decidable c] (yes no : Option α) (f : α → Option β) :
    (if c then yes else no).bind f = if c then yes.bind f else no.bind f := apply_ite (Option.bind · f) c yes no

/-- A value that is tested and then asked for again is asked for once. -/
theorem bind_isTrue {α : Type} (value? : Option Value) (yes no : Value → Option α) :
    (value?.bind fun value => if value.isTrue then value?.bind yes else no value) =
      value?.bind fun value => if value.isTrue then yes value else no value := by
  cases value? <;> rfl

/-! ## 2. Frames -/

/-- The values of names, the innermost first. -/
abbrev Frame := List (String × Value)

namespace Frame

/-- The frame with another value for the innermost name. -/
def update? (frame : Frame) (x : String) (value : Value) : Option Frame :=
  match frame with
  | [] => none
  | (y, old) :: rest => if y = x then some ((y, value) :: rest) else (update? rest x value).map ((y, old) :: ·)

/-- What is left of a frame behind a block: the names from before it. -/
def leave (before after : Frame) : Frame := after.drop (after.length - before.length)

end Frame

/-- What statements come to: a frame, and a value if they give one. -/
structure Outcome where
  frame : Frame
  given : Option Value

/-! ## 3. Expressions and statements -/

section Run

-- What functions give for arguments.
variable (call? : String → List Value → Option Value)

mutual

/-- The value of an expression. -/
def Expr.eval? : Expr → Frame → Option Value
  | .name x, frame => Keyed.get? frame x
  | .missing, _ => some .missing
  | .nothing, _ => some .nothing
  | .text value, _ => some (.text value)
  | .number value, _ => some (.number value)
  | .group e, frame => e.eval? frame
  | .object fields, frame => (fieldValues? fields frame).map .plain
  | .noItems, _ => some (.array [])
  | .member e field, frame => (e.eval? frame).bind (·.member? field)
  | .plus a b, frame => (a.eval? frame).bind fun left => (b.eval? frame).bind fun right => left.plus? right
  | .both a b, frame => (a.eval? frame).bind fun value => if value.isTrue then b.eval? frame else some value
  | .same a b, frame =>
    (a.eval? frame).bind fun left => (b.eval? frame).bind fun right => (left.same? right).map .truth
  | .choose condition yes no, frame =>
    (condition.eval? frame).bind fun value => if value.isTrue then yes.eval? frame else no.eval? frame
  | .method e name argument, frame =>
    (e.eval? frame).bind fun value => (argument.eval? frame).bind fun argument => method? value name argument
  | .call function arguments, frame => (argumentValues? arguments frame).bind (call? function)
  | .eachEntry e key value body, frame =>
    (e.eval? frame).bind fun object => object.entries?.bind fun entries =>
      (entries.mapM fun entry => body.eval? ((value, entry.2) :: (key, .text entry.1) :: frame)).map .array
  | .eachEntryBy e key value body, frame =>
    (e.eval? frame).bind fun object => object.entries?.bind fun entries =>
      (entries.mapM fun entry => (runAll? body ((value, entry.2) :: (key, .text entry.1) :: frame)).map
        fun outcome => outcome.given.getD .missing).map .array
  | .markup tag attributes children, frame =>
    (fieldValues? attributes frame).bind fun attributes =>
      (childValues? children frame).map fun children => .markup tag attributes children

/-- The values of named expressions. -/
def fieldValues? : List (String × Expr) → Frame → Option Members
  | [], _ => some []
  | (name, e) :: rest, frame =>
    (e.eval? frame).bind fun value => (fieldValues? rest frame).map fun values => (name, value) :: values

/-- The values of arguments. -/
def argumentValues? : List Expr → Frame → Option (List Value)
  | [], _ => some []
  | e :: rest, frame =>
    (e.eval? frame).bind fun value => (argumentValues? rest frame).map fun values => value :: values

/-- The values of what stands between the tags of markup. -/
def childValues? : List Child → Frame → Option (List Value)
  | [], _ => some []
  | child :: rest, frame =>
    (child.eval? frame).bind fun value => (childValues? rest frame).map fun values => value :: values

def Child.eval? : Child → Frame → Option Value
  | .braced e, frame => e.eval? frame
  | .words text, _ => some (.text text)

/-- Runs statements up to the one that gives a value. -/
def runAll? : List Stmt → Frame → Option Outcome
  | [], frame => some ⟨frame, none⟩
  | s :: rest, frame =>
    (s.run? frame).bind fun outcome =>
      match outcome.given with
      | some value => some ⟨outcome.frame, some value⟩
      | none => runAll? rest outcome.frame

/-- Runs a statement. -/
def Stmt.run? : Stmt → Frame → Option Outcome
  | .constant x e, frame => (e.eval? frame).map fun value => ⟨(x, value) :: frame, none⟩
  | .ifTrue condition body, frame =>
    (condition.eval? frame).bind fun value =>
      if value.isTrue then (runAll? body frame).map fun outcome => ⟨Frame.leave frame outcome.frame, outcome.given⟩
      else some ⟨frame, none⟩
  | .give e, frame => (e.eval? frame).map fun value => ⟨frame, some value⟩
  | .forEntries e key value body, frame =>
    (e.eval? frame).bind fun object => object.entries?.bind fun entries =>
      (entries.foldlM (fun frame entry => (runAll? body ((value, entry.2) :: (key, .text entry.1) :: frame)).map
        fun outcome => Frame.leave frame outcome.frame) frame).map fun frame => ⟨frame, none⟩
  | .put x key e, frame =>
    (Keyed.get? frame x).bind fun object => (Keyed.get? frame key).bind fun name => (e.eval? frame).bind fun value =>
      (object.put? name value).bind fun object => (Frame.update? frame x object).map fun frame => ⟨frame, none⟩
  | .push x e, frame =>
    (Keyed.get? frame x).bind fun array => (e.eval? frame).bind fun value => (array.pushAll? (.array [value])).bind
      fun array => (Frame.update? frame x array).map fun frame => ⟨frame, none⟩
  | .pushAll x e, frame =>
    (Keyed.get? frame x).bind fun array => (e.eval? frame).bind fun value => (array.pushAll? value).bind
      fun array => (Frame.update? frame x array).map fun frame => ⟨frame, none⟩
  | .remark _, frame => some ⟨frame, none⟩

end

/-- The frame of a call: parameters with what is given for them. -/
def bindAll? : List Parameter → List Value → Frame → Option Frame
  | [], _, frame => some frame
  | p :: rest, values, frame =>
    match values.head?.getD .missing, p.standIn with
    | .missing, some e => (e.eval? call? frame).bind fun value => bindAll? rest values.tail ((p.name, value) :: frame)
    | value, _ => bindAll? rest values.tail ((p.name, value) :: frame)

/-- A round of statements for an entry of an object. -/
def round? (key value : String) (body : List Stmt) (frame : Frame) (entry : String × Value) : Option Frame :=
  (runAll? call? body ((value, entry.2) :: (key, .text entry.1) :: frame)).map fun outcome =>
    Frame.leave frame outcome.frame

/-! ## 4. Statements one after the other -/

attribute [simp] Expr.eval? Child.eval? fieldValues? argumentValues? childValues?

-- Elsewhere statements are run through the lemmas below.
attribute [local simp] runAll? Stmt.run?

variable (frame : Frame) (rest : List Stmt)

@[simp] theorem runAll?_nil : runAll? call? [] frame = some ⟨frame, none⟩ := rfl

@[simp] theorem runAll?_constant (x : String) (e : Expr) : runAll? call? (.constant x e :: rest) frame =
    (e.eval? call? frame).bind fun value => runAll? call? rest ((x, value) :: frame) := by
  rw [runAll?, Stmt.run?, Option.bind_map]
  rfl

@[simp] theorem runAll?_give (e : Expr) : runAll? call? (.give e :: rest) frame =
    (e.eval? call? frame).map fun value => ⟨frame, some value⟩ := by
  rw [runAll?, Stmt.run?, Option.bind_map, Option.map_eq_bind]
  rfl

@[simp] theorem runAll?_remark (text : String) :
    runAll? call? (.remark text :: rest) frame = runAll? call? rest frame := by
  simp

@[simp] theorem runAll?_forEntries (e : Expr) (key value : String) (body : List Stmt) :
    runAll? call? (.forEntries e key value body :: rest) frame =
      (e.eval? call? frame).bind fun object => object.entries?.bind fun entries =>
        (entries.foldlM (round? call? key value body) frame).bind fun frame => runAll? call? rest frame := by
  rw [runAll?, Stmt.run?]
  simp only [Option.bind_assoc, Option.bind_map]
  rfl

@[simp] theorem runAll?_ifTrue (condition : Expr) (body : List Stmt) :
    runAll? call? (.ifTrue condition body :: rest) frame =
      (condition.eval? call? frame).bind fun value =>
        if value.isTrue then (runAll? call? body frame).bind fun outcome =>
          match outcome.given with
          | some value => some ⟨Frame.leave frame outcome.frame, some value⟩
          | none => runAll? call? rest (Frame.leave frame outcome.frame)
        else runAll? call? rest frame := by
  rw [runAll?, Stmt.run?]
  cases condition.eval? call? frame with
  | none => rfl
  | some value =>
      rw [Option.bind_some, Option.bind_some]
      by_cases hv : value.isTrue = true
      · rw [if_pos hv, if_pos hv]
        cases runAll? call? body frame with
        | none => rfl
        | some outcome => rfl
      · rw [if_neg hv, if_neg hv]
        rfl

@[simp] theorem runAll?_put (x key : String) (e : Expr) : runAll? call? (.put x key e :: rest) frame =
    (Keyed.get? frame x).bind fun object => (Keyed.get? frame key).bind fun name => (e.eval? call? frame).bind
      fun value => (object.put? name value).bind fun object => (Frame.update? frame x object).bind fun frame =>
        runAll? call? rest frame := by
  rw [runAll?, Stmt.run?]
  simp only [Option.bind_assoc, Option.bind_map]
  rfl

@[simp] theorem runAll?_pushAll (x : String) (e : Expr) : runAll? call? (.pushAll x e :: rest) frame =
    (Keyed.get? frame x).bind fun array => (e.eval? call? frame).bind fun value => (array.pushAll? value).bind
      fun array => (Frame.update? frame x array).bind fun frame => runAll? call? rest frame := by
  rw [runAll?, Stmt.run?]
  simp only [Option.bind_assoc, Option.bind_map]
  rfl

@[simp] theorem runAll?_push (x : String) (e : Expr) : runAll? call? (.push x e :: rest) frame =
    (Keyed.get? frame x).bind fun array => (e.eval? call? frame).bind fun value =>
      (array.pushAll? (.array [value])).bind fun array => (Frame.update? frame x array).bind fun frame =>
        runAll? call? rest frame := by
  rw [runAll?, Stmt.run?]
  simp only [Option.bind_assoc, Option.bind_map]
  rfl

/-- **A loop that changes only the innermost name** goes through its values. -/
theorem foldlM_round? (change : Value → String × Value → Option Value) {key value x : String} {body : List Stmt}
    {base : Frame}
    (h : ∀ old entry, round? call? key value body ((x, old) :: base) entry =
      (change old entry).bind fun new => some ((x, new) :: base)) (entries : Members) (old : Value) :
    entries.foldlM (round? call? key value body) ((x, old) :: base) =
      (entries.foldlM change old).bind fun new => some ((x, new) :: base) := by
  induction entries generalizing old with
  | nil => rfl
  | cons entry rest ih =>
      rw [List.foldlM_cons, List.foldlM_cons, h]
      cases change old entry with
      | none => rfl
      | some new => exact ih new

end Run

/-! ## 5. Functions and modules -/

namespace Module

/-- What a function of a module gives for arguments, with calls within calls up to a depth. -/
def call? (m : Module) : Nat → String → List Value → Option Value
  | 0, _, _ => none
  | depth + 1, name, values =>
    (m.functions.find? fun f => f.name = name).bind fun f =>
      (bindAll? (m.call? depth) f.parameters values []).bind fun frame =>
        (runAll? (m.call? depth) f.body frame).map fun outcome => outcome.given.getD .missing

/-- The names of a module with their values when it has been loaded, given the names it builds on. -/
def load? (m : Module) (depth : Nat) (frame : Frame) : Option Frame :=
  (runAll? (m.call? depth) m.body frame).map Outcome.frame

end Module

/-! ## 6. Objects set member by member -/

namespace Value

/-- What is put behind an object by setting members. -/
def behindOf : Members → Option Value
  | [] => none
  | (name, value) :: rest =>
    if name = "__proto__" ∧ value.canStandBehind then some value else behindOf rest

/-- The object that comes of setting members of an object without any. -/
def assembled (members : Members) : Value :=
  .object (members.filter fun m => m.1 ≠ "__proto__") (behindOf members)

theorem behindOf_none {members : Members} (h : "__proto__" ∉ Keyed.keys members) : behindOf members = none := by
  induction members with
  | nil => rfl
  | cons m rest ih =>
      rw [Keyed.keys, List.map_cons, List.mem_cons, not_or] at h
      rw [behindOf, if_neg fun hm => h.1 hm.1.symm, ih h.2]

/-- **Members under names that differ are set in order**, but for the one that is no member. -/
theorem foldlM_put? {members own : Members} {behind : Option Value} (hn : (Keyed.keys members).Nodup)
    (hfresh : ∀ name ∈ Keyed.keys members, name ∉ Keyed.keys own)
    (hb : "__proto__" ∈ Keyed.keys members → behind = none) :
    members.foldlM (fun (object : Value) m => object.put? (.text m.1) m.2) (.object own behind) =
      some (.object (own ++ members.filter fun m => m.1 ≠ "__proto__") ((behindOf members).or behind)) := by
  induction members generalizing own behind with
  | nil =>
      rw [List.filter_nil, List.append_nil]
      rfl
  | cons m rest ih =>
      obtain ⟨name, value⟩ := m
      rw [Keyed.keys, List.map_cons, List.forall_mem_cons] at hfresh
      obtain ⟨hname, hrest⟩ := List.nodup_cons.mp hn
      have hget : Keyed.get? own name = none := (Keyed.get?_eq_none_iff own name).mpr hfresh.1
      by_cases hp : name = "__proto__"
      · subst hp
        obtain rfl := hb List.mem_cons_self
        have hput : (Value.object own none).put? (.text "__proto__") value =
            some (.object own (behindOf (("__proto__", value) :: rest))) := by
          rw [put?_behind hget, behindOf, behindOf_none hname]
          simp
        have hskip : (("__proto__", value) :: rest).filter (fun m => m.1 ≠ "__proto__") =
            rest.filter fun m => m.1 ≠ "__proto__" := List.filter_cons_of_neg (by simp)
        rw [List.foldlM_cons, hput]
        show List.foldlM _ _ rest = _
        rw [ih hrest hfresh.2 fun hm => absurd hm hname, behindOf_none hname, hskip, Option.none_or, Option.or_none]
      · have hput : (Value.object own behind).put? (.text name) value =
            some (.object (own ++ [(name, value)]) behind) := by
          rw [put?_member hp, Keyed.set_of_not_mem own name value hfresh.1]
        have hkeep : ((name, value) :: rest).filter (fun m => m.1 ≠ "__proto__") =
            (name, value) :: rest.filter fun m => m.1 ≠ "__proto__" := List.filter_cons_of_pos (by simpa using hp)
        have hfresh' : ∀ n ∈ Keyed.keys rest, n ∉ Keyed.keys (own ++ [(name, value)]) := by
          intro n hm hmem
          rw [Keyed.keys, List.map_append, List.mem_append] at hmem
          rcases hmem with hmem | hmem
          · exact hfresh.2 n hm hmem
          · rw [List.mem_singleton.mp hmem] at hm
            exact hname hm
        rw [List.foldlM_cons, hput]
        show List.foldlM _ _ rest = _
        rw [ih hrest hfresh' fun hm => hb (List.mem_cons_of_mem _ hm), hkeep, behindOf, if_neg fun h => hp h.1,
          List.append_assoc, List.singleton_append]

/-- Members under names that differ are set in order, starting with an object without any. -/
theorem foldlM_put?_plain {members : Members} (hn : (Keyed.keys members).Nodup) :
    members.foldlM (fun (object : Value) m => object.put? (.text m.1) m.2) (.plain []) = some (.assembled members) := by
  have hput : members.foldlM (fun (object : Value) m => object.put? (.text m.1) m.2) (.object [] none) = _ :=
    foldlM_put? hn (fun _ _ hm => by cases hm) fun _ => rfl
  rw [plain, hput, Option.or_none, List.nil_append]
  rfl

/-- Members are set as they are if none of them is the one that is no member. -/
theorem assembled_of_not_mem {members : Members} (h : "__proto__" ∉ Keyed.keys members) :
    assembled members = .plain members := by
  have hall : members.filter (fun m => m.1 ≠ "__proto__") = members := by
    refine List.filter_eq_self.mpr fun m hm => ?_
    have hne : m.1 ≠ "__proto__" := fun e => h (e ▸ List.mem_map_of_mem (f := Prod.fst) hm)
    simpa using hne
  rw [assembled, hall, behindOf_none h]
  rfl

/-- Members that are set are others with the same names exactly if they are these, and none is the one that is no
    member. -/
theorem assembled_eq_plain {members others : Members} (hk : Keyed.keys members = Keyed.keys others) :
    assembled members = .plain others ↔ "__proto__" ∉ Keyed.keys members ∧ members = others := by
  constructor
  · intro h
    have hkeys : "__proto__" ∉ Keyed.keys members := by
      intro hm
      rw [hk] at hm
      obtain ⟨m, hmem, hname⟩ := List.mem_map.mp hm
      injection h with hown
      rw [← hown] at hmem
      have hkept := (List.mem_filter.mp hmem).2
      simp [hname] at hkept
    have heq := (assembled_of_not_mem hkeys).symm.trans h
    injection heq with hown
    exact ⟨hkeys, hown⟩
  · rintro ⟨hkeys, rfl⟩
    exact assembled_of_not_mem hkeys

end Value

end RouteScaffold.Script
