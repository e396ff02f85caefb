import HttpPipeline.Document.Value

/-! # Tables under construction

  A TOML document builds its tables piece by piece, and a table may be opened only once. What
  may still be added to a table depends on how it came about, so a table under construction
  remembers that.
-/

namespace HttpPipeline.Document.Toml

/-! ## §1. Nodes -/

/-- How a table came about. -/
inductive Origin where
  /-- It has a header of its own, or is the document itself. -/
  | header
  /-- It stands in the header of a table within it. -/
  | path
  /-- It stands in a name with points. -/
  | dotted
  deriving DecidableEq, Repr

/-- Something under construction. -/
inductive Node where
  /-- A value, which is complete. -/
  | value (v : Value)
  /-- A table. -/
  | table (origin : Origin) (members : List (String × Node))
  /-- A list of tables, the last one first. -/
  | tables (reversed : List Node)

/-- The empty table of an origin. -/
def Node.empty (origin : Origin) : Node :=
  .table origin []

mutual

/-- The value of something under construction, once nothing more is added to it. -/
def Node.toValue : Node → Value
  | .value v => v
  | .table _ members => .table (membersToValues members)
  | .tables reversed => .list (nodesToValues reversed).reverse

/-- The values of members. -/
def membersToValues : List (String × Node) → List (Option String × Value)
  | [] => []
  | (name, node) :: rest => (some name, node.toValue) :: membersToValues rest

/-- The values of nodes. -/
def nodesToValues : List Node → List Value
  | [] => []
  | node :: rest => node.toValue :: nodesToValues rest

end

/-! ## §2. Changing a table -/

/-- The node under a name. -/
def member? (members : List (String × Node)) (name : String) : Option Node :=
  (members.find? fun member => member.1 == name).map Prod.snd

/-- The members after the node under a name became `node`. A new name comes last. -/
def setMember (members : List (String × Node)) (name : String) (node : Node) :
    List (String × Node) :=
  match members with
  | [] => [(name, node)]
  | member :: rest =>
    if member.1 == name then (name, node) :: rest else member :: setMember rest name node

/-- Whether a table can be reached through a name. A table that has its own header cannot be
reached through a name with points. -/
def Origin.isOpenTo (origin through : Origin) : Bool :=
  through != .dotted || origin != .header

/-- Changes the table at the end of a path with `change`. A table on the path that is not
there yet comes about as `through` says, and a list of tables stands for its last table. -/
def Node.changeAt (through : Origin) (change : Node → Option Node) :
    (path : List String) → Node → Option Node
  | [], node => change node
  | name :: path, .table origin members => do
    let changed ← match member? members name with
      | none => changeAt through change path (.empty through)
      | some (.value _) => none
      | some (.tables []) => none
      | some (.tables (last :: before)) =>
        (changeAt through change path last).map fun last => .tables (last :: before)
      | some (.table inner innerMembers) =>
        if inner.isOpenTo through then changeAt through change path (.table inner innerMembers)
        else none
    return .table origin (setMember members name changed)
  | _ :: _, _ => none

/-- Adds a value under a name that is new. -/
def Node.addValue (name : String) (v : Value) : Node → Option Node
  | .table origin members =>
    match member? members name with
    | none => some (.table origin (setMember members name (.value v)))
    | some _ => none
  | _ => none

/-- Adds a value under a name that is new to a table that came about through a name with
points. -/
def Node.addDottedValue (name : String) (v : Value) : Node → Option Node
  | .table .dotted members => addValue name v (.table .dotted members)
  | _ => none

/-- Opens the table under a name: a new one, or one that only stood in headers so far. -/
def Node.openTable (name : String) : Node → Option Node
  | .table origin members =>
    match member? members name with
    | none => some (.table origin (setMember members name (.empty .header)))
    | some (.table .path inner) =>
      some (.table origin (setMember members name (.table .header inner)))
    | some _ => none
  | _ => none

/-- Opens one more table in the list of tables under a name. -/
def Node.openItem (name : String) : Node → Option Node
  | .table origin members =>
    match member? members name with
    | none => some (.table origin (setMember members name (.tables [.empty .header])))
    | some (.tables reversed) =>
      some (.table origin (setMember members name (.tables (.empty .header :: reversed))))
    | some _ => none
  | _ => none

/-- Adds a value to a table under a name with points. -/
def Node.assign (parts : List String) (v : Value) (table : Node) : Option Node :=
  match parts.dropLast, parts.getLast? with
  | [], some name => table.addValue name v
  | path, some name => table.changeAt .dotted (Node.addDottedValue name v) path
  | _, none => none

end HttpPipeline.Document.Toml
