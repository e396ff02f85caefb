import HttpPipeline.Document.Toml.Scalar
import HttpPipeline.Document.Toml.Table
import HttpPipeline.Document.Toml.Text

/-! # TOML documents

  Values, the lines of a document and the document as a whole. Lists and tables nest within a
  fixed depth, which is what the recursion of `value?` goes down on; where things follow one
  another, each takes at least one character, so the number of characters bounds the steps.
-/

namespace HttpPipeline.Document.Toml

/-! ## §1. Values -/

/-- A reader of something at the start of some characters, which gives the characters after
it. -/
abbrev Reader (α : Type) := List Char → Option (α × List Char)

/-- Reads the items of a list, after its opening bracket or a comma, with `value` for each
and at most `limit` of them. A comma may follow the last item. -/
def items? (value : Reader Value) : (limit : Nat) → (before : List Value) → Reader Value
  | 0, _, _ => none
  | limit + 1, before, cs =>
    match skipTrivia false cs with
    | ']' :: cs => some (.list before.reverse, cs)
    | cs => do
      let (item, cs) ← value cs
      match skipTrivia false cs with
      | ',' :: cs => items? value limit (item :: before) cs
      | ']' :: cs => return (.list (item :: before).reverse, cs)
      | _ => none

/-- Reads a name, an equals sign and a value. -/
def assignment? (value : Reader Value) : Reader (List String × Value) := fun cs => do
  let (parts, cs) ← name? cs
  match cs with
  | '=' :: cs =>
    let (v, cs) ← value (skipSpace cs)
    return ((parts, v), cs)
  | _ => none

/-- Reads the members of a table on one line, after its opening brace or a comma, with
`value` for each and at most `limit` of them. -/
def members? (value : Reader Value) : (limit : Nat) → (table : Node) → Reader Value
  | 0, _, _ => none
  | limit + 1, table, cs => do
    let ((parts, v), cs) ← assignment? value cs
    let table ← table.assign parts v
    match skipSpace cs with
    | ',' :: cs => members? value limit table cs
    | '\x7d' :: cs => return (table.toValue, cs)
    | _ => none

/-- Reads a table on one line, after its opening brace. -/
def inlineTable? (value : Reader Value) : Reader Value := fun cs =>
  match skipSpace cs with
  | '\x7d' :: cs => some (.table [], cs)
  | _ => members? value cs.length (.empty .header) cs

/-- Reads a value in which lists and tables nest at most `depth` deep. -/
def value? : (depth : Nat) → Reader Value
  | depth, '[' :: cs =>
    match depth with
    | 0 => none
    | depth + 1 => items? (value? depth) cs.length [] cs
  | depth, '\x7b' :: cs =>
    match depth with
    | 0 => none
    | depth + 1 => inlineTable? (value? depth) cs
  | _, '"' :: cs => (text? ('"' :: cs)).map fun (s, rest) => (.string s, rest)
  | _, '\'' :: cs => (text? ('\'' :: cs)).map fun (s, rest) => (.string s, rest)
  | _, cs => scalar? cs

/-- How deep lists and tables may nest in a value. -/
def maxDepth : Nat := 79

/-! ## §2. Lines -/

/-- A document that is partly read. -/
structure Progress where
  /-- The document's table. -/
  root : Node := .empty .header
  /-- Where the table is that assignments go to. -/
  path : List String := []

namespace Progress

/-- Adds a value to the present table. -/
def assign (p : Progress) (parts : List String) (v : Value) : Option Progress :=
  (p.root.changeAt .path (Node.assign parts v) p.path).map fun root => { p with root }

/-- Opens a table with `change`, which is given its last name. -/
def openWith (p : Progress) (change : String → Node → Option Node) (parts : List String) :
    Option Progress := do
  let name ← parts.getLast?
  let root ← p.root.changeAt .path (change name) parts.dropLast
  return { root, path := parts }

end Progress

/-- Reads a header, after its first bracket, and opens its table. -/
def header? (p : Progress) : Reader Progress
  | '[' :: cs => do
    let (parts, cs) ← name? cs
    match cs with
    | ']' :: ']' :: cs => return (← p.openWith Node.openItem parts, cs)
    | _ => none
  | cs => do
    let (parts, cs) ← name? cs
    match cs with
    | ']' :: cs => return (← p.openWith Node.openTable parts, cs)
    | _ => none

/-- Reads one line, of which the blanks at its start are skipped already. -/
def line? (p : Progress) (cs : List Char) : Option (Progress × List Char) :=
  match cs with
  | '[' :: cs => do
    let (p, cs) ← header? p cs
    return (p, ← lineEnd? cs)
  | '#' :: _ | '\n' :: _ | '\r' :: _ => (lineEnd? cs).map fun cs => (p, cs)
  | _ => do
    let ((parts, v), cs) ← assignment? (value? maxDepth) cs
    return (← p.assign parts v, ← lineEnd? cs)

/-- Reads the rest of a document, which has at most `limit` lines. -/
def lines? : (limit : Nat) → Progress → List Char → Option Progress
  | 0, _, _ => none
  | limit + 1, p, cs =>
    match skipSpace cs with
    | [] => some p
    | cs => (line? p cs).bind fun (p, cs) => lines? limit p cs

/-! ## §3. Documents -/

/-- The characters after the mark of the byte order, which may stand at the start. -/
def skipByteOrderMark : List Char → List Char
  | '\uFEFF' :: cs => cs
  | cs => cs

/-- Reads a document. -/
def parse? (s : String) : Option Value :=
  let cs := skipByteOrderMark s.toList
  (lines? (cs.length + 1) {} cs).map fun p => p.root.toValue

end HttpPipeline.Document.Toml
