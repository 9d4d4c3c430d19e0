import Converge.Toml.Value

/-!
# Assembling a configuration document

A configuration text is a sequence of statements: headers that name a table, headers that add a
table to a list of tables, and assignments of a value to a dotted key in the current table. No
key may be assigned twice, no table may be named by two headers, and a dotted key may only add to
tables that dotted keys have made.

## Main definitions

* `Toml.Statement`, `Toml.Document`.
* `Toml.descend`: a change of the table at a path.
* `Toml.ofAssignments`, `Toml.ofStatements`: the table that assignments or statements make.
-/

namespace Converge.Toml

/-- A line of a document. -/
inductive Statement where
  | header (path : List String)
  | arrayHeader (path : List String)
  | assign (path : List String) (value : Toml)

/-- Replace the first entry with the given key, or append one. -/
def Entries.set (key : String) (value : Toml) : Entries → Entries
  | [] => [(key, value)]
  | (k, v) :: rest => if k = key then (key, value) :: rest else (k, v) :: Entries.set key value rest

/-- Change the table at a path below a table. Tables that are missing on the way are made with the
origin `via`, which is `dotted` for the path of a dotted key and `implied` for that of a header.
A dotted key goes only through tables that no header or pair of braces has made, and a header
through none in braces; of a list of tables either goes through the last. -/
def descend (via : Origin) (change : Origin → Entries → Option Entries) :
    List String → Origin → Entries → Option Entries
  | [], origin, entries => change origin entries
  | key :: path, _, entries =>
    match entries.lookup key with
    | none => do
      let inner ← descend via change path via []
      return entries.set key (.table via inner)
    | some (.table origin inner) =>
      if origin = .braces || (via = .dotted && origin = .header) then none
      else do
        let inner ← descend via change path origin inner
        return entries.set key (.table origin inner)
    | some (.tables elements) =>
      match elements.getLast? with
      | none => none
      | some last => do
        let last ← descend via change path .header last
        return entries.set key (.tables (elements.dropLast ++ [last]))
    | some _ => none

/-- Assign a value to a dotted key in a table. -/
def assign (path : List String) (value : Toml) (origin : Origin) (entries : Entries) :
    Option Entries :=
  match path.getLast? with
  | none => none
  | some key =>
    let parents := path.dropLast
    descend .dotted (fun reached inner =>
      if !parents.isEmpty && reached ≠ .dotted then none
      else if (inner.lookup key).isSome then none
      else some (inner ++ [(key, value)])) parents origin entries

/-- The entries of a table in braces. -/
def ofAssignments (assignments : List (List String × Toml)) : Option Entries :=
  assignments.foldlM (fun entries (path, value) => assign path value .braces entries) []

/-- Name the table at a path: it must not exist, or only as the parent of another. -/
def openTable (path : List String) (root : Entries) : Option Entries :=
  match path.getLast? with
  | none => none
  | some key =>
    descend .implied (fun _ entries =>
      match entries.lookup key with
      | none => some (entries ++ [(key, .table .header [])])
      | some (.table .implied inner) => some (entries.set key (.table .header inner))
      | some _ => none) path.dropLast .header root

/-- Add a table to the list of tables at a path. -/
def appendTable (path : List String) (root : Entries) : Option Entries :=
  match path.getLast? with
  | none => none
  | some key =>
    descend .implied (fun _ entries =>
      match entries.lookup key with
      | none => some (entries ++ [(key, .tables [[]])])
      | some (.tables elements) => some (entries.set key (.tables (elements ++ [[]])))
      | some _ => none) path.dropLast .header root

/-- A document in the making: its entries, and the path of the current table. -/
structure Document where
  root : Entries := []
  current : List String := []

/-- A document after one more statement. -/
def Document.step (d : Document) : Statement → Option Document
  | .header path => do
    let root ← openTable path d.root
    return { root, current := path }
  | .arrayHeader path => do
    let root ← appendTable path d.root
    return { root, current := path }
  | .assign path value => do
    let root ← descend .implied (assign path value) d.current .header d.root
    return { d with root }

/-- The table that the statements of a document make. -/
def ofStatements (statements : List Statement) : Option Toml := do
  let d ← statements.foldlM Document.step {}
  return .table .header d.root

end Converge.Toml
