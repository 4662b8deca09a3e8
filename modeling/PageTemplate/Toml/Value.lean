import PageTemplate.Toml.Number

/-!
# Values of TOML

A document is a table of values.  How a table was first written decides who may add
to it later, so each table remembers its origin.

**Algorithm.**  `modifyAt` follows a path of keys and makes the tables that are
missing.  A dotted key may pass, and add to, only tables that were made by dotted keys
or that stand open because only their subtables were named; one that it adds to counts
as made by dotted keys from then on, so that no header can open it.  A header may pass
every table that is not written in braces.  Both pass the last of a list of tables, but a
dotted key cannot add to it, as it has a header of its own.
-/

namespace PageTemplate
namespace Toml

/-- How a table was first written. -/
inductive Origin
  /-- By a header of its own. -/
  | header
  /-- By a header of a table inside. -/
  | outer
  /-- By a dotted key. -/
  | dotted
  /-- In braces. -/
  | braces
  deriving DecidableEq, Repr, Inhabited

/-- A value of a document. -/
inductive Value
  | text (t : Text)
  | integer (n : Int)
  /-- A word in the place of an integer that writes none. -/
  | unreadable
  | decimal (d : Decimal)
  /-- An infinite number or none. -/
  | special
  | boolean (b : Bool)
  /-- A date, a time, or both. -/
  | moment
  | array (items : List Value)
  /-- The tables with a common header, the latest first. -/
  | tables (elements : List Value)
  | table (origin : Origin) (entries : List (Text × Value))
  deriving Repr, Inhabited

/-- The values of a table by key. -/
abbrev Entries := List (Text × Value)

/-- The entries after the value of a key was changed.  The change sees no value for a
key that has none, and may refuse. -/
def alterEntry (key : Text) (change : Option Value → Option Value) :
    Entries → Option Entries
  | [] => (change none).map (fun v => [(key, v)])
  | (k, v) :: rest =>
      if key = k then (change (some v)).map (fun v' => (k, v') :: rest)
      else (alterEntry key change rest).map (fun rest' => (k, v) :: rest')

/-- The entries of a table of the given origin after the table that the path leads to
was changed. -/
def modifyAt (dotted : Bool) (change : Origin → Entries → Option Entries) :
    List Text → Origin → Entries → Option Entries
  | [], origin, entries => change origin entries
  | key :: path, _, entries =>
      alterEntry key
        (fun
          | none =>
              let origin := if dotted then .dotted else .outer
              (modifyAt dotted change path origin []).map (.table origin)
          | some (.table origin inner) =>
              if origin = .braces ∨ (dotted = true ∧ origin = .header) then none
              else
                let origin' := if dotted = true ∧ path = [] then .dotted else origin
                (modifyAt dotted change path origin inner).map (.table origin')
          | some (.tables (.table origin inner :: older)) =>
              (modifyAt dotted change path origin inner).map
                (fun inner' => .tables (.table origin inner' :: older))
          | some _ => none)
        entries

/-- The entries with a value for a key that had none. -/
def assign (key : Text) (value : Value) (entries : Entries) : Option Entries :=
  alterEntry key (fun old => if old.isSome then none else some value) entries

/-- The entries with a value for a path of keys and a last key.  The table that the
path leads to has no header of its own, if the path is not empty. -/
def assignAt (path : List Text) (key : Text) (value : Value) (origin : Origin)
    (entries : Entries) : Option Entries :=
  modifyAt true
    (fun origin inner =>
      if origin = .header ∧ path ≠ [] then none else assign key value inner)
    path origin entries

/-- The entries with the table of a header, which must be new or stand open. -/
def openTable (path : List Text) (key : Text) (entries : Entries) : Option Entries :=
  modifyAt false
    (fun _ inner =>
      alterEntry key
        (fun
          | none => some (.table .header [])
          | some (.table .outer es) => some (.table .header es)
          | some _ => none)
        inner)
    path .header entries

/-- The entries with one more table of a list of tables. -/
def openElement (path : List Text) (key : Text) (entries : Entries) : Option Entries :=
  modifyAt false
    (fun _ inner =>
      alterEntry key
        (fun
          | none => some (.tables [.table .header []])
          | some (.tables elements) => some (.tables (.table .header [] :: elements))
          | some _ => none)
        inner)
    path .header entries

/-- Half the count of integers that programs can hold without sign. -/
def integerLimit : Nat :=
  Nat.pow 2 127

mutual

/-- Whether all numbers in a value can be read and are of a size that programs can
hold. -/
def Value.inRange : Value → Bool
  | .integer n => -(integerLimit : Int) ≤ n && n < 2 * (integerLimit : Int)
  | .unreadable => false
  | .decimal d => d.isFinite
  | .array items => allInRange items
  | .tables elements => allInRange elements
  | .table _ entries => entriesInRange entries
  | _ => true

/-- Whether all numbers in a list of values can be read and are of a size that programs
can hold. -/
def allInRange : List Value → Bool
  | [] => true
  | v :: rest => v.inRange && allInRange rest

/-- Whether all numbers in a table can be read and are of a size that programs can
hold. -/
def entriesInRange : List (Text × Value) → Bool
  | [] => true
  | (_, v) :: rest => v.inRange && entriesInRange rest

end

end Toml
end PageTemplate
