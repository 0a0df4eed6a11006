import Homestead.Amount
import Homestead.Table

/-!
# Documents

A document is the form in which values of the game are stored: a tree of scalars, lists and
records. A type with a written form says how a value is written and what is read back from a
document; a document that does not have the form of the type is not read (`Documented.read?` is
`none`).

The forms that all types share:

* a member of a kind with names is written as its name;
* a value with a tag is a record of the one field that the tag names; a tag that carries nothing
  is its name alone, and is also read from a record in which it holds `null`;
* a record has a field for each part of a value. Reading ignores other fields and takes a missing
  one for `null`, which only an optional part accepts; a list of exactly the parts in order is
  read as well.
-/

namespace Homestead

/-- A stored tree. -/
inductive Document where
  | null
  | flag (value : Bool)
  /-- An integer of 64 bits, signed or unsigned. -/
  | number (value : Int)
  /-- Any other number, by its numeral. No type here reads it. -/
  | decimal (numeral : String)
  | text (value : String)
  | list (items : List Document)
  | record (fields : List (String × Document))

namespace Document

instance : Inhabited Document := ⟨null⟩

/-- The parts of a record, in the order of the given names. -/
def parts? (names : List String) : Document → Option (List Document)
  | record fields => some (names.map fun name => (fields.lookup name).getD null)
  | list items => if items.length = names.length then some items else none
  | _ => none

/-- The tag of a document and what it carries, if it carries anything. -/
def tag? : Document → Option (String × Option Document)
  | text name => some (name, none)
  | record [(name, value)] => some (name, some value)
  | _ => none

/-- The tag of a document that carries nothing. -/
def bareTag? (d : Document) : Option String :=
  match d.tag? with
  | some (name, none) => some name
  | some (name, some null) => some name
  | _ => none

/-- The tag of a document and what it carries. -/
def fullTag? (d : Document) : Option (String × Document) :=
  match d.tag? with
  | some (name, some value) => some (name, value)
  | _ => none

/-- The document of a tag that carries a value. -/
def tagged (name : String) (value : Document) : Document := record [(name, value)]

end Document

/-- A type with a written form. -/
class Documented (α : Type) where
  /-- The document of a value. -/
  write : α → Document
  /-- The value of a document, if the document has the form of the type. -/
  read? : Document → Option α

namespace Documented

variable {α β κ : Type}

/-! ## Scalars -/

instance : Documented Bool where
  write := .flag
  read?
    | .flag b => some b
    | _ => none

instance : Documented String where
  write := .text
  read?
    | .text s => some s
    | _ => none

def readInt? : Document → Option Int
  | .number n => some n
  | _ => none

def readNat? (d : Document) : Option Nat := do
  let n ← readInt? d
  if 0 ≤ n then some n.toNat else none

instance : Documented Nat where
  write n := .number n
  read? := readNat?

instance : Documented Amount where
  write n := .number n.toInt
  read? d := (readInt? d).bind Amount.ofInt?

instance : Documented Count where
  write n := .number n.toNat
  read? d := (readNat? d).bind Count.ofNat?

instance : Documented UInt8 where
  write n := .number n.toNat
  read? d := do
    let n ← readNat? d
    if n < UInt8.size then some (UInt8.ofNat n) else none

/-! ## Kinds with names -/

instance [DecidableEq κ] [Enumerated κ] : Documented κ where
  write k := .text (Enumerated.name k)
  read? d := d.bareTag?.bind Enumerated.ofName?

/-! ## Collections -/

instance [Documented α] : Documented (Option α) where
  write
    | some a => write a
    | none => .null
  read?
    | .null => some none
    | d => (read? d).map some

instance [Documented α] : Documented (List α) where
  write as := .list (as.map write)
  read?
    | .list items => items.mapM read?
    | _ => none

instance [Documented α] [Documented β] : Documented (α × β) where
  write ab := .list [write ab.1, write ab.2]
  read?
    | .list [a, b] => return (← read? a, ← read? b)
    | _ => none

/-- A table of values is written as the list of its cells. -/
def writeCells [DecidableEq κ] [Enumerated κ] [Documented α] (t : Table κ α) : Document :=
  write t.cells

/-- Reads a table of values, with one value for each member. -/
def readCells? [DecidableEq κ] [Enumerated κ] [Documented α] (d : Document) :
    Option (Table κ α) := do
  Table.ofCells? (← read? d)

/-- A table of entries is written as a record of those that are present. -/
def writeEntries [DecidableEq κ] [Enumerated κ] [Documented α] (t : Table κ (Option α)) :
    Document :=
  .record (t.entries.map fun e => (Enumerated.name e.1, write e.2))

/-- Reads the entries of a table; the others are absent. -/
def readEntries? [DecidableEq κ] [Enumerated κ] [Documented α] :
    Document → Option (Table κ (Option α))
  | .record fields =>
    fields.foldlM
      (fun t field => return t.set (← Enumerated.ofName? field.1) (some (← read? field.2)))
      (.replicate none)
  | _ => none

end Documented

end Homestead
