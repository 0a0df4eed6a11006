import Homestead.Document.Token

/-!
# The nesting of a document

A document is read from its tokens from left to right. What is open at a token, the lists and
records around it, is a list of enclosures, the innermost first; `Document.valueOf?` reads on
before a value and `Document.after?` behind one.

A record keeps the order of its fields. If it names a field more than once, the last one counts.
-/

namespace Homestead

/-- A list or record that is not closed yet, with what it holds so far, last first. -/
inductive Enclosure where
  | list (items : List Document)
  /-- A record before the value of the field `name`. -/
  | record (fields : List (String × Document)) (name : String)

namespace Document

/-- The record of fields, last first, of which only the last of each name is kept. -/
def ofFields (fields : List (String × Document)) : Document :=
  record (fields.foldl
    (fun kept field => if kept.any (·.1 = field.1) then kept else field :: kept)
    [])

mutual

/-- Reads on where a value is due. -/
def valueOf? : List Enclosure → List Token → Option Document
  | around, .scalar d :: rest => after? d around rest
  | around, .openList :: .closeList :: rest => after? (.list []) around rest
  | around, .openList :: rest => valueOf? (.list [] :: around) rest
  | around, .openRecord :: .closeRecord :: rest => after? (.record []) around rest
  | around, .openRecord :: .scalar (.text name) :: .colon :: rest =>
    valueOf? (.record [] name :: around) rest
  | _, _ => none

/-- Reads on after the value `d`. The text has to end where nothing is open. -/
def after? (d : Document) : List Enclosure → List Token → Option Document
  | [], [] => some d
  | .list items :: around, .comma :: rest => valueOf? (.list (d :: items) :: around) rest
  | .list items :: around, .closeList :: rest => after? (.list (d :: items).reverse) around rest
  | .record fields name :: around, .comma :: .scalar (.text next) :: .colon :: rest =>
    valueOf? (.record ((name, d) :: fields) next :: around) rest
  | .record fields name :: around, .closeRecord :: rest =>
    after? (ofFields ((name, d) :: fields)) around rest
  | _, _ => none

end

/-- The document of a text, if the text is one document and blanks. -/
def ofText? (s : String) : Option Document := do valueOf? [] (← Token.ofText? s)

end Document

end Homestead
