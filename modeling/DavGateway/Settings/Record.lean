import DavGateway.Settings.Value

/-!
# Records in settings

A record is written as a table with the names of its fields as keys, or as a list with its fields in
order. Entries that name no field and items behind the last field are passed over.
-/

namespace DavGateway

/-- What is given for the fields of a record. -/
inductive Record where
  | named (entries : List (String × Value))
  | listed (items : List Value)
deriving Repr

/-- A field of a record: its name, and its place among the fields. -/
structure Field where
  place : Nat
  name : String
deriving DecidableEq, Repr

namespace Record

/-- The record that a value is. -/
def ofValue? : Value → Option Record
  | .table entries => some (.named entries)
  | .list items => some (.listed items)
  | _ => none

/-- What is given for a field. -/
def given? : Record → Field → Option Value
  | .named entries, field => entries.lookup field.name
  | .listed items, field => items[field.place]?

/-- Reads a field that has to be given. -/
def required? {α : Type} (r : Record) (field : Field) (read : Value → Option α) : Option α :=
  (r.given? field).bind read

/-- Reads a field that has the value `usual` unless another one is given. -/
def orUsual? {α : Type} (r : Record) (field : Field) (read : Value → Option α) (usual : α) :
    Option α :=
  match r.given? field with
  | some value => read value
  | none => some usual

/-- Reads a field that may be left out or be null. -/
def maybe? {α : Type} (r : Record) (field : Field) (read : Value → Option α) : Option (Option α) :=
  r.orUsual? field (Value.optional? read) none

end Record

namespace Value

/-- Reads one of several words, in any case, or the table whose only key is the word. -/
def choice? {α : Type} (words : List (String × α)) : Value → Option α
  | .text word => words.lookup (lowered word)
  | .table [(word, _)] => words.lookup (lowered word)
  | _ => none

/-- Reads a list. -/
def items? {α : Type} (read : Value → Option α) : Value → Option (List α)
  | .list items => items.mapM read
  | _ => none

end Value

end DavGateway
