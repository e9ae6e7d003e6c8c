import DavGateway.Settings.Value
import DavGateway.Text.Blank
import DavGateway.Text.Split

/-!
# Paths into settings

A key of a settings source can be a path, such as `store.root` or `mounts[0].pool`. A value is
laid over what is there: tables are merged key by key, everything else is replaced. Keys are put
in lower case on the way in; the keys of tables inside lists are not.
-/

namespace DavGateway

/-- A step of a path: a key of a table, or a place in a list, which is counted from the end if it is
negative. -/
inductive PathStep where
  | key (name : String)
  | place (index : Int)
deriving DecidableEq, Repr

namespace SettingsPath

/-- Can the character stand in a key of a path? -/
def isKeyChar (c : Char) : Bool := c.isAlphanum || c == ' ' || c == '_' || c == '-'

/-- Reads the number of a place. -/
def readPlace? (s : List Char) : Option Int :=
  match Text.trim s with
  | '-' :: digits => (Text.readDigits? digits).map fun n => -(n : Int)
  | digits => (Text.readDigits? digits).map fun n => (n : Int)

/-- Reads the steps that follow the first key. -/
def readSteps? : Nat → List Char → Option (List PathStep)
  | _, [] => some []
  | 0, _ => none
  | fuel + 1, c :: s =>
    if c = '.' then
      let name := s.takeWhile isKeyChar
      if name.isEmpty then none
      else (readSteps? fuel (s.drop name.length)).map (.key (String.ofList name) :: ·)
    else if c = '[' then
      match Text.cutAt? ']' s with
      | none => none
      | some (inside, rest) => do
        let index ← readPlace? inside
        let steps ← readSteps? fuel rest
        return .place index :: steps
    else none

/-- The steps of a key. A key that is no path is a single step. -/
def ofKey (key : String) : List PathStep :=
  let s := key.toList
  let name := s.takeWhile isKeyChar
  if name.isEmpty then [.key key]
  else match readSteps? s.length (s.drop name.length) with
    | some steps => .key (String.ofList name) :: steps
    | none => [.key key]

/-- The entries of a table; anything else has none. -/
def entriesOf : Value → List (String × Value)
  | .table entries => entries
  | _ => []

/-- The items of a list; anything else has none. -/
def itemsOf : Value → List Value
  | .list items => items
  | _ => []

/-- Puts a value under a key, at the place of the one that is there. -/
def putEntry (key : String) (value : Value) : List (String × Value) → List (String × Value)
  | [] => [(key, value)]
  | entry :: rest =>
    if entry.1 = key then (key, value) :: rest else entry :: putEntry key value rest

mutual

/-- Lays a value over the one that is there. -/
def layOver (value : Value) (old : Value) : Value :=
  match value with
  | .table entries => .table (layEntries entries (entriesOf old))
  | value => value

/-- Lays entries over those that are there, one after the other. -/
def layEntries (entries : List (String × Value)) (old : List (String × Value)) :
    List (String × Value) :=
  match entries with
  | [] => old
  | (key, value) :: rest =>
    let key := Value.lowered key
    let merged := layOver value ((old.lookup key).getD .null)
    layEntries rest (putEntry key merged old)

end

/-- The number of items in front of a place. -/
def itemsBefore (index : Int) (items : List Value) : Nat :=
  (if index < 0 then (items.length : Int) + index else index).toNat

/-- The list with the item behind so many others changed; missing items before it are null. -/
def changeItem (f : Value → Value) : Nat → List Value → List Value
  | 0, [] => [f .null]
  | 0, item :: rest => f item :: rest
  | n + 1, [] => .null :: changeItem f n []
  | n + 1, item :: rest => item :: changeItem f n rest

/-- Lays a value over what a path leads to. What stands in the way of the path is replaced. -/
def put (value : Value) : List PathStep → Value → Value
  | [], old => layOver value old
  | [.place index], old =>
    let items := itemsOf old
    .list (changeItem (fun _ => value) (itemsBefore index items) items)
  | .key name :: rest, old =>
    let name := Value.lowered name
    let entries := entriesOf old
    .table (putEntry name (put value rest ((entries.lookup name).getD .null)) entries)
  | .place index :: rest, old =>
    let items := itemsOf old
    .list (changeItem (put value rest) (itemsBefore index items) items)

/-- Lays the entries of a source over the settings so far. -/
def putAll (entries : List (String × Value)) (settings : Value) : Value :=
  entries.foldl (fun settings entry => put entry.2 (ofKey entry.1) settings) settings

end SettingsPath

end DavGateway
