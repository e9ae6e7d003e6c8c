import DavGateway.Gateway.Settings
import DavGateway.Settings.Json
import DavGateway.Settings.Path
import DavGateway.Settings.Toml
import DavGateway.Settings.Yaml
import DavGateway.Store.Disk

/-!
# Where settings come from

Settings are read from a file, if one is named, and from the environment, whose variables are laid
over what the file says. A file is named with its extension or without it.
-/

namespace DavGateway

/-- How a settings file is written. -/
inductive SettingsFormat where
  | toml
  | json
  | yaml
deriving DecidableEq, Repr

namespace SettingsFormat

/-- The extensions of settings files. -/
def extensions : List (String × SettingsFormat) :=
  [("toml", .toml), ("json", .json), ("yaml", .yaml), ("yml", .yaml)]

/-- Reads a text. -/
def read? : SettingsFormat → String → Option Value
  | .toml => Toml.read?
  | .json => Json.read?
  | .yaml => Yaml.read?

end SettingsFormat

namespace SettingsFile

/-- The format of a file, which its extension tells: what follows the last dot of its name, unless
that dot comes first. -/
def formatOf? (name : String) : Option SettingsFormat :=
  let (extension, stem) := name.toList.reverse.span (· != '.')
  match stem with
  | [] => none
  | [_] => none
  | _ => SettingsFormat.extensions.lookup (String.ofList extension.reverse)

/-- The bytes of the file at a path that is written as `text`. A path that ends like that of a folder
leads to no file. -/
def bytesAt? (d : Disk) (text : String) (path : DiskPath) : Option Bytes :=
  let ending := (Text.fields '/' text.toList).getLast?.getD []
  if ending = [] ∨ ending = ['.'] then none else (d.readFile path).toOption

/-- A path with an extension put behind it. -/
def withExtension? (path : DiskPath) (extension : String) : Option DiskPath :=
  match path.getLast? with
  | none => none
  | some ".." => none
  | some name => some (path.dropLast ++ [name ++ "." ++ extension])

/-- Finds the settings file that is named by `text`: that very file, or else the first one that an
extension leads to. A file of the very name has to have an extension that tells its format. -/
def find? (d : Disk) (here : DiskPath) (text : String) : Option (SettingsFormat × Bytes) :=
  let path := DiskPath.ofText here text
  match bytesAt? d text path with
  | some bytes => (path.getLast?.bind formatOf?).map fun format => (format, bytes)
  | none => SettingsFormat.extensions.findSome? fun (extension, format) => do
    let bytes ← (d.readFile (← withExtension? path extension)).toOption
    return (format, bytes)

/-- The text of a file, less the mark of its byte order. -/
def textOf? (bytes : Bytes) : Option String :=
  (Bytes.toText? bytes).map fun text =>
    match text.toList with
    | '\ufeff' :: rest => String.ofList rest
    | _ => text

/-- Reads the settings file that is named by `text`. It holds a table. -/
def read? (d : Disk) (here : DiskPath) (text : String) : Option (List (String × Value)) := do
  let (format, bytes) ← find? d here text
  match ← format.read? (← textOf? bytes) with
  | .table entries => some entries
  | _ => none

end SettingsFile

/-- The variables of an environment: names and values. -/
abbrev Environment := List (String × String)

namespace Environment

/-- The text with a dot for each pair of underscores. -/
def dotted : List Char → List Char
  | '_' :: '_' :: rest => '.' :: dotted rest
  | c :: rest => c :: dotted rest
  | [] => []

/-- The settings that variables give. Their names begin with `POOLGATE__`, and a pair of underscores
leads from a table to a key in it; the case of letters does not matter. -/
def entries (environment : Environment) : List (String × Value) :=
  environment.filterMap fun (name, value) =>
    (Text.behind? "poolgate__".toList (Value.lowered name).toList).map fun rest =>
      (String.ofList (dotted rest), .text value)

end Environment

namespace GatewaySettings

/-- Loads the settings from a file, if one is named, and from the environment. -/
def load (d : Disk) (here : DiskPath) (file : Option String) (environment : Environment) :
    Except Failure GatewaySettings :=
  let entries := match file with
    | none => some []
    | some text => SettingsFile.read? d here text
  match entries with
  | none => .error (.configuration ("no settings in " ++ file.getD ""))
  | some entries =>
    match ofValue? (SettingsPath.putAll (entries ++ environment.entries) (.table [])) with
    | some settings => .ok settings
    | none => .error (.configuration "a setting is missing or has a value of the wrong kind")

end GatewaySettings

end DavGateway
