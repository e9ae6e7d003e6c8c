import DavGateway.Gateway.Start
import DavGateway.Settings.Source

/-!
# The command line

There are two commands: `serve` runs the gateway, and `check` opens every mount and stops. Both take
the same options: `-c FILE` or `--config FILE`, `--mount LINE` as often as wanted, `--timeout SECONDS`
and `--bind ADDRESS`. A value follows its option, or stands behind it after a `=`.
-/

namespace DavGateway

/-- What is to be done with the settings. -/
inductive Command where
  | serve
  | check
deriving DecidableEq, Repr

/-- The options of a command. -/
structure CommandOptions where
  file : Option String := none
  changes : SettingsChanges := {}
deriving DecidableEq, Repr

/-- What the arguments ask for. -/
inductive Invocation where
  | help
  | misuse
  | run (command : Command) (options : CommandOptions)
deriving DecidableEq, Repr

/-- The options that take a value. -/
inductive OptionName where
  | config
  | mount
  | timeout
  | bind
deriving DecidableEq, Repr

/-- An argument behind a command. -/
inductive Argument where
  | help
  | option (name : OptionName) (value : Option String)
  | noMoreOptions
  | other
deriving DecidableEq, Repr

namespace Argument

/-- The long names of options. -/
def longNames : List (String × OptionName) :=
  [("config", .config), ("mount", .mount), ("timeout", .timeout), ("bind", .bind)]

/-- Reads what follows two dashes. -/
def ofLong (s : List Char) : Argument :=
  if s = [] then .noMoreOptions
  else
    let (name, value) := match Text.cutAt? '=' s with
      | some (name, value) => (name, some (String.ofList value))
      | none => (s, none)
    if String.ofList name = "help" ∧ value = none then .help
    else match longNames.lookup (String.ofList name) with
      | some name => .option name value
      | none => .other

/-- Reads what follows one dash. -/
def ofShort : List Char → Argument
  | 'h' :: _ => .help
  | ['c'] => .option .config none
  | 'c' :: '=' :: value => .option .config (some (String.ofList value))
  | 'c' :: value => .option .config (some (String.ofList value))
  | _ => .other

/-- Reads an argument. -/
def ofText (s : String) : Argument :=
  match s.toList with
  | '-' :: '-' :: rest => ofLong rest
  | '-' :: rest => ofShort rest
  | _ => .other

/-- Can the argument be the value of the option in front of it? A single dash can. -/
def isValue (s : String) : Bool := s == "-" || s.toList.head? != some '-'

end Argument

namespace CommandOptions

/-- Puts the value of an option in. Only mounts can be given more than once, and the timeout has to
be a number. -/
def put? (o : CommandOptions) (name : OptionName) (value : String) : Option CommandOptions :=
  match name with
  | .mount => some { o with changes := { o.changes with mounts := o.changes.mounts ++ [value] } }
  | .config => if o.file.isSome then none else some { o with file := some value }
  | .bind =>
    if o.changes.bindAddress.isSome then none
    else some { o with changes := { o.changes with bindAddress := some value } }
  | .timeout =>
    if o.changes.timeout.isSome then none
    else (Text.readWord? value.toList).map fun seconds =>
      { o with changes := { o.changes with timeout := some seconds } }

end CommandOptions

namespace Invocation

/-- Reads the options of a command, from the first argument to the last. The first one that is
wrong, or that asks for help, settles the matter. -/
def ofOptions (command : Command) : List String → CommandOptions → Invocation
  | [], o => .run command o
  | argument :: rest, o =>
    match Argument.ofText argument with
    | .help => .help
    | .other => .misuse
    | .noMoreOptions => if rest.isEmpty then .run command o else .misuse
    | .option name (some value) =>
      match o.put? name value with
      | some o => ofOptions command rest o
      | none => .misuse
    | .option name none =>
      match rest with
      | [] => .misuse
      | value :: rest =>
        if Argument.isValue value then
          match o.put? name value with
          | some o => ofOptions command rest o
          | none => .misuse
        else .misuse

/-- The words that can stand first. -/
def commands : List (String × Command) := [("serve", .serve), ("check", .check)]

/-- Is it a word for which there is help? -/
def isTopic (word : String) : Bool := word == "help" || (commands.lookup word).isSome

/-- Reads all arguments. -/
def ofArguments : List String → Invocation
  | [] => .misuse
  | "help" :: topics =>
    match topics with
    | [] => .help
    | [topic] => if isTopic topic then .help else .misuse
    | _ => .misuse
  | argument :: rest =>
    match commands.lookup argument with
    | some command => ofOptions command rest {}
    | none => if Argument.ofText argument = .help then .help else .misuse

end Invocation

/-- The stages at which a command can fail. -/
inductive Stage where
  | load
  | mounts
  | server
deriving DecidableEq, Repr

/-- What a command comes to. -/
inductive Verdict where
  | help
  | misuse
  | checked (mounts : Nat)
  | failed (stage : Stage) (failure : Failure)
deriving DecidableEq, Repr

namespace Verdict

/-- The exit code of the program. -/
def exitCode : Verdict → UInt32
  | .help => 0
  | .misuse => 2
  | .checked _ => 0
  | .failed _ _ => 1

/-- How many mounts there are, in words. -/
def mountCount (mounts : Nat) : String := toString mounts ++ " mount(s)"

/-- How the program is called. -/
def usage : String :=
  "Usage: gateway <serve|check> [-c|--config FILE] [--mount LINE]... [--timeout SECONDS] "
    ++ "[--bind ADDRESS]"

/-- What the program says. -/
def message : Verdict → String
  | .help => usage
  | .misuse => "error: wrong arguments\n" ++ usage
  | .checked mounts => "configuration ok: " ++ mountCount mounts
  | .failed .load failure => "Failed to load config: " ++ failure.message
  | .failed .mounts failure => "Mount check failed: " ++ failure.message
  | .failed .server failure => "Server error: " ++ failure.message

end Verdict

namespace CommandOptions

/-- Loads the settings, changes them as the options say, and checks them. -/
def settings (o : CommandOptions) (d : Disk) (here : DiskPath) (environment : Environment) :
    Except Failure GatewaySettings := do
  let loaded ← GatewaySettings.load d here o.file environment
  let (result, settings) := loaded.change o.changes
  result
  settings.check
  return settings

end CommandOptions

namespace Command

/-- Starts a gateway. A check stops there; a server needs somebody to listen for it, and since nobody
does, it fails at that. -/
def start (command : Command) (settings : GatewaySettings) (here : DiskPath) (c : Clusters) :
    Verdict × Clusters :=
  let (started, c) := Gateway.start settings here c
  let verdict := match command, started with
    | .check, .ok gateway => .checked gateway.table.mounts.length
    | .check, .error failure => .failed .mounts failure
    | .serve, .ok _ => .failed .server (.internal ("cannot listen on " ++ settings.bindAddress))
    | .serve, .error failure => .failed .server failure
  (verdict, c)

end Command

/-! ## What a command may touch -/

/-- The paths that starting a gateway may touch. -/
def GatewaySettings.places (s : GatewaySettings) (here : DiskPath) : List DiskPath :=
  match s.store.backend with
  | .memory => []
  | .directory => s.mounts.flatMap fun m =>
    match m.connection.or s.store.root with
    | none => []
    | some text =>
      let root := DiskPath.ofText here text
      [root ++ [DirectoryCluster.identityFile], root ++ [m.pool]]

/-- The paths that an invocation may touch, as far as a disk tells that is known only in part: where
the settings may be, and then where the settings lead to. -/
def Invocation.places (invocation : Invocation) (d : Disk) (here : DiskPath)
    (environment : Environment) : List DiskPath :=
  match invocation with
  | .help => []
  | .misuse => []
  | .run _ o =>
    let ofFile := match o.file with
      | none => []
      | some text =>
        let path := DiskPath.ofText here text
        path :: SettingsFormat.extensions.filterMap fun (extension, _) =>
          SettingsFile.withExtension? path extension
    match o.settings d here environment with
    | .ok settings => ofFile ++ settings.places here
    | .error _ => ofFile

/-- Does what the arguments ask for, with the files on the disk of `c`. -/
def Invocation.perform (invocation : Invocation) (here : DiskPath)
    (environment : Environment) (c : Clusters) : Verdict × Clusters :=
  match invocation with
  | .help => (.help, c)
  | .misuse => (.misuse, c)
  | .run command o =>
    match o.settings c.disk here environment with
    | .error failure => (.failed .load failure, c)
    | .ok settings => command.start settings here c

end DavGateway
