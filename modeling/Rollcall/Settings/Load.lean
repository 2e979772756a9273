import Rollcall.Settings.DotEnv
import Rollcall.Settings.Layers

/-!
Loading the settings.

The settings of a process: built-in values, then a default file and a file for the run mode, then
the variables of the environment, to which a file of variables may add.
-/

namespace Rollcall.Settings

def builtIn : Layer :=
  let d : Settings := {}
  [("server.host", .text d.server.host), ("redis.url", .text d.redis.url),
   ("presence.key", .text d.presence.key)]

/-- The names whose values are lists, with commas between the items. -/
def listNames : List String := ["server.cors_origins", "stats.cache_key_patterns"]

/-- The value a variable gives to a name: a flag, an integer, a double, a list or a text, whichever
it can be read as first. -/
def ofVariable (name value : String) : Value :=
  if lower value == "true" then .bool true
  else if lower value == "false" then .bool false
  else match readSigned? (-(Nat.pow 2 63)) (Nat.pow 2 63 - 1) value with
    | some n => .int n
    | none =>
        match Binary64.read? value with
        | some x => .float x
        | none =>
            if listNames.contains name then .list ((value.splitOn ",").map .text) else .text value

/-- The layer of the environment: names in lower case, two low lines for a point. -/
def ofEnvironment (vars : DotEnv.Variables) : Layer :=
  vars.map fun (name, value) =>
    let name := ".".intercalate ((lower name).splitOn "__")
    (name, ofVariable name value)

abbrev Files := List (String × String)

def find (files : Files) (path : String) : Option String :=
  (files.find? fun (other, _) => other == path).map Prod.snd

/-- Drops what does not belong to the name of a file: slashes at the end and the level itself. -/
def trimPath : (fuel : Nat) → List Char → List Char
  | 0, cs => cs
  | fuel + 1, cs =>
      match cs.reverse with
      | '/' :: rest => trimPath fuel rest.reverse
      | '.' :: '/' :: rest => trimPath fuel rest.reverse
      | _ => cs

/-- The layer of a file that may be absent: the file of exactly that name, which counts only if it
says what it holds, else the one with the ending added. The outer result is none where the file
cannot be read. -/
def ofFile (files : Files) (path : String) : Option Layer :=
  let base := String.ofList (trimPath path.length path.toList)
  let text? :=
    match find files path with
    | some text => if path.endsWith ".json" then some text else none
    | none => find files (base ++ ".json")
  match text? with
  | none => some []
  | some text =>
      match Json.parse? text with
      | some (.object fields) => some (Value.ofFields fields)
      | _ => none

def defaultMode : String := "development"

/-- The variables of a process, with those that the file `.env` adds. -/
def allVariables (files : Files) (environment : DotEnv.Variables) : DotEnv.Variables :=
  match find files ".env" with
  | some text => DotEnv.load text environment
  | none => environment

def modePath (vars : DotEnv.Variables) : String :=
  "config/" ++ (DotEnv.lookup "RUN_MODE" vars).getD defaultMode

def commonPath : String := "config/default"

def paths (files : Files) (environment : DotEnv.Variables) : List String :=
  [commonPath, modePath (allVariables files environment)].flatMap fun path =>
    [path, String.ofList (trimPath path.length path.toList) ++ ".json"]

def load? (files : Files) (environment : DotEnv.Variables) : Option Settings :=
  let vars := allVariables files environment
  match ofFile files commonPath, ofFile files (modePath vars) with
  | some common, some own => lenient.read? (gather [builtIn, common, own, ofEnvironment vars])
  | _, _ => none

end Rollcall.Settings
