import Rollcall.Service.Wiring
import Rollcall.Settings.Load
import Rollcall.Settings.Report

/-!
Command line.

Loads the settings of the working directory and the environment, checks what they ask for, and
prints the settings in effect. No argument is read.
-/

namespace Rollcall

/-- The text of a file, none where there is no such file or it cannot be read. -/
def fileText? (path : String) : IO (Option String) :=
  try return some (← IO.FS.readFile path) catch _ => return none

def filesAt (paths : List String) : IO Settings.Files :=
  paths.filterMapM fun path => do
    return (← fileText? path).map fun text => (path, text)

def environment : IO Settings.DotEnv.Variables := do
  return Settings.DotEnv.ofBlock ((← fileText? "/proc/self/environ").getD "")

end Rollcall

open Rollcall

/-- Answers zero where the settings can be used. -/
def main : IO UInt32 := do
  let vars ← environment
  let dotEnv ← filesAt [".env"]
  let files ← filesAt (Settings.paths dotEnv vars)
  match Settings.load? (dotEnv ++ files) vars with
  | none =>
      IO.eprintln "the settings cannot be read"
      return 1
  | some settings =>
      match Service.Wiring.ofSettings settings with
      | .error failure =>
          IO.eprintln failure.text
          return 1
      | .ok _ =>
          IO.println settings.report.text
          return 0
