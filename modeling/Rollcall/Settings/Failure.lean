import Rollcall.Text.Quoted

/-!
Failures of the settings.
-/

namespace Rollcall.Settings

inductive Failure where
  | message (text : String)
  | notFound (property : String)
deriving DecidableEq, Repr, Inhabited

def Failure.text : Failure → String
  | .message text => text
  | .notFound property => "configuration property " ++ Text.quoted property ++ " not found"

end Rollcall.Settings
