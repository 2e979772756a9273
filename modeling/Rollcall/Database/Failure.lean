/-!
Failures of the database.
-/

namespace Rollcall.Database

inductive Failure where
  /-- The address of the database cannot be used. -/
  | configuration (detail : String)
  /-- The database answered with something that makes no sense. -/
  | protocol (detail : String)
  /-- A query for one row gave none. -/
  | rowNotFound
  /-- No connection became free in time. -/
  | poolTimedOut
deriving DecidableEq, Repr, Inhabited

def Failure.text : Failure → String
  | .configuration detail => "error with configuration: " ++ detail
  | .protocol detail => "encountered unexpected or invalid data: " ++ detail
  | .rowNotFound => "no rows returned by a query that expected to return at least one row"
  | .poolTimedOut => "pool timed out while waiting for an open connection"

end Rollcall.Database
