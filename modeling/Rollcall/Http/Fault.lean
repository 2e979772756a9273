import Rollcall.Database.Failure
import Rollcall.Http.Envelope
import Rollcall.Redis.Failure
import Rollcall.Settings.Failure

/-!
Faults.

Failures of a request. What a client is told depends on the run mode: in production a fault that is
not the client's is named in general terms only.
-/

namespace Rollcall.Http

inductive Fault where
  | config (cause : Settings.Failure)
  /-- An expected failure with its status. -/
  | business (status : Nat) (message : String)
  | internal (message : String)
  | redis (cause : Redis.Failure)
  | database (cause : Database.Failure)
deriving DecidableEq, Repr, Inhabited

namespace Fault

def badRequest (message : String) : Fault := .business 400 message

def notFound (message : String) : Fault := .business 404 message

def text : Fault → String
  | .config cause => "Configuration error: " ++ cause.text
  | .business _ message => message
  | .internal message => "Internal error: " ++ message
  | .redis cause => "Redis error: " ++ cause.text
  | .database cause => "Database error: " ++ cause.text

/-- Whether a run mode hides the causes of faults. -/
def isProduction (runMode : Option String) : Bool :=
  runMode == some "production" || runMode == some "prod"

def envelope (fault : Fault) (production : Bool) : Envelope :=
  let told (status : Nat) (general cause : String) :=
    Envelope.failure status (if production then general else cause)
  match fault with
  | .config cause => told 500 "Configuration error" cause.text
  | .business status message => .failure status message
  | .internal message => told 500 "Internal Server Error" message
  | .redis cause => told 503 "Service temporarily unavailable" cause.text
  | .database cause => told 503 "Service temporarily unavailable" cause.text

def response (fault : Fault) (production : Bool) : Response := (fault.envelope production).response

end Fault
end Rollcall.Http
