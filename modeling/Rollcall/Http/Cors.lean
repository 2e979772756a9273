import Rollcall.Http.Request

/-!
Requests from other origins.

Which origins a browser may call the service from. A list of origins lets in exactly those on it; an
empty one lets in every origin. Entries that no header could carry are passed over before the list
is looked at, so a list of such entries alone counts as empty.
-/

namespace Rollcall.Http.Cors

inductive Origins where
  | anyone
  | only (list : List String)
deriving DecidableEq, Repr

def wildcard : String := "*"

/-- What is told where a list holds the wildcard, which a list cannot. -/
def wildcardText : String :=
  "Wildcard origin (`*`) cannot be passed to `AllowOrigin::list`. Use `AllowOrigin::any()` instead"

/-- The origins that a setting lets in, none if it lists the wildcard. -/
def Origins.ofList? (entries : List String) : Option Origins :=
  let usable := entries.filter Headers.isValue
  if usable = [] then some .anyone
  else if usable.contains wildcard then none
  else some (.only usable)

/-- The origin that a response lets in, given the one that the request came from. -/
def Origins.grant? (o : Origins) (origin : Option String) : Option String :=
  match o with
  | .anyone => some wildcard
  | .only list => origin.filter list.contains

def grantHeader : String := "access-control-allow-origin"

def varying : String := "origin, access-control-request-method, access-control-request-headers"

/-- A response with what the browser has to know. -/
def mark (o : Origins) (r : Request) (response : Response) : Response :=
  let response := response.addHeader "vary" varying
  match o.grant? (r.headers.first? "origin") with
  | some origin => response.setHeader grantHeader origin
  | none => response

def asks : String := "OPTIONS"

def preflight (o : Origins) (r : Request) : Response :=
  ((mark o r (.empty 200)).addHeader "access-control-allow-methods" "GET,OPTIONS").addHeader
    "access-control-allow-headers" wildcard

end Rollcall.Http.Cors
