import Rollcall.Http.Envelope
import Rollcall.Http.Headers
import Rollcall.Text.Percent

/-!
Requests.

A request with its target taken apart. The path keeps its percent escapes.
-/

namespace Rollcall.Http

structure Request where
  method : String
  path : String
  /-- What follows the question mark, if there is one. -/
  query : Option String
  headers : Headers
  peer : Option Net.Endpoint
  /-- Whether the connection that it came over can be handed over. -/
  upgradable : Bool
deriving Repr, Inhabited

namespace Request

/-- Path and query of a target: one of its own, or one behind a scheme and a host. -/
def readTarget (target : String) : String × Option String :=
  let target := (Text.cutAt '#' target).1
  let cs := target.toList
  let isOwn := cs.head? = some '/' || target = "*"
  if isOwn then Text.cutAt '?' target
  else
    let scheme := cs.takeWhile (· ≠ ':')
    match cs.drop scheme.length with
    | ':' :: '/' :: '/' :: rest =>
        let (path, query) :=
          Text.cutAt '?' (String.ofList (rest.dropWhile fun c => c ≠ '/' && c ≠ '?'))
        (if path = "" then "/" else path, query)
    | _ => ("", none)

def create (method target : String) (headers : Headers) (peer : Option Net.Endpoint)
    (upgradable : Bool) : Request :=
  let (path, query) := readTarget target
  ⟨method, path, query, headers, peer, upgradable⟩

end Request

namespace Response

def textType : String := "text/plain; charset=utf-8"

def plain (status : Nat) (body : String) : Response := ⟨status, [("content-type", textType)], body⟩

def empty (status : Nat) : Response := ⟨status, [], ""⟩

def addHeader (r : Response) (name value : String) : Response :=
  { r with headers := r.headers ++ [(name, value)] }

def setHeader (r : Response) (name value : String) : Response :=
  { r with headers := (r.headers.filter fun (n, _) => n ≠ name) ++ [(name, value)] }

/-- What is left of a response for a client that asked for its head only. -/
def head (r : Response) : Response := { r with body := "" }

def values (r : Response) (name : String) : List String :=
  (r.headers.filter fun (n, _) => n == name).map Prod.snd

end Response
end Rollcall.Http
