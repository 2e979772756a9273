import Rollcall.Net.Url
import Rollcall.Redis.Failure

/-!
Addresses of the shared store.

What a URL says about the store: where it is and which of its databases to use. A URL that says
nothing usable is refused before any connection is made.
-/

namespace Rollcall.Redis

inductive Place where
  | network (host : String) (port : Nat)
  | socket (path : String)
deriving DecidableEq, Repr

structure Address where
  place : Place
  database : Int
deriving DecidableEq, Repr

namespace Address

def defaultPort : Nat := 6379

def invalid {α : Type} (description : String) : Except Failure α :=
  .error (.described .invalidClientConfig description none)

def readDatabase (text : String) : Except Failure Int :=
  match readSigned? (-(Nat.pow 2 63)) (Nat.pow 2 63 - 1) text with
  | some n => .ok n
  | none => invalid "Invalid database number"

/-- The value of a name in the query; the last one counts. -/
def lastValue? (u : Net.Url) (name : String) : Option String :=
  (u.queryPairs.reverse.find? fun (n, _) => n == name).map Prod.snd

def checkProtocol (u : Net.Url) : Except Failure Unit :=
  match lastValue? u "protocol" with
  | none => .ok ()
  | some version =>
      if ["2", "3", "resp2", "resp3"].contains version then .ok ()
      else .error (.described .invalidClientConfig "Invalid protocol version" (some version))

def checkText (part description : String) : Except Failure Unit :=
  match Text.unescaped part with
  | .ok _ => .ok ()
  | .error _ => invalid description

def withoutSlashes (path : String) : String :=
  String.ofList ((path.toList.dropWhile (· = '/')).reverse.dropWhile (· = '/')).reverse

/-- An address on the network; `secured` tells whether the URL asks for encryption, which is not
available. -/
def ofNetwork (u : Net.Url) (secured : Bool) : Except Failure Address := do
  let host ← match u.host with
    | some host => pure host.text
    | none => invalid "Missing hostname"
  if secured then invalid "can't connect with TLS, the feature is not enabled"
  let path := withoutSlashes u.path
  let database ← if path = "" then pure 0 else readDatabase path
  checkText u.username "Username is not valid UTF-8 string"
  checkText (u.password.getD "") "Password is not valid UTF-8 string"
  checkProtocol u
  return ⟨.network host (u.port.getD defaultPort), database⟩

def ofSocket (u : Net.Url) : Except Failure Address := do
  let isLocal := match u.host with
    | none => true
    | some host => host = .name "localhost"
  if !isLocal || !u.path.startsWith "/" then invalid "Missing path"
  let database ← match lastValue? u "db" with
    | none => pure 0
    | some text => readDatabase text
  checkProtocol u
  return ⟨.socket u.path, database⟩

def parse (url : String) : Except Failure Address :=
  match Net.Url.parse url with
  | .error _ => invalid "Redis URL did not parse"
  | .ok u =>
      match u.scheme with
      | "redis" => ofNetwork u false
      | "rediss" => ofNetwork u true
      | "unix" => ofSocket u
      | "redis+unix" => ofSocket u
      | _ => invalid "Redis URL did not parse"

end Address
end Rollcall.Redis
