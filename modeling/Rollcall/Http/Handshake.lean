import Rollcall.Digest.Sha1
import Rollcall.Http.Request
import Rollcall.Text.Base64

/-!
Opening a socket.

A client asks for a socket by a request with certain headers, and gets the digest of its key back.
Each requirement that a request misses has its own answer; the first one counts.
-/

namespace Rollcall.Http.Handshake

inductive Refusal where
  | notGet
  | connection
  | upgrade
  | noKey
  | version
  /-- The connection cannot be handed over. -/
  | notUpgradable
deriving DecidableEq, Repr

def Refusal.response : Refusal → Response
  | .notGet => .plain 405 "Request method must be `GET`"
  | .connection => .plain 400 "Connection header did not include 'upgrade'"
  | .upgrade => .plain 400 "`Upgrade` header did not include 'websocket'"
  | .noKey => .plain 400 "`Sec-WebSocket-Key` header missing"
  | .version => .plain 400 "`Sec-WebSocket-Version` header did not include '13'"
  | .notUpgradable =>
      .plain 426 "WebSocket request couldn't be upgraded since no upgrade state was present"

def occursIn (part : List Char) : List Char → Bool
  | [] => part.isEmpty
  | c :: cs => part.isPrefixOf (c :: cs) || occursIn part cs

def lowered? (r : Request) (name : String) : Option String :=
  (r.headers.first? name).map Headers.lower

/-- The key of a request that may have a socket. -/
def key (r : Request) : Except Refusal String :=
  let connection := (lowered? r "connection").getD ""
  if r.method ≠ "GET" then .error .notGet
  else if occursIn "upgrade".toList connection.toList = false then .error .connection
  else if lowered? r "upgrade" ≠ some "websocket" then .error .upgrade
  else
    match r.headers.first? "sec-websocket-key" with
    | none => .error .noKey
    | some key =>
        if lowered? r "sec-websocket-version" ≠ some "13" then .error .version
        else if r.upgradable = false then .error .notUpgradable
        else .ok key

def suffix : String := "258EAFA5-E914-47DA-95CA-C5AB0DC85B11"

def accept (key : String) : String := Text.base64 (Digest.sha1 (Text.utf8 (key ++ suffix)))

def opened (key : String) : Response :=
  ⟨101, [("connection", "upgrade"), ("upgrade", "websocket"),
    ("sec-websocket-accept", accept key)], ""⟩

end Rollcall.Http.Handshake
