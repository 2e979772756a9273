import Rollcall.Redis.Client

/-!
A store with a script.

A store that answers as it was told beforehand: reply after reply, or one fixed reply for each
command. It can be up or down, and it can cut connections. Nothing takes time.
-/

namespace Rollcall.Redis

inductive Reaction where
  | reply (reply : Reply)
  /-- Cut the connection. -/
  | cut
deriving Repr

inductive Script where
  | inOrder (reactions : List Reaction)
  | byName (replies : List (String × Reply))
deriving Repr

structure Server where
  listening : Bool
  /-- The connections that were not cut. -/
  alive : List Nat
  script : Script
  received : List Command
  now : Span
deriving Repr

namespace Server

def create (listening : Bool) (script : Script) : Server := ⟨listening, [], script, [], .zero⟩

def unscripted : Reaction := .reply (.error "ERR unscripted")

def Script.next (command : Command) : Script → Reaction × Script
  | .inOrder [] => (unscripted, .inOrder [])
  | .inOrder (reaction :: rest) => (reaction, .inOrder rest)
  | .byName replies =>
      (((replies.find? fun (name, _) => name == command.name).map fun (_, r) => .reply r).getD
        unscripted, .byName replies)

def dial (conn : Nat) (s : Server) : Except Failure Unit × Server :=
  if s.listening then (.ok (), { s with alive := conn :: s.alive }) else (.error .disconnected, s)

def ask (conn : Nat) (command : Command) (s : Server) : Except Failure Reply × Server :=
  if s.alive.contains conn then
    let (reaction, script) := Script.next command s.script
    let s := { s with script, received := s.received ++ [command] }
    match reaction with
    | .reply r => (.ok r, s)
    | .cut => (.error .disconnected, { s with alive := s.alive.filter (· ≠ conn) })
  else
    (.error .disconnected, s)

instance : Network Server where
  now := Server.now
  dial := dial
  ask := ask
  sleep := fun d s => { s with now := s.now + d }

def down (s : Server) : Server := { s with listening := false, alive := [] }

def up (s : Server) : Server := { s with listening := true }

end Server
end Rollcall.Redis
