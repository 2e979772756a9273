import Rollcall.Redis.Reply

/-!
Commands and dialogs.

The commands that the service sends to the store, and dialogs: commands one after the other over one
connection, each chosen after the reply to the one before.

Leaving runs as a script on the store, so that nobody sees the steps between. It is called by its
hash, and sent in full only if the store does not know it.
-/

namespace Rollcall.Redis

inductive Command where
  /-- One more connection of a member. -/
  | addOne (key member : String)
  /-- One connection of a member less, by the script. -/
  | runLeave (key member : String)
  | loadLeave
  | countMembers (key : String)
  | ping
  | memoryInfo
  /-- One page of the keys that match a pattern. -/
  | scan (cursor : Nat) (pattern : String)
deriving DecidableEq, Repr

namespace Command

def pageSize : Nat := 500

/-- The words of a command, given the hash and the text of the script. -/
def words (hash script : String) : Command → List String
  | .addOne key member => ["ZINCRBY", key, "1", member]
  | .runLeave key member => ["EVALSHA", hash, "1", key, member]
  | .loadLeave => ["SCRIPT", "LOAD", script]
  | .countMembers key => ["ZCARD", key]
  | .ping => ["PING"]
  | .memoryInfo => ["INFO", "memory"]
  | .scan cursor pattern =>
      ["SCAN", toString cursor, "MATCH", pattern, "COUNT", toString pageSize]

def name (c : Command) : String := (c.words "" "").headD ""

end Command

inductive Dialog (α : Type) where
  | finished (result : Except Failure α)
  | ask (command : Command) (next : Except Failure Reply → Dialog α)

namespace Dialog

variable {α : Type}

/-- What a reader makes of what came back. -/
def take (reader : Reply → Option α) (answer : Except Failure Reply) : Except Failure α :=
  answer.bind (Reply.read reader)

def single (command : Command) (reader : Reply → Option α) : Dialog α :=
  .ask command fun answer => .finished (take reader answer)

def join (key member : String) : Dialog Int :=
  single (.addOne key member) fun r => r.double.map Binary64.toSigned

def leave (key member : String) : Dialog Int :=
  .ask (.runLeave key member) fun answer =>
    match take Reply.signed answer with
    | .ok n => .finished (.ok n)
    | .error cause =>
        if cause.kind = .noScriptError then
          .ask .loadLeave fun answer =>
            match take Reply.anything answer with
            | .ok () => single (.runLeave key member) Reply.signed
            | .error cause => .finished (.error cause)
        else
          .finished (.error cause)

def count (key : String) : Dialog Nat := single (.countMembers key) Reply.natural

def ping : Dialog Unit := single .ping fun r => r.string.map fun _ => ()

def memoryInfo : Dialog String := single .memoryInfo Reply.string

def page (cursor : Nat) (pattern : String) : Dialog (Nat × List String) :=
  single (.scan cursor pattern) Reply.page

end Dialog
end Rollcall.Redis
