import Rollcall.Binary64.Text
import Rollcall.Redis.Failure

/-!
Replies of the shared store.

What the store answers, and how an answer is read as the value that was asked for. Numbers may come
as integers or as texts; a reply of another form is a failure of its own.
-/

namespace Rollcall.Redis

inductive Reply where
  | simple (text : String)
  | bulk (text : String)
  | int (n : Int)
  | none
  | array (items : List Reply)
  /-- A code, a space and a detail. -/
  | error (text : String)
deriving Repr, Inhabited

def FailureKind.ofCode (code : String) : FailureKind :=
  match code with
  | "ERR" => .responseError
  | "EXECABORT" => .execAbortError
  | "LOADING" => .busyLoadingError
  | "NOSCRIPT" => .noScriptError
  | "MOVED" => .moved
  | "ASK" => .ask
  | "TRYAGAIN" => .tryAgain
  | "CLUSTERDOWN" => .clusterDown
  | "CROSSSLOT" => .crossSlot
  | "MASTERDOWN" => .masterDown
  | "READONLY" => .readOnly
  | "NOTBUSY" => .notBusy
  | _ => .extensionError

def Failure.ofError (text : String) : Failure :=
  let cs := text.toList
  let code := String.ofList (cs.takeWhile (· ≠ ' '))
  let detail := match cs.dropWhile (· ≠ ' ') with
    | [] => none
    | _ :: rest => some (String.ofList rest)
  .reported (FailureKind.ofCode code) code detail

namespace Reply

mutual

/-- The first failure that a reply reports, itself or in its items. -/
def failure? : Reply → Option Failure
  | .error text => some (Failure.ofError text)
  | .array items => failureIn? items
  | _ => Option.none

def failureIn? : List Reply → Option Failure
  | [] => Option.none
  | item :: rest =>
      match failure? item with
      | some failure => some failure
      | Option.none => failureIn? rest

end

def text? : Reply → Option String
  | .simple text => some text
  | .bulk text => some text
  | _ => Option.none

/-- What a reader makes of a reply; one that reports a failure is not read. -/
def read {α : Type} (reader : Reply → Option α) (r : Reply) : Except Failure α :=
  match r.failure? with
  | some failure => .error failure
  | Option.none =>
      match reader r with
      | some value => .ok value
      | Option.none => .error .mistyped

def anything : Reply → Option Unit := fun _ => some ()

def string : Reply → Option String
  | .int n => some (toString n)
  | r => r.text?

def signed : Reply → Option Int
  | .int n => some n
  | r => r.text?.bind (readSigned? (-(Nat.pow 2 63)) (Nat.pow 2 63 - 1))

/-- A natural number below `2 ^ 64`; a negative integer wraps. -/
def natural : Reply → Option Nat
  | .int n => some (n % Nat.pow 2 64).toNat
  | r => r.text?.bind (readUnsigned? (Nat.pow 2 64 - 1))

def double : Reply → Option Binary64
  | .int n => some (Binary64.ofInt n)
  | r => r.text?.bind Binary64.read?

/-- A list of texts: none is the empty list, one text a list with this item. -/
def strings : Reply → Option (List String)
  | .none => some []
  | .bulk text => some [text]
  | .array items => items.mapM string
  | _ => Option.none

def page : Reply → Option (Nat × List String)
  | .array [cursor, keys] =>
      match cursor.natural, keys.strings with
      | some cursor, some keys => some (cursor, keys)
      | _, _ => Option.none
  | _ => Option.none

end Reply
end Rollcall.Redis
