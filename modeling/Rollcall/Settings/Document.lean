import Rollcall.Json.Parser
import Rollcall.Settings.Reading

/-!
Settings as one document.

The strict format: a JSON document in which every value has the type of its field. A section is an
object, or an array of its fields in order. Fields with other names are passed over, a known one may
come once only.
-/

namespace Rollcall.Settings.Document

/-- The values of the named fields among those of an object. -/
def pick (names : List String) (fields : List (Option String × JsonTree)) :
    Option (List (Option JsonTree)) :=
  if fields.any fun (name, _) => name.isNone then
    none
  else
    names.mapM fun name =>
      match fields.filter fun (other, _) => other == some name with
      | [] => some none
      | [(_, value)] => some (some value)
      | _ => none

def inOrder {σ : Type} (names : List String) (values : List σ) : List (Option σ) :=
  names.mapIdx fun i _ => values[i]?

def fields (names : List String) : JsonTree → Option (List (Option JsonTree))
  | .object fields => pick names fields
  | .array items => if names.length < items.length then none else some (inOrder names items)
  | _ => none

def text : JsonTree → Option String
  | .string s => s
  | _ => none

def natural (high : Nat) : JsonTree → Option Nat
  | .number n =>
      match n.value? with
      | some (.int k) => if 0 ≤ k ∧ k.toNat ≤ high then some k.toNat else none
      | _ => none
  | _ => none

def flag : JsonTree → Option Bool
  | .bool b => some b
  | _ => none

def number : JsonTree → Option Binary64
  | .number n =>
      match n.value? with
      | some (.int k) => some (Binary64.ofInt k)
      | some (.float x) => some x
      | _ => none
  | _ => none

def list : JsonTree → Option (List JsonTree)
  | .array items => some items
  | _ => none

/-- A name, or an object with it as the only field, which is null. -/
def choice (names : List String) : JsonTree → Option String
  | .string (some name) => if names.contains name then some name else none
  | .object [(some name, .null)] => if names.contains name then some name else none
  | _ => none

def isNull : JsonTree → Bool
  | .null => true
  | _ => false

def strict : Format JsonTree where
  isNull := isNull
  text := text
  natural := natural
  flag := flag
  number := number
  list := list
  choice := choice
  fields := fields

def read? (document : String) : Option Settings :=
  (JsonTree.parse? document).bind strict.read?

end Rollcall.Settings.Document
