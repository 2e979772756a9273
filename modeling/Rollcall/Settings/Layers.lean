import Rollcall.Json.Parser
import Rollcall.Settings.Reading

/-!
Layered settings.

Settings gathered from several sources, each laid over those before it: sections are merged field by
field, all else is replaced. Names of fields do not depend on case. A name at the top of a source
may be a path: names of levels with points between them, and places in lists in brackets.

The format is lenient: numbers, flags and texts stand for each other where that makes sense.
-/

namespace Rollcall.Settings

inductive Value where
  | null
  | bool (value : Bool)
  | int (value : Int)
  | float (value : Binary64)
  | text (value : String)
  | list (items : List Value)
  | table (fields : List (String × Value))
deriving Inhabited

def lower (name : String) : String := String.ofList (name.toList.map Char.toLower)

namespace Value

def fieldsOf : Value → List (String × Value)
  | .table fields => fields
  | _ => []

def itemsOf : Value → List Value
  | .list items => items
  | _ => []

def lookup (name : String) (fields : List (String × Value)) : Option Value :=
  (fields.find? fun (other, _) => other == name).map Prod.snd

def put (name : String) (value : Value) : List (String × Value) → List (String × Value)
  | [] => [(name, value)]
  | (other, old) :: rest =>
      if other == name then (name, value) :: rest else (other, old) :: put name value rest

mutual

/-- A field laid over fields: tables are merged, all else replaces what was there. -/
def lay (name : String) (value : Value) (fields : List (String × Value)) : List (String × Value) :=
  match value with
  | .table incoming =>
      let old := (lookup (lower name) fields).getD (.table [])
      let merged := if incoming.isEmpty then old else .table (layAll incoming old.fieldsOf)
      put (lower name) merged fields
  | value => put (lower name) value fields

def layAll (incoming fields : List (String × Value)) : List (String × Value) :=
  match incoming with
  | [] => fields
  | (name, value) :: rest => layAll rest (lay name value fields)

end

mutual

/-- A JSON value in this format, in which an integer of more than 63 bits is a double. -/
def ofJson : Json → Value
  | .null => .null
  | .bool b => .bool b
  | .int n => if n < Nat.pow 2 63 then .int n else .float (Binary64.ofInt n)
  | .float x => .float x
  | .string s => .text s
  | .array items => .list (ofItems items)
  | .object fields => .table (ofFields fields)

def ofItems : List Json → List Value
  | [] => []
  | item :: rest => ofJson item :: ofItems rest

def ofFields : List (String × Json) → List (String × Value)
  | [] => []
  | (name, value) :: rest => (name, ofJson value) :: ofFields rest

end

end Value

inductive PathStep where
  | field (name : String)
  /-- A place in a list, counted from the end if negative. -/
  | place (index : Int)
deriving DecidableEq, Repr

namespace PathStep

def isNameChar (c : Char) : Bool := c.isAlphanum || c = ' ' || c = '_' || c = '-'

/-- A place in brackets, blanks around the number allowed: the place and what follows. -/
def readPlace? (cs : List Char) : Option (Int × List Char) :=
  let (negative, rest) := match cs.dropWhile (· = ' ') with
    | '-' :: rest => (true, rest)
    | rest => (false, rest)
  match readDigits? (rest.takeWhile Char.isDigit),
      (rest.dropWhile Char.isDigit).dropWhile (· = ' ') with
  | some n, ']' :: rest => some (Binary64.signed negative n, rest)
  | _, _ => none

def readMore? : (fuel : Nat) → List Char → Option (List PathStep)
  | _, [] => some []
  | 0, _ => none
  | fuel + 1, '.' :: cs =>
      let name := cs.takeWhile isNameChar
      if name.isEmpty then none
      else (readMore? fuel (cs.drop name.length)).map (.field (String.ofList name) :: ·)
  | fuel + 1, '[' :: cs =>
      match readPlace? cs with
      | some (i, cs) => (readMore? fuel cs).map (.place i :: ·)
      | none => none
  | _, _ => none

/-- The path a name stands for; one that cannot be read as a path is a single step. -/
def ofName (name : String) : List PathStep :=
  let cs := name.toList
  let first := cs.takeWhile isNameChar
  let path? :=
    if first.isEmpty then none
    else (readMore? cs.length (cs.drop first.length)).map (.field (String.ofList first) :: ·)
  path?.getD [.field name]

def indexOf (i : Int) (length : Nat) : Nat := if 0 ≤ i then i.toNat else length - i.natAbs

/-- A value laid at the end of a path; whatever on the way is no table or list becomes one. -/
def layAt (value : Value) : List PathStep → Value → Value
  | [], _ => value
  | [.field name], node => .table (Value.lay name value node.fieldsOf)
  | .field name :: rest, node =>
      let fields := node.fieldsOf
      let next := (Value.lookup (lower name) fields).getD .null
      .table (Value.put (lower name) (layAt value rest next) fields)
  | .place i :: rest, node =>
      let items := node.itemsOf
      let i := indexOf i items.length
      let items := items ++ List.replicate (i + 1 - items.length) .null
      .list (items.set i (layAt value rest ((items[i]?).getD .null)))

end PathStep

abbrev Layer := List (String × Value)

def Layer.atop (layer : Layer) (base : Value) : Value :=
  layer.foldl (fun base (name, value) => PathStep.layAt value (PathStep.ofName name) base) base

def gather (layers : List Layer) : Value :=
  layers.foldl (fun base layer => layer.atop base) (.table [])

namespace Lenient

def isYes (word : String) : Bool := word == "true" || word == "on" || word == "yes"

def isNo (word : String) : Bool := word == "false" || word == "off" || word == "no"

def boolText (b : Bool) : String := if b then "true" else "false"

def text : Value → Option String
  | .text s => some s
  | .bool b => some (boolText b)
  | .int n => some (toString n)
  | .float x => some x.plain
  | _ => none

/-- A natural number below `2 ^ 64`. Doubles are rounded, a half going up, and kept in range. -/
def natural : Value → Option Nat
  | .int n => if 0 ≤ n then some n.toNat else none
  | .float x => some (Binary64.saturate Binary64.roundHalfAway 0 (Nat.pow 2 64 - 1) x).toNat
  | .bool b => some b.toNat
  | .text s =>
      if isYes (lower s) then some 1
      else if isNo (lower s) then some 0
      else readUnsigned? Format.max64 s
  | _ => none

def flag : Value → Option Bool
  | .bool b => some b
  | .int n => some (n != 0)
  | .float x => some !x.isZero
  | .text s =>
      if isYes (lower s) || s == "1" then some true
      else if isNo (lower s) || s == "0" then some false
      else none
  | _ => none

def number : Value → Option Binary64
  | .float x => some x
  | .int n => some (Binary64.ofInt n)
  | .bool b => some (Binary64.ofNat b.toNat)
  | .text s =>
      if isYes (lower s) then some 1
      else if isNo (lower s) then some 0
      else Binary64.read? s
  | _ => none

def list : Value → Option (List Value)
  | .list items => some items
  | _ => none

/-- A name in any case, or a table with it as the only field. -/
def choice (names : List String) : Value → Option String
  | .text s => names.find? (· == lower s)
  | .table [(name, _)] => names.find? (· == lower name)
  | _ => none

/-- A section is a table, or a list of its fields in order. -/
def fields (names : List String) : Value → Option (List (Option Value))
  | .table fields => some (names.map fun name => Value.lookup name fields)
  | .list items => some (names.mapIdx fun i _ => items[i]?)
  | _ => none

def isNull : Value → Bool
  | .null => true
  | _ => false

end Lenient

def lenient : Format Value where
  isNull := Lenient.isNull
  text := Lenient.text
  natural := fun high v => (Lenient.natural v).filter (· ≤ high)
  flag := Lenient.flag
  number := Lenient.number
  list := Lenient.list
  choice := Lenient.choice
  fields := Lenient.fields

end Rollcall.Settings
