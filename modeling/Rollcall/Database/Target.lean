import Rollcall.Database.Failure
import Rollcall.Net.Url
import Rollcall.Text.Quoted

/-!
Where the database is.

What a URL says about the database, as far as it can be wrong: its parts have to be text, and some
parameters are read. The password is masked where the URL is shown.
-/

namespace Rollcall.Database

/-- Why digits are no number of at most `high`, if they are none. -/
def numberFault? (high : Nat) (text : String) : Option String :=
  let digits := match text.toList with
    | '+' :: d :: rest => d :: rest
    | cs => cs
  let rec check : Nat → List Char → Option String
    | _, [] => none
    | n, c :: cs =>
        if c.isDigit = false then some "invalid digit found in string"
        else
          let n := n * 10 + (c.toNat - '0'.toNat)
          if high < n then some "number too large to fit in target type" else check n cs
  if text = "" then some "cannot parse integer from empty string" else check 0 digits

def sslModes : List String := ["disable", "allow", "prefer", "require", "verify-ca", "verify-full"]

def parameterFault? (name value : String) : Option String :=
  let lower := String.ofList (value.toList.map Char.toLower)
  let isAddress := match Net.Address.readV4? value.toList, Net.Address.readV6? value.toList with
    | some (_, []), _ => true
    | _, some (_, []) => true
    | _, _ => false
  match name with
  | "sslmode" => sslFault? lower
  | "ssl-mode" => sslFault? lower
  | "statement-cache-capacity" => numberFault? (Nat.pow 2 64 - 1) value
  | "port" => numberFault? 65535 value
  | "hostaddr" => if isAddress then none else some "invalid IP address syntax"
  | _ => none
where
  sslFault? (lower : String) : Option String :=
    if sslModes.contains lower then none
    else some (Failure.configuration
      ("unknown value " ++ Text.quoted value ++ " for `ssl_mode`")).text

def textFault? (part : String) : Option String :=
  match Text.unescaped part with
  | .ok _ => none
  | .error fault => some fault.text

/-- The parts of a URL that have to be text, a host only where it stands for a path. -/
def textParts (u : Net.Url) : List String :=
  let host := match u.host with
    | some host =>
        if (Text.unescape (Text.utf8 host.text)).head? = some 0x2F then [host.text] else []
    | none => []
  host ++ [u.username, u.password.getD "", u.path]

def checkUrl (url : String) : Except Failure Unit :=
  match Net.Url.parse url with
  | .error fault => .error (.configuration fault.text)
  | .ok u =>
      let faults := (textParts u).map textFault? ++
        u.queryPairs.map fun (name, value) => parameterFault? name value
      match faults.findSome? id with
      | some fault => .error (.configuration fault)
      | none => .ok ()

def lastColon? (cs : List Char) : Option Nat :=
  (cs.reverse.findIdx? (· = ':')).map fun i => cs.length - 1 - i

def mask : List Char := ['*', '*', '*']

def hasSlashes : List Char → Bool
  | '/' :: '/' :: _ => true
  | _ :: cs => hasSlashes cs
  | [] => false

/-- A URL to show: what stands between the last colon before the first `@` and that `@` is masked,
where the scheme is over before that colon. -/
def maskedChars (url : List Char) : List Char :=
  let before := url.takeWhile (· ≠ '@')
  if before.length = url.length then url
  else match lastColon? before with
    | none => url
    | some i =>
        if hasSlashes (url.take i) then url.take (i + 1) ++ mask ++ url.drop before.length else url

def masked (url : String) : String := String.ofList (maskedChars url.toList)

end Rollcall.Database
