import Rollcall.Net.Address
import Rollcall.Text.Percent

/-!
URLs.

An absolute URL taken apart. Schemes of the web have rules of their own for the host and the
slashes; all others have a host that is taken as it stands, or none. The parts keep their percent
escapes.
-/

namespace Rollcall.Net

namespace Url

inductive Fault where
  | emptyHost
  | internationalName
  | port
  | v4Address
  | v6Address
  | domainCharacter
  /-- There is no scheme. -/
  | relative
deriving DecidableEq, Repr, Inhabited

def Fault.text : Fault → String
  | .emptyHost => "empty host"
  | .internationalName => "invalid international domain name"
  | .port => "invalid port number"
  | .v4Address => "invalid IPv4 address"
  | .v6Address => "invalid IPv6 address"
  | .domainCharacter => "invalid domain character"
  | .relative => "relative URL without a base"

inductive Host where
  | name (text : String)
  | address (address : Address)
deriving DecidableEq, Repr, Inhabited

def Host.text : Host → String
  | .name text => text
  | .address a => a.text

/-- The port that a scheme of the web has unless it says otherwise; none for other schemes. -/
def webPort? (scheme : String) : Option Nat :=
  match scheme with
  | "http" => some 80
  | "ws" => some 80
  | "https" => some 443
  | "wss" => some 443
  | "ftp" => some 21
  | _ => none

end Url

structure Url where
  scheme : String
  username : String
  password : Option String
  host : Option Url.Host
  /-- The port, unless it is the one that the scheme has anyway. -/
  port : Option Nat
  path : String
  query : Option String
deriving Repr, Inhabited

namespace Url

/-- The characters that count: no tab or line end, and at the ends no control and no space. -/
def relevant (cs : List Char) : List Char :=
  let isEdge (c : Char) := c.toNat ≤ 0x20
  let cs := ((cs.dropWhile isEdge).reverse.dropWhile isEdge).reverse
  cs.filter fun c => c ≠ '\t' ∧ c ≠ '\n' ∧ c ≠ '\r'

def isSchemeChar (c : Char) : Bool := c.isAlphanum || c = '+' || c = '-' || c = '.'

/-- The scheme in lower case and what follows its colon. -/
def readScheme? (cs : List Char) : Option (String × List Char) :=
  let scheme := cs.takeWhile isSchemeChar
  match scheme, cs.drop scheme.length with
  | c :: _, ':' :: rest =>
      if c.isAlpha then some (String.ofList (scheme.map Char.toLower), rest) else none
  | _, _ => none

def endsAuthority (web : Bool) (c : Char) : Bool :=
  c = '/' || c = '?' || c = '#' || (web && c = '\\')

/-- What stands before the last `@` of the authority, if there is one, and the rest. -/
def readCredentials (web : Bool) (cs : List Char) : Option (List Char) × List Char :=
  let authority := cs.takeWhile fun c => !endsAuthority web c
  if authority.contains '@' then
    let back := authority.reverse
    let after := (back.takeWhile (· ≠ '@')).length
    let before := authority.take (authority.length - after - 1)
    (some before, cs.drop (before.length + 1))
  else
    (none, cs)

/-- The host text: up to a colon outside brackets, or the end of the authority. -/
def hostLength (web : Bool) : (bracketed : Bool) → List Char → Nat
  | _, [] => 0
  | bracketed, c :: cs =>
      if (c = ':' && !bracketed) || endsAuthority web c then 0
      else hostLength web (if c = '[' then true else if c = ']' then false else bracketed) cs + 1

def readV6Host (cs : List Char) : Except Fault Host :=
  match cs.reverse with
  | ']' :: inner =>
      match Address.readV6? inner.reverse with
      | some (groups, []) => .ok (.address (.v6 groups))
      | _ => .error .v6Address
  | _ => .error .v6Address

def plainHost (cs : List Char) : Except Fault Host :=
  match cs with
  | '[' :: inner => readV6Host inner
  | _ =>
      if cs.any fun c => ['\x00', ' ', '<', '>', '@', '[', '\\', ']', '^', '|'].contains c then
        .error .domainCharacter
      else
        .ok (.name (String.ofList cs))

/-- A number in one of the notations that a part of an address may have. -/
def readPart? (part : String) : Option Nat :=
  let (radix, digits) :=
    match part.toList with
    | '0' :: 'x' :: digits => (16, digits)
    | '0' :: 'X' :: digits => (16, digits)
    | '0' :: d :: digits => (8, d :: digits)
    | digits => (10, digits)
  if digits.isEmpty then (if part = "" then none else some 0)
  else
    match Address.readNumber? radix digits.length (Nat.pow 256 5) digits with
    | some (n, []) => some n
    | _ => none

/-- The parts between the points, without an empty last one. -/
def addressParts (name : String) : List String :=
  let parts := name.splitOn "."
  match parts.reverse with
  | "" :: _ :: _ => parts.dropLast
  | _ => parts

/-- Whether the last part of a name can only be that of an address. -/
def endsInNumber (name : String) : Bool :=
  match (addressParts name).getLast? with
  | some last => last ≠ "" && (last.toList.all Char.isDigit ||
      ((last.startsWith "0x" || last.startsWith "0X") && (readPart? last).isSome))
  | none => false

/-- An address of one to four numbers, the last of which fills the bytes that are left. -/
def readV4Host (name : String) : Except Fault Host :=
  let parts := addressParts name
  match parts.mapM readPart? with
  | none => .error .v4Address
  | some numbers =>
      let last := numbers.getLastD 0
      let front := numbers.dropLast
      if 4 < numbers.length ∨ front.any (255 < ·) ∨ Nat.pow 256 (4 - front.length) ≤ last then
        .error .v4Address
      else
        let n := front.foldl (fun n b => n * 256 + b) 0 * Nat.pow 256 (4 - front.length) + last
        .ok (.address (.v4 [n / Nat.pow 256 3, n / Nat.pow 256 2 % 256, n / 256 % 256, n % 256]))

/-- A host by the rules of the web: escapes replaced, in lower case, with addresses recognised. -/
def webHost (cs : List Char) : Except Fault Host :=
  match cs with
  | [] => .error .emptyHost
  | '[' :: inner => readV6Host inner
  | _ =>
      match Text.unescaped (String.ofList cs) with
      | .error _ => .error .internationalName
      | .ok name =>
          let name := String.ofList (name.toList.map Char.toLower)
          let isForbidden (c : Char) : Bool :=
            c.toNat ≤ 0x20 || c.toNat = 0x7F || "#/:<>?@[\\]^|%".toList.contains c
          if name.toList.any isForbidden then .error .internationalName
          else if endsInNumber name then readV4Host name
          else .ok (.name name)

def readPort (default : Option Nat) (cs : List Char) : Except Fault (Option Nat × List Char) :=
  let digits := cs.takeWhile Char.isDigit
  let rest := cs.drop digits.length
  let port := digits.foldl (fun n c => n * 10 + (c.toNat - '0'.toNat)) 0
  let isOver := match rest with
    | [] => true
    | c :: _ => c = '/' || c = '\\' || c = '?' || c = '#'
  if 65535 < port ∨ isOver = false then .error .port
  else .ok (if digits.isEmpty ∨ some port = default then none else some port, rest)

/-- Path and query of what is left; the fragment is of no interest. -/
def readPath (cs : List Char) : String × Option String :=
  let cs := cs.takeWhile (· ≠ '#')
  Text.cutAt '?' (String.ofList cs)

def isDot (segment : String) : Bool :=
  ["." , "%2e", "%2E"].contains segment

def isDotDot (segment : String) : Bool :=
  ["..", ".%2e", ".%2E", "%2e.", "%2E.", "%2e%2e", "%2e%2E", "%2E%2e", "%2E%2E"].contains segment

/-- The segments of a path, given those already passed, last first, with each dot gone and each pair
of dots taking one segment away. -/
def normalSegments (passed : List String) : List String → List String
  | [] => passed.reverse
  | [last] =>
      if isDotDot last then ("" :: passed.drop 1).reverse
      else if isDot last then ("" :: passed).reverse
      else (last :: passed).reverse
  | segment :: rest =>
      if isDotDot segment then normalSegments (passed.drop 1) rest
      else if isDot segment then normalSegments passed rest
      else normalSegments (segment :: passed) rest

def normalPath (web : Bool) (path : String) : String :=
  let path := if web then String.ofList (path.toList.map fun c => if c = '\\' then '/' else c)
    else path
  match path.toList with
  | [] => if web then "/" else ""
  | '/' :: rest =>
      "/" ++ "/".intercalate (normalSegments [] ((String.ofList rest).splitOn "/"))
  | _ => "/" ++ "/".intercalate (normalSegments [] (path.splitOn "/"))

def readAuthority (scheme : String) (web : Bool) (cs : List Char) : Except Fault Url := do
  let (credentials, cs) := readCredentials web cs
  let (username, password) := Text.cutAt ':' (String.ofList (credentials.getD []))
  let password := password.filter (· ≠ "")
  let isNamed := username ≠ "" || password.isSome
  let hostText := cs.take (hostLength web false cs)
  let rest := cs.drop hostText.length
  if web ∧ hostText = [] then throw .emptyHost
  let host ← if web then webHost hostText else plainHost hostText
  if hostText = [] ∧ (rest.head? = some ':' ∨ isNamed) then throw .emptyHost
  let credentialsOnly := credentials = some [] && (match cs with
    | [] => false
    | c :: _ => endsAuthority web c)
  if credentialsOnly then throw .emptyHost
  let (port, rest) ← match rest with
    | ':' :: digits => readPort (webPort? scheme) digits
    | _ => pure (none, rest)
  let (path, query) := readPath rest
  return {
    scheme, username, password, port, query
    host := if hostText = [] then none else some host
    path := normalPath web path }

def readFile (cs : List Char) : Except Fault Url := do
  let isSlash (c : Char) : Bool := c = '/' || c = '\\'
  let (host, cs) ← match cs with
    | a :: b :: rest =>
        if isSlash a && isSlash b then
          let hostText := rest.takeWhile fun c => !endsAuthority true c
          if hostText = [] then pure (none, rest)
          else
            let host ← webHost hostText
            pure (if host = .name "localhost" then none else some host, rest.drop hostText.length)
        else pure (none, cs)
    | _ => pure (none, cs)
  let (path, query) := readPath cs
  return {
    scheme := "file", username := "", password := none, host, port := none
    path := normalPath true path, query }

def parse (text : String) : Except Fault Url :=
  match readScheme? (relevant text.toList) with
  | none => .error .relative
  | some (scheme, rest) =>
      if scheme = "file" then readFile rest
      else if (webPort? scheme).isSome then
        readAuthority scheme true (rest.dropWhile fun c => c = '/' || c = '\\')
      else
        match rest with
        | '/' :: '/' :: rest => readAuthority scheme false rest
        | _ =>
            let (path, query) := readPath rest
            .ok {
              scheme, username := "", password := none, host := none, port := none, query
              path := if rest.head? = some '/' then normalPath false path else path }

def queryPairs (u : Url) : List (String × String) := Text.formPairs (u.query.getD "")

end Url
end Rollcall.Net
