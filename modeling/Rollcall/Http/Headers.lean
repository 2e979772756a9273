import Rollcall.Net.Address

/-!
Request headers.

Headers in the order of arrival. Names do not depend on case; a name may come several times, and the
first value is the one that counts.
-/

namespace Rollcall.Http

structure Headers where
  entries : List (String × String)
deriving Repr, Inhabited

namespace Headers

/-- Whether a value may stand in a header: no control other than the tab, and no `DEL`. -/
def isValue (value : String) : Bool :=
  value.toList.all fun c => c = '\t' || (0x20 ≤ c.toNat && c.toNat ≠ 0x7F)

/-- Whether a value is made of visible ASCII characters, blanks and tabs. -/
def isVisible (value : String) : Bool :=
  value.toList.all fun c => c = '\t' || (0x20 ≤ c.toNat && c.toNat < 0x7F)

def lower (name : String) : String := String.ofList (name.toList.map Char.toLower)

def all (h : Headers) (name : String) : List String :=
  (h.entries.filter fun (n, _) => lower n == name).map Prod.snd

def first? (h : Headers) (name : String) : Option String := (h.all name).head?

def isBlank (c : Char) : Bool := c = ' ' || c = '\t'

def trim (text : String) : String :=
  String.ofList (((text.toList.dropWhile isBlank).reverse.dropWhile isBlank).reverse)

/-- What a header says: its first value, trimmed, unless that is empty or not visible. -/
def said? (h : Headers) (name : String) : Option String :=
  ((h.first? name).filter isVisible).map trim |>.filter fun v => v ≠ ""

end Headers

/-- The address of a client that may come through proxies: what they say of it, the first hop they
know, or the peer of the connection. -/
def clientAddress (h : Headers) (peer : Option Net.Endpoint) : String :=
  let hop? := (h.said? "x-forwarded-for").map fun v =>
    Headers.trim (String.ofList (v.toList.takeWhile (· ≠ ',')))
  ((h.said? "cf-connecting-ip").or (h.said? "x-real-ip")).getD
    ((hop?.filter fun v => v ≠ "").getD
      ((peer.map fun p => p.address.text).getD "unknown"))

end Rollcall.Http
