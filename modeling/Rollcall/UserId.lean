import Rollcall.Http.Fault

/-!
User ids.

A client names itself by a user id; the empty one stands for an anonymous client. Ids are opaque,
but bounded in length and free of control characters.
-/

namespace Rollcall.UserId

/-- Whether a character is one of the controls `U+0000`–`U+001F` and `U+007F`–`U+009F`. -/
def isControl (c : Char) : Bool := c.toNat < 0x20 || (0x7F ≤ c.toNat && c.toNat < 0xA0)

/-- The id itself, unless it has more than `longest` characters or holds a control. -/
def validate (id : String) (longest : Nat) : Except Http.Fault String :=
  if longest < id.length then
    .error (.badRequest ("userId must be at most " ++ toString longest ++ " characters"))
  else if id.toList.any isControl then
    .error (.badRequest "userId contains control characters")
  else
    .ok id

end Rollcall.UserId
