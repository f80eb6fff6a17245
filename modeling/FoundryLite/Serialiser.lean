import FoundryLite.Errors

/-!
# Text forms of values

What the standard library makes of a value as text. The rules that use a text form depend on these
two functions only: the text of a value that is not text already, and the digest of its JSON form.
-/

namespace FoundryLite

/-- The text forms of values that the rules depend on and that the standard library computes. -/
structure Serialiser where
  /-- `str` of a value that is not a string. -/
  repr : Json → String
  /-- The SHA-256 of the compact JSON text with sorted keys, which depends on the value only
  through its normal form. -/
  digest : Json → String

namespace Serialiser

variable (env : Serialiser)

def str : Json → String
  | .str value => value
  | value => env.repr value

def jsonHash (payload : Mapping) : String := env.digest (Json.norm .text (.obj payload))

end Serialiser

end FoundryLite
