import LocaleAudit.Entries
import LocaleAudit.Json.Binary64

namespace LocaleAudit

/-!
# JSON values

An object is a list of fields in document order, one for each key.
-/

namespace Json

/-- An integer of 64 bits, signed or not, stays an integer; every other number is a double. -/
inductive Number where
  | integer (value : Int)
  | binary (value : Binary64)
  deriving DecidableEq, Repr

inductive Value where
  | null
  | bool (value : Bool)
  | number (value : Number)
  | string (value : String)
  | array (items : List Value)
  | object (fields : List (String × Value))
  deriving Repr, Inhabited

abbrev Fields := Entries Value

def Value.isObject : Value → Bool
  | .object _ => true
  | _ => false

def Value.text? : Value → Option String
  | .string s => some s
  | _ => none

def Value.kind : Value → String
  | .null => "null"
  | .bool _ => "boolean"
  | .number _ => "number"
  | .string _ => "string"
  | .array _ => "array"
  | .object _ => "object"

end Json

end LocaleAudit
