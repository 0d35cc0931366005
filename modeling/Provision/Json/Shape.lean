import Provision.Json.Number
import Provision.Text.Quoted

/-!
# Shapes of values

What a value is, without what arrays and objects hold.
-/

namespace Provision.Json

inductive Shape where
  | null
  | bool (b : Bool)
  | number (n : Number)
  | string (s : String)
  | array
  | object

namespace Shape

def describe : Shape → String
  | null => "null"
  | bool b => "boolean `" ++ (if b then "true" else "false") ++ "`"
  | number (.float x) => "floating point `" ++ (Number.float x).text ++ "`"
  | number n => "integer `" ++ n.text ++ "`"
  | string s => "string " ++ Text.quote s
  | array => "sequence"
  | object => "map"

end Shape

end Provision.Json
