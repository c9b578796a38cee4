import Mathlib

/-!
# JSON values (`nlohmann::json`)

The engine keeps several of its tables as `nlohmann::json` documents. This
module models the values those documents hold and the accessors the modelled
code calls on them:

- `Json`: `null`, booleans, the two integral number kinds (`number_integer`,
  a signed 64-bit value, and `number_unsigned`), strings, arrays and objects.
  Objects are association lists: `nlohmann::json` keeps an object's members in
  a `std::map`, so a parsed object has sorted, distinct keys.
- `Json.find`, `Json.isNumber`, `Json.getUInt64`: `json::find`,
  `json::is_number` and the conversion `*it` to `uint64_t` (a `static_cast`
  of the stored number).
- `Json.findKey`, `Json.elements`, `Json.items`, `Json.getString`,
  `Json.value`: `find` on any value (an iterator to `end()` unless the value
  is an object), the values a range-for visits, the `(key(), value())` pairs
  of an iterator loop (`key()` throws on any element of a value that is not
  an object), `get<std::string>()`, and `value(key, default)` with a string
  default; with the texts of the exceptions `nlohmann::json` throws.

Floating point numbers are not modelled; no modelled function produces them.
-/

namespace KvEngine

/-- A JSON value. -/
inductive Json where
  | null
  | bool (b : Bool)
  | int (i : Int)
  | uint (n : Nat)
  | str (s : String)
  | arr (xs : List Json)
  | obj (kvs : List (String × Json))
  deriving Repr, Inhabited

namespace Json

/-- `json::find(key)` on an object: the first member named `key`. -/
def find (kvs : List (String × Json)) (key : String) : Option Json :=
  kvs.lookup key

/-- `json::is_number()`. -/
def isNumber : Json → Bool
  | int _ | uint _ => true
  | _ => false

/-- The conversion of a number to `uint64_t`: a signed value wraps modulo
`2^64`, an unsigned one is stored as is. -/
def getUInt64 : Json → UInt64
  | int i => UInt64.ofInt i
  | uint n => UInt64.ofNat n
  | _ => 0

@[simp] theorem getUInt64_uint_toNat (x : UInt64) : getUInt64 (uint x.toNat) = x := by
  simp [getUInt64]

@[simp] theorem isNumber_uint (n : Nat) : isNumber (uint n) = true := rfl

/-- `json::type_name()`. -/
def typeName : Json → String
  | null => "null"
  | bool _ => "boolean"
  | int _ | uint _ => "number"
  | str _ => "string"
  | arr _ => "array"
  | obj _ => "object"

/-- `json::find(key)` on any value: only an object has members. -/
def findKey : Json → String → Option Json
  | obj kvs, key => find kvs key
  | _, _ => none

/-- The values `for (const auto& x : j)` visits: an array's elements, an
object's values, none for `null`, and a primitive value itself. -/
def elements : Json → List Json
  | null => []
  | arr xs => xs
  | obj kvs => kvs.map Prod.snd
  | j => [j]

/-- The `(it.key(), it.value())` pairs of a loop `for (it = j.begin(); it !=
j.end(); ++it)`: `key()` throws as soon as the loop reaches an element of a
value that is not an object. -/
def items : Json → Except String (List (String × Json))
  | obj kvs => .ok kvs
  | null => .ok []
  | arr [] => .ok []
  | _ => .error "[json.exception.invalid_iterator.207] cannot use key() for non-object iterators"

/-- `j.get<std::string>()`. -/
def getString : Json → Except String String
  | str s => .ok s
  | j => .error ("[json.exception.type_error.302] type must be string, but is " ++ j.typeName)

/-- `j.value(key, default)` with a string default: the member converted to a
string, or the default when the object has no such member. -/
def value (j : Json) (key default : String) : Except String String :=
  match j with
  | obj kvs =>
    match find kvs key with
    | some v => v.getString
    | none => .ok default
  | _ => .error ("[json.exception.type_error.306] cannot use value() with " ++ j.typeName)

end Json

end KvEngine
