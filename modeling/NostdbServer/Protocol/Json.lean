import Mathlib.Logic.Basic

/-!
# JSON

`serde_json::Value` and the text it is written as. Integers keep their value, a
float is given by its bits, and the text of a float is a parameter. An object
lists its fields in the order they are written.
-/

namespace NostdbServer

/-- `serde_json::Number` -/
inductive JsonNumber
  | posInt (value : Nat)
  | negInt (value : Int)
  | float (bits : UInt64)
  deriving DecidableEq, Repr

inductive Json
  | null
  | bool (value : Bool)
  | number (value : JsonNumber)
  | string (value : String)
  | array (values : List Json)
  | object (fields : List (String × Json))

namespace Json

def nat (n : Nat) : Json := .number (.posInt n)

def int : Int → Json
  | .ofNat n => .number (.posInt n)
  | .negSucc n => .number (.negInt (.negSucc n))

/-- A float that is no number is written as `null`. -/
def float (bits : UInt64) : Json :=
  if bits &&& 0x7ff0000000000000 = 0x7ff0000000000000 then .null else .number (.float bits)

def strings (values : List String) : Json := .array (values.map .string)

-- ---------------------------------------------------------------------------
-- Objects
-- ---------------------------------------------------------------------------

/-- `Map::insert`: the fields are in order of their names, and a name that is
there gets the new value. -/
def insertField (name : String) (value : Json) : List (String × Json) → List (String × Json)
  | [] => [(name, value)]
  | (other, old) :: rest =>
    if name < other then (name, value) :: (other, old) :: rest
    else if name = other then (other, value) :: rest
    else (other, old) :: insertField name value rest

/-- `collect::<Map<_, _>>()` -/
def collectFields (fields : List (String × Json)) : List (String × Json) :=
  fields.foldl (fun map field => insertField field.1 field.2 map) []

/-- The value of a field. -/
def field? (name : String) : Json → Option Json
  | .object fields => (fields.find? (·.1 = name)).map Prod.snd
  | _ => none

-- ---------------------------------------------------------------------------
-- The text
-- ---------------------------------------------------------------------------

def hexDigit (n : Nat) : Char := Nat.digitChar (n % 16)

def escape (c : Char) : String :=
  if c = '"' then "\\\""
  else if c = '\\' then "\\\\"
  else if c = '\x08' then "\\b"
  else if c = '\x0c' then "\\f"
  else if c = '\n' then "\\n"
  else if c = '\r' then "\\r"
  else if c = '\t' then "\\t"
  else if c.toNat < 0x20 then
    "\\u00" ++ String.ofList [hexDigit (c.toNat / 16), hexDigit c.toNat]
  else String.singleton c

def quoted (s : String) : String := "\"" ++ String.join (s.toList.map escape) ++ "\""

section
variable (floatText : UInt64 → String)

def numberText : JsonNumber → String
  | .posInt n => toString n
  | .negInt i => toString i
  | .float bits => floatText bits

mutual

def text : Json → String
  | .null => "null"
  | .bool true => "true"
  | .bool false => "false"
  | .number n => numberText floatText n
  | .string s => quoted s
  | .array values => "[" ++ elements values ++ "]"
  | .object fields => "\x7b" ++ members fields ++ "\x7d"

def elements : List Json → String
  | [] => ""
  | [value] => text value
  | value :: rest => text value ++ "," ++ elements rest

def members : List (String × Json) → String
  | [] => ""
  | [(name, value)] => quoted name ++ ":" ++ text value
  | (name, value) :: rest => quoted name ++ ":" ++ text value ++ "," ++ members rest

end

/-- The number of bytes `serde_json::to_vec` writes. -/
def size (value : Json) : Nat := (text floatText value).utf8ByteSize

end

end Json

end NostdbServer
