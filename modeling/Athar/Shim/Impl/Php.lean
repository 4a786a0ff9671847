import Athar.Event.Impl
import Athar.Lib.Entries

/-!
This module contains the values of the language that the shim is written in, and the built-in
functions that the shim applies to them. An array is an ordered list of keyed entries and an object
an ordered list of named members. A function that may throw returns an `Option`.
-/

namespace Athar.Shim

inductive PhpKey where
  | int (i : Int)
  | string (s : String)
  deriving DecidableEq, Repr

inductive PhpValue where
  | null
  | bool (b : Bool)
  | int (i : Int)
  | float (q : ℚ)
  | string (s : String)
  | array (entries : List (PhpKey × PhpValue))
  | object (members : List (String × PhpValue))

abbrev PhpArray := List (PhpKey × PhpValue)

def PhpKey.text : PhpKey → String
  | .int i => toString i
  | .string s => s

-- An array literal with string keys.
def assoc (entries : List (String × PhpValue)) : PhpArray :=
  entries.map (fun e => (.string e.1, e.2))

-- The array literal of a list.
def list (values : List PhpValue) : PhpArray :=
  values.zipIdx.map (fun e => (.int e.2, e.1))

namespace PhpValue

-- `empty($value)`
def isEmpty : PhpValue → Bool
  | .null => true
  | .bool b => !b
  | .int i => i = 0
  | .float q => q = 0
  | .string s => s = "" || s = "0"
  | .array entries => entries.isEmpty
  | .object _ => false

-- `$value ?? $default`, where `$value` is an entry that may be missing.
def coalesce : Option PhpValue → PhpValue → PhpValue
  | none, default => default
  | some .null, default => default
  | some value, _ => value

-- `(object) $value`
def toObject : PhpValue → PhpValue
  | .object members => .object members
  | .array entries => .object (entries.map (fun e => (e.1.text, e.2)))
  | .null => .object []
  | value => .object [("scalar", value)]

-- `array_values((array) $value)`
def toArrayValues : PhpValue → List PhpValue
  | .array entries => entries.map Prod.snd
  | .object members => members.map Prod.snd
  | .null => []
  | value => [value]

-- `(string) $value`. An object has no string conversion and throws.
def text (floatText : ℚ → String) : PhpValue → Option String
  | .null => some ""
  | .bool b => some (if b then "1" else "")
  | .int i => some (toString i)
  | .float q => some (floatText q)
  | .string s => some s
  | .array _ => some "Array"
  | .object _ => none

end PhpValue

-- The values whose text is new, in order.
def firstByText (floatText : ℚ → String) : List (Option String) → List PhpValue → List PhpValue
  | _, [] => []
  | seen, value :: values =>
    if value.text floatText ∈ seen then
      firstByText floatText seen values
    else
      value :: firstByText floatText (value.text floatText :: seen) values

-- `array_unique` on the values of a list, which it compares as strings.
def arrayUnique (floatText : ℚ → String) (values : List PhpValue) : Option (List PhpValue) :=
  if values.length ≤ 1 then
    some values
  else if values.all (fun value => (value.text floatText).isSome) then
    some (firstByText floatText [] values)
  else
    none

def arrayIsList (entries : PhpArray) : Bool :=
  entries.map Prod.fst = (list (entries.map Prod.snd)).map Prod.fst

-- The name of a protected or private member starts with a NUL character.
def isMangled (name : String) : Bool :=
  name.toList.head? = some (Char.ofNat 0)

mutual

def PhpValue.json : PhpValue → Json
  | .null => .null
  | .bool b => .bool b
  | .int i => .number i
  | .float q => .number q
  | .string s => .string s
  | .array entries =>
    if arrayIsList entries then .array (jsonItems entries) else .object (jsonEntries entries)
  | .object members => .object (jsonMembers members)

def jsonItems : List (PhpKey × PhpValue) → List Json
  | [] => []
  | (_, value) :: entries => value.json :: jsonItems entries

def jsonEntries : List (PhpKey × PhpValue) → List (String × Json)
  | [] => []
  | (key, value) :: entries => (key.text, value.json) :: jsonEntries entries

def jsonMembers : List (String × PhpValue) → List (String × Json)
  | [] => []
  | (name, value) :: members =>
    if isMangled name then jsonMembers members else (name, value.json) :: jsonMembers members

end

mutual

def jsonDepth : Json → Nat
  | .array items => jsonItemsDepth items + 1
  | .object members => jsonMembersDepth members + 1
  | _ => 0

def jsonItemsDepth : List Json → Nat
  | [] => 0
  | item :: items => max (jsonDepth item) (jsonItemsDepth items)

def jsonMembersDepth : List (String × Json) → Nat
  | [] => 0
  | (_, value) :: members => max (jsonDepth value) (jsonMembersDepth members)

end

def JSON_MAX_DEPTH : Nat := 512

-- `json_encode` with `JSON_THROW_ON_ERROR`. The frame is the document that the text stands for. The other
-- values that it throws on, a string that is not UTF-8 and a float that is not finite, are not among these.
def jsonEncode (value : PhpValue) : Option Json :=
  if jsonDepth value.json ≤ JSON_MAX_DEPTH then some value.json else none

end Athar.Shim
