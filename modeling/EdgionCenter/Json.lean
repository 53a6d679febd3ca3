import EdgionCenter.Lib.Decimal
import Mathlib.Data.List.Basic

/-! The parts of `serde_json::Value` and `str` that the documents of a controller need. -/
namespace EdgionCenter

/-- A number in decimal. -/
def decimal (n : Nat) : String := String.ofList (Decimal.text n)

/-- `serde_json::Number` with `arbitrary_precision`: the text of the number. -/
structure Number where
  text : String
  deriving DecidableEq

def Number.ofNat (n : Nat) : Number := ⟨decimal n⟩

/-- `serde_json::Value`. An object lists its members; the first one of a name is the member. -/
inductive Value
  | null
  | bool (b : Bool)
  | number (n : Number)
  | string (s : String)
  | array (items : List Value)
  | object (members : List (String × Value))

namespace Value

def asStr : Value → Option String
  | .string s => some s
  | _ => none

/-- `Value::as_u64`. -/
def asU64 : Value → Option Nat
  | .number n => Decimal.parse UInt64.size n.text.toList
  | _ => none

def asObject : Value → Option (List (String × Value))
  | .object members => some members
  | _ => none

def get (value : Value) (name : String) : Option Value :=
  value.asObject.bind fun members => members.lookup name

/-- An array index of a JSON pointer: digits only, and no leading zero. -/
def parseIndex (token : String) : Option Nat :=
  if token.toList.all Char.isDigit && (token == "0" || token.toList.head? != some '0')
  then token.toNat? else none

/-- `Value::pointer`, its argument already split at the slashes. -/
def pointer : Value → List String → Option Value
  | value, [] => some value
  | .object members, token :: tokens =>
    (members.lookup token).bind fun value => value.pointer tokens
  | .array items, token :: tokens =>
    ((parseIndex token).bind fun i => items[i]?).bind fun value => value.pointer tokens
  | _, _ :: _ => none

/-! ### Changes in place -/

def modifyMember (name : String) (f : Value → Value) : List (String × Value) → List (String × Value)
  | [] => []
  | (k, v) :: rest => if k = name then (k, f v) :: rest else (k, v) :: modifyMember name f rest

/-- The value at a pointer changed in place; nothing happens if there is none. -/
def modify : Value → List String → (Value → Value) → Value
  | value, [], f => f value
  | .object members, token :: tokens, f =>
    .object (modifyMember token (fun value => value.modify tokens f) members)
  | .array items, token :: tokens, f =>
    match parseIndex token with
    | some i => .array (items.modify i fun value => value.modify tokens f)
    | none => .array items
  | value, _ :: _, _ => value

def asArray : Value → Option (List Value)
  | .array items => some items
  | _ => none

/-- `Map::insert`; members are kept in key order. -/
def insertMember (name : String) (value : Value) : List (String × Value) → List (String × Value)
  | [] => [(name, value)]
  | (k, v) :: rest =>
    if name = k then (name, value) :: rest
    else if name < k then (name, value) :: (k, v) :: rest
    else (k, v) :: insertMember name value rest

def removeMember (name : String) (members : List (String × Value)) : List (String × Value) :=
  members.filter fun m => m.1 ≠ name

end Value

/-- The code points with the Unicode property `White_Space`, which `str::trim` removes. -/
def isWhitespace (c : Char) : Bool :=
  (9 ≤ c.toNat && c.toNat ≤ 13) || (0x2000 ≤ c.toNat && c.toNat ≤ 0x200A) ||
    [0x20, 0x85, 0xA0, 0x1680, 0x2028, 0x2029, 0x202F, 0x205F, 0x3000].contains c.toNat

/-- `str::trim`. -/
def trim (s : String) : String :=
  String.ofList ((s.toList.dropWhile isWhitespace).reverse.dropWhile isWhitespace).reverse

end EdgionCenter
