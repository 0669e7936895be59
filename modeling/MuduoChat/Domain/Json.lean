import MuduoChat.Domain.Types

/-!
# JSON values

The JSON values of the protocol and of the outbox, their compact serialisation, and the
checked accesses that the codec makes.  The serialisation is that of the library the source
uses: no blanks, object keys in ascending order, short escapes for the five usual control
characters and four hexadecimal digits for the others.
-/

namespace MuduoChat

/-- A floating point number, as far as it is observed: its value cut off towards zero, and
its printed form. -/
structure FloatToken where
  truncated : ℤ
  text : String
  deriving DecidableEq, Repr

/-- A JSON value.  Numbers keep the three kinds that the library tells apart.  The fields of
an object stand in ascending order of their names. -/
inductive Json where
  | null
  | bool (b : Bool)
  | unsigned (n : ℕ)
  | integer (z : ℤ)
  | float (f : FloatToken)
  | str (s : String)
  | arr (xs : List Json)
  | obj (fields : List (String × Json))

namespace Json

/-! ### Serialisation -/

/-- One hexadecimal digit, in lower case. -/
def hexDigit (n : ℕ) : Char :=
  if n < 10 then Char.ofNat (48 + n) else Char.ofNat (87 + n)

/-- How a character stands inside a serialised string. -/
def escapeChar (c : Char) : List Char :=
  match c with
  | '"' => ['\\', '"']
  | '\\' => ['\\', '\\']
  | '\x08' => ['\\', 'b']
  | '\x0c' => ['\\', 'f']
  | '\n' => ['\\', 'n']
  | '\r' => ['\\', 'r']
  | '\t' => ['\\', 't']
  | c =>
    if c.toNat < 0x20 then
      ['\\', 'u', '0', '0', hexDigit (c.toNat / 16), hexDigit (c.toNat % 16)]
    else
      [c]

def quote (s : String) : String :=
  "\"" ++ String.ofList (s.toList.flatMap escapeChar) ++ "\""

mutual

/-- The compact serialisation of a value. -/
def dump : Json → String
  | null => "null"
  | bool b => if b then "true" else "false"
  | unsigned n => toString n
  | integer z => toString z
  | float f => f.text
  | str s => quote s
  | arr xs => "[" ++ dumpElements xs ++ "]"
  | obj fields => "\x7b" ++ dumpFields fields ++ "\x7d"

/-- The elements of an array, with commas between them. -/
def dumpElements : List Json → String
  | [] => ""
  | [x] => dump x
  | x :: y :: xs => dump x ++ "," ++ dumpElements (y :: xs)

/-- The fields of an object, with commas between them. -/
def dumpFields : List (String × Json) → String
  | [] => ""
  | [(k, x)] => quote k ++ ":" ++ dump x
  | (k, x) :: f :: fields => quote k ++ ":" ++ dump x ++ "," ++ dumpFields (f :: fields)

end

/-! ### Access -/

/-- The exceptions of the library that an access can throw. -/
inductive Error where
  /-- The value is not of the kind that was asked for. -/
  | typeError
  /-- The object has no such key. -/
  | outOfRange
  deriving DecidableEq, Repr

/-- The value of a field of an object. -/
def field? (key : String) : Json → Option Json
  | obj fields => (fields.find? fun f => f.1 = key).map Prod.snd
  | _ => none

/-- Whether a value is an object with such a field. -/
def contains (js : Json) (key : String) : Bool :=
  (js.field? key).isSome

/-- The checked access to a field. -/
def atKey (js : Json) (key : String) : Except Error Json :=
  match js with
  | obj _ =>
    match js.field? key with
    | some v => .ok v
    | none => .error .outOfRange
  | _ => .error .typeError

def getString : Json → Except Error String
  | str s => .ok s
  | _ => .error .typeError

/-- The 64-bit number with the given value modulo `2 ^ 64`, as a signed number. -/
def toInt64 (z : ℤ) : ℤ := (BitVec.ofInt 64 z).toInt

/-- The conversion to a signed 64-bit number. -/
def getInt64 : Json → Except Error ℤ
  | unsigned n => .ok (toInt64 n)
  | integer z => .ok (toInt64 z)
  | float f => .ok (toInt64 f.truncated)
  | _ => .error .typeError

/-- The conversion to an unsigned 64-bit number. -/
def getUInt64 : Json → Except Error ℕ
  | unsigned n => .ok (n % 2 ^ 64)
  | integer z => .ok (BitVec.ofInt 64 z).toNat
  | float f => .ok (BitVec.ofInt 64 f.truncated).toNat
  | _ => .error .typeError

/-- The elements that a loop over a value visits.  Only arrays are looped over here. -/
def elements : Json → List Json
  | arr xs => xs
  | _ => []

/-- Put a field in its place. -/
def setField (key : String) (value : Json) : List (String × Json) → List (String × Json)
  | [] => [(key, value)]
  | f :: fields =>
    if key.toList < f.1.toList then (key, value) :: f :: fields
    else if f.1.toList < key.toList then f :: setField key value fields
    else (key, value) :: fields

/-- An object to which fields have been assigned one after the other. -/
def assigned (fields : List (String × Json)) : Json :=
  .obj (fields.foldl (fun fields f => setField f.1 f.2 fields) [])

end Json

/-- The snapshot of a command that the MySQL adapter writes. -/
def encodeCommandSnapshot (cmd : SendMessageCommand) : Json :=
  match cmd.kind with
  | .direct =>
    .assigned [("kind", .str "DIRECT"), ("direct_recipient", .unsigned cmd.directRecipient.value)]
  | .group =>
    .assigned [("kind", .str "GROUP"), ("group_id", .unsigned cmd.groupId.value),
      ("members", .arr (cmd.members.map fun u => .unsigned u.value))]

/-- The text of the snapshot that the in-memory adapter writes. -/
def encodeOutboxPayload (cmd : SendMessageCommand) : String :=
  Json.dump <| match cmd.kind with
  | .direct =>
    .assigned [("kind", .str "DIRECT"), ("direct_recipient", .unsigned cmd.directRecipient.value)]
  | .group =>
    .assigned [("kind", .str "GROUP"), ("group_id", .unsigned cmd.groupId.value),
      ("members", .arr (cmd.members.map fun u => .unsigned u.value))]

example : encodeOutboxPayload { kind := .group, groupId := ⟨7⟩, members := [⟨1⟩, ⟨2⟩] } =
    "\x7b\"group_id\":7,\"kind\":\"GROUP\",\"members\":[1,2]\x7d" := by
  decide

end MuduoChat
