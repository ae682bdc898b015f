/-!
# Answer documents

Answers are JSON documents. `Document.text` writes one without any spacing, with
the fields of an object in the order of their names.
-/

namespace Proactor

/-- A JSON document. -/
inductive Document where
  | null
  | boolean (value : Bool)
  | integer (value : Int)
  | text (value : String)
  | list (items : List Document)
  | record (fields : List (String × Document))

namespace Document

/-- The short escape of a character, if it has one. -/
private def shortEscape : Char → Option Char
  | '"' => some '"'
  | '\\' => some '\\'
  | '\n' => some 'n'
  | '\r' => some 'r'
  | '\t' => some 't'
  | '\x08' => some 'b'
  | '\x0c' => some 'f'
  | _ => none

/-- A digit of a numeric escape. -/
private def escapeDigit (digit : Nat) : Char :=
  if digit < 10 then Char.ofNat (48 + digit) else Char.ofNat (87 + digit)

/-- One character inside a quoted string. Control characters without a short escape are written
by number. -/
private def quotedChar (c : Char) : List Char :=
  match shortEscape c with
  | some mark => ['\\', mark]
  | none =>
      if c.toNat < 32 then
        ['\\', 'u', '0', '0', escapeDigit (c.toNat / 16), escapeDigit (c.toNat % 16)]
      else [c]

/-- A quoted string. -/
def quoted (value : String) : String :=
  "\"" ++ String.ofList (value.toList.flatMap quotedChar) ++ "\""

/-- Put a field into its place among fields that are ordered by name. -/
private def placeField (field : String × String) :
    List (String × String) → List (String × String)
  | [] => [field]
  | first :: rest =>
      if first.1 < field.1 then first :: placeField field rest else field :: first :: rest

mutual

/-- The document without spacing. -/
def compact : Document → String
  | null => "null"
  | boolean true => "true"
  | boolean false => "false"
  | integer value => toString value
  | text value => quoted value
  | list items => "[" ++ String.intercalate "," (compactItems items) ++ "]"
  | record fields =>
      let ordered := (compactFields fields).foldr placeField []
      "\x7b" ++ String.intercalate "," (ordered.map fun (name, value) =>
        quoted name ++ ":" ++ value) ++ "\x7d"

/-- The members of a list, each without spacing. -/
def compactItems : List Document → List String
  | [] => []
  | first :: rest => compact first :: compactItems rest

/-- The fields of a record, each value without spacing. -/
def compactFields : List (String × Document) → List (String × String)
  | [] => []
  | (name, value) :: rest => (name, compact value) :: compactFields rest

end

/-- The text of an optional document. An absent one is null. -/
def ofOption : Option Document → Document
  | some document => document
  | none => null

/-- A list of texts. -/
def texts (values : List String) : Document :=
  list (values.map text)

/-- A natural number. -/
def count (value : Nat) : Document :=
  integer (Int.ofNat value)

end Document

end Proactor
