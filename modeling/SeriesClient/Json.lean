/-! JSON documents and their compact text. Numbers are carried as text, because a document holds
the digits that its writer chose. -/
namespace SeriesClient

inductive Json where
  | null
  | bool (value : Bool)
  | number (text : String)
  | string (text : String)
  | array (items : List Json)
  | object (fields : List (String × Json))

namespace Json

/-- A quote, a backslash and the control characters below a space are escaped, all else stands. -/
def escape (c : Char) : List Char :=
  if c = '"' then ['\\', '"']
  else if c = '\\' then ['\\', '\\']
  else if c = '\n' then ['\\', 'n']
  else if c = '\r' then ['\\', 'r']
  else if c = '\t' then ['\\', 't']
  else if c = '\x08' then ['\\', 'b']
  else if c = '\x0c' then ['\\', 'f']
  else if c.toNat < 0x20 then
    ['\\', 'u', '0', '0', Nat.digitChar (c.toNat / 16), Nat.digitChar (c.toNat % 16)]
  else [c]

def quoted (text : String) : String := String.ofList ('"' :: text.toList.flatMap escape ++ ['"'])

def joined (parts : List String) : String := String.intercalate "," parts

mutual

/-- Text without blanks, fields in their given order. -/
def compact : Json → String
  | null => "null"
  | bool value => if value then "true" else "false"
  | number text => text
  | string text => quoted text
  | array items => "[" ++ joined (itemTexts items) ++ "]"
  | object fields => "\x7b" ++ joined (fieldTexts fields) ++ "\x7d"

def itemTexts : List Json → List String
  | [] => []
  | item :: items => item.compact :: itemTexts items

def fieldTexts : List (String × Json) → List String
  | [] => []
  | (key, item) :: fields => (quoted key ++ ":" ++ item.compact) :: fieldTexts fields

end

def ofInt (n : Int) : Json := number (toString n)

def ofOption {α : Type} (encode : α → Json) : Option α → Json
  | none => null
  | some a => encode a

def ofList {α : Type} (encode : α → Json) (items : List α) : Json := array (items.map encode)

end Json
end SeriesClient
