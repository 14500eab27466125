import DialectSql.Text.Unprintable

namespace DialectSql.Diagnostic

def numbered (c : Char) : String := "\\u\x7b" ++ String.ofList (Nat.toDigits 16 c.toNat) ++ "\x7d"

def escape (c : Char) : String :=
  if c = '"' then "\\\""
  else if c = '\\' then "\\\\"
  else if c = '\x00' then "\\0"
  else if c = '\t' then "\\t"
  else if c = '\n' then "\\n"
  else if c = '\r' then "\\r"
  else if isUnprintable c then numbered c
  else c.toString

def text (s : String) : String := "\"" ++ String.join (s.toList.map escape) ++ "\""

def list (items : List String) : String := "[" ++ ", ".intercalate items ++ "]"

def record (name : String) (fields : List (String × String)) : String :=
  name ++ " \x7b " ++ ", ".intercalate (fields.map fun (f, v) => f ++ ": " ++ v) ++ " \x7d"

def wrapped (name value : String) : String := name ++ "(" ++ value ++ ")"

def option {α : Type} (write : α → String) : Option α → String
  | none => "None"
  | some a => wrapped "Some" (write a)

end DialectSql.Diagnostic
