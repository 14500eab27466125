import DialectSql.Json.Value
import DialectSql.Number.Notation

namespace DialectSql

namespace Json

def controlEscape (c : Char) : String :=
  let digits := Nat.toDigits 16 c.toNat
  "\\u" ++ String.ofList (List.replicate (4 - digits.length) '0' ++ digits)

def escapeChar (c : Char) : String :=
  if c = '"' then "\\\""
  else if c = '\\' then "\\\\"
  else if c = '\x08' then "\\b"
  else if c = '\x0c' then "\\f"
  else if c = '\n' then "\\n"
  else if c = '\r' then "\\r"
  else if c = '\t' then "\\t"
  else if c.toNat < 32 then controlEscape c
  else c.toString

def quote (s : String) : String := "\"" ++ String.join (s.toList.map escapeChar) ++ "\""

mutual
def compress : Json → String
  | .null => "null"
  | .bool b => if b then "true" else "false"
  | .int n => toString n
  | .float x => x.documentText
  | .string s => quote s
  | .void => "null"
  | .array items => "[" ++ ",".intercalate (compressItems items) ++ "]"
  | .object members => "\x7b" ++ ",".intercalate (compressMembers members) ++ "\x7d"
def compressItems : List Json → List String
  | [] => []
  | j :: js => j.compress :: compressItems js
def compressMembers : List (String × Json) → List String
  | [] => []
  | (k, j) :: ms => (quote k ++ ":" ++ j.compress) :: compressMembers ms
end

def indentation (level : Nat) : String := "\n" ++ String.ofList (List.replicate (2 * level) ' ')

mutual
/-- One item a line, two blanks for each level, an empty list or object on its line. -/
def prettyAt (level : Nat) : Json → String
  | .array [] => "[]"
  | .object [] => "\x7b\x7d"
  | .array items =>
    "[" ++ ",".intercalate (prettyItems (level + 1) items) ++ indentation level ++ "]"
  | .object members =>
    "\x7b" ++ ",".intercalate (prettyMembers (level + 1) members) ++ indentation level ++ "\x7d"
  | .null => "null"
  | .bool b => if b then "true" else "false"
  | .int n => toString n
  | .float x => x.documentText
  | .string s => quote s
  | .void => "null"
def prettyItems (level : Nat) : List Json → List String
  | [] => []
  | j :: js => (indentation level ++ j.prettyAt level) :: prettyItems level js
def prettyMembers (level : Nat) : List (String × Json) → List String
  | [] => []
  | (k, j) :: ms =>
      (indentation level ++ quote k ++ ": " ++ j.prettyAt level) :: prettyMembers level ms
end

def pretty (j : Json) : String := j.prettyAt 0

end Json

end DialectSql
