import TrafficRules.Document.Value
import TrafficRules.Text.Digits
/-!
# Json — documents written as JSON text

Compact, one line without spaces, or with a line for every item and two spaces to a level.  Inside a text the quote, the
backslash and the control characters are escaped and everything else stands for itself.  What is held is for reading
only: of mappings, only an empty one is written.
-/
namespace TrafficRules
namespace Json

def escape (c : Char) : List Char :=
  if c = '"' then ['\\', '"']
  else if c = '\\' then ['\\', '\\']
  else if c = '\n' then ['\\', 'n']
  else if c = '\t' then ['\\', 't']
  else if c = '\r' then ['\\', 'r']
  else if c.toNat = 8 then ['\\', 'b']
  else if c.toNat = 12 then ['\\', 'f']
  else if c.toNat < 32 then ['\\', 'u', '0', '0', Digits.char (c.toNat / 16), Digits.char (c.toNat % 16)]
  else [c]

def quote (s : String) : String := String.ofList ('"' :: s.toList.flatMap escape ++ ['"'])

def scalar? : Value → Option String
  | .null => some "null"
  | .bool b => some (if b then "true" else "false")
  | .int n => some (toString n)
  | .foreign spelling => some spelling
  | .text s => some (quote s)
  | .list [] => some "[]"
  | .record [] | .mapping [] => some "\x7b\x7d"
  | _ => none

mutual

def compact : Value → String
  | .list vs => "[" ++ compactItems vs ++ "]"
  | .record fs => "\x7b" ++ compactFields fs ++ "\x7d"
  | v => (scalar? v).getD ""

def compactItems : List Value → String
  | [] => ""
  | [v] => compact v
  | v :: vs => compact v ++ "," ++ compactItems vs

def compactFields : List (String × Value) → String
  | [] => ""
  | [(k, v)] => quote k ++ ":" ++ compact v
  | (k, v) :: fs => quote k ++ ":" ++ compact v ++ "," ++ compactFields fs

end

def newline (depth : Nat) : String := "\n" ++ String.ofList (List.replicate (2 * depth) ' ')

mutual

def prettyAt (depth : Nat) : Value → String
  | .list (v :: vs) => "[" ++ prettyItems (depth + 1) (v :: vs) ++ newline depth ++ "]"
  | .record (f :: fs) => "\x7b" ++ prettyFields (depth + 1) (f :: fs) ++ newline depth ++ "\x7d"
  | v => (scalar? v).getD ""

def prettyItems (depth : Nat) : List Value → String
  | [] => ""
  | [v] => newline depth ++ prettyAt depth v
  | v :: vs => newline depth ++ prettyAt depth v ++ "," ++ prettyItems depth vs

def prettyFields (depth : Nat) : List (String × Value) → String
  | [] => ""
  | [(k, v)] => newline depth ++ quote k ++ ": " ++ prettyAt depth v
  | (k, v) :: fs => newline depth ++ quote k ++ ": " ++ prettyAt depth v ++ "," ++ prettyFields depth fs

end

def pretty (v : Value) : String := prettyAt 0 v

end Json
end TrafficRules
