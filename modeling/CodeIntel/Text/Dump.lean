/-!
# Values written out in full

How a message shows a value as a whole: a record with the names of its fields, a
text in quotes.
-/

namespace CodeIntel
namespace Dump

/-- A character between quotes. Those beyond the control characters of Latin-1
stand for themselves. -/
def escaped (c : Char) : List Char :=
  if c = '"' || c = '\\' then ['\\', c]
  else if c = '\n' then ['\\', 'n']
  else if c = '\r' then ['\\', 'r']
  else if c = '\t' then ['\\', 't']
  else if c.toNat = 0 then ['\\', '0']
  else if c.toNat < 32 || (127 ≤ c.toNat && c.toNat < 160) then
    ['\\', 'u', '\x7b'] ++ Nat.toDigits 16 c.toNat ++ ['\x7d']
  else [c]

def quoted (s : List Char) : String :=
  String.ofList ('"' :: (s.flatMap escaped ++ ['"']))

def text (s : String) : String :=
  quoted s.toList

def variant (name value : String) : String :=
  s!"{name}({value})"

def option (dump : α → String) : Option α → String
  | none => "None"
  | some a => variant "Some" (dump a)

def record (name : String) (fields : List (String × String)) : String :=
  let shown := fields.map fun (field, value) => s!"{field}: {value}"
  name ++ " \x7b " ++ ", ".intercalate shown ++ " \x7d"

end Dump
end CodeIntel
