import ModuleOutputs.Text.Shown

/-!
A text in quotes as a message shows it: what would not be seen is escaped.
-/

namespace ModuleOutputs.Text

/-- A character inside quotes. A character that is not shown by itself is
written by its code point, in lower-case hexadecimal digits. -/
def quotedChar (c : Char) : List Char :=
  if c = '\x00' then ['\\', '0']
  else if c = '\t' then ['\\', 't']
  else if c = '\r' then ['\\', 'r']
  else if c = '\n' then ['\\', 'n']
  else if c = '"' then ['\\', '"']
  else if c = '\\' then ['\\', '\\']
  else if isShown c then [c]
  else ['\\', 'u', '\x7b'] ++ Nat.toDigits 16 c.toNat ++ ['\x7d']

def quoted (s : String) : String :=
  String.ofList ('"' :: (s.toList.flatMap quotedChar ++ ['"']))

end ModuleOutputs.Text
