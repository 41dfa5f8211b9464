import RepairLedger.Text.Printable

/-!
# Quoted text

How a message shows a text that it talks about: between quotation marks, with a backslash before
a quotation mark or a backslash, with short names for a few control characters, and with the code
point of every other character that is not printable.
-/

namespace RepairLedger.Text

/-- A character as it stands between quotation marks. -/
def quoteChar (c : Char) : List Char :=
  if c = '"' then ['\\', '"']
  else if c = '\\' then ['\\', '\\']
  else if c = '\n' then ['\\', 'n']
  else if c = '\r' then ['\\', 'r']
  else if c = '\t' then ['\\', 't']
  else if c = '\x00' then ['\\', '0']
  else if isPrintable c then [c]
  else ['\\', 'u', '\x7b'] ++ Nat.toDigits 16 c.toNat ++ ['\x7d']

/-- A text between quotation marks. -/
def quote (s : String) : String :=
  String.ofList ('"' :: s.toList.flatMap quoteChar ++ ['"'])

end RepairLedger.Text
