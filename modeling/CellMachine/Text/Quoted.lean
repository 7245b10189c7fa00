import CellMachine.Text.Escaped

/-!
# Quoted text

Text between double quotes. The quote, the backslash and four controls have an escape
of their own; what cannot be seen is written as its code point in hexadecimal.
-/

namespace CellMachine.Text

def hexDigits (n : Nat) : List Char := Nat.toDigits 16 n

/-- The escape that names the code point. -/
def codePoint (c : Char) : List Char :=
  ['\\', 'u', '\x7b'] ++ hexDigits c.toNat ++ ['\x7d']

def quoteChar (c : Char) : List Char :=
  match c with
  | '\x00' => ['\\', '0']
  | '\t' => ['\\', 't']
  | '\r' => ['\\', 'r']
  | '\n' => ['\\', 'n']
  | '\\' => ['\\', '\\']
  | '"' => ['\\', '"']
  | c => if isEscaped c then codePoint c else [c]

/-- The text between double quotes. -/
def quoted (s : String) : String :=
  String.ofList ('"' :: s.toList.flatMap quoteChar ++ ['"'])

example : quoted "a\n\"b\"" = "\"a\\n\\\"b\\\"\"" := by decide +kernel

end CellMachine.Text
