import WorkflowPolicy.Text.Printable

/-!
# Quoted texts

Messages show a text in double quotes, written so that every character of it can be told:
`quoted "a\tb"` is `"a\tb"` with the tab as the two characters `\t`.

* The quote, the backslash and the controls NUL, tab, line feed and carriage return have an
  escape of two characters.
* Every other character that is not printable by itself — it is unprintable or it extends the
  character before it — is its code point in hexadecimal, `\u` and braces around it.
* All other characters stand for themselves.
-/

namespace WorkflowPolicy.Text

/-- A number in hexadecimal, with small letters and no leading zeros. -/
def hexadecimal (n : Nat) : List Char := Nat.toDigits 16 n

/-- One character as it stands between the quotes. -/
def quotedChar (c : Char) : List Char :=
  match c with
  | '"' => ['\\', '"']
  | '\\' => ['\\', '\\']
  | '\n' => ['\\', 'n']
  | '\r' => ['\\', 'r']
  | '\t' => ['\\', 't']
  | '\x00' => ['\\', '0']
  | c =>
    if isPrintable c && !isExtending c then [c]
    else ['\\', 'u', '\x7b'] ++ hexadecimal c.toNat ++ ['\x7d']

/-- **A text in double quotes**, with escapes for what cannot be shown as it is. -/
def quoted (s : String) : String :=
  String.ofList ('"' :: s.toList.flatMap quotedChar ++ ['"'])

end WorkflowPolicy.Text
