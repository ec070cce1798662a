import SharedDocument.Text.Unprintable

/-! Quoted text for messages. A quote, a backslash and the usual controls are escaped by a
backslash; other characters without a shape are written by their code. -/

namespace SharedDocument.Text

def escapeCode (char : Char) : List Char :=
  ['\\', 'u', '\x7b'] ++ Nat.toDigits 16 char.toNat ++ ['\x7d']

def escape (char : Char) : List Char :=
  match char with
  | '"' => ['\\', '"']
  | '\\' => ['\\', '\\']
  | '\n' => ['\\', 'n']
  | '\r' => ['\\', 'r']
  | '\t' => ['\\', 't']
  | '\x00' => ['\\', '0']
  | other => if isUnprintable other then escapeCode other else [other]

def quoted (text : String) : String :=
  String.ofList ('"' :: text.toList.flatMap escape ++ ['"'])

end SharedDocument.Text
