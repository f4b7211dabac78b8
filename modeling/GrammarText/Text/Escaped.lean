import GrammarText.Text.CharClass

/-!
# Quoting a text in a message

A message shows a text on one line and without doubt about what it holds: what cannot be seen, or
would join the character before it, is shown by its code point.
-/

namespace GrammarText

/-- A character as it is shown between double quotes. -/
def escapeInMessage (c : Char) : List Char :=
  match c with
  | '"' => ['\\', '"']
  | '\\' => ['\\', '\\']
  | '\x00' => ['\\', '0']
  | '\t' => ['\\', 't']
  | '\n' => ['\\', 'n']
  | '\r' => ['\\', 'r']
  | c =>
    if isExtender c || !isPrintable c then
      '\\' :: 'u' :: '\x7b' :: Nat.toDigits 16 c.toNat ++ ['\x7d']
    else [c]

/-- A text in double quotes, as a message shows it. -/
def quoteInMessage (text : String) : String :=
  String.ofList ('"' :: text.toList.flatMap escapeInMessage ++ ['"'])

end GrammarText
