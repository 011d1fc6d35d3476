import StreamWatch.Text.Invisible

/-!
# Quoted text

Texts inside messages and console lines stand in double quotes, so that blanks, quotes and
characters that cannot be seen show. Every character is escaped on its own.
-/

namespace StreamWatch.Quoted

/-- The escape that names a character by its number. -/
def byNumber (c : Char) : List Char :=
  ['\\', 'u', '\x7b'] ++ Nat.toDigits 16 c.toNat ++ ['\x7d']

/-- One character as it stands between the quotes. -/
def encodeChar (c : Char) : List Char :=
  match c with
  | '\x00' => ['\\', '0']
  | '\t' => ['\\', 't']
  | '\r' => ['\\', 'r']
  | '\n' => ['\\', 'n']
  | '\\' => ['\\', '\\']
  | '"' => ['\\', '"']
  | _ => if isInvisible c then byNumber c else [c]

/-- A text in quotes. -/
def encode (s : String) : String :=
  String.ofList ('"' :: s.toList.flatMap encodeChar ++ ['"'])

/-- A list of texts in quotes. -/
def encodeList (texts : List String) : String :=
  "[" ++ ", ".intercalate (texts.map encode) ++ "]"

end StreamWatch.Quoted
