import WorkloadEnv.Text.CodePoints

/-! # Quoted text

    The form in which messages show a text: between double quotes, with an
    escape for the quote, the backslash and every character that has no
    printed form of its own or combines with the one before it. -/

namespace WorkloadEnv.Text

/-- The hexadecimal digits of a number, lower case, none for padding. -/
def hexDigits (n : Nat) : List Char := Nat.toDigits 16 n

/-- An escape by number: a backslash, a `u`, and the code point in braces. -/
def codePointEscape (c : Char) : List Char :=
  ['\\', 'u', '\x7b'] ++ hexDigits c.toNat ++ ['\x7d']

/-- One character as it stands inside quoted text. -/
def quotedChar (c : Char) : List Char :=
  if c = '"' then ['\\', '"']
  else if c = '\\' then ['\\', '\\']
  else if c = '\n' then ['\\', 'n']
  else if c = '\r' then ['\\', 'r']
  else if c = '\t' then ['\\', 't']
  else if c = '\x00' then ['\\', '0']
  else if isUnprintable c || isCombining c then codePointEscape c
  else [c]

/-- The text between double quotes. -/
def quoted (s : String) : String :=
  String.ofList ('"' :: (s.toList.flatMap quotedChar ++ ['"']))

end WorkloadEnv.Text
