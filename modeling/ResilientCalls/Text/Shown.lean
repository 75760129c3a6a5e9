import ResilientCalls.Text.Invisible

/-!
# Texts as logs show them

Between quotes, on one line, and with everything visible: quotes and
backslashes have a backslash in front, line breaks and tabs are letters,
and what cannot be seen is shown by its number.
-/

namespace ResilientCalls

namespace Text

/-- A character as it is shown. -/
def shownChar (c : Char) : List Char :=
  if c = '"' || c = '\\' then ['\\', c]
  else if c = '\t' then ['\\', 't']
  else if c = '\n' then ['\\', 'n']
  else if c = '\r' then ['\\', 'r']
  else if c.toNat = 0 then ['\\', '0']
  else if isInvisible c then '\\' :: 'u' :: '\x7b' :: Nat.toDigits 16 c.toNat ++ ['\x7d']
  else [c]

/-- A text as it is shown. -/
def shown (s : String) : String := String.ofList ('"' :: s.toList.flatMap shownChar ++ ['"'])

/-- A text that may be absent, as it is shown. -/
def shownOption : Option String → String
  | none => "None"
  | some s => "Some(" ++ shown s ++ ")"

end Text

end ResilientCalls
