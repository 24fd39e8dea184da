import BindingGraph.Text.Printable

/-!
# Texts quoted for a reader

Messages quote a text between double quotes. Quotes, backslashes, line ends, tabs and NUL have short
escapes; other characters that are not shown as they are stand as `\u{…}` with their number in base
sixteen.
-/

namespace BindingGraph.Text

/-- A character as it stands between the quotes. -/
def shownChar (c : Char) : List Char :=
  if c = '"' then ['\\', '"']
  else if c = '\\' then ['\\', '\\']
  else if c = '\n' then ['\\', 'n']
  else if c = '\r' then ['\\', 'r']
  else if c = '\t' then ['\\', 't']
  else if c.toNat = 0 then ['\\', '0']
  else if isShown c then [c]
  else ['\\', 'u', '{'] ++ Nat.toDigits 16 c.toNat ++ ['}']

/-- The text between double quotes. -/
def quoted (text : String) : String :=
  String.ofList ('"' :: text.toList.flatMap shownChar ++ ['"'])

end BindingGraph.Text
