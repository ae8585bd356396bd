import MiniPascal.Text.Invisible

namespace MiniPascal.Text

def escapeCode (c : Char) : String :=
  "\\u\x7b" ++ String.ofList (Nat.toDigits 16 c.toNat) ++ "\x7d"

def escape (c : Char) : String :=
  if c = '\u0000' then "\\0"
  else if c = '\t' then "\\t"
  else if c = '\r' then "\\r"
  else if c = '\n' then "\\n"
  else if c = '"' then "\\\""
  else if c = '\\' then "\\\\"
  else if isInvisible c then escapeCode c
  else c.toString

def quoted (text : String) : String := "\"" ++ String.join (text.toList.map escape) ++ "\""

end MiniPascal.Text
