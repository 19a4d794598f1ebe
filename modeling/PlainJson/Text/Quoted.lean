import PlainJson.Text.Digits
import PlainJson.Text.Printable

/-! Quoted text: one line of printable characters that shows any text exactly. Apostrophes delimit
it, or double quotes if the text holds an apostrophe and no double quote. -/
set_option autoImplicit false

namespace PlainJson.Text

def delimiter (s : List Char) : Char :=
  if s.contains '\x27' && !s.contains '"' then '"' else '\x27'

/-- Two, four or eight hexadecimal digits, as few as hold the code. -/
def escapeCode (n : Nat) : List Char :=
  if n < 0x100 then '\\' :: 'x' :: fixedDigits 16 2 n
  else if n < 0x10000 then '\\' :: 'u' :: fixedDigits 16 4 n
  else '\\' :: 'U' :: fixedDigits 16 8 n

def escape (q c : Char) : List Char :=
  if c = q ∨ c = '\\' then ['\\', c]
  else if c = '\n' then ['\\', 'n']
  else if c = '\r' then ['\\', 'r']
  else if c = '\t' then ['\\', 't']
  else if isPrintable c then [c]
  else escapeCode c.toNat

def quote (s : List Char) : List Char :=
  delimiter s :: s.flatMap (escape (delimiter s)) ++ [delimiter s]

/-- Quoted text in which every character beyond ASCII is escaped too. -/
def quoteAscii (s : List Char) : List Char :=
  (quote s).flatMap fun c => if c.toNat < 0x80 then [c] else escapeCode c.toNat

def quoted (s : String) : String := String.ofList (quote s.toList)

theorem delimiter_eq (s : List Char) : delimiter s = '"' ∨ delimiter s = '\x27' := by
  unfold delimiter
  split <;> simp

example : quoted "it's" = "\"it's\"" := by decide +kernel

example : quoted "a\n\u200b\\" = "'a\\n\\u200b\\\\'" := by decide +kernel

end PlainJson.Text
