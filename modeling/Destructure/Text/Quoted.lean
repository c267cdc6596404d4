import Destructure.Text.Combining
import Destructure.Text.Hexadecimal
import Destructure.Text.Ignorable

/-! # Quoted strings for display

A string is displayed between double quotes.  The quote and the backslash are escaped, and so is
every character that would not show by itself: unprintable ones, ignorable ones and combining marks.
All other characters stand for themselves.
-/

namespace Destructure.Text

def displayChar (c : Char) : List Char :=
  match c with
  | '\x00' => ['\\', '0']
  | '\t' => ['\\', 't']
  | '\n' => ['\\', 'n']
  | '\r' => ['\\', 'r']
  | '"' => ['\\', '"']
  | '\\' => ['\\', '\\']
  | c =>
    if isCombining c || isIgnorable c || !isPrintable c then
      ['\\', 'u', '\x7b'] ++ hexDigits c.toNat ++ ['\x7d']
    else
      [c]

def displayString (text : List Char) : List Char :=
  '"' :: text.flatMap displayChar ++ ['"']

end Destructure.Text
