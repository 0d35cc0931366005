import Provision.Text.Invisible

/-!
# Quoted text

A quoted text stands between double quotes and shows every character: quotes and backslashes
are escaped, and what has no glyph is written by number. Paths escape single quotes as well.
-/

namespace Provision.Text

def hexDigits (n : Nat) : List Char := Nat.toDigits 16 n

def quoteChar (single : Bool) (c : Char) : List Char :=
  if c = '\x00' then ['\\', '0']
  else if c = '\t' then ['\\', 't']
  else if c = '\r' then ['\\', 'r']
  else if c = '\n' then ['\\', 'n']
  else if c = '\\' || c = '"' then ['\\', c]
  else if c.toNat = 0x27 && single then ['\\', c]
  else if c.toNat < 0x20 || c.toNat = 0x7F || isInvisible c then
    '\\' :: 'u' :: '\x7b' :: (hexDigits c.toNat ++ ['\x7d'])
  else [c]

def quoteWith (single : Bool) (s : String) : String :=
  String.ofList ('"' :: (s.toList.flatMap (quoteChar single) ++ ['"']))

def quote (s : String) : String := quoteWith false s

def quotePath (s : String) : String := quoteWith true s

end Provision.Text
