import Provision.Proofs.Decimal.Rounding
import Provision.Proofs.Json.Spelling

/-!
# The grammar of documents

A phrase is a document as its text puts it: numbers keep the digits and exponents that they are
written with, and objects all their members in order. `WrittenAs` says which texts a phrase may
have, without reading any: blanks stand around values, and characters of a string are escaped. A
phrase fits if no more than the given number of arrays and objects are nested in it and each of its
numbers is in range: it is read as one product or quotient of rounded numbers, and a product must
not overflow.
-/

namespace Provision.Json

open Decimal.Binary64 (nearest halfway) in
/-- The word that is kept of the digits, rounded, times the power of ten, rounded, is below the
point from which a product overflows. A quotient never does. -/
def Literal.InRange (l : Literal) : Prop :=
  l.power < 0 ∨ nearest l.significand * nearest (10 ^ l.power) < halfway

inductive Phrase where
  | null
  | bool (b : Bool)
  | number (l : Literal)
  | string (s : String)
  | array (items : List Phrase)
  | object (members : List (String × Phrase))

namespace Phrase

open Document (IsBlank hexUnit escaped isLeading isTrailing)

def IsDigits (ds : List Char) : Prop := ds ≠ [] ∧ ∀ c ∈ ds, Timestamp.isDigit c = true

def IsWhole (ds : List Char) : Prop := IsDigits ds ∧ (ds.head? = some '0' → ds = ['0'])

inductive FractionWrittenAs : Option (List Char) → List Char → Prop
  | none : FractionWrittenAs none []
  | some {ds : List Char} (digits : IsDigits ds) : FractionWrittenAs (some ds) ('.' :: ds)

inductive ExponentWrittenAs : Option Int → List Char → Prop
  | none : ExponentWrittenAs none []
  | plain {e : Char} {ds : List Char} (letter : e = 'e' ∨ e = 'E') (digits : IsDigits ds) :
    ExponentWrittenAs (some (digitsValue ds)) (e :: ds)
  | plus {e : Char} {ds : List Char} (letter : e = 'e' ∨ e = 'E') (digits : IsDigits ds) :
    ExponentWrittenAs (some (digitsValue ds)) (e :: '+' :: ds)
  | minus {e : Char} {ds : List Char} (letter : e = 'e' ∨ e = 'E') (digits : IsDigits ds) :
    ExponentWrittenAs (some (-digitsValue ds)) (e :: '-' :: ds)

def SizeWrittenAs (l : Literal) (cs : List Char) : Prop :=
  IsWhole l.whole ∧ ∃ fraction exponent, FractionWrittenAs l.fraction fraction ∧
    ExponentWrittenAs l.exponent exponent ∧ cs = l.whole ++ (fraction ++ exponent)

inductive NumberWrittenAs : Literal → List Char → Prop
  | plain {l : Literal} {cs : List Char} (sign : l.minus = false) (size : SizeWrittenAs l cs) :
    NumberWrittenAs l cs
  | minus {l : Literal} {cs : List Char} (sign : l.minus = true) (size : SizeWrittenAs l cs) :
    NumberWrittenAs l ('-' :: cs)

/-- The characters of a string and what is written for them. A pair of surrogates stands for one
character, and no surrogate stands alone. -/
inductive TextWrittenAs : List Char → List Char → Prop
  | nil : TextWrittenAs [] []
  | plain {c : Char} {s cs : List Char} (quote : c ≠ '"') (slash : c ≠ '\\')
    (control : ¬ c.toNat < 0x20) (rest : TextWrittenAs s cs) : TextWrittenAs (c :: s) (c :: cs)
  | escape {e c : Char} {s cs : List Char} (names : escaped (some e) = some c)
    (rest : TextWrittenAs s cs) : TextWrittenAs (c :: s) ('\\' :: e :: cs)
  | unit {a b c d : Char} {n : Nat} {s cs : List Char}
    (hex : hexUnit (some a) (some b) (some c) (some d) = some n)
    (leading : isLeading n = false) (trailing : isTrailing n = false) (rest : TextWrittenAs s cs) :
    TextWrittenAs (Char.ofNat n :: s) ('\\' :: 'u' :: a :: b :: c :: d :: cs)
  | pair {a b c d a' b' c' d' : Char} {n m : Nat} {s cs : List Char}
    (hex : hexUnit (some a) (some b) (some c) (some d) = some n)
    (hex' : hexUnit (some a') (some b') (some c') (some d') = some m)
    (leading : isLeading n = true) (trailing : isTrailing m = true) (rest : TextWrittenAs s cs) :
    TextWrittenAs (Char.ofNat (0x10000 + (n - 0xD800) * 0x400 + (m - 0xDC00)) :: s)
      ('\\' :: 'u' :: a :: b :: c :: d :: '\\' :: 'u' :: a' :: b' :: c' :: d' :: cs)

inductive StringWrittenAs : String → List Char → Prop
  | mk {s : String} {cs : List Char} (text : TextWrittenAs s.toList cs) :
    StringWrittenAs s ('"' :: (cs ++ ['"']))

mutual

inductive WrittenAs : Phrase → List Char → Prop
  | null : WrittenAs null ['n', 'u', 'l', 'l']
  | true : WrittenAs (bool true) ['t', 'r', 'u', 'e']
  | false : WrittenAs (bool false) ['f', 'a', 'l', 's', 'e']
  | number {l : Literal} {cs : List Char} (written : NumberWrittenAs l cs) : WrittenAs (number l) cs
  | string {s : String} {cs : List Char} (written : StringWrittenAs s cs) : WrittenAs (string s) cs
  | emptyArray {gap : List Char} (blank : IsBlank gap) :
    WrittenAs (array []) ('[' :: (gap ++ [']']))
  | array {items : List Phrase} {cs : List Char} (written : ItemsWrittenAs items cs) :
    WrittenAs (array items) ('[' :: cs)
  | emptyObject {gap : List Char} (blank : IsBlank gap) :
    WrittenAs (object []) ('\x7b' :: (gap ++ ['\x7d']))
  | object {members : List (String × Phrase)} {cs : List Char}
    (written : MembersWrittenAs members cs) : WrittenAs (object members) ('\x7b' :: cs)

inductive PaddedWrittenAs : Phrase → List Char → Prop
  | mk {p : Phrase} {before item after : List Char} (blank : IsBlank before)
    (written : WrittenAs p item) (blank' : IsBlank after) :
    PaddedWrittenAs p (before ++ (item ++ after))

inductive ItemsWrittenAs : List Phrase → List Char → Prop
  | last {p : Phrase} {item : List Char} (written : PaddedWrittenAs p item) :
    ItemsWrittenAs [p] (item ++ [']'])
  | more {p : Phrase} {ps : List Phrase} {item rest : List Char} (written : PaddedWrittenAs p item)
    (tail : ItemsWrittenAs ps rest) : ItemsWrittenAs (p :: ps) (item ++ ',' :: rest)

inductive MembersWrittenAs : List (String × Phrase) → List Char → Prop
  | last {k : String} {p : Phrase} {before key gap item : List Char} (blank : IsBlank before)
    (name : StringWrittenAs k key) (blank' : IsBlank gap) (written : PaddedWrittenAs p item) :
    MembersWrittenAs [(k, p)] (before ++ (key ++ (gap ++ ':' :: (item ++ ['\x7d']))))
  | more {k : String} {p : Phrase} {members : List (String × Phrase)}
    {before key gap item rest : List Char} (blank : IsBlank before) (name : StringWrittenAs k key)
    (blank' : IsBlank gap) (written : PaddedWrittenAs p item)
    (tail : MembersWrittenAs members rest) :
    MembersWrittenAs ((k, p) :: members)
      (before ++ (key ++ (gap ++ ':' :: (item ++ ',' :: rest))))

end

mutual

/-- At most `room` arrays and objects are nested, and every number is in range. -/
def Fits : Nat → Phrase → Prop
  | _, null => True
  | _, bool _ => True
  | _, number l => l.InRange
  | _, string _ => True
  | 0, array _ => False
  | room + 1, array items => FitItems room items
  | 0, object _ => False
  | room + 1, object members => FitMembers room members

def FitItems (room : Nat) : List Phrase → Prop
  | [] => True
  | p :: ps => Fits room p ∧ FitItems room ps

def FitMembers (room : Nat) : List (String × Phrase) → Prop
  | [] => True
  | (_, p) :: rest => Fits room p ∧ FitMembers room rest

end

/-- The bytes are the text of one document, which has this phrase and fits. -/
def IsWrittenIn (p : Phrase) (raw : Bytes) : Prop :=
  p.Fits maxDepth ∧ ∃ cs, PaddedWrittenAs p cs ∧ raw = Text.Utf8.encode (String.ofList cs)

/-- The value of the last member of this name. -/
def lastNamed (key : String) (members : List (String × Phrase)) : Option Phrase :=
  (members.reverse.find? (·.1 = key)).map (·.2)

end Phrase

end Provision.Json
