/-!
# UTF-8

`decode` reads any bytes: `some c` for each encoded scalar value and `none` for each maximal
run of bytes that starts one and does not finish it. A text is what decodes without `none`;
the lossy reading puts U+FFFD for each `none`.
-/

namespace Provision

/-- Raw content: of a file, of a stored object, of what a process printed. -/
abbrev Bytes : Type := List UInt8

namespace Text.Utf8

structure Pending where
  low : UInt8
  high : UInt8
  more : Nat
  bits : Nat

inductive Start where
  | whole (c : Char)
  | opens (p : Pending)
  | stray

/-- The well-formed byte sequences, by first byte; the range of the second byte leaves out
overlong forms, surrogates and values above U+10FFFF. -/
def start (b : UInt8) : Start :=
  let n := b.toNat
  if n < 0x80 then .whole (Char.ofNat n)
  else if n < 0xC2 then .stray
  else if n < 0xE0 then .opens ⟨0x80, 0xBF, 0, n - 0xC0⟩
  else if n = 0xE0 then .opens ⟨0xA0, 0xBF, 1, 0⟩
  else if n = 0xED then .opens ⟨0x80, 0x9F, 1, 0xD⟩
  else if n < 0xF0 then .opens ⟨0x80, 0xBF, 1, n - 0xE0⟩
  else if n = 0xF0 then .opens ⟨0x90, 0xBF, 2, 0⟩
  else if n < 0xF4 then .opens ⟨0x80, 0xBF, 2, n - 0xF0⟩
  else if n = 0xF4 then .opens ⟨0x80, 0x8F, 2, 4⟩
  else .stray

def Pending.take (p : Pending) (b : UInt8) : Option (Char ⊕ Pending) :=
  if p.low ≤ b ∧ b ≤ p.high then
    let bits := p.bits * 64 + (b.toNat - 0x80)
    match p.more with
    | 0 => some (.inl (Char.ofNat bits))
    | n + 1 => some (.inr ⟨0x80, 0xBF, n, bits⟩)
  else none

def begins (b : UInt8) : List (Option Char) × Option Pending :=
  match start b with
  | .whole c => ([some c], none)
  | .opens p => ([], some p)
  | .stray => ([none], none)

def decodeFrom : Option Pending → Bytes → List (Option Char)
  | none, [] => []
  | some _, [] => [none]
  | none, b :: bs => (begins b).1 ++ decodeFrom (begins b).2 bs
  | some p, b :: bs =>
    match p.take b with
    | some (.inl c) => some c :: decodeFrom none bs
    | some (.inr q) => decodeFrom (some q) bs
    | none => none :: ((begins b).1 ++ decodeFrom (begins b).2 bs)

def decode (bs : Bytes) : List (Option Char) :=
  decodeFrom none bs

def text? (bs : Bytes) : Option String :=
  ((decode bs).mapM id).map String.ofList

def lossy (bs : Bytes) : String :=
  String.ofList ((decode bs).map (·.getD '\uFFFD'))

def encode (s : String) : Bytes :=
  s.toList.flatMap String.utf8EncodeChar

end Text.Utf8

end Provision
