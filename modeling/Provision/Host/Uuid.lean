/-!
# Random identifiers

Sixteen bytes, written in hexadecimal with or without hyphens.
-/

namespace Provision.Host

structure Uuid where
  bytes : Vector UInt8 16
deriving DecidableEq

namespace Uuid

def hexByte (b : UInt8) : List Char :=
  [Nat.digitChar (b.toNat / 16), Nat.digitChar (b.toNat % 16)]

def digits (u : Uuid) : List Char := u.bytes.toList.flatMap hexByte

def text (u : Uuid) : String :=
  let ds := u.digits
  String.ofList (ds.take 8 ++ '-' :: (ds.drop 8).take 4 ++ '-' :: (ds.drop 12).take 4 ++
    '-' :: (ds.drop 16).take 4 ++ '-' :: ds.drop 20)

end Uuid

end Provision.Host
