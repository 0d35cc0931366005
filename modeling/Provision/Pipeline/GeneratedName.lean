import Provision.Host.Uuid

/-!
# Generated environment names

A name is an adjective, a noun and six hexadecimal digits, all drawn from one random
identifier.
-/

namespace Provision.Pipeline

def adjectives : Vector String 20 := #v[
  "amber", "brisk", "calm", "dapper", "eager", "fancy", "gentle", "hidden", "icy", "jolly",
  "keen", "lucky", "mellow", "nimble", "odd", "proud", "quiet", "rapid", "sunny", "tidy"]

def nouns : Vector String 20 := #v[
  "badger", "canyon", "delta", "ember", "falcon", "glacier", "harbor", "island", "jungle",
  "kernel", "lagoon", "meadow", "nebula", "orchid", "pebble", "quarry", "river", "summit",
  "tundra", "valley"]

def pick (words : Vector String 20) (b : UInt8) : String :=
  words.get ⟨b.toNat % 20, Nat.mod_lt _ (by decide)⟩

def generatedName (u : Host.Uuid) : String :=
  pick adjectives u.bytes[0] ++ "-" ++ pick nouns u.bytes[1] ++ "-" ++
    String.ofList (u.digits.take 6)

end Provision.Pipeline
