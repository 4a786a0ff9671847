import Mathlib.Data.Nat.Notation

/-!
This module contains the generator of event identifiers of the shim. An integer of the source is a
64-bit one, the clock and the random bytes are inputs, and reading a string at an offset that it does
not have yields the empty string.
-/

namespace Athar.Shim

def decbin (n : ℕ) : List Char :=
  Nat.toDigits 2 n

-- Characters other than the two digits are skipped.
def bindec (text : List Char) : ℕ :=
  Nat.ofDigitChars 2 (text.filter fun ch => ch = '0' ∨ ch = '1') 0

def substr (text : List Char) (offset length : ℕ) : List Char :=
  (text.drop offset).take length

namespace Ulid

def ALPHABET : String := "0123456789ABCDEFGHJKMNPQRSTVWXYZ"

def offset (i : ℕ) : List Char :=
  ALPHABET.toList[i]?.toList

-- The loop of `encodeTimestamp`, with the number of rounds that are left.
def encodeTimestamp.go (out : List Char) (ts : Int64) : ℕ → List Char
  | 0 => out
  | rounds + 1 => go (out ++ offset (ts &&& 0x1F).toNatClampNeg) (ts >>> 5) rounds

def encodeTimestamp (ts : Int64) : String :=
  String.ofList (encodeTimestamp.go [] ts 10).reverse

-- The bit stream of the random bytes.
def bits (bytes : Vector UInt8 10) : List Char :=
  bytes.toList.flatMap fun byte => List.leftpad 8 '0' (decbin byte.toNat)

def encodeRandom (bytes : Vector UInt8 10) : String :=
  String.ofList ((List.range 16).flatMap fun i => offset (bindec (substr (bits bytes) (i * 5) 5)))

def generate (timestampMs : Option Int64) (now : Int64) (rand : Vector UInt8 10) : String :=
  encodeTimestamp (timestampMs.getD now) ++ encodeRandom rand

end Ulid

end Athar.Shim
