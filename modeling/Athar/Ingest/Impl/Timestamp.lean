import Mathlib.Algebra.Ring.Int.Defs

/-!
This module contains the clock of the ingest, which stamps every event with the time of its receipt.
Integers are mathematical ones. An operation whose result does not fit its type yields nothing, and a
conversion between types wraps around.
-/

namespace Athar.Timestamp

def checked (low high x : ℤ) : Option ℤ :=
  if low ≤ x ∧ x < high then some x else none

def u64 : ℤ → Option ℤ :=
  checked 0 (2 ^ 64)

def i64 : ℤ → Option ℤ :=
  checked (-2 ^ 63) (2 ^ 63)

def asU64 (x : ℤ) : ℤ :=
  (UInt64.ofInt x).toNat

def asI64 (x : ℤ) : ℤ :=
  (Int64.ofInt x).toInt

def asU32 : ℤ → UInt32 :=
  UInt32.ofInt

structure Ymdhms where
  year : UInt32
  month : UInt32
  day : UInt32
  hour : UInt32
  min : UInt32
  sec : UInt32
  deriving DecidableEq, Repr

def unixToYmdhms (secs : UInt64) : Option Ymdhms := do
  let daysSinceEpoch := asI64 (secs / 86400).toNat
  let rem := asU32 (secs % 86400).toNat
  let hour := rem / 3600
  let min := rem % 3600 / 60
  let sec := rem % 60
  let z ← i64 (daysSinceEpoch + 719468)
  let era := Int.tdiv (← i64 (if 0 ≤ z then z else z - 146096)) 146097
  let doe := asU64 (← i64 (z - (← i64 (era * 146097))))
  let yoe := (← u64 ((← u64 ((← u64 (doe - doe / 1460)) + doe / 36524)) - doe / 146096)) / 365
  let y ← i64 (asI64 yoe + (← i64 (era * 400)))
  let doy ← u64 (doe - (← u64 ((← u64 ((← u64 (365 * yoe)) + yoe / 4)) - yoe / 100)))
  let mp := (← u64 ((← u64 (5 * doy)) + 2)) / 153
  let d ← u64 ((← u64 (doy - (← u64 ((← u64 (153 * mp)) + 2)) / 5)) + 1)
  let m ← u64 (if mp < 10 then mp + 3 else mp - 9)
  let y ← i64 (if m ≤ 2 then y + 1 else y)
  return ⟨asU32 y, asU32 m, asU32 d, hour, min, sec⟩

structure Duration where
  secs : UInt64
  nanos : UInt32
  nanos_lt : nanos < 1000000000

namespace Duration

-- The clock stands before the epoch when there is no time since then.
def sinceEpoch (reading : Option Duration) : Duration :=
  reading.getD ⟨0, 0, by decide⟩

def subsecMicros (now : Duration) : UInt32 :=
  now.nanos / 1000

def asMicros (now : Duration) : ℕ :=
  now.secs.toNat * 1000000 + now.subsecMicros.toNat

end Duration

-- A number in decimal digits, padded with zeros.
def padded (width : ℕ) (n : UInt32) : List Char :=
  List.leftpad width '0' (Nat.toDigits 10 n.toNat)

def format (t : Ymdhms) (micros : UInt32) : String :=
  String.ofList (padded 4 t.year ++ '-' :: padded 2 t.month ++ '-' :: padded 2 t.day
    ++ 'T' :: padded 2 t.hour ++ ':' :: padded 2 t.min ++ ':' :: padded 2 t.sec
    ++ '.' :: padded 6 micros ++ ['Z'])

def nowRfc3339 (reading : Option Duration) : Option String := do
  let now := Duration.sinceEpoch reading
  let t ← unixToYmdhms now.secs
  return format t now.subsecMicros

end Athar.Timestamp
