/-!
# Settings of a cache

How many slots the table of a cache has at first and at most, how many executors it keeps on its
own, and when statements are prepared. A table has a power of two of slots.
-/

namespace FlagSelect

structure Settings where
  initialCapacity : Nat := 16
  maxCapacity : Nat := 1 <<< 16
  /-- How many executors are kept alive by being used last. -/
  retained : Nat := 64
  /-- Whether a statement is prepared with its plan and not at its first use. -/
  prepareEagerly : Bool := true
deriving DecidableEq

/-- Why a cache cannot be set up. -/
inductive SettingsDefect where
  | initialCapacity (n : Nat)
  | maxCapacity (n : Nat)
  | maxBelowInitial (max initial : Nat)
  | noProjection
  | noRecordType
  | unknownRecordType (name : String)
  | unknownSideType (name : String)
deriving DecidableEq

/-- The largest number of slots that a table may have. -/
def capacityLimit : Nat := 1 <<< 31

namespace SettingsDefect

/-- The setting at fault. -/
def field : SettingsDefect → String
  | initialCapacity _ => "initial_capacity"
  | maxCapacity _ | maxBelowInitial .. => "max_capacity"
  | noProjection => "projection"
  | noRecordType | unknownRecordType _ => "record_type"
  | unknownSideType _ => "side_provider"

def reason : SettingsDefect → String
  | initialCapacity n => s!"{n} is not a power of two"
  | maxCapacity n => s!"{n} is not a power of two no larger than {capacityLimit}"
  | maxBelowInitial max initial => s!"{max} is smaller than initial_capacity {initial}"
  | noProjection => "no row projection configured"
  | noRecordType => "no record type configured"
  | unknownRecordType name | unknownSideType name =>
    s!"type '{name}' is not registered in the schema"

def message (d : SettingsDefect) : String :=
  "invalid cache config field '" ++ d.field ++ "': " ++ d.reason

end SettingsDefect

/-- Whether a number is a power of two: the one with its own binary logarithm. -/
def isPowerOfTwo (n : Nat) : Bool :=
  n != 0 && 1 <<< n.log2 == n

namespace Settings

/-- A small table for a handful of different flags. -/
def compact : Settings where
  maxCapacity := 1 <<< 10
  retained := 8

/-- A wide table for many different flags. -/
def throughput : Settings where
  initialCapacity := 64
  maxCapacity := 1 <<< 20
  retained := 512

/-- The first capacity at fault. -/
def defect? (s : Settings) : Option SettingsDefect :=
  if ¬ isPowerOfTwo s.initialCapacity then some (.initialCapacity s.initialCapacity)
  else if ¬ isPowerOfTwo s.maxCapacity ∨ capacityLimit < s.maxCapacity then
    some (.maxCapacity s.maxCapacity)
  else if s.maxCapacity < s.initialCapacity then
    some (.maxBelowInitial s.maxCapacity s.initialCapacity)
  else none

end Settings

end FlagSelect
