/-
# The data of the application

The settings of `globals.h` that the modelled code reads, the pixel type of
the acquisition mode `toa_tot`, the species hit of `CustomDataTypes.hpp`, and
`size_t` arithmetic. A `size_t` or `uint64_t` counter is a `ℕ`; where the code
adds or subtracts such counters and the result could leave the type, it is
`sizeAdd` or `sizeSub`.
-/
import Mathlib.Algebra.Group.Nat.Defs
import Mathlib.Data.Int.Notation
import Mathlib.Data.Nat.Notation
import Mathlib.Tactic.Basic

namespace Sprint3

/-- `MAX_BUFF_EL`: the elements a raw hits buffer holds. -/
def maxBuffEl : ℕ := 65536

/-- `RAW_HIT_NOTIF_INC`: the raw hits in the buffer above which the writer is notified. -/
def rawHitNotifInc : ℕ := 1000

/-- `MAX_RAW_FILE_LINES`. -/
def maxRawFileLines : ℕ := 203272823

/-- `MAX_SPECIES_FILE_LINES`. -/
def maxSpeciesFileLines : ℕ := 147058823

/-- `HIT_TIMEOUT`, in milliseconds. -/
def hitTimeout : ℤ := 2 * 60 * 1000

/-- `a + b` in `size_t`. -/
def sizeAdd (a b : ℕ) : ℕ := (a + b) % 2 ^ 64

/-- `a - b` in `size_t`. -/
def sizeSub (a b : ℕ) : ℕ := (a + (2 ^ 64 - b)) % 2 ^ 64

theorem sizeAdd_eq {a b : ℕ} (h : a + b < 2 ^ 64) : sizeAdd a b = a + b := Nat.mod_eq_of_lt h

theorem sizeSub_eq {a b : ℕ} (hb : b ≤ a) (ha : a < 2 ^ 64) : sizeSub a b = a - b := by
  unfold sizeSub
  omega

/-- `katherine_coord_t`. -/
structure Coord where
  x : UInt8
  y : UInt8
  deriving DecidableEq, Repr, Inhabited

/-- `katherine_px_toa_tot_t`, the `mode::pixel_type` of the application. -/
structure Px where
  coord : Coord
  toa : UInt64
  hitCount : UInt8
  tot : UInt16
  deriving DecidableEq, Repr, Inhabited

/-- `SpeciesHit`, its energy in `E`. -/
structure SpeciesHit (E : Type*) where
  grade : UInt8
  startTOA : UInt64
  totalE : E
  deriving DecidableEq, Repr

end Sprint3
