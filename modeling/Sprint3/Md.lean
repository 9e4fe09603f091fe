/-
# Measurement data

The 6-byte messages of the readout (`md.h`): a 4-bit header in the top bits
and a payload that depends on it. The driver reads a message as the `uint64_t`
at its address, of which the upper two bytes belong to whatever lies behind
it; every field lies below them, so what is extracted is the message's own
(`extract_word`).

`refDecode` is what a stream of messages means: a pixel for each message with
header 4, its `toa` counted from the latest timestamp offset.
-/
import Sprint3.DataProcessor
import Sprint3.Lib.Bits

namespace Sprint3

open Bits Memory

/-- `KATHERINE_MD_SIZE`. -/
def mdSize : ℕ := 6

/-! ### Bit fields -/

namespace MdField

def header : Field := ⟨44, 4⟩
def timeOffset : Field := ⟨0, 32⟩
def nSent : Field := ⟨0, 44⟩
def lsb : Field := ⟨0, 32⟩
def msb : Field := ⟨0, 16⟩
def nLost : Field := ⟨0, 44⟩

end MdField

namespace PmdToaTot

def hitCount : Field := ⟨0, 4⟩
def tot : Field := ⟨4, 10⟩
def toa : Field := ⟨14, 14⟩
def coordX : Field := ⟨28, 8⟩
def coordY : Field := ⟨36, 8⟩

end PmdToaTot

/-- `pmd_toa_tot_map`. -/
def pmdToaTotMap (src lastToaOffset : UInt64) : Px where
  coord.x := (PmdToaTot.coordX.extract src).toUInt16.toUInt8
  coord.y := (PmdToaTot.coordY.extract src).toUInt16.toUInt8
  toa := (PmdToaTot.toa.extract src).toUInt16.toUInt64 + lastToaOffset
  hitCount := (PmdToaTot.hitCount.extract src).toUInt16.toUInt8
  tot := (PmdToaTot.tot.extract src).toUInt16

/-! ### Messages -/

/-- A measurement data message. -/
@[ext] structure Md where
  bytes : List UInt8
  size : bytes.length = mdSize
  deriving DecidableEq, Repr

namespace Md

def value (md : Md) : ℕ := ofBytes md.bytes

/-- A field of the message. -/
def field (md : Md) (f : Field) : ℕ := f.read md.value

def header (md : Md) : ℕ := md.field MdField.header

/-- The message at an address. -/
def at_ (m : ℕ → UInt8) (i : ℕ) : Md := ⟨slice m i mdSize, slice_length m i mdSize⟩

/-- A header the driver does not know. -/
def Unrecognised (md : Md) : Prop :=
  md.header ∉ [0x2, 0x3, 0x4, 0x5, 0x7, 0x8, 0x9, 0xA, 0xB, 0xC, 0xD, 0xE]

instance : DecidablePred Unrecognised := fun md => by
  unfold Unrecognised
  infer_instance

/-- The pixel of a message with header 4 after the timestamp offset `offset`. -/
def pixel (md : Md) (offset : ℕ) : Px where
  coord.x := .ofNat (md.field PmdToaTot.coordX)
  coord.y := .ofNat (md.field PmdToaTot.coordY)
  toa := .ofNat (md.field PmdToaTot.toa + 2 ^ 14 * offset)
  hitCount := .ofNat (md.field PmdToaTot.hitCount)
  tot := .ofNat (md.field PmdToaTot.tot)

end Md

/-! ### The reference decode -/

/-- The payload of the latest message with header 5, `offset` if there is none. -/
def refOffset (offset : ℕ) : List Md → ℕ
  | [] => offset
  | md :: mds =>
    if md.header = 0x5 then refOffset (md.field MdField.timeOffset) mds else refOffset offset mds

/-- The pixels of a stream of messages. -/
def refDecode (offset : ℕ) : List Md → List Px
  | [] => []
  | md :: mds =>
    if md.header = 0x4 then md.pixel offset :: refDecode offset mds
    else if md.header = 0x5 then refDecode (md.field MdField.timeOffset) mds
    else refDecode offset mds

theorem refOffset_concat : ∀ (mds : List Md) (md : Md) (offset : ℕ),
    refOffset offset (mds ++ [md]) =
      if md.header = 0x5 then md.field MdField.timeOffset else refOffset offset mds
  | [], _, _ => rfl
  | md' :: mds, md, offset => by
    simp only [List.cons_append, refOffset, refOffset_concat mds md]
    by_cases h : md'.header = 0x5
    · simp only [if_pos h]
    · simp only [if_neg h]

theorem refDecode_concat : ∀ (mds : List Md) (md : Md) (offset : ℕ),
    refDecode offset (mds ++ [md]) =
      refDecode offset mds ++ if md.header = 0x4 then [md.pixel (refOffset offset mds)] else []
  | [], md, offset => by simp [refDecode, refOffset]
  | md' :: mds, md, offset => by
    simp only [List.cons_append, refDecode, refOffset, refDecode_concat mds md]
    by_cases h4 : md'.header = 0x4
    · simp [h4]
    · by_cases h5 : md'.header = 0x5
      · simp [h5]
      · simp [h4, h5]

theorem refOffset_lt : ∀ (mds : List Md) {offset : ℕ}, offset < 2 ^ 32 →
    refOffset offset mds < 2 ^ 32
  | [], _, h => h
  | md :: mds, offset, h => by
    unfold refOffset
    by_cases h5 : md.header = 0x5
    · rw [if_pos h5]
      exact refOffset_lt mds (Field.read_lt MdField.timeOffset md.value)
    · rw [if_neg h5]
      exact refOffset_lt mds h

theorem Md.pixel_toa (md : Md) {offset : ℕ} (h : offset < 2 ^ 32) :
    (md.pixel offset).toa.toNat = md.field PmdToaTot.toa + 2 ^ 14 * offset := by
  have hfield : md.field PmdToaTot.toa < 2 ^ 14 := Field.read_lt _ _
  exact UInt64.toNat_ofNat_of_lt' (by simp only [UInt64.size]; omega)

/-- The decoder's pixels have a `toa` below `2 ^ 46`. -/
theorem refDecode_decoded : ∀ (mds : List Md) {offset : ℕ}, offset < 2 ^ 32 →
    ∀ p ∈ refDecode offset mds, Decoded p
  | [], _, _, p, hp => absurd hp List.not_mem_nil
  | md :: mds, offset, h, p, hp => by
    unfold refDecode at hp
    by_cases h4 : md.header = 0x4
    · rw [if_pos h4, List.mem_cons] at hp
      rcases hp with rfl | hp
      · have hfield : md.field PmdToaTot.toa < 2 ^ 14 := Field.read_lt _ _
        unfold Decoded
        rw [md.pixel_toa h]
        omega
      · exact refDecode_decoded mds h p hp
    · rw [if_neg h4] at hp
      by_cases h5 : md.header = 0x5
      · rw [if_pos h5] at hp
        exact refDecode_decoded mds (Field.read_lt MdField.timeOffset md.value) p hp
      · rw [if_neg h5] at hp
        exact refDecode_decoded mds h p hp

/-! ### Reading a message as a word -/

/-- A field of the word at a message's address is the message's field. -/
theorem extract_word (f : Field) (hf : f.start + f.width ≤ 48) (m : ℕ → UInt8) (i : ℕ) :
    (f.extract (load64 m i)).toNat = (Md.at_ m i).field f :=
  f.extract_load64 (n := mdSize) (by decide) hf m i

theorem extract_eq (f : Field) (hf : f.start + f.width ≤ 48) (m : ℕ → UInt8) (i : ℕ) :
    f.extract (load64 m i) = .ofNat ((Md.at_ m i).field f) := by
  rw [← extract_word f hf, UInt64.ofNat_toNat]

/-- The pixel mapped from a message's word. -/
theorem pmdToaTotMap_word (m : ℕ → UInt8) (i : ℕ) {offset : ℕ} {lastToaOffset : UInt64}
    (ho : offset < 2 ^ 32) (h : lastToaOffset.toNat = 2 ^ 14 * offset) :
    pmdToaTotMap (load64 m i) lastToaOffset = (Md.at_ m i).pixel offset := by
  have hfield : (Md.at_ m i).field PmdToaTot.toa < 2 ^ 14 := Field.read_lt _ _
  have htoa : (PmdToaTot.toa.extract (load64 m i)).toUInt16.toUInt64 + lastToaOffset =
      ((Md.at_ m i).pixel offset).toa := by
    apply UInt64.toNat_inj.mp
    rw [Md.pixel_toa _ ho, UInt64.toNat_add, UInt16.toNat_toUInt64, UInt64.toNat_toUInt16,
      extract_word _ (by decide), h]
    omega
  simp only [pmdToaTotMap, htoa, extract_eq PmdToaTot.coordX (by decide),
    extract_eq PmdToaTot.coordY (by decide), extract_eq PmdToaTot.hitCount (by decide),
    extract_eq PmdToaTot.tot (by decide), UInt64.toUInt16_ofNat', UInt16.toUInt8_ofNat', Md.pixel]

end Sprint3
