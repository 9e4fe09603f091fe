/-
# The pixel formats

The readout sends a hit as a message with header 4, whose payload depends on
the acquisition mode. `md.h` has one map for each of the six pixel types, all
of them from one macro; a `Format` is such a map with the layout of its fields.
In each format the fields are independent of each other: `encode` gives for
every pixel that fits a message that is mapped to it, and two messages are
mapped to the same pixel exactly if their fields agree (`pixel_formats`).

With the offset messages in between, a stream of messages can carry just the
lists of pixels whose times are below `2 ^ 46` (`decoded_streams`). The format
that is read is the one that the detector was set to (`read_format`).
-/
import Sprint3.AcquisitionBegin
import Sprint3.Lib.Packing

namespace Sprint3

open Bits Memory

/-! ### `px.h` -/

/-- `katherine_px_f_toa_tot_t`. -/
structure PxFToaTot where
  coord : Coord
  ftoa : UInt8
  toa : UInt64
  tot : UInt16
  deriving DecidableEq, Repr

/-- `katherine_px_f_toa_only_t`. -/
structure PxFToaOnly where
  coord : Coord
  ftoa : UInt8
  toa : UInt64
  deriving DecidableEq, Repr

/-- `katherine_px_toa_only_t`. -/
structure PxToaOnly where
  coord : Coord
  toa : UInt64
  hitCount : UInt8
  deriving DecidableEq, Repr

/-- `katherine_px_f_event_itot_t`. -/
structure PxFEventItot where
  coord : Coord
  hitCount : UInt8
  eventCount : UInt16
  integralTot : UInt16
  deriving DecidableEq, Repr

/-- `katherine_px_event_itot_t`. -/
structure PxEventItot where
  coord : Coord
  eventCount : UInt16
  integralTot : UInt16
  deriving DecidableEq, Repr

/-! ### `md.h` -/

/-- `DEFINE_PMD_PAIR` for a `uint8_t`. -/
def pmdPair8 (f : Field) (src : UInt64) : UInt8 := (f.extract src).toUInt16.toUInt8

/-- `DEFINE_PMD_PAIR` for a `uint16_t`. -/
def pmdPair16 (f : Field) (src : UInt64) : UInt16 := (f.extract src).toUInt16

/-- `DEFINE_PMD_PAIR_TOA`. -/
def pmdPairToa (f : Field) (src lastToaOffset : UInt64) : UInt64 :=
  (f.extract src).toUInt16.toUInt64 + lastToaOffset

/-- `DEFINE_PMD_PAIR_COORD`. -/
def pmdPairCoord (coordX coordY : Field) (src : UInt64) : Coord where
  x := pmdPair8 coordX src
  y := pmdPair8 coordY src

namespace PmdFToaTot

def ftoa : Field := ⟨0, 4⟩
def tot : Field := ⟨4, 10⟩
def toa : Field := ⟨14, 14⟩
def coordX : Field := ⟨28, 8⟩
def coordY : Field := ⟨36, 8⟩

end PmdFToaTot

/-- `pmd_f_toa_tot_map`. -/
def pmdFToaTotMap (src lastToaOffset : UInt64) : PxFToaTot where
  coord := pmdPairCoord PmdFToaTot.coordX PmdFToaTot.coordY src
  toa := pmdPairToa PmdFToaTot.toa src lastToaOffset
  ftoa := pmdPair8 PmdFToaTot.ftoa src
  tot := pmdPair16 PmdFToaTot.tot src

namespace PmdFToaOnly

def ftoa : Field := ⟨0, 4⟩
def toa : Field := ⟨14, 14⟩
def coordX : Field := ⟨28, 8⟩
def coordY : Field := ⟨36, 8⟩

end PmdFToaOnly

/-- `pmd_f_toa_only_map`. -/
def pmdFToaOnlyMap (src lastToaOffset : UInt64) : PxFToaOnly where
  coord := pmdPairCoord PmdFToaOnly.coordX PmdFToaOnly.coordY src
  toa := pmdPairToa PmdFToaOnly.toa src lastToaOffset
  ftoa := pmdPair8 PmdFToaOnly.ftoa src

namespace PmdToaOnly

def hitCount : Field := ⟨0, 4⟩
def toa : Field := ⟨14, 14⟩
def coordX : Field := ⟨28, 8⟩
def coordY : Field := ⟨36, 8⟩

end PmdToaOnly

/-- `pmd_toa_only_map`. -/
def pmdToaOnlyMap (src lastToaOffset : UInt64) : PxToaOnly where
  coord := pmdPairCoord PmdToaOnly.coordX PmdToaOnly.coordY src
  toa := pmdPairToa PmdToaOnly.toa src lastToaOffset
  hitCount := pmdPair8 PmdToaOnly.hitCount src

namespace PmdFEventItot

def hitCount : Field := ⟨0, 4⟩
def eventCount : Field := ⟨4, 10⟩
def integralTot : Field := ⟨14, 14⟩
def coordX : Field := ⟨28, 8⟩
def coordY : Field := ⟨36, 8⟩

end PmdFEventItot

/-- `pmd_f_event_itot_map`. -/
def pmdFEventItotMap (src _lastToaOffset : UInt64) : PxFEventItot where
  coord := pmdPairCoord PmdFEventItot.coordX PmdFEventItot.coordY src
  hitCount := pmdPair8 PmdFEventItot.hitCount src
  eventCount := pmdPair16 PmdFEventItot.eventCount src
  integralTot := pmdPair16 PmdFEventItot.integralTot src

namespace PmdEventItot

def eventCount : Field := ⟨4, 10⟩
def integralTot : Field := ⟨14, 14⟩
def coordX : Field := ⟨28, 8⟩
def coordY : Field := ⟨36, 8⟩

end PmdEventItot

/-- `pmd_event_itot_map`. -/
def pmdEventItotMap (src _lastToaOffset : UInt64) : PxEventItot where
  coord := pmdPairCoord PmdEventItot.coordX PmdEventItot.coordY src
  eventCount := pmdPair16 PmdEventItot.eventCount src
  integralTot := pmdPair16 PmdEventItot.integralTot src

theorem pmdToaTotMap_pairs (src lastToaOffset : UInt64) :
    pmdToaTotMap src lastToaOffset =
      { coord := pmdPairCoord PmdToaTot.coordX PmdToaTot.coordY src
        toa := pmdPairToa PmdToaTot.toa src lastToaOffset
        hitCount := pmdPair8 PmdToaTot.hitCount src
        tot := pmdPair16 PmdToaTot.tot src } := rfl

/-! ### Messages with given fields -/

/-- The message with these values in the fields. -/
def Md.ofFields (fs : List Field) (vs : List ℕ) : Md :=
  ⟨toBytes mdSize (pack fs vs), toBytes_length _ _⟩

theorem Md.field_ofFields {fs : List Field} {vs : List ℕ} (hfs : Ascending 0 fs) (h : Fits fs vs)
    (hsize : ∀ f ∈ fs, f.start + f.width ≤ 48) : fs.map (ofFields fs vs).field = vs := by
  have hlt : pack fs vs < 256 ^ mdSize := pack_lt hfs h hsize
  have hvalue : (ofFields fs vs).value = pack fs vs := ofBytes_toBytes hlt
  have hfield : (ofFields fs vs).field = fun f => f.read (pack fs vs) := by
    funext f
    rw [Md.field, hvalue]
  rw [hfield]
  exact read_pack hfs h

theorem Md.fits_fields (md : Md) (fs : List Field) : Fits fs (fs.map md.field) :=
  fits_read md.value fs

/-! ### Formats -/

/-- A map from messages to pixels, which reads the fields of a layout and nothing else. -/
structure Format (P : Type) where
  map : UInt64 → UInt64 → P
  fields : List Field
  /-- The pixel with these values in the fields, after an offset. -/
  build : UInt64 → List ℕ → P
  values : UInt64 → P → List ℕ
  ascending : Ascending 0 fields
  below : ∀ f ∈ fields, f.start + f.width ≤ MdField.header.start
  map_word : ∀ m i offset,
    map (load64 m i) offset = build offset (fields.map (Md.at_ m i).field)
  build_values : ∀ offset p, build offset (values offset p) = p
  values_build : ∀ offset vs, Fits fields vs → values offset (build offset vs) = vs

theorem pmdPair8_word {f : Field} (hf : f.start + f.width ≤ 48) (m : ℕ → UInt8) (i : ℕ) :
    pmdPair8 f (load64 m i) = .ofNat ((Md.at_ m i).field f) := by
  rw [pmdPair8, extract_eq f hf, UInt64.toUInt16_ofNat', UInt16.toUInt8_ofNat']

theorem pmdPair16_word {f : Field} (hf : f.start + f.width ≤ 48) (m : ℕ → UInt8) (i : ℕ) :
    pmdPair16 f (load64 m i) = .ofNat ((Md.at_ m i).field f) := by
  rw [pmdPair16, extract_eq f hf, UInt64.toUInt16_ofNat']

/-- A time of at most 16 bits. -/
theorem pmdPairToa_word {f : Field} (hf : f.start + f.width ≤ 48) (hwidth : f.width ≤ 16)
    (m : ℕ → UInt8) (i : ℕ) (offset : UInt64) :
    pmdPairToa f (load64 m i) offset = .ofNat ((Md.at_ m i).field f) + offset := by
  have hlt : (Md.at_ m i).field f < 2 ^ 16 :=
    lt_of_lt_of_le (Field.read_lt f _) (Nat.pow_le_pow_right (by decide) hwidth)
  have hlow : (UInt64.ofNat ((Md.at_ m i).field f)).toUInt16.toUInt64 =
      .ofNat ((Md.at_ m i).field f) := by
    apply UInt64.toNat_inj.mp
    rw [UInt16.toNat_toUInt64, UInt64.toNat_toUInt16,
      UInt64.toNat_ofNat_of_lt' (by simp only [UInt64.size]; omega), Nat.mod_eq_of_lt hlt]
  rw [pmdPairToa, extract_eq f hf, hlow]

section Values

variable {f : Field} {v : ℕ}

theorem toNat_value8 (hwidth : f.width ≤ 8) (hv : v < 2 ^ f.width) : (UInt8.ofNat v).toNat = v :=
  UInt8.toNat_ofNat_of_lt' (lt_of_lt_of_le hv (Nat.pow_le_pow_right (by decide) hwidth))

theorem toNat_value16 (hwidth : f.width ≤ 16) (hv : v < 2 ^ f.width) :
    (UInt16.ofNat v).toNat = v :=
  UInt16.toNat_ofNat_of_lt' (lt_of_lt_of_le hv (Nat.pow_le_pow_right (by decide) hwidth))

theorem toNat_valueToa (hwidth : f.width ≤ 64) (hv : v < 2 ^ f.width) (offset : UInt64) :
    (UInt64.ofNat v + offset - offset).toNat = v := by
  rw [UInt64.add_sub_cancel]
  exact UInt64.toNat_ofNat_of_lt' (lt_of_lt_of_le hv (Nat.pow_le_pow_right (by decide) hwidth))

end Values

namespace Format

def fToaTot : Format PxFToaTot where
  map := pmdFToaTotMap
  fields := [PmdFToaTot.ftoa, PmdFToaTot.tot, PmdFToaTot.toa, PmdFToaTot.coordX, PmdFToaTot.coordY]
  build := fun offset vs =>
    ⟨⟨.ofNat (vs.getD 3 0), .ofNat (vs.getD 4 0)⟩, .ofNat (vs.getD 0 0),
      .ofNat (vs.getD 2 0) + offset, .ofNat (vs.getD 1 0)⟩
  values := fun offset p =>
    [p.ftoa.toNat, p.tot.toNat, (p.toa - offset).toNat, p.coord.x.toNat, p.coord.y.toNat]
  ascending := by decide
  below := by decide
  map_word := by
    intro m i offset
    simp (disch := decide) only [pmdFToaTotMap, pmdPairCoord, pmdPair8_word, pmdPair16_word,
      pmdPairToa_word]
    rfl
  build_values := by
    intro offset p
    simp
  values_build := by
    rintro offset _ (_ | ⟨hftoa, _ | ⟨htot, _ | ⟨htoa, _ | ⟨hx, _ | ⟨hy, _ | _⟩⟩⟩⟩⟩)
    simp only [List.getD_cons_zero, List.getD_cons_succ, toNat_value8 (by decide) hftoa,
      toNat_value16 (by decide) htot, toNat_valueToa (by decide) htoa,
      toNat_value8 (by decide) hx, toNat_value8 (by decide) hy]

def toaTot : Format Px where
  map := pmdToaTotMap
  fields := [PmdToaTot.hitCount, PmdToaTot.tot, PmdToaTot.toa, PmdToaTot.coordX, PmdToaTot.coordY]
  build := fun offset vs =>
    ⟨⟨.ofNat (vs.getD 3 0), .ofNat (vs.getD 4 0)⟩, .ofNat (vs.getD 2 0) + offset,
      .ofNat (vs.getD 0 0), .ofNat (vs.getD 1 0)⟩
  values := fun offset p =>
    [p.hitCount.toNat, p.tot.toNat, (p.toa - offset).toNat, p.coord.x.toNat, p.coord.y.toNat]
  ascending := by decide
  below := by decide
  map_word := by
    intro m i offset
    simp (disch := decide) only [pmdToaTotMap_pairs, pmdPairCoord, pmdPair8_word, pmdPair16_word,
      pmdPairToa_word]
    rfl
  build_values := by
    intro offset p
    simp
  values_build := by
    rintro offset _ (_ | ⟨hhitCount, _ | ⟨htot, _ | ⟨htoa, _ | ⟨hx, _ | ⟨hy, _ | _⟩⟩⟩⟩⟩)
    simp only [List.getD_cons_zero, List.getD_cons_succ, toNat_value8 (by decide) hhitCount,
      toNat_value16 (by decide) htot, toNat_valueToa (by decide) htoa,
      toNat_value8 (by decide) hx, toNat_value8 (by decide) hy]

def fToaOnly : Format PxFToaOnly where
  map := pmdFToaOnlyMap
  fields := [PmdFToaOnly.ftoa, PmdFToaOnly.toa, PmdFToaOnly.coordX, PmdFToaOnly.coordY]
  build := fun offset vs =>
    ⟨⟨.ofNat (vs.getD 2 0), .ofNat (vs.getD 3 0)⟩, .ofNat (vs.getD 0 0),
      .ofNat (vs.getD 1 0) + offset⟩
  values := fun offset p =>
    [p.ftoa.toNat, (p.toa - offset).toNat, p.coord.x.toNat, p.coord.y.toNat]
  ascending := by decide
  below := by decide
  map_word := by
    intro m i offset
    simp (disch := decide) only [pmdFToaOnlyMap, pmdPairCoord, pmdPair8_word, pmdPairToa_word]
    rfl
  build_values := by
    intro offset p
    simp
  values_build := by
    rintro offset _ (_ | ⟨hftoa, _ | ⟨htoa, _ | ⟨hx, _ | ⟨hy, _ | _⟩⟩⟩⟩)
    simp only [List.getD_cons_zero, List.getD_cons_succ, toNat_value8 (by decide) hftoa,
      toNat_valueToa (by decide) htoa, toNat_value8 (by decide) hx, toNat_value8 (by decide) hy]

def toaOnly : Format PxToaOnly where
  map := pmdToaOnlyMap
  fields := [PmdToaOnly.hitCount, PmdToaOnly.toa, PmdToaOnly.coordX, PmdToaOnly.coordY]
  build := fun offset vs =>
    ⟨⟨.ofNat (vs.getD 2 0), .ofNat (vs.getD 3 0)⟩, .ofNat (vs.getD 1 0) + offset,
      .ofNat (vs.getD 0 0)⟩
  values := fun offset p =>
    [p.hitCount.toNat, (p.toa - offset).toNat, p.coord.x.toNat, p.coord.y.toNat]
  ascending := by decide
  below := by decide
  map_word := by
    intro m i offset
    simp (disch := decide) only [pmdToaOnlyMap, pmdPairCoord, pmdPair8_word, pmdPairToa_word]
    rfl
  build_values := by
    intro offset p
    simp
  values_build := by
    rintro offset _ (_ | ⟨hhitCount, _ | ⟨htoa, _ | ⟨hx, _ | ⟨hy, _ | _⟩⟩⟩⟩)
    simp only [List.getD_cons_zero, List.getD_cons_succ, toNat_value8 (by decide) hhitCount,
      toNat_valueToa (by decide) htoa, toNat_value8 (by decide) hx, toNat_value8 (by decide) hy]

def fEventItot : Format PxFEventItot where
  map := pmdFEventItotMap
  fields := [PmdFEventItot.hitCount, PmdFEventItot.eventCount, PmdFEventItot.integralTot,
    PmdFEventItot.coordX, PmdFEventItot.coordY]
  build := fun _ vs =>
    ⟨⟨.ofNat (vs.getD 3 0), .ofNat (vs.getD 4 0)⟩, .ofNat (vs.getD 0 0), .ofNat (vs.getD 1 0),
      .ofNat (vs.getD 2 0)⟩
  values := fun _ p =>
    [p.hitCount.toNat, p.eventCount.toNat, p.integralTot.toNat, p.coord.x.toNat, p.coord.y.toNat]
  ascending := by decide
  below := by decide
  map_word := by
    intro m i offset
    simp (disch := decide) only [pmdFEventItotMap, pmdPairCoord, pmdPair8_word, pmdPair16_word]
    rfl
  build_values := by
    intro offset p
    simp
  values_build := by
    rintro offset _ (_ | ⟨hhitCount, _ | ⟨hevents, _ | ⟨hitot, _ | ⟨hx, _ | ⟨hy, _ | _⟩⟩⟩⟩⟩)
    simp only [List.getD_cons_zero, List.getD_cons_succ, toNat_value8 (by decide) hhitCount,
      toNat_value16 (by decide) hevents, toNat_value16 (by decide) hitot,
      toNat_value8 (by decide) hx, toNat_value8 (by decide) hy]

def eventItot : Format PxEventItot where
  map := pmdEventItotMap
  fields := [PmdEventItot.eventCount, PmdEventItot.integralTot, PmdEventItot.coordX,
    PmdEventItot.coordY]
  build := fun _ vs =>
    ⟨⟨.ofNat (vs.getD 2 0), .ofNat (vs.getD 3 0)⟩, .ofNat (vs.getD 0 0), .ofNat (vs.getD 1 0)⟩
  values := fun _ p =>
    [p.eventCount.toNat, p.integralTot.toNat, p.coord.x.toNat, p.coord.y.toNat]
  ascending := by decide
  below := by decide
  map_word := by
    intro m i offset
    simp (disch := decide) only [pmdEventItotMap, pmdPairCoord, pmdPair8_word, pmdPair16_word]
    rfl
  build_values := by
    intro offset p
    simp
  values_build := by
    rintro offset _ (_ | ⟨hevents, _ | ⟨hitot, _ | ⟨hx, _ | ⟨hy, _ | _⟩⟩⟩⟩)
    simp only [List.getD_cons_zero, List.getD_cons_succ, toNat_value16 (by decide) hevents,
      toNat_value16 (by decide) hitot, toNat_value8 (by decide) hx, toNat_value8 (by decide) hy]

section Messages

variable {P : Type} (F : Format P)

/-- The pixel's values have room in the fields. -/
def Fits (offset : UInt64) (p : P) : Prop := Bits.Fits F.fields (F.values offset p)

/-- The message of a pixel. -/
def encode (offset : UInt64) (p : P) : Md :=
  .ofFields (F.fields ++ [MdField.header]) (F.values offset p ++ [0x4])

theorem field_encode {offset : UInt64} {p : P} (h : F.Fits offset p) :
    (F.encode offset p).header = 0x4 ∧
      F.fields.map (F.encode offset p).field = F.values offset p := by
  have hread : (F.fields ++ [MdField.header]).map (F.encode offset p).field =
      F.values offset p ++ [0x4] := by
    refine Md.field_ofFields (F.ascending.concat (Nat.zero_le _) F.below) (h.concat (by decide)) ?_
    intro f hf
    rcases List.mem_append.mp hf with hf | hf
    · have hbelow := F.below f hf
      simp only [MdField.header] at hbelow
      omega
    · obtain rfl := List.mem_singleton.mp hf
      decide
  rw [List.map_append] at hread
  have hlength : (F.fields.map (F.encode offset p).field).length = (F.values offset p).length := by
    rw [List.length_map, h.length_eq]
  obtain ⟨hfields, hheader⟩ := List.append_inj hread hlength
  exact ⟨List.head_eq_of_cons_eq hheader, hfields⟩

end Messages

end Format

/-- The pixel types. -/
inductive PxFormat
  | fToaTot
  | toaTot
  | fToaOnly
  | toaOnly
  | fEventItot
  | eventItot
  deriving DecidableEq, Repr

namespace PxFormat

def Pixel : PxFormat → Type
  | fToaTot => PxFToaTot
  | toaTot => Px
  | fToaOnly => PxFToaOnly
  | toaOnly => PxToaOnly
  | fEventItot => PxFEventItot
  | eventItot => PxEventItot

def format : (f : PxFormat) → Format f.Pixel
  | fToaTot => .fToaTot
  | toaTot => .toaTot
  | fToaOnly => .fToaOnly
  | toaOnly => .toaOnly
  | fEventItot => .fEventItot
  | eventItot => .eventItot

end PxFormat

/-- `katherine_acquisition_mode_t`. -/
inductive AcqMode
  | toaTot
  | onlyToa
  | eventItot
  deriving DecidableEq, Repr

def AcqMode.code : AcqMode → UInt8
  | toaTot => 0
  | onlyToa => 1
  | eventItot => 2

/-- The type that `katherine_acquisition_read` reads, none where it returns `EINVAL`. -/
def acquisitionReadFormat (acqMode : UInt8) (fastVcoEnabled : Bool) : Option PxFormat :=
  if acqMode = 0 then some (if fastVcoEnabled then .fToaTot else .toaTot)
  else if acqMode = 1 then some (if fastVcoEnabled then .fToaOnly else .toaOnly)
  else if acqMode = 2 then some (if fastVcoEnabled then .fEventItot else .eventItot)
  else none

/-- The message of a pixel is mapped to it, wherever it lies. -/
theorem Format.map_encode {P : Type} (F : Format P) {offset : UInt64} {p : P}
    (h : F.Fits offset p) {m : ℕ → UInt8} {i : ℕ} (hm : Md.at_ m i = F.encode offset p) :
    F.map (load64 m i) offset = p := by
  obtain ⟨-, hfields⟩ := F.field_encode h
  rw [F.map_word, hm, hfields, F.build_values]

/-- What is mapped to a pixel is told by the fields. -/
theorem Format.map_eq_iff {P : Type} (F : Format P) (offset : UInt64) (m m' : ℕ → UInt8)
    (i i' : ℕ) : F.map (load64 m i) offset = F.map (load64 m' i') offset ↔
      ∀ g ∈ F.fields, (Md.at_ m i).field g = (Md.at_ m' i').field g := by
  rw [F.map_word, F.map_word, ← List.map_inj_left]
  constructor
  · intro heq
    have hvalues := congrArg (F.values offset) heq
    rwa [F.values_build _ _ (Md.fits_fields _ _), F.values_build _ _ (Md.fits_fields _ _)]
      at hvalues
  · intro heq
    rw [heq]

/-- **The formats.** In each of the six formats, every pixel that fits has a
message with header 4 that is mapped to it, every message is mapped to a pixel
that fits, and two messages are mapped to the same pixel exactly if they agree
on the fields of the format. -/
theorem pixel_formats (f : PxFormat) (offset : UInt64) :
    (∀ p, f.format.Fits offset p → (f.format.encode offset p).header = 0x4 ∧
      ∀ m i, Md.at_ m i = f.format.encode offset p → f.format.map (load64 m i) offset = p) ∧
    (∀ m i, f.format.Fits offset (f.format.map (load64 m i) offset)) ∧
    ∀ m i m' i', f.format.map (load64 m i) offset = f.format.map (load64 m' i') offset ↔
      ∀ g ∈ f.format.fields, (Md.at_ m i).field g = (Md.at_ m' i').field g := by
  refine ⟨?_, ?_, fun m i m' i' => f.format.map_eq_iff offset m m' i i'⟩
  · intro p hp
    obtain ⟨hheader, -⟩ := f.format.field_encode hp
    exact ⟨hheader, fun m i hm => f.format.map_encode hp hm⟩
  · intro m i
    unfold Format.Fits
    rw [f.format.map_word, f.format.values_build _ _ (Md.fits_fields _ _)]
    exact Md.fits_fields _ _

/-! ### Streams -/

/-- A pixel that a stream can carry: a time below `2 ^ 46`, and the two counts in their bits. -/
def Carried (p : Px) : Prop := Decoded p ∧ p.hitCount.toNat < 2 ^ 4 ∧ p.tot.toNat < 2 ^ 10

instance : DecidablePred Carried := fun p => by
  unfold Carried
  infer_instance

/-- The message that sets the timestamp offset. -/
def timeOffsetMd (v : ℕ) : Md := .ofFields [MdField.timeOffset, MdField.header] [v, 0x5]

/-- The timestamp offset that a pixel's time is counted from. -/
def offsetOf (p : Px) : ℕ := p.toa.toNat / 2 ^ 14

/-- Two messages for each pixel: the offset of its time, and the pixel. -/
def encodeStream (ps : List Px) : List Md :=
  ps.flatMap fun p =>
    [timeOffsetMd (offsetOf p), Format.toaTot.encode (.ofNat (2 ^ 14 * offsetOf p)) p]

theorem timeOffsetMd_fields {v : ℕ} (hv : v < 2 ^ 32) :
    (timeOffsetMd v).header = 0x5 ∧ (timeOffsetMd v).field MdField.timeOffset = v := by
  have hfields : [MdField.timeOffset, MdField.header].map (timeOffsetMd v).field = [v, 0x5] :=
    Md.field_ofFields (by decide) (.cons hv (.cons (by decide) .nil)) (by decide)
  obtain ⟨hoffset, hheader⟩ := List.cons.inj hfields
  exact ⟨List.head_eq_of_cons_eq hheader, hoffset⟩

/-- A message can lie in memory. -/
theorem at_ofList (md : Md) : Md.at_ (ofList md.bytes) 0 = md := by
  have hslice := slice_ofList md.bytes
  rw [md.size] at hslice
  exact Md.ext hslice

section Pair

variable {p : Px} (hp : Carried p)

include hp

theorem offsetOf_lt : offsetOf p < 2 ^ 32 := by
  have htoa : p.toa.toNat < 2 ^ 46 := hp.1
  unfold offsetOf
  omega

theorem toNat_offsetOf :
    (UInt64.ofNat (2 ^ 14 * offsetOf p)).toNat = 2 ^ 14 * offsetOf p := by
  have hlt := offsetOf_lt hp
  exact UInt64.toNat_ofNat_of_lt' (by simp only [UInt64.size]; omega)

/-- Counted from its offset, the time has 14 bits. -/
theorem fits_offsetOf : Format.toaTot.Fits (.ofNat (2 ^ 14 * offsetOf p)) p := by
  have hoffset := toNat_offsetOf hp
  have hle : UInt64.ofNat (2 ^ 14 * offsetOf p) ≤ p.toa := by
    rw [UInt64.le_iff_toNat_le, hoffset]
    exact Nat.mul_div_le _ _
  have htoa : (p.toa - .ofNat (2 ^ 14 * offsetOf p)).toNat < 2 ^ 14 := by
    rw [UInt64.toNat_sub_of_le _ _ hle, hoffset, offsetOf]
    omega
  exact .cons hp.2.1 (.cons hp.2.2 (.cons htoa (.cons p.coord.x.toNat_lt
    (.cons p.coord.y.toNat_lt .nil))))

theorem decode_pair (offset : ℕ) (rest : List Md) :
    refDecode offset (encodeStream [p] ++ rest) = p :: refDecode (offsetOf p) rest := by
  obtain ⟨hoffset, hvalue⟩ := timeOffsetMd_fields (offsetOf_lt hp)
  have hfits := fits_offsetOf hp
  obtain ⟨hheader, -⟩ := Format.field_encode _ hfits
  have hlies := at_ofList (Format.toaTot.encode (.ofNat (2 ^ 14 * offsetOf p)) p)
  have hpixel : (Format.toaTot.encode (.ofNat (2 ^ 14 * offsetOf p)) p).pixel (offsetOf p) = p := by
    rw [← hlies, ← pmdToaTotMap_word _ _ (offsetOf_lt hp) (toNat_offsetOf hp)]
    exact Format.toaTot.map_encode hfits hlies
  change refDecode offset (timeOffsetMd (offsetOf p) :: Format.toaTot.encode _ p :: rest) = _
  rw [refDecode, hoffset, if_neg (by decide), if_pos rfl, hvalue, refDecode, hheader, if_pos rfl,
    hpixel]

end Pair

theorem decode_encodeStream : ∀ {ps : List Px} (offset : ℕ), (∀ p ∈ ps, Carried p) →
    refDecode offset (encodeStream ps) = ps
  | [], _, _ => rfl
  | p :: ps, offset, h => by
    have hsplit : encodeStream (p :: ps) = encodeStream [p] ++ encodeStream ps := by
      simp [encodeStream]
    rw [hsplit, decode_pair (h p List.mem_cons_self),
      decode_encodeStream _ fun q hq => h q (List.mem_cons_of_mem _ hq)]

theorem carried_pixel (md : Md) {offset : ℕ} (h : offset < 2 ^ 32) :
    Carried (md.pixel offset) := by
  have htoa : md.field PmdToaTot.toa < 2 ^ 14 := Field.read_lt _ _
  have hhitCount : md.field PmdToaTot.hitCount < 2 ^ 4 := Field.read_lt _ _
  have htot : md.field PmdToaTot.tot < 2 ^ 10 := Field.read_lt _ _
  refine ⟨?_, ?_, ?_⟩
  · unfold Decoded
    rw [md.pixel_toa h]
    omega
  · exact (toNat_value8 (f := PmdToaTot.hitCount) (by decide) hhitCount).trans_lt hhitCount
  · exact (toNat_value16 (f := PmdToaTot.tot) (by decide) htot).trans_lt htot

theorem carried_refDecode : ∀ (mds : List Md) {offset : ℕ}, offset < 2 ^ 32 →
    ∀ p ∈ refDecode offset mds, Carried p
  | [], _, _, p, hp => absurd hp List.not_mem_nil
  | md :: mds, offset, h, p, hp => by
    rw [refDecode] at hp
    by_cases h4 : md.header = 0x4
    · rw [if_pos h4] at hp
      rcases List.mem_cons.mp hp with rfl | hp
      · exact carried_pixel md h
      · exact carried_refDecode mds h p hp
    · rw [if_neg h4] at hp
      by_cases h5 : md.header = 0x5
      · rw [if_pos h5] at hp
        exact carried_refDecode mds (Field.read_lt MdField.timeOffset md.value) p hp
      · rw [if_neg h5] at hp
        exact carried_refDecode mds h p hp

/-- **What a stream can carry.** The pixels that messages decode to are lists
of pixels with times below `2 ^ 46`, at most 15 further hits and a time over
threshold below `2 ^ 10`; and every such list is what some messages decode to. -/
theorem decoded_streams (ps : List Px) :
    (∃ mds, refDecode 0 mds = ps) ↔ ∀ p ∈ ps, Carried p := by
  constructor
  · rintro ⟨mds, rfl⟩
    exact carried_refDecode mds (by decide)
  · intro h
    exact ⟨encodeStream ps, decode_encodeStream 0 h⟩

/-! ### The mode that is read -/

/-- The type that the byte of the acquisition mode setting stands for: the mode, and in the top
bit whether the fast oscillator is enabled. -/
def toldFormat (setting : UInt8) : Option PxFormat :=
  acquisitionReadFormat (setting &&& 0x7F) (setting >>> 7 = 1)

/-- The byte that sets a mode. -/
def AcqMode.setting (mode : AcqMode) (fastVcoEnabled : Bool) : UInt8 :=
  mode.code ||| fastVcoEnabled.toUInt8 <<< 7

theorem toldFormat_setting (mode : AcqMode) (fastVcoEnabled : Bool) :
    toldFormat (mode.setting fastVcoEnabled) = acquisitionReadFormat mode.code fastVcoEnabled := by
  cases mode <;> cases fastVcoEnabled <;> decide

/-- The value of a message that sets the acquisition mode. -/
def Message.mode? : Message → Option ℕ
  | .command type _ number =>
    if type = AcqCmdType.acquisitionModeSetting.code then some number else none
  | .packet _ => none

/-- Only one of the messages sets the mode. -/
theorem mode_beginMessages (config : Config) (readoutMode : Int8) (mode : AcqMode)
    (fastVcoEnabled : Bool) :
    (beginMessages config readoutMode mode.code fastVcoEnabled).filterMap Message.mode? =
      [(mode.setting fastVcoEnabled).toNat] := by
  have hpackets : ((List.range 64).map fun i =>
      Message.packet (slice config.pixelConfig (1024 * i) 1024)).filterMap Message.mode? = [] := by
    rw [List.filterMap_map]
    exact List.filterMap_eq_nil_iff.mpr fun i _ => rfl
  have hdacs : ((List.range 18).map (dacMessage config.dacs)).filterMap Message.mode? = [] := by
    rw [List.filterMap_map]
    exact List.filterMap_eq_nil_iff.mpr fun i _ => rfl
  simp only [beginMessages, selectMessages, Config.messages, Config.settings, uploadMessages,
    acqTimeMessages, registerMessage, hwMessage, AcqCmdType.message, List.filterMap_append,
    List.filterMap_cons, List.filterMap_nil, List.cons_append, hpackets, hdacs]
  rfl

/-- **What is read is what was asked for.** Whatever the network does, an
acquisition that begins has set the mode of the detector once, to the one whose
pixels `katherine_acquisition_read` then takes the messages for; one that fails
to begin has set it so or not at all. -/
theorem read_format {U : Type} (net : Network) (config : Config) (acqTime : ℚ)
    (readoutMode : Int8) (mode : AcqMode) (fastVcoEnabled decodeData : Bool) (now : ℤ)
    (c : ControlSocket) (session : Session U) :
    let setting := mode.setting fastVcoEnabled
    match Session.katherineAcquisitionBegin net config acqTime readoutMode mode.code fastVcoEnabled
        decodeData now (c, session) with
    | .ok _ (c', session') => ∃ datagrams, c'.sent = c.sent ++ datagrams ∧
        (readDatagrams 0 datagrams).filterMap Message.mode? = [setting.toNat] ∧
        acquisitionReadFormat session'.acqMode session'.fastVcoEnabled = toldFormat setting ∧
        (toldFormat setting).isSome = true
    | .error _ (c', _) => ∃ datagrams, c'.sent = c.sent ++ datagrams ∧
        (readDatagrams 0 datagrams).filterMap Message.mode? <+: [setting.toNat] := by
  intro setting
  have hmode := mode_beginMessages config readoutMode mode fastVcoEnabled
  have hsequenced := sequenced_beginMessages config readoutMode mode.code fastVcoEnabled
  by_cases hrefused : readoutMode = readoutDataDriven ∧ 1 < config.noFrames.toInt
  · rw [Session.begin_refused net config acqTime readoutMode mode.code fastVcoEnabled decodeData now
      c hrefused]
    exact ⟨[], (List.append_nil _).symm, List.nil_prefix⟩
  have hbegin := Session.triple_begin net config acqTime readoutMode mode.code fastVcoEnabled
    decodeData now hrefused (c, session) ⟨(List.append_nil c.sent).symm, rfl⟩
  cases hrun : Session.katherineAcquisitionBegin net config acqTime readoutMode mode.code
      fastVcoEnabled decodeData now (c, session) with
  | ok a s' =>
    rw [hrun] at hbegin
    obtain ⟨hsent, hsession⟩ := hbegin
    refine ⟨(beginMessages config readoutMode mode.code fastVcoEnabled).map Message.encode, hsent,
      ?_, ?_, ?_⟩
    · rw [hsequenced.read List.prefix_rfl]
      exact hmode
    · rw [hsession, toldFormat_setting]
      rfl
    · rw [toldFormat_setting]
      cases mode <;> rfl
  | error e s' =>
    rw [hrun] at hbegin
    obtain ⟨told, left, htold, ⟨hsent, -⟩, -⟩ := hbegin
    have hplan : told <+: beginMessages config readoutMode mode.code fastVcoEnabled :=
      htold.trans (List.prefix_append _ _)
    refine ⟨_, hsent, ?_⟩
    rw [hsequenced.read hplan, ← hmode]
    exact hplan.filterMap _

end Sprint3
