/-
# The energy calibration

`loadConstants` and `loadEnergyCalib` of `DataProcessor.cpp`. A calibration
file is read token by token into one flat list, whatever its lines are; a
token that is no number drops the rest of its line, and only the count is
checked. `calibration_sound` says which files that is enough for. A number is
an element of any field.
-/
import Sprint3.Lib.Rows
import Sprint3.Types
import Mathlib.Algebra.Field.Rat

namespace Sprint3

/-- `CHIP_WIDTH`. -/
def chipWidth : ℕ := 256

/-- `CHIP_HEIGHT`. -/
def chipHeight : ℕ := 256

/-- `CHIP_AREA`. -/
def chipArea : ℕ := chipWidth * chipHeight

/-- A token of a calibration file: a number that `operator>>` reads whole, or
one on which it fails. -/
inductive Token (K : Type*)
  | number (val : K)
  | bad
  deriving DecidableEq, Repr

namespace Token

variable {K : Type*}

def isNumber : Token K → Bool
  | number _ => true
  | bad => false

def val? : Token K → Option K
  | number val => some val
  | bad => none

end Token

/-- A calibration file: its lines, each with its tokens. -/
abbrev CalibFile (K : Type*) := List (List (Token K))

/-- `CalibConstants`. -/
structure CalibConstants (K : Type*) where
  bat : K
  ita : K
  atb : K
  fac : K
  deriving DecidableEq, Repr

/-- What `DataProcessor` keeps of the calibration. -/
structure DataProcessor (K : Type*) where
  lookupMatrix : List (CalibConstants K)
  calibLoaded : Bool

/-! ### Loading -/

section Load

variable {K : Type*}

/-- `while (ss >> val)` on a line: what is pushed back. -/
def readNumbers : List (Token K) → List K
  | .number val :: line => val :: readNumbers line
  | _ => []

/-- `loadConstants`, of a file that may not open: `dst` and the result. -/
def loadConstants (dst : List K) (file : Option (CalibFile K)) (expectedCount : ℕ) :
    List K × Bool :=
  match file with
  | none => (dst, false)
  | some lines =>
    let dst := dst ++ lines.flatMap readNumbers
    (dst, decide (expectedCount = dst.length))

variable [Field K]

/-- The constants of a pixel, from its entries of the four files. -/
def CalibConstants.ofFiles (a b c t : K) : CalibConstants K where
  bat := b + a * t
  ita := 1 / (2 * a)
  atb := a * t - b
  fac := 4 * a * c

/-- `loadEnergyCalib`: the data processor after it, and its result. -/
def loadEnergyCalib (files : String → Option (CalibFile K)) (calibFolderPath : String)
    (d : DataProcessor K) : DataProcessor K × Bool :=
  let d := { d with calibLoaded := false }
  let a := loadConstants [] (files (calibFolderPath ++ "/a.txt")) chipArea
  if !a.2 then (d, false)
  else
    let b := loadConstants [] (files (calibFolderPath ++ "/b.txt")) chipArea
    if !b.2 then (d, false)
    else
      let c := loadConstants [] (files (calibFolderPath ++ "/c.txt")) chipArea
      if !c.2 then (d, false)
      else
        let t := loadConstants [] (files (calibFolderPath ++ "/t.txt")) chipArea
        if !t.2 then (d, false)
        else
          ({ lookupMatrix := (List.range chipArea).map fun i =>
              .ofFiles (a.1.getD i 0) (b.1.getD i 0) (c.1.getD i 0) (t.1.getD i 0)
             calibLoaded := true }, true)

/-- `pixel_idx`. -/
def pixelIdx (coord : Coord) : ℕ := chipWidth * coord.y.toNat + coord.x.toNat

/-- The entry of `lookupMatrix` for a pixel. -/
def DataProcessor.lookup (d : DataProcessor K) (coord : Coord) : CalibConstants K :=
  d.lookupMatrix.getD (pixelIdx coord) ⟨0, 0, 0, 0⟩

end Load

/-! ### What is counted -/

section Count

variable {K : Type*}

/-- The numbers of a file, in each line those ahead of its first bad token. -/
def leadingNumbers (file : CalibFile K) : ℕ :=
  (file.map fun line => (line.takeWhile Token.isNumber).length).sum

theorem length_readNumbers : ∀ line : List (Token K),
    (readNumbers line).length = (line.takeWhile Token.isNumber).length
  | [] => rfl
  | .number val :: line => by
    rw [readNumbers, List.takeWhile_cons, Token.isNumber, if_pos rfl, List.length_cons,
      List.length_cons, length_readNumbers line]
  | .bad :: _ => rfl

theorem length_flatMap_readNumbers (file : CalibFile K) :
    (file.flatMap readNumbers).length = leadingNumbers file := by
  simp only [List.length_flatMap, length_readNumbers, leadingNumbers]

theorem loadConstants_true {file : Option (CalibFile K)} {expectedCount : ℕ} :
    (loadConstants [] file expectedCount).2 = true ↔
      ∃ lines, file = some lines ∧ leadingNumbers lines = expectedCount := by
  cases file with
  | none => simp [loadConstants]
  | some lines =>
    simp only [loadConstants, List.nil_append, length_flatMap_readNumbers, decide_eq_true_eq,
      Option.some.injEq, exists_eq_left']
    exact eq_comm

end Count

/-! ### Grids -/

section Grids

variable {K : Type*}

/-- The number that is token `x` of line `y`, counted from 0. -/
def numberAt (lines : CalibFile K) (x y : ℕ) : Option K :=
  (lines[y]?.bind (·[x]?)).bind Token.val?

/-- Every token is a number, and the rows are of equal length. -/
def Regular (lines : CalibFile K) : Prop :=
  (∀ line ∈ lines, .bad ∉ line) ∧ ∀ line ∈ lines, ∀ line' ∈ lines, line.length = line'.length

/-- A row of numbers for each row of pixels. -/
def Grid (lines : CalibFile K) : Prop :=
  lines.length = chipHeight ∧ ∀ line ∈ lines, line.length = chipWidth ∧ .bad ∉ line

/-- A line of numbers is read as it is. -/
theorem map_readNumbers : ∀ {line : List (Token K)}, .bad ∉ line →
    (readNumbers line).map .number = line
  | [], _ => rfl
  | .number val :: line, h => by
    rw [readNumbers, List.map_cons, map_readNumbers fun hbad => h (List.mem_cons_of_mem _ hbad)]
  | .bad :: _, h => absurd List.mem_cons_self h

theorem readNumbers_length {line : List (Token K)} (h : .bad ∉ line) :
    (readNumbers line).length = line.length := by
  conv_rhs => rw [← map_readNumbers h]
  exact (List.length_map _).symm

theorem readNumbers_getElem? {row : List (Token K)} (h : .bad ∉ row) (x : ℕ) :
    (readNumbers row)[x]? = row[x]?.bind Token.val? := by
  conv_rhs => rw [← map_readNumbers h]
  rw [List.getElem?_map]
  cases (readNumbers row)[x]? <;> rfl

section Width

variable {lines : CalibFile K} {w : ℕ} (h : ∀ line ∈ lines, line.length = w ∧ .bad ∉ line)

include h

theorem readNumbers_rows : ∀ row ∈ lines.map readNumbers, row.length = w :=
  List.forall_mem_map.mpr fun line hline =>
    (readNumbers_length (h line hline).2).trans (h line hline).1

theorem leadingNumbers_rows : leadingNumbers lines = w * lines.length := by
  rw [← length_flatMap_readNumbers, List.flatMap_def,
    Rows.length_flatten (readNumbers_rows h), List.length_map]

/-- In rows of one width, the numbers are where the pixels look for them. -/
theorem flatMap_readNumbers_getElem? {x : ℕ} (hx : x < w) (y : ℕ) :
    (lines.flatMap readNumbers)[w * y + x]? = numberAt lines x y := by
  rw [List.flatMap_def, Rows.getElem?_flatten (readNumbers_rows h) hx,
    List.getElem?_map, numberAt]
  cases hline : lines[y]? with
  | none => rfl
  | some line => exact readNumbers_getElem? (h line (List.mem_of_getElem? hline)).2 x

end Width

/-- A regular file with a number for the last pixel, and as many leading
numbers as there are pixels, is a grid. -/
theorem grid_of_regular {lines : CalibFile K} (hregular : Regular lines)
    (hcount : leadingNumbers lines = chipArea)
    (hlast : (numberAt lines 255 255).isSome = true) : Grid lines := by
  obtain ⟨hnumbers, hequal⟩ := hregular
  obtain ⟨val, hval⟩ := Option.isSome_iff_exists.mp hlast
  obtain ⟨token, htoken, -⟩ := Option.bind_eq_some_iff.mp hval
  obtain ⟨row, hrow, htoken⟩ := Option.bind_eq_some_iff.mp htoken
  have hheight : 255 < lines.length := (List.getElem?_eq_some_iff.mp hrow).1
  have hwidth : 255 < row.length := (List.getElem?_eq_some_iff.mp htoken).1
  have hrows : ∀ line ∈ lines, line.length = row.length ∧ .bad ∉ line := fun line hline =>
    ⟨hequal line hline row (List.mem_of_getElem? hrow), hnumbers line hline⟩
  have harea : row.length * lines.length = 256 * 256 :=
    (leadingNumbers_rows hrows).symm.trans hcount
  have hwidth' : row.length = 256 := by
    by_contra hne
    have hbig := Nat.mul_le_mul (show 257 ≤ row.length by omega) (show 256 ≤ lines.length by omega)
    omega
  rw [hwidth'] at harea hrows
  exact ⟨Nat.eq_of_mul_eq_mul_left (by decide) harea, hrows⟩

end Grids

/-! ### When the calibration is sound -/

section Sound

variable {K : Type*} [Field K] {files : String → Option (CalibFile K)} {calibFolderPath : String}
  {d : DataProcessor K}

/-- The four files of a folder. -/
def calibFiles (files : String → Option (CalibFile K)) (calibFolderPath : String) :
    List (Option (CalibFile K)) :=
  ["/a.txt", "/b.txt", "/c.txt", "/t.txt"].map fun name => files (calibFolderPath ++ name)

/-- The numbers `loadEnergyCalib` has of a file. -/
def calibNumbers (files : String → Option (CalibFile K)) (calibFolderPath name : String) : List K :=
  (loadConstants [] (files (calibFolderPath ++ name)) chipArea).1

/-- Each of the four files opens, and has as many leading numbers as there are pixels. -/
def CalibCounted (files : String → Option (CalibFile K)) (calibFolderPath : String) : Prop :=
  ∀ file ∈ calibFiles files calibFolderPath,
    ∃ lines, file = some lines ∧ leadingNumbers lines = chipArea

theorem loadEnergyCalib_true :
    (loadEnergyCalib files calibFolderPath d).2 = true ↔ CalibCounted files calibFolderPath := by
  simp only [CalibCounted, calibFiles, List.forall_mem_map, List.forall_mem_cons, List.not_mem_nil,
    false_implies, implies_true, and_true, ← loadConstants_true]
  unfold loadEnergyCalib
  cases ha : (loadConstants [] (files (calibFolderPath ++ "/a.txt")) chipArea).2
  · simp [ha]
  cases hb : (loadConstants [] (files (calibFolderPath ++ "/b.txt")) chipArea).2
  · simp [ha, hb]
  cases hc : (loadConstants [] (files (calibFolderPath ++ "/c.txt")) chipArea).2
  · simp [ha, hb, hc]
  cases ht : (loadConstants [] (files (calibFolderPath ++ "/t.txt")) chipArea).2
  · simp [ha, hb, hc, ht]
  · simp [ha, hb, hc, ht]

theorem pixelIdx_lt (coord : Coord) : pixelIdx coord < chipArea := by
  have hx := coord.x.toNat_lt
  have hy := coord.y.toNat_lt
  unfold pixelIdx chipArea chipWidth chipHeight
  omega

/-- An accepted calibration, pixel by pixel. -/
theorem loadEnergyCalib_lookup (hload : (loadEnergyCalib files calibFolderPath d).2 = true)
    (coord : Coord) : (loadEnergyCalib files calibFolderPath d).1.lookup coord =
      .ofFiles ((calibNumbers files calibFolderPath "/a.txt").getD (pixelIdx coord) 0)
        ((calibNumbers files calibFolderPath "/b.txt").getD (pixelIdx coord) 0)
        ((calibNumbers files calibFolderPath "/c.txt").getD (pixelIdx coord) 0)
        ((calibNumbers files calibFolderPath "/t.txt").getD (pixelIdx coord) 0) := by
  have hidx := pixelIdx_lt coord
  revert hload
  unfold loadEnergyCalib
  simp only
  split_ifs with ha hb hc ht
  · nofun
  · nofun
  · nofun
  · nofun
  · intro _
    simp [DataProcessor.lookup, List.getD_eq_getElem?_getD, hidx, calibNumbers]

/-- The number in a pixel's place in a file of the folder. -/
def ownNumber (files : String → Option (CalibFile K)) (calibFolderPath : String) (coord : Coord)
    (name : String) : Option K :=
  (files (calibFolderPath ++ name)).bind fun lines => numberAt lines coord.x.toNat coord.y.toNat

/-- The entry of a pixel is computed from the number in its place in each file. -/
def OwnConstants (files : String → Option (CalibFile K)) (calibFolderPath : String)
    (d : DataProcessor K) (coord : Coord) : Prop :=
  ∃ a b c t, ownNumber files calibFolderPath coord "/a.txt" = some a ∧
    ownNumber files calibFolderPath coord "/b.txt" = some b ∧
    ownNumber files calibFolderPath coord "/c.txt" = some c ∧
    ownNumber files calibFolderPath coord "/t.txt" = some t ∧ d.lookup coord = .ofFiles a b c t

/-- If the calibration is accepted, every pixel has its own constants, and
the files are regular. -/
def CalibSound (files : String → Option (CalibFile K)) (calibFolderPath : String)
    (d : DataProcessor K) : Prop :=
  (loadEnergyCalib files calibFolderPath d).2 = true →
    (∀ coord,
      OwnConstants files calibFolderPath (loadEnergyCalib files calibFolderPath d).1 coord) ∧
      ∀ lines, some lines ∈ calibFiles files calibFolderPath → Regular lines

/-- In a grid, the number in a pixel's place is the one that is loaded for it. -/
theorem ownNumber_grid {name : String} {lines : CalibFile K}
    (hlines : files (calibFolderPath ++ name) = some lines) (hgrid : Grid lines) (coord : Coord) :
    ownNumber files calibFolderPath coord name =
      some ((calibNumbers files calibFolderPath name).getD (pixelIdx coord) 0) := by
  obtain ⟨hheight, hrows⟩ := hgrid
  have hnumbers : calibNumbers files calibFolderPath name = lines.flatMap readNumbers := by
    rw [calibNumbers, hlines]
    rfl
  have hlen : pixelIdx coord < (lines.flatMap readNumbers).length := by
    rw [length_flatMap_readNumbers, leadingNumbers_rows hrows, hheight]
    exact pixelIdx_lt coord
  rw [ownNumber, hlines, Option.bind_some,
    ← flatMap_readNumbers_getElem? hrows coord.x.toNat_lt coord.y.toNat, hnumbers,
    List.getD_eq_getElem?_getD]
  change (lines.flatMap readNumbers)[pixelIdx coord]? = _
  rw [List.getElem?_eq_getElem hlen, Option.getD_some]

theorem ownNumber_isSome {coord : Coord} (h : OwnConstants files calibFolderPath d coord) :
    ∀ name ∈ ["/a.txt", "/b.txt", "/c.txt", "/t.txt"],
      (ownNumber files calibFolderPath coord name).isSome = true := by
  obtain ⟨a, b, c, t, ha, hb, hc, ht, -⟩ := h
  simp [ha, hb, hc, ht]

/-- **When an accepted calibration is sound**: exactly if it is not accepted
for its counts, or the four files are grids. -/
theorem calibration_sound (files : String → Option (CalibFile K)) (calibFolderPath : String)
    (d : DataProcessor K) : CalibSound files calibFolderPath d ↔
      (∃ file ∈ calibFiles files calibFolderPath,
        ∀ lines, file = some lines → leadingNumbers lines ≠ chipArea) ∨
      ∀ file ∈ calibFiles files calibFolderPath, ∃ lines, file = some lines ∧ Grid lines := by
  constructor
  · intro hsound
    by_cases hcounted : CalibCounted files calibFolderPath
    · obtain ⟨hown, hregular⟩ := hsound (loadEnergyCalib_true.mpr hcounted)
      refine .inr fun file hfile => ?_
      obtain ⟨lines, rfl, hcount⟩ := hcounted file hfile
      refine ⟨lines, rfl, grid_of_regular (hregular lines hfile) hcount ?_⟩
      obtain ⟨name, hname, hlines⟩ := List.mem_map.mp hfile
      have hlast := ownNumber_isSome (hown ⟨255, 255⟩) name hname
      rwa [ownNumber, hlines] at hlast
    · left
      simpa only [CalibCounted, not_forall, not_exists, not_and, exists_prop] using hcounted
  · rintro (⟨file, hfile, hmiscounted⟩ | hgrids) hload
    · obtain ⟨lines, rfl, hcount⟩ := loadEnergyCalib_true.mp hload file hfile
      exact absurd hcount (hmiscounted lines rfl)
    · have hown : ∀ coord, ∀ name ∈ ["/a.txt", "/b.txt", "/c.txt", "/t.txt"],
          ownNumber files calibFolderPath coord name =
            some ((calibNumbers files calibFolderPath name).getD (pixelIdx coord) 0) := by
        intro coord name hname
        obtain ⟨lines, hlines, hgrid⟩ := hgrids _ (List.mem_map_of_mem hname)
        exact ownNumber_grid hlines hgrid coord
      refine ⟨fun coord => ⟨_, _, _, _, hown coord _ (by simp), hown coord _ (by simp),
        hown coord _ (by simp), hown coord _ (by simp), loadEnergyCalib_lookup hload coord⟩, ?_⟩
      intro lines hlines
      obtain ⟨_, heq, -, hrows⟩ := hgrids _ hlines
      obtain rfl := Option.some.inj heq
      exact ⟨fun line hline => (hrows line hline).2,
        fun line hline line' hline' => (hrows line hline).1.trans (hrows line' hline').1.symm⟩

/-- The last token of the first row is no number, and the second row has one
number more. -/
def raggedFile : CalibFile ℚ :=
  (List.replicate 255 (.number 1) ++ [.bad]) :: List.replicate 257 (.number 1) ::
    List.replicate 254 (List.replicate 256 (.number 1))

/-- Four such files are accepted. -/
theorem calibration_ragged : ¬ ∀ (files : String → Option (CalibFile ℚ)) (calibFolderPath : String)
    (d : DataProcessor ℚ), CalibSound files calibFolderPath d := by
  intro h
  have hcount : leadingNumbers raggedFile = chipArea := by decide +kernel
  have hload : (loadEnergyCalib (fun _ => some raggedFile) "" ⟨[], false⟩).2 = true :=
    loadEnergyCalib_true.mpr (by simp [CalibCounted, calibFiles, hcount])
  obtain ⟨-, hregular⟩ := h _ _ _ hload
  exact (hregular raggedFile (by simp [calibFiles])).1 _ List.mem_cons_self
    (List.mem_append_right _ List.mem_cons_self)

end Sound

end Sprint3
