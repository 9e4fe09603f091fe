/-
# Little-endian words and the bit fields in them

`ofBytes` is the value of bytes read little-endian, `load64` the 64-bit word
at an address of a block of memory. A `Field` is a run of bits of a word; a
shift and a mask read it (`Field.extract`), and what they read is the
corresponding part of the value (`Field.extract_toNat`). A field that lies in
the low bytes of a word does not depend on the bytes above them
(`Field.extract_load64`).
-/
import Sprint3.Lib.Memory
import Mathlib.Data.Nat.ModEq
import Mathlib.Tactic.Ring

namespace Bits

open Memory

/-- The little-endian value of a list of bytes. -/
def ofBytes : List UInt8 → ℕ
  | [] => 0
  | b :: bs => b.toNat + 256 * ofBytes bs

theorem ofBytes_lt (bs : List UInt8) : ofBytes bs < 256 ^ bs.length := by
  induction bs with
  | nil => simp [ofBytes]
  | cons b bs ih =>
    have hb := b.toNat_lt
    simp only [ofBytes, List.length_cons, pow_succ]
    omega

theorem ofBytes_append (bs cs : List UInt8) :
    ofBytes (bs ++ cs) = ofBytes bs + 256 ^ bs.length * ofBytes cs := by
  induction bs with
  | nil => simp [ofBytes]
  | cons b bs ih =>
    calc ofBytes (b :: bs ++ cs)
        = b.toNat + 256 * (ofBytes bs + 256 ^ bs.length * ofBytes cs) := by
          rw [List.cons_append, ofBytes, ih]
      _ = ofBytes (b :: bs) + 256 ^ (b :: bs).length * ofBytes cs := by
          rw [ofBytes, List.length_cons, pow_succ]
          ring

/-- Bytes that are zero. -/
theorem ofBytes_slice_zero {m : ℕ → UInt8} {s n : ℕ} (hm : ∀ j < n, m (s + j) = 0) :
    ofBytes (slice m s n) = 0 := by
  induction n with
  | zero => rfl
  | succ n ih =>
    have hlast : m (s + n) = 0 := hm n (Nat.lt_succ_self n)
    rw [slice_succ, ofBytes_append, ih fun j hj => hm j (Nat.lt_succ_of_lt hj), hlast]
    rfl

/-- The low `n` bytes of a value. -/
def toBytes : ℕ → ℕ → List UInt8
  | 0, _ => []
  | n + 1, v => .ofNat v :: toBytes n (v / 256)

@[simp] theorem toBytes_length : ∀ n v : ℕ, (toBytes n v).length = n
  | 0, _ => rfl
  | n + 1, v => congrArg Nat.succ (toBytes_length n (v / 256))

theorem ofBytes_toBytes : ∀ {n v : ℕ}, v < 256 ^ n → ofBytes (toBytes n v) = v
  | 0, v, h => by simp [toBytes, ofBytes, Nat.lt_one_iff.mp h]
  | n + 1, v, h => by
    have hlow : (UInt8.ofNat v).toNat = v % 256 := UInt8.toNat_ofNat'
    have hhigh : v / 256 < 256 ^ n := Nat.div_lt_of_lt_mul (by rwa [pow_succ, Nat.mul_comm] at h)
    rw [toBytes, ofBytes, hlow, ofBytes_toBytes hhigh, Nat.mod_add_div]

/-- Bytes are those of their value. -/
theorem toBytes_ofBytes : ∀ bs : List UInt8, toBytes bs.length (ofBytes bs) = bs
  | [] => rfl
  | b :: bs => by
    have hb := b.toNat_lt
    have hhigh : ofBytes (b :: bs) / 256 = ofBytes bs := by
      rw [ofBytes]
      omega
    have hlow : UInt8.ofNat (ofBytes (b :: bs)) = b := by
      apply UInt8.toNat_inj.mp
      rw [UInt8.toNat_ofNat', ofBytes]
      omega
    rw [List.length_cons, toBytes, hhigh, hlow, toBytes_ofBytes bs]

/-- The 64-bit word at address `i`. -/
def load64 (m : ℕ → UInt8) (i : ℕ) : UInt64 := .ofNat (ofBytes (slice m i 8))

theorem load64_toNat (m : ℕ → UInt8) (i : ℕ) : (load64 m i).toNat = ofBytes (slice m i 8) := by
  have h := ofBytes_lt (slice m i 8)
  rw [slice_length] at h
  exact UInt64.toNat_ofNat_of_lt' h

/-- The low `n` bytes of a word. -/
theorem load64_mod (m : ℕ → UInt8) (i : ℕ) {n : ℕ} (hn : n ≤ 8) :
    (load64 m i).toNat % 256 ^ n = ofBytes (slice m i n) := by
  obtain ⟨k, hk⟩ := Nat.exists_eq_add_of_le hn
  have hlt := ofBytes_lt (slice m i n)
  rw [slice_length] at hlt
  calc (load64 m i).toNat % 256 ^ n
      = (ofBytes (slice m i n) + 256 ^ n * ofBytes (slice m (i + n) k)) % 256 ^ n := by
        rw [load64_toNat, hk, slice_add, ofBytes_append, slice_length]
    _ = ofBytes (slice m i n) := by rw [Nat.add_mul_mod_self_left, Nat.mod_eq_of_lt hlt]

/-- `width` bits from bit `start` on. -/
structure Field where
  start : ℕ
  width : ℕ
  deriving DecidableEq, Repr

namespace Field

/-- The field's part of a value. -/
def read (f : Field) (v : ℕ) : ℕ := v / 2 ^ f.start % 2 ^ f.width

/-- The mask of the low `n` bits. -/
def mask (n : ℕ) : UInt64 := (1 <<< UInt64.ofNat n) - 1

/-- The field, shifted down and masked. -/
def extract (f : Field) (val : UInt64) : UInt64 := (val >>> UInt64.ofNat f.start) &&& mask f.width

theorem read_lt (f : Field) (v : ℕ) : f.read v < 2 ^ f.width := Nat.mod_lt _ (Nat.two_pow_pos _)

theorem mask_toNat {n : ℕ} (hn : n < 64) : (mask n).toNat = 2 ^ n - 1 := by
  have hlt : 2 ^ n < 2 ^ 64 := Nat.pow_lt_pow_right (by decide) hn
  have hpos : 0 < 2 ^ n := Nat.two_pow_pos n
  have hshift : ((1 : UInt64) <<< UInt64.ofNat n).toNat = 2 ^ n := by
    rw [UInt64.toNat_shiftLeft, UInt64.toNat_ofNat_of_lt' (lt_trans hn (by decide)),
      Nat.mod_eq_of_lt hn, UInt64.toNat_one, Nat.one_shiftLeft, Nat.mod_eq_of_lt hlt]
  have hle : (1 : UInt64) ≤ 1 <<< UInt64.ofNat n := by
    rw [UInt64.le_iff_toNat_le, hshift]
    exact hpos
  rw [mask, UInt64.toNat_sub_of_le _ _ hle, hshift]
  rfl

theorem extract_toNat (f : Field) (hf : f.start + f.width < 64) (val : UInt64) :
    (f.extract val).toNat = f.read val.toNat := by
  have hs : f.start < 64 := by omega
  have hshift : (val >>> UInt64.ofNat f.start).toNat = val.toNat / 2 ^ f.start := by
    rw [UInt64.toNat_shiftRight, UInt64.toNat_ofNat_of_lt' (lt_trans hs (by decide)),
      Nat.mod_eq_of_lt hs, Nat.shiftRight_eq_div_pow]
  calc (f.extract val).toNat
      = (val >>> UInt64.ofNat f.start).toNat &&& (mask f.width).toNat := UInt64.toNat_and _ _
    _ = val.toNat / 2 ^ f.start &&& (2 ^ f.width - 1) := by
        rw [hshift, mask_toNat (by omega : f.width < 64)]
    _ = f.read val.toNat := Nat.and_two_pow_sub_one_eq_mod _ _

/-- A field of the low `k` bits does not depend on the others. -/
theorem read_mod (f : Field) {k : ℕ} (hf : f.start + f.width ≤ k) (v : ℕ) :
    f.read (v % 2 ^ k) = f.read v := by
  obtain ⟨r, rfl⟩ := Nat.exists_eq_add_of_le hf
  unfold read
  rw [show 2 ^ (f.start + f.width + r) = 2 ^ f.start * 2 ^ (f.width + r) by ring,
    Nat.mod_mul_right_div_self, pow_add, Nat.mod_mul_right_mod]

/-- A field in the low `n` bytes of a word is a field of those bytes. -/
theorem extract_load64 (f : Field) {n : ℕ} (hn : n < 8) (hf : f.start + f.width ≤ 8 * n)
    (m : ℕ → UInt8) (i : ℕ) : (f.extract (load64 m i)).toNat = f.read (ofBytes (slice m i n)) := by
  have hpow : 256 ^ n = 2 ^ (8 * n) := (pow_mul 2 8 n).symm
  rw [extract_toNat f (by omega), ← load64_mod m i hn.le, hpow, read_mod f hf]

end Field
end Bits
