/-
# Fields packed into a number

A layout is a list of bit fields, each above the one before. `pack` puts a
value into each of its fields; what is read back are the values, if they fit
(`read_pack`), so that the fields of a layout can be set independently.
-/
import Sprint3.Lib.Bits

namespace Bits

/-- The fields lie above bit `k`, each above the one before. -/
def Ascending : ℕ → List Field → Prop
  | _, [] => True
  | k, f :: fs => k ≤ f.start ∧ Ascending (f.start + f.width) fs

/-- Each value has room in its field. -/
def Fits (fs : List Field) (vs : List ℕ) : Prop := List.Forall₂ (fun f v => v < 2 ^ f.width) fs vs

/-- The number with these values in the fields, and nothing elsewhere. -/
def pack : List Field → List ℕ → ℕ
  | f :: fs, v :: vs => v * 2 ^ f.start + pack fs vs
  | _, _ => 0

instance : ∀ (k : ℕ) (fs : List Field), Decidable (Ascending k fs)
  | _, [] => inferInstanceAs (Decidable True)
  | k, f :: fs =>
    have := instDecidableAscending (f.start + f.width) fs
    inferInstanceAs (Decidable (k ≤ f.start ∧ Ascending (f.start + f.width) fs))

instance : ∀ (fs : List Field) (vs : List ℕ), Decidable (Fits fs vs) := fun fs vs =>
  inferInstanceAs (Decidable (List.Forall₂ _ fs vs))

theorem pack_dvd : ∀ {k : ℕ} {fs : List Field} (vs : List ℕ), Ascending k fs → 2 ^ k ∣ pack fs vs
  | _, [], _, _ => dvd_zero _
  | _, _ :: _, [], _ => dvd_zero _
  | k, f :: fs, v :: vs, ⟨hstart, hrest⟩ => by
    have hk : 2 ^ k ∣ 2 ^ f.start := Nat.pow_dvd_pow 2 hstart
    have hend : 2 ^ k ∣ 2 ^ (f.start + f.width) :=
      Nat.pow_dvd_pow 2 (Nat.le_add_right_of_le hstart)
    exact Nat.dvd_add (Dvd.dvd.mul_left hk v) (hend.trans (pack_dvd vs hrest))

/-- A layout goes on with a field above all others. -/
theorem Ascending.concat : ∀ {k : ℕ} {fs : List Field} {g : Field}, Ascending k fs →
    k ≤ g.start → (∀ f ∈ fs, f.start + f.width ≤ g.start) → Ascending k (fs ++ [g])
  | _, [], _, _, hk, _ => ⟨hk, trivial⟩
  | _, f :: _, _, ⟨hstart, hrest⟩, _, hbelow =>
    ⟨hstart, hrest.concat (hbelow f List.mem_cons_self) fun f' hf' =>
      hbelow f' (List.mem_cons_of_mem _ hf')⟩

theorem Fits.concat {fs : List Field} {vs : List ℕ} {g : Field} {v : ℕ} (h : Fits fs vs)
    (hv : v < 2 ^ g.width) : Fits (fs ++ [g]) (vs ++ [v]) :=
  List.rel_append h (.cons hv .nil)

/-- What is read from a number has room. -/
theorem fits_read (n : ℕ) : ∀ fs : List Field, Fits fs (fs.map fun f => f.read n)
  | [] => .nil
  | f :: fs => .cons (f.read_lt n) (fits_read n fs)

/-- A value with room in its field lies below the field's end. -/
theorem shifted_lt {f : Field} {v : ℕ} (hv : v < 2 ^ f.width) :
    v * 2 ^ f.start < 2 ^ (f.start + f.width) := by
  rw [pow_add, Nat.mul_comm (2 ^ f.start)]
  exact Nat.mul_lt_mul_of_pos_right hv (Nat.two_pow_pos _)

theorem pack_lt : ∀ {k n : ℕ} {fs : List Field} {vs : List ℕ}, Ascending k fs → Fits fs vs →
    (∀ f ∈ fs, f.start + f.width ≤ n) → pack fs vs < 2 ^ n
  | _, n, [], _, _, _, _ => Nat.two_pow_pos n
  | _, n, f :: fs, v :: vs, ⟨_, hrest⟩, .cons hv hvs, hn => by
    have hbelow := shifted_lt hv
    have habove : pack fs vs < 2 ^ n :=
      pack_lt hrest hvs fun g hg => hn g (List.mem_cons_of_mem _ hg)
    have hend : 2 ^ (f.start + f.width) ∣ 2 ^ n := Nat.pow_dvd_pow 2 (hn f List.mem_cons_self)
    have hroom : pack fs vs + 2 ^ (f.start + f.width) ≤ 2 ^ n := by
      refine Nat.le_of_lt_add_of_dvd ?_ (Nat.dvd_add (pack_dvd vs hrest) dvd_rfl) hend
      exact Nat.add_lt_add_right habove _
    rw [pack]
    omega

/-- What lies below a field is not read with it. -/
theorem Field.read_add {f : Field} {k a b : ℕ} (hk : k ≤ f.start) (ha : a < 2 ^ k)
    (hb : 2 ^ k ∣ b) : f.read (a + b) = f.read b := by
  obtain ⟨q, rfl⟩ := hb
  obtain ⟨r, hr⟩ := Nat.exists_eq_add_of_le hk
  have hsum : (a + 2 ^ k * q) / 2 ^ k = q := by
    rw [Nat.add_mul_div_left _ _ (Nat.two_pow_pos k), Nat.div_eq_of_lt ha, Nat.zero_add]
  have hmul : 2 ^ k * q / 2 ^ k = q := Nat.mul_div_cancel_left _ (Nat.two_pow_pos k)
  rw [Field.read, Field.read, hr, pow_add, ← Nat.div_div_eq_div_mul, ← Nat.div_div_eq_div_mul,
    hsum, hmul]

/-- **Fields are set independently.** -/
theorem read_pack : ∀ {k : ℕ} {fs : List Field} {vs : List ℕ}, Ascending k fs → Fits fs vs →
    fs.map (fun f => f.read (pack fs vs)) = vs
  | _, [], [], _, _ => rfl
  | _, f :: fs, v :: vs, ⟨_, hrest⟩, .cons hv hvs => by
    have hbelow := shifted_lt hv
    have habove := pack_dvd vs hrest
    have hfirst : f.read (pack (f :: fs) (v :: vs)) = v := by
      obtain ⟨q, hq⟩ := habove
      have hsplit : pack (f :: fs) (v :: vs) = 2 ^ f.start * (v + 2 ^ f.width * q) := by
        rw [pack, hq]
        ring
      rw [Field.read, hsplit, Nat.mul_div_cancel_left _ (Nat.two_pow_pos _),
        Nat.add_mul_mod_self_left, Nat.mod_eq_of_lt hv]
    have hothers : ∀ (gs : List Field) (j : ℕ), f.start + f.width ≤ j → Ascending j gs →
        gs.map (fun g => g.read (pack (f :: fs) (v :: vs))) =
          gs.map fun g => g.read (pack fs vs) := by
      intro gs
      induction gs with
      | nil => intro j _ _; rfl
      | cons g gs ih =>
        rintro j hj ⟨hg, hgs⟩
        rw [List.map_cons, List.map_cons, ih (g.start + g.width) (by omega) hgs, pack,
          Field.read_add (hj.trans hg) hbelow habove]
    rw [List.map_cons, hfirst, hothers fs _ le_rfl hrest, read_pack hrest hvs]

end Bits
