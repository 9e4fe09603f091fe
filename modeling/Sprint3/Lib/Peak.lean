/-
# The first peak of a list

`peakIdx f l` is the index of the first element of `l` at which `f` is
maximal, and how it moves when the list grows by one element: to the new
element if that exceeds all others, else not at all.
-/
import Mathlib.Data.List.MinMax

namespace Peak

variable {α β : Type*} [LinearOrder β] (f : α → β)

def peakIdx (l : List α) : ℕ := l.findIdx fun a => ∀ b ∈ l, f b ≤ f a

theorem exists_peak {l : List α} (hl : l ≠ []) : ∃ a ∈ l, ∀ b ∈ l, f b ≤ f a := by
  obtain ⟨m, hm⟩ := Option.ne_none_iff_exists'.mp (mt List.argmax_eq_none.mp hl : l.argmax f ≠ none)
  exact ⟨m, List.argmax_mem hm, fun b hb => List.le_of_mem_argmax hb hm⟩

theorem peakIdx_lt {l : List α} (hl : l ≠ []) : peakIdx f l < l.length := by
  obtain ⟨a, ha, hmax⟩ := exists_peak f hl
  exact List.findIdx_lt_length.mpr ⟨a, ha, by simpa using hmax⟩

/-- `f` is maximal at the peak. -/
theorem le_peak {l : List α} (hl : peakIdx f l < l.length) : ∀ b ∈ l, f b ≤ f l[peakIdx f l] := by
  have h := List.findIdx_getElem (w := hl)
  exact of_decide_eq_true h

/-- Before the peak `f` is smaller. -/
theorem lt_peak {l : List α} (hl : peakIdx f l < l.length) {i : ℕ} (hi : i < peakIdx f l) :
    f l[i] < f l[peakIdx f l] := by
  have h := List.not_of_lt_findIdx hi
  simp only [decide_eq_false_iff_not, not_forall, not_le] at h
  obtain ⟨b, hb, hlt⟩ := h
  exact hlt.trans_le (le_peak f hl b hb)

@[simp] theorem peakIdx_singleton (a : α) : peakIdx f [a] = 0 := by
  simp [peakIdx]

/-- An element above all others becomes the peak. -/
theorem peakIdx_concat_gt {l : List α} {b : α} (h : ∀ a ∈ l, f a < f b) :
    peakIdx f (l ++ [b]) = l.length := by
  unfold peakIdx
  have hnone : ∀ a ∈ l, decide (∀ c ∈ l ++ [b], f c ≤ f a) = false := by
    intro a ha
    have hb := h a ha
    simp only [decide_eq_false_iff_not, not_forall]
    exact ⟨b, by simp, not_le.mpr hb⟩
  rw [List.findIdx_append, List.findIdx_eq_length_of_false hnone, if_neg (lt_irrefl _)]
  have hb : decide (∀ c ∈ l ++ [b], f c ≤ f b) = true := by
    simp only [decide_eq_true_eq, List.mem_append, List.mem_singleton]
    rintro c (hc | rfl)
    · exact (h c hc).le
    · exact le_rfl
  rw [List.findIdx_singleton, if_pos hb, Nat.zero_add]

/-- An element that some other reaches does not move the peak. -/
theorem peakIdx_concat_le {l : List α} {a b : α} (ha : a ∈ l) (h : f b ≤ f a) :
    peakIdx f (l ++ [b]) = peakIdx f l := by
  have hl : l ≠ [] := List.ne_nil_of_mem ha
  unfold peakIdx
  have hsame : l.findIdx (fun x => ∀ c ∈ l ++ [b], f c ≤ f x) =
      l.findIdx (fun x => ∀ c ∈ l, f c ≤ f x) := by
    congr 1
    funext x
    congr 1
    simp only [List.mem_append, List.mem_singleton, eq_iff_iff]
    refine ⟨fun hx c hc => hx c (Or.inl hc), fun hx c hc => ?_⟩
    rcases hc with hc | rfl
    · exact hx c hc
    · exact h.trans (hx a ha)
  have hlt : l.findIdx (fun x => ∀ c ∈ l, f c ≤ f x) < l.length := peakIdx_lt f hl
  rw [List.findIdx_append, hsame, if_pos hlt]

/-- An element above all before it and not below any after it is the peak. -/
theorem peakIdx_append_cons {l m : List α} {a : α} (hl : ∀ b ∈ l, f b < f a)
    (hm : ∀ b ∈ m, f b ≤ f a) : peakIdx f (l ++ a :: m) = l.length := by
  have hmax : ∀ b ∈ l ++ a :: m, f b ≤ f a := by
    intro b hb
    rcases List.mem_append.mp hb with hb | hb
    · exact (hl b hb).le
    rcases List.mem_cons.mp hb with rfl | hb
    · exact le_rfl
    · exact hm b hb
  have hlen : l.length < (l ++ a :: m).length := by simp
  refine (List.findIdx_eq hlen).mpr ⟨by simpa using hmax, fun j hj => ?_⟩
  have hlt : f (l ++ a :: m)[j] < f a := by
    rw [List.getElem_append_left hj]
    exact hl _ (List.getElem_mem hj)
  simp only [decide_eq_false_iff_not, not_forall]
  exact ⟨a, by simp, not_le.mpr hlt⟩

end Peak
