/-
# Cutting a list at its gaps

`List.splitBy r` cuts a list between neighbours that `r` does not relate, the
groups being the maximal chains of `r`. What it does to a list that grows at
its end (`splitBy_concat_near`, `splitBy_concat_far`) or is the
concatenation of two (`length_splitBy_append`). When `r` compares keys, the
groups are those of the list of keys (`map_splitBy`); if moreover the list is
sorted by key, they do not depend on the order of elements with equal keys
(`splitBy_perm`).
-/
import Mathlib.Data.List.SplitBy
import Mathlib.Data.List.Sort
import Mathlib.Data.List.Chain

namespace Gaps

variable {α β γ κ : Type*}

/-- Lists related element by element, mapped to the same elements. -/
theorem map_eq_of_forall₂ {R : α → β → Prop} {l : List α} {m : List β} {f : α → γ} {g : β → γ}
    (h : List.Forall₂ R l m) (hfg : ∀ a b, R a b → f a = g b) : l.map f = m.map g := by
  rw [← List.forall₂_eq_eq_eq, List.forall₂_map_left_iff, List.forall₂_map_right_iff]
  exact h.imp hfg

/-! ### Growing and joining -/

section Join

variable {r : α → α → Bool}

/-- Two lists whose neighbours at the seam are related: the groups at the seam merge. -/
theorem splitBy_append_near {l m : List α} {gs hs : List (List α)} {g h : List α}
    (hl : l.splitBy r = gs ++ [g]) (hm : m.splitBy r = h :: hs)
    (hr : ∀ a ∈ g.getLast?, ∀ b ∈ h.head?, r a b = true) :
    (l ++ m).splitBy r = gs ++ (g ++ h) :: hs := by
  obtain ⟨rfl, hne, hch, hfar⟩ := List.splitBy_eq_iff.mp hl
  obtain ⟨rfl, hne', hch', hfar'⟩ := List.splitBy_eq_iff.mp hm
  simp only [List.mem_append, List.mem_cons, List.not_mem_nil, or_false, not_or] at hne hne'
  have hg : g ≠ [] := fun h0 => hne.2 h0.symm
  have hh : h ≠ [] := fun h0 => hne'.1 h0.symm
  rw [List.splitBy_eq_iff]
  refine ⟨by simp, ?_, ?_, ?_⟩
  · simp only [List.mem_append, List.mem_cons, not_or]
    exact ⟨hne.1, fun h0 => hg (List.append_eq_nil_iff.mp h0.symm).1, hne'.2⟩
  · intro x hx
    simp only [List.mem_append, List.mem_cons] at hx
    rcases hx with hx | rfl | hx
    · exact hch x (by simp [hx])
    · exact List.isChain_append.mpr ⟨hch g (by simp), hch' h (by simp), hr⟩
    · exact hch' x (by simp [hx])
  · rw [List.isChain_append] at hfar ⊢
    obtain ⟨hgs, -, hlast⟩ := hfar
    rw [List.isChain_cons] at hfar' ⊢
    obtain ⟨hfirst, hhs⟩ := hfar'
    refine ⟨hgs, ⟨fun y hy => ?_, hhs⟩, fun x hx y hy => ?_⟩
    · obtain ⟨_, hb, hf⟩ := hfirst y hy
      exact ⟨by simp [hg], hb, by rwa [List.getLast_append_of_ne_nil _ hh]⟩
    · obtain ⟨ha, _, hf⟩ := hlast x hx g (by simp)
      obtain rfl : g ++ h = y := by simpa using hy
      exact ⟨ha, by simp [hg], by rwa [List.head_append_of_ne_nil]⟩

/-- A related element joins the last group. -/
theorem splitBy_concat_near {l : List α} {gs : List (List α)} {g : List α} {b : α}
    (hl : l.splitBy r = gs ++ [g]) (hr : ∀ a ∈ g.getLast?, r a b = true) :
    (l ++ [b]).splitBy r = gs ++ [g ++ [b]] :=
  splitBy_append_near hl (show [b].splitBy r = [b] :: [] from rfl) fun a ha c hc => by
    obtain rfl : b = c := by simpa using hc
    exact hr a ha

/-- An unrelated element starts a group. -/
theorem splitBy_concat_far {l : List α} {b : α} (hr : ∀ a ∈ l.getLast?, r a b = false) :
    (l ++ [b]).splitBy r = l.splitBy r ++ [[b]] :=
  List.splitBy_append_cons [] hr

theorem splitBy_eq_concat {l : List α} (hl : l ≠ []) : ∃ gs g, l.splitBy r = gs ++ [g] ∧ g ≠ [] ∧
    g.getLast? = l.getLast? := by
  have hne := List.splitBy_ne_nil (r := r).mpr hl
  have hlast := List.getLast_mem hne
  have hg := List.ne_nil_of_mem_splitBy hlast
  refine ⟨(l.splitBy r).dropLast, (l.splitBy r).getLast hne,
    (List.dropLast_append_getLast hne).symm, hg, ?_⟩
  rw [List.getLast?_eq_some_getLast hg, List.getLast?_eq_some_getLast hl,
    List.getLast_getLast_splitBy r hl]

theorem splitBy_eq_cons {l : List α} (hl : l ≠ []) : ∃ g gs, l.splitBy r = g :: gs ∧ g ≠ [] ∧
    g.head? = l.head? := by
  have hne := List.splitBy_ne_nil (r := r).mpr hl
  have hg := List.ne_nil_of_mem_splitBy (List.head_mem hne)
  refine ⟨(l.splitBy r).head hne, (l.splitBy r).tail, (List.cons_head_tail hne).symm, hg, ?_⟩
  rw [List.head?_eq_some_head hg, List.head?_eq_some_head hl, List.head_head_splitBy r hl]

/-- The groups of two non-empty lists, counted apart, are those of their
concatenation, plus one if the neighbours at the seam are related. -/
theorem length_splitBy_append {l m : List α} (hl : l ≠ []) (hm : m ≠ []) :
    (l.splitBy r).length + (m.splitBy r).length =
      ((l ++ m).splitBy r).length + if r (l.getLast hl) (m.head hm) then 1 else 0 := by
  by_cases hr : r (l.getLast hl) (m.head hm) = true
  · obtain ⟨gs, g, hgs, -, hlast⟩ := splitBy_eq_concat (r := r) hl
    obtain ⟨h, hs, hhs, -, hhead⟩ := splitBy_eq_cons (r := r) hm
    have hseam : ∀ a ∈ g.getLast?, ∀ b ∈ h.head?, r a b = true := by
      intro a ha b hb
      rw [hlast, List.getLast?_eq_some_getLast hl, Option.mem_some_iff] at ha
      rw [hhead, List.head?_eq_some_head hm, Option.mem_some_iff] at hb
      rw [← ha, ← hb, hr]
    rw [splitBy_append_near hgs hhs hseam, hgs, hhs, if_pos hr]
    simp only [List.length_append, List.length_cons, List.length_nil]
    omega
  · have hfar : ∀ a ∈ l.getLast?, ∀ b ∈ m.head?, r a b = false := by
      intro a ha b hb
      rw [List.getLast?_eq_some_getLast hl, Option.mem_some_iff] at ha
      rw [List.head?_eq_some_head hm, Option.mem_some_iff] at hb
      rw [← ha, ← hb]
      simpa using hr
    rw [List.splitBy_append hfar, if_neg hr]
    simp

end Join

/-! ### Keys -/

section Keys

variable {key : α → κ} {ρ : κ → κ → Bool}

theorem getLast_head_map {g h : List α} :
    (∃ ha hb, ρ ((g.map key).getLast ha) ((h.map key).head hb) = false) ↔
      ∃ ha hb, ρ (key (g.getLast ha)) (key (h.head hb)) = false := by
  simp only [List.getLast_map, List.head_map, ne_eq, List.map_eq_nil_iff]

/-- The cuts are where the keys are cut. -/
theorem map_splitBy (l : List α) : (l.map key).splitBy ρ =
    (l.splitBy fun a b => ρ (key a) (key b)).map (List.map key) := by
  obtain ⟨hflat, hne, hch, hfar⟩ := List.splitBy_eq_iff.mp
    (rfl : l.splitBy (fun a b => ρ (key a) (key b)) = _)
  rw [List.splitBy_eq_iff]
  refine ⟨?_, ?_, ?_, ?_⟩
  · rw [← List.map_flatten, List.flatten_splitBy]
  · simp
  · intro k hk
    obtain ⟨g, hg, rfl⟩ := List.mem_map.mp hk
    exact (List.isChain_map (R := fun x y => ρ x y = true) key).mpr (hch g hg)
  · rw [List.isChain_map]
    exact hfar.imp fun a b h => getLast_head_map.mpr h

variable (key ρ) in
/-- Groups with the keys of a list's groups are the groups of their concatenation. -/
theorem splitBy_of_keys (gs : List (List α)) {hs : List (List α)}
    (hgs : gs.flatten.splitBy (fun a b => ρ (key a) (key b)) = gs)
    (hk : gs.map (List.map key) = hs.map (List.map key)) :
    hs.flatten.splitBy (fun a b => ρ (key a) (key b)) = hs := by
  set cut := hs.flatten.splitBy fun a b => ρ (key a) (key b) with hcut
  have hkeys : cut.map (List.map key) = hs.map (List.map key) := by
    rw [hcut, ← map_splitBy, List.map_flatten, ← hk, ← List.map_flatten, map_splitBy, hgs]
  have hlen : cut.map List.length = hs.map List.length := by
    have h := congrArg (List.map List.length) hkeys
    simpa [List.map_map, Function.comp_def] using h
  exact List.eq_iff_flatten_eq.mpr ⟨List.flatten_splitBy _ _, hlen⟩

end Keys

/-! ### Sorted lists -/

section Sorted

variable [LinearOrder κ] {key : α → κ} {ρ : κ → κ → Bool}

/-- The keys of each group are below those of the groups after it. -/
def Separated (key : α → κ) (gs : List (List α)) : Prop :=
  gs.Pairwise fun g h => ∀ a ∈ g, ∀ b ∈ h, key a < key b

/-- In a sorted list a cut separates the keys before it from those after it. -/
theorem lt_of_cut (hρ : ∀ x, ρ x x = true) {g m : List α} (hg : g ≠ [])
    (hs : (g ++ m).Pairwise (key · ≤ key ·))
    (hfar : ∀ b ∈ m.head?, ρ (key (g.getLast hg)) (key b) = false) :
    ∀ a ∈ g, ∀ b ∈ m, key a < key b := by
  intro a ha b hb
  obtain ⟨hsg, hsm, hgm⟩ := List.pairwise_append.mp hs
  obtain ⟨c, m', rfl⟩ := List.exists_cons_of_ne_nil (List.ne_nil_of_mem hb)
  have hlast := List.getLast_mem hg
  have hle : key a ≤ key (g.getLast hg) := by
    rw [← List.dropLast_append_getLast hg] at ha hsg
    rcases List.mem_append.mp ha with ha | ha
    · exact (List.pairwise_append.mp hsg).2.2 a ha _ (by simp)
    · exact (congrArg key (List.mem_singleton.mp ha)).le
  have hlt : key (g.getLast hg) < key c := by
    refine lt_of_le_of_ne (hgm _ hlast c (by simp)) fun he => ?_
    have h := hfar c (by simp)
    rw [← he, hρ] at h
    cases h
  have hcb : key c ≤ key b := by
    rcases List.mem_cons.mp hb with rfl | hb
    · exact le_rfl
    · exact (List.pairwise_cons.mp hsm).1 b hb
  exact (hle.trans_lt hlt).trans_le hcb

theorem separated_of_far (hρ : ∀ x, ρ x x = true) : ∀ {gs : List (List α)},
    gs.flatten.Pairwise (key · ≤ key ·) → [] ∉ gs →
    (gs.IsChain fun a b => ∃ ha hb, ρ (key (a.getLast ha)) (key (b.head hb)) = false) →
    Separated key gs
  | [], _, _, _ => .nil
  | g :: gs, hs, hne, hfar => by
    simp only [List.mem_cons, not_or] at hne
    have hg : g ≠ [] := fun h0 => hne.1 h0.symm
    rw [List.flatten_cons] at hs
    refine .cons (fun h hh a ha b hb => ?_)
      (separated_of_far hρ (List.pairwise_append.mp hs).2.1 hne.2 hfar.tail)
    refine lt_of_cut hρ hg hs (fun c hc => ?_) a ha b (List.mem_flatten.mpr ⟨h, hh, hb⟩)
    obtain ⟨h', gs', rfl⟩ := List.exists_cons_of_ne_nil (List.ne_nil_of_mem hh)
    obtain ⟨_, hne', hf⟩ := (List.isChain_cons.mp hfar).1 h' (by simp)
    rw [List.flatten_cons, List.head?_append_of_ne_nil _ hne', List.head?_eq_some_head hne',
      Option.mem_some_iff] at hc
    rw [← hc]
    exact hf

theorem splitBy_separated (hρ : ∀ x, ρ x x = true) {l : List α}
    (hs : l.Pairwise (key · ≤ key ·)) :
    Separated key (l.splitBy fun a b => ρ (key a) (key b)) := by
  obtain ⟨hflat, hne, -, hfar⟩ := List.splitBy_eq_iff.mp
    (rfl : l.splitBy (fun a b => ρ (key a) (key b)) = _)
  exact separated_of_far hρ (hflat ▸ hs) hne hfar

/-- Groups with the same keys and, overall, the same elements have the same
elements group by group, if the keys of the groups are apart. -/
theorem perm_of_keys : ∀ {gs hs : List (List α)}, Separated key gs →
    gs.map (List.map key) = hs.map (List.map key) → gs.flatten.Perm hs.flatten →
    List.Forall₂ List.Perm gs hs
  | [], [], _, _, _ => .nil
  | [], _ :: _, _, hk, _ => by cases hk
  | _ :: _, [], _, hk, _ => by cases hk
  | g :: gs, h :: hs, hsep, hk, hp => by
    rw [List.map_cons, List.map_cons, List.cons.injEq] at hk
    obtain ⟨hkg, hkgs⟩ := hk
    rw [Separated, List.pairwise_cons] at hsep
    have hrest : gs.flatten.map key = hs.flatten.map key := by
      rw [List.map_flatten, List.map_flatten, hkgs]
    -- the elements of the first group are those whose key is one of its keys
    have hin : ∀ a ∈ g, key a ∈ g.map key := fun a ha => List.mem_map_of_mem ha
    have hout : ∀ b ∈ gs.flatten, key b ∉ g.map key := by
      intro b hb hmem
      obtain ⟨a, ha, hab⟩ := List.mem_map.mp hmem
      obtain ⟨g', hg', hb⟩ := List.mem_flatten.mp hb
      exact absurd (hsep.1 g' hg' a ha b hb) (hab ▸ lt_irrefl _)
    have hin' : ∀ a ∈ h, key a ∈ g.map key := fun a ha => hkg ▸ List.mem_map_of_mem ha
    have hout' : ∀ b ∈ hs.flatten, key b ∉ g.map key := by
      intro b hb
      obtain ⟨c, hc, hcb⟩ := List.mem_map.mp (hrest ▸ List.mem_map_of_mem hb)
      exact hcb ▸ hout c hc
    have hsplit : ∀ {x y : List α}, (∀ a ∈ x, key a ∈ g.map key) → (∀ b ∈ y, key b ∉ g.map key) →
        (x ++ y).filter (key · ∈ g.map key) = x ∧ (x ++ y).filter (key · ∉ g.map key) = y := by
      intro x y hx hy
      rw [List.filter_append, List.filter_append]
      refine ⟨?_, ?_⟩
      · rw [List.filter_eq_self.mpr (by simpa using hx),
          List.filter_eq_nil_iff.mpr (by simpa using hy), List.append_nil]
      · rw [List.filter_eq_nil_iff.mpr (by simpa using hx),
          List.filter_eq_self.mpr (by simpa using hy), List.nil_append]
    obtain ⟨hg1, hg2⟩ := hsplit hin hout
    obtain ⟨hh1, hh2⟩ := hsplit hin' hout'
    rw [List.flatten_cons, List.flatten_cons] at hp
    refine .cons ?_ (perm_of_keys hsep.2 hkgs ?_)
    · have hfirst := hp.filter (key · ∈ g.map key)
      rwa [hg1, hh1] at hfirst
    · have hothers := hp.filter (key · ∉ g.map key)
      rwa [hg2, hh2] at hothers

variable (key) in
/-- Two lists sorted by key with the same elements have the same keys in order. -/
theorem map_key_eq {l m : List α} (hp : l.Perm m) (hl : l.Pairwise (key · ≤ key ·))
    (hm : m.Pairwise (key · ≤ key ·)) : l.map key = m.map key :=
  (hp.map key).eq_of_pairwise' (List.pairwise_map.mpr hl) (List.pairwise_map.mpr hm)

variable (key ρ) in
/-- **The groups depend on the keys only.** Cutting two sorted arrangements of
the same elements gives, group by group, the same elements. -/
theorem splitBy_perm (hρ : ∀ x, ρ x x = true) {l m : List α} (hp : l.Perm m)
    (hl : l.Pairwise (key · ≤ key ·)) (hm : m.Pairwise (key · ≤ key ·)) :
    List.Forall₂ List.Perm (l.splitBy fun a b => ρ (key a) (key b))
      (m.splitBy fun a b => ρ (key a) (key b)) := by
  refine perm_of_keys (splitBy_separated hρ hl) ?_ ?_
  · rw [← map_splitBy, ← map_splitBy, map_key_eq key hp hl hm]
  · rwa [List.flatten_splitBy, List.flatten_splitBy]

end Sorted

end Gaps
