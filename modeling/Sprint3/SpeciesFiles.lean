/-
# What the species files read back as

Both writers of `handleSpeciesHits` promise lines
`grade(int) cluster_start_toa(tics) cluster_energy(keV)`. The loop inserts
`(int) grade_`; the drain after the loop inserts `grade_`, a `uint8_t`, which
comes out as a character. A line of the loop reads back, a line of the drain
never does (`readLine_drained`). So the files read back as the hits enqueued
exactly if a take of the loop comes after every one of them
(`species_read_back`).
-/
import Sprint3.Lib.Ledger
import Sprint3.StorageManager

namespace Sprint3.StorageManager

open Monitor Run Text

variable {E : Type*} (sm : StorageManager E)

/-! ### Reading a line -/

/-- The first two fields of a line, in decimal. -/
def readLine (l : Text) : Option (ℕ × ℕ) :=
  match fields l with
  | grade :: toa :: _ => (readDecimal grade).bind fun g => (readDecimal toa).map fun t => (g, t)
  | _ => none

/-- What a species hit is to read back as. -/
def ofHit (h : SpeciesHit E) : Option (ℕ × ℕ) := some (h.grade.toNat, h.startTOA.toNat)

theorem readLine_speciesLine {grade : Text} (hgrade : ' ' ∉ grade) (h : SpeciesHit E) :
    readLine (sm.speciesLine grade h) =
      (readDecimal grade).map fun g => (g, h.startTOA.toNat) := by
  rw [readLine, speciesLine, fields_cons hgrade, fields_cons (blank_not_mem_decimal _)]
  simp only [readDecimal_decimal, Option.map_some]
  cases readDecimal grade <;> rfl

/-- A line of the loop reads back. -/
theorem readLine_loopLine (h : SpeciesHit E) : readLine (sm.loopLine h) = ofHit h := by
  rw [loopLine, readLine_speciesLine sm (blank_not_mem_decimal _), readDecimal_decimal]
  rfl

theorem readLine_drainLine (h : SpeciesHit E) : readLine (sm.drainLine h) ≠ ofHit h := by
  by_cases hblank : Char.ofUInt8 h.grade = ' '
  · -- A grade of 32 is a blank, and the first field is empty.
    have hempty : sm.drainLine h =
        [] ++ ' ' :: (' ' :: (decimal h.startTOA.toNat ++ ' ' :: sm.showE h.totalE)) := by
      rw [drainLine, hblank]
      rfl
    rw [readLine, hempty, fields_cons List.not_mem_nil]
    split
    case h_1 heq =>
      obtain ⟨rfl, -⟩ := List.cons.inj heq
      simp [ofHit]
    case h_2 => simp [ofHit]
  · have hgrade : ' ' ∉ [Char.ofUInt8 h.grade] := by
      simpa using fun heq => hblank heq.symm
    rw [drainLine, readLine_speciesLine sm hgrade]
    intro hread
    obtain ⟨g, hg, heq⟩ := Option.map_eq_some_iff.mp hread
    obtain rfl : g = h.grade.toNat := congrArg Prod.fst heq
    exact readDecimal_singleton _ (hg.trans (congrArg some (toNat_ofUInt8 _).symm))

/-- What the drain inserts for these hits. -/
def drainText (hits : List (SpeciesHit E)) : Text := (hits.map sm.drainLine).flatMap line

/-- The first line of a drain does not read back as its hit. -/
theorem readLine_drained (h : SpeciesHit E) (hits : List (SpeciesHit E)) :
    ∃ l ls, lines (sm.drainText (h :: hits)) = l :: ls ∧ readLine l ≠ ofHit h := by
  have hcons : lines (sm.drainText (h :: hits)) =
      lines (line (sm.drainLine h)) ++ lines (sm.drainText hits) :=
    lines_append (ended_line _) _
  by_cases hnewline : Char.ofUInt8 h.grade = '\n'
  · -- A grade of 10 ends a line, and it is empty.
    refine ⟨[], lines (line (' ' :: (decimal h.startTOA.toNat ++ ' ' :: sm.showE h.totalE))) ++
      lines (sm.drainText hits), ?_, by simp [readLine, fields, ofHit]⟩
    have hempty : line (sm.drainLine h) =
        line [] ++ line (' ' :: (decimal h.startTOA.toNat ++ ' ' :: sm.showE h.totalE)) := by
      rw [drainLine, hnewline]
      rfl
    rw [hcons, hempty, lines_append (ended_line _), lines_line List.not_mem_nil]
    rfl
  · have hline : '\n' ∉ sm.drainLine h :=
      sm.newline_not_mem_speciesLine (by simpa using fun heq => hnewline heq.symm) h
    refine ⟨sm.drainLine h, lines (sm.drainText hits), ?_, sm.readLine_drainLine h⟩
    rw [hcons, lines_line hline]
    rfl

/-! ### A run of the thread -/

/-- What a step means for the hits in the queue. -/
inductive Event
  | enqueue
  | loopTake
  | other
  deriving DecidableEq, Repr

/-- An enqueuing of hits, a take of the loop, or neither. -/
def event (m : System (SpeciesData E)) : Label (List (SpeciesHit E)) → Event
  | .produce [] => .other
  | .produce (_ :: _) => .enqueue
  | .consumer => if m.thread.pc = .take then .loopTake else .other
  | _ => .other

/-- What the steps of a run mean. -/
def events (m : System (SpeciesData E)) : List (Label (List (SpeciesHit E))) → List Event
  | [] => []
  | l :: ls =>
    match next sm.handleSpeciesHits SpeciesData.enqueue m l with
    | some m' => event m l :: events m' ls
    | none => []

theorem events_concat : ∀ {m m' : System (SpeciesData E)} {ls : List (Label (List (SpeciesHit E)))}
    {l : Label (List (SpeciesHit E))},
    run (next sm.handleSpeciesHits SpeciesData.enqueue) m ls = some m' →
    (next sm.handleSpeciesHits SpeciesData.enqueue m' l).isSome →
    sm.events m (ls ++ [l]) = sm.events m ls ++ [event m' l]
  | m, m', [], l, hrun, hl => by
    obtain rfl : m = m' := Option.some.inj hrun
    obtain ⟨m'', hl⟩ := Option.isSome_iff_exists.mp hl
    simp [events, hl]
  | m, m', l' :: ls, l, hrun, hl => by
    obtain ⟨m₁, hstep, hrun⟩ := Option.bind_eq_some_iff.mp hrun
    simp [events, hstep, events_concat hrun hl]

/-- The hits enqueued by these steps. -/
def enqueued : List (Label (List (SpeciesHit E))) → List (SpeciesHit E)
  | [] => []
  | .produce hits :: ls => hits ++ enqueued ls
  | _ :: ls => enqueued ls

@[simp] theorem enqueued_append : ∀ ls ls' : List (Label (List (SpeciesHit E))),
    enqueued (ls ++ ls') = enqueued ls ++ enqueued ls'
  | [], _ => rfl
  | .produce hits :: ls, ls' => by simp [enqueued, enqueued_append ls ls']
  | .consumer :: ls, ls' => enqueued_append ls ls'
  | .wake :: ls, ls' => enqueued_append ls ls'
  | .requestStop :: ls, ls' => enqueued_append ls ls'
  | .notifyAll :: ls, ls' => enqueued_append ls ls'
  | .join :: ls, ls' => enqueued_append ls ls'

/-- All hits are taken by the loop: each enqueuing is followed by such a take. -/
def AllLooped : List Event → Prop := Followed (· = .enqueue) (· = .loopTake)

/-! ### The tally of a run -/

/-- The hits enqueued are those the loop has written, those the drain has
written, and those in the queue; the last two kinds are none exactly if all
hits were taken by the loop. -/
structure Tally (enq : List (SpeciesHit E)) (allLooped : Prop) (pc : Pc) (d : SpeciesData E)
    (looped drained : List (SpeciesHit E)) : Prop where
  enqueued : enq = looped ++ drained ++ d.q
  written : d.out.dataLines = looped.map sm.loopLine ++ lines (sm.drainText drained)
  undrained : pc.emptied = false → drained = []
  allLooped : allLooped ↔ drained = [] ∧ d.q = []
  isOpen : pc.prepared = true ∨ pc.lastPrepared = true → d.out.isOpen = true

section Steps

variable {sm} {enq looped drained : List (SpeciesHit E)} {allLooped : Prop} {pc pc' : Pc}
  {d d' : SpeciesData E}

/-- A step that touches neither the queue nor the data lines. -/
theorem Tally.move (h : Tally sm enq allLooped pc d looped drained) (hq : d'.q = d.q)
    (hlines : d'.out.dataLines = d.out.dataLines) (hpc : pc'.emptied = false → pc.emptied = false)
    (hopen : pc'.prepared = true ∨ pc'.lastPrepared = true → d'.out.isOpen = true) :
    Tally sm enq allLooped pc' d' looped drained where
  enqueued := hq ▸ h.enqueued
  written := hlines.trans h.written
  undrained := h.undrained ∘ hpc
  allLooped := by rw [hq, h.allLooped]
  isOpen := hopen

/-- A take of the loop writes the whole queue. -/
theorem Tally.take (h : Tally sm enq allLooped .take d looped drained) :
    Tally sm enq True .head (sm.handleSpeciesHits.take d) (looped ++ d.q) drained := by
  obtain rfl : drained = [] := h.undrained rfl
  have hwritten := h.written
  have hopen : d.out.isOpen = true := h.isOpen (.inl rfl)
  refine ⟨?_, ?_, fun _ => rfl, by simp [handleSpeciesHits], nofun⟩
  · simpa [handleSpeciesHits] using h.enqueued
  · calc (d.out.write (d.q.map sm.loopLine)).dataLines
        = d.out.dataLines ++ lines ((d.q.map sm.loopLine).flatMap line) :=
          OutFiles.dataLines_write _ hopen _
      _ = looped.map sm.loopLine ++ d.q.map sm.loopLine := by
          rw [lines_flatMap_line (List.forall_mem_map.mpr fun h _ => sm.newline_not_mem_loopLine h),
            hwritten]
          simp [drainText]
      _ = (looped ++ d.q).map sm.loopLine ++ lines (sm.drainText []) := by simp [drainText]

/-- The last take writes it the other way. -/
theorem Tally.lastTake (h : Tally sm enq allLooped .lastTake d looped drained) :
    Tally sm enq allLooped .lastWork (sm.handleSpeciesHits.lastTake d) looped d.q := by
  obtain rfl : drained = [] := h.undrained rfl
  have hwritten := h.written
  have hopen : d.out.isOpen = true := h.isOpen (.inr rfl)
  refine ⟨?_, ?_, nofun, ?_, nofun⟩
  · simpa [handleSpeciesHits] using h.enqueued
  · calc (d.out.write (d.q.map sm.drainLine)).dataLines
        = d.out.dataLines ++ lines (sm.drainText d.q) := OutFiles.dataLines_write _ hopen _
      _ = looped.map sm.loopLine ++ lines (sm.drainText d.q) := by
          rw [hwritten]
          simp [drainText]
  · rw [h.allLooped]
    simp [handleSpeciesHits]

theorem Tally.enqueue (h : Tally sm enq allLooped pc d looped drained) {hits : List (SpeciesHit E)}
    (hhits : hits ≠ []) : Tally sm (enq ++ hits) False pc (d.enqueue hits) looped drained where
  enqueued := by rw [h.enqueued, SpeciesData.enqueue, List.append_assoc]
  written := h.written
  undrained := h.undrained
  allLooped := by simp [SpeciesData.enqueue, hhits]
  isOpen := h.isOpen

/-- A check, and where the thread goes after it. -/
theorem Tally.check (h : Tally sm enq allLooped pc d looped drained) (hpc : pc.emptied = false)
    {opened : Pc} (hpc' : pc' = if (sm.checkSpecies d).2 then opened else .done) :
    Tally sm enq allLooped pc' (sm.checkSpecies d).1 looped drained := by
  refine h.move rfl ?_ (fun _ => hpc) fun hprepared => ?_
  · exact sm.dataLines_check _ _ _ _
  · cases hcheck : (sm.checkSpecies d).2 with
    | true => exact hcheck
    | false =>
      rw [hcheck] at hpc'
      rw [hpc'] at hprepared
      rcases hprepared with hp | hp <;> cases hp

/-- A step of the thread. -/
theorem Tally.consumer {t : Thread} (h : Tally sm enq allLooped t.pc d looped drained)
    (hstep : sm.handleSpeciesHits.step t d = some (pc', d')) :
    ∃ looped' drained',
      Tally sm enq (if t.pc = .take then True else allLooped) pc' d' looped' drained' := by
  obtain ⟨pc, stop⟩ := t
  simp only at h
  -- A step that leaves the state alone.
  have hmove : d' = d → pc.emptied = false → (pc'.prepared = true ∨ pc'.lastPrepared = true →
      pc.prepared = true ∨ pc.lastPrepared = true) →
      ∃ looped' drained', Tally sm enq allLooped pc' d' looped' drained' := by
    rintro rfl hpc hopen
    exact ⟨looped, drained, h.move rfl rfl (fun _ => hpc) (h.isOpen ∘ hopen)⟩
  unfold Consumer.step at hstep
  cases pc <;> simp only [reduceCtorEq, ↓reduceIte] at hstep ⊢
  case head =>
    obtain ⟨rfl, rfl⟩ := Prod.mk.inj (Option.some.inj hstep)
    exact hmove rfl rfl (by cases stop <;> simp [Pc.prepared, Pc.lastPrepared])
  case prepare =>
    obtain ⟨rfl, rfl⟩ := Prod.mk.inj (Option.some.inj hstep)
    exact ⟨looped, drained, h.check rfl rfl⟩
  case take =>
    obtain ⟨rfl, rfl⟩ := Prod.mk.inj (Option.some.inj hstep)
    exact ⟨_, _, h.take⟩
  case work =>
    obtain ⟨rfl, rfl⟩ := Prod.mk.inj (Option.some.inj hstep)
    exact hmove rfl rfl (by simp [Pc.prepared, Pc.lastPrepared])
  case lastPrepare =>
    obtain ⟨rfl, rfl⟩ := Prod.mk.inj (Option.some.inj hstep)
    exact ⟨looped, drained, h.check rfl rfl⟩
  case lastLock =>
    obtain ⟨rfl, rfl⟩ := Prod.mk.inj (Option.some.inj hstep)
    exact hmove rfl rfl fun _ => .inr rfl
  case lastTake =>
    obtain ⟨rfl, rfl⟩ := Prod.mk.inj (Option.some.inj hstep)
    exact ⟨_, _, h.lastTake⟩
  case lastWork =>
    obtain ⟨rfl, rfl⟩ := Prod.mk.inj (Option.some.inj hstep)
    exact ⟨looped, drained, h.move rfl (OutFiles.dataLines_close d.out) (by simp [Pc.emptied])
      (by simp [Pc.prepared, Pc.lastPrepared])⟩
  -- The other steps are inside the turn.
  all_goals
    obtain ⟨rfl, rfl⟩ := Prod.mk.inj (Option.some.inj hstep)
    exact hmove rfl rfl fun _ => .inl rfl

end Steps

/-- The tally of every run. -/
theorem tally_run {ls : List (Label (List (SpeciesHit E)))} {m : System (SpeciesData E)}
    (hrun : run (next sm.handleSpeciesHits SpeciesData.enqueue) (.launched (.fresh E)) ls = some m) :
    ∃ looped drained, Tally sm (enqueued ls) (AllLooped (sm.events (.launched (.fresh E)) ls))
      m.thread.pc m.shared looped drained := by
  refine run_invariant hrun (fun ls m => ∃ looped drained, Tally sm (enqueued ls)
    (AllLooped (sm.events (.launched (.fresh E)) ls)) m.thread.pc m.shared looped drained) ?_ ?_
  · refine ⟨[], [], rfl, rfl, fun _ => rfl, ?_, nofun⟩
    exact iff_of_true followed_nil ⟨rfl, rfl⟩
  · intro ls m l m' hm ⟨looped, drained, h⟩ hnext
    rw [sm.events_concat hm (Option.isSome_of_eq_some hnext), enqueued_append]
    have hother : event m l = .other →
        (AllLooped (sm.events (.launched (.fresh E)) ls ++ [event m l]) ↔
          AllLooped (sm.events (.launched (.fresh E)) ls)) := fun hl => by
      rw [hl]
      exact followed_concat_neither nofun nofun
    have hnotify : Tally sm (enqueued ls ++ []) (AllLooped (sm.events (.launched (.fresh E)) ls))
        m.thread.notify.pc m.shared looped drained := by
      rw [List.append_nil]
      rcases m.thread.notify_pc with ⟨hpc, hasleep⟩ | ⟨hpc, -⟩
      · rw [hpc]
        rw [hasleep] at h
        exact h.move rfl rfl (fun _ => rfl) fun _ => h.isOpen (.inl rfl)
      · rw [hpc]
        exact h
    cases stepped hnext with
    | consumer hstep =>
      obtain ⟨looped', drained', h'⟩ := h.consumer hstep
      refine ⟨looped', drained', ?_⟩
      rw [show enqueued [(.consumer : Label (List (SpeciesHit E)))] = [] from rfl, List.append_nil]
      by_cases htake : m.thread.pc = .take
      · rw [if_pos htake] at h'
        have hlooped : AllLooped (sm.events (.launched (.fresh E)) ls ++ [event m .consumer]) :=
          followed_concat_right _ (by simp [event, htake]) (by simp [event, htake])
        exact { h' with allLooped := (iff_true_intro hlooped).trans h'.allLooped }
      · rw [if_neg htake] at h'
        exact { h' with allLooped := (hother (by simp [event, htake])).trans h'.allLooped }
    | @produce hits =>
      refine ⟨looped, drained, ?_⟩
      rw [show enqueued [Label.produce hits] = hits from List.append_nil hits]
      cases hits with
      | nil =>
        have hq : (m.shared.enqueue []).q = m.shared.q := List.append_nil _
        rw [List.append_nil]
        exact { h.move hq rfl id h.isOpen with
          allLooped := by rw [hother rfl, hq, h.allLooped] }
      | cons hit hits =>
        exact { h.enqueue (List.cons_ne_nil hit hits) with
          allLooped := iff_of_false (not_followed_concat_left _ rfl) (by simp [SpeciesData.enqueue]) }
    | wake => exact ⟨looped, drained, { hnotify with
        allLooped := (hother rfl).trans hnotify.allLooped }⟩
    | requestStop => exact ⟨looped, drained, { h with
        enqueued := by simpa [enqueued] using h.enqueued
        allLooped := (hother rfl).trans h.allLooped }⟩
    | notifyAll => exact ⟨looped, drained, { hnotify with
        allLooped := (hother rfl).trans hnotify.allLooped }⟩
    | join => exact ⟨looped, drained, { h with
        enqueued := by simpa [enqueued] using h.enqueued
        allLooped := (hother rfl).trans h.allLooped }⟩

/-! ### What the files read back as -/

/-- **What the species files read back as.** In every state of every run, the
data lines of the files, in file-number order, read back as the hits enqueued
exactly if every enqueuing of hits is followed by a take of the loop. -/
theorem species_read_back {ls : List (Label (List (SpeciesHit E)))} {m : System (SpeciesData E)}
    (hrun : run (next sm.handleSpeciesHits SpeciesData.enqueue) (.launched (.fresh E)) ls = some m) :
    m.shared.out.dataLines.map readLine = (enqueued ls).map ofHit ↔
      AllLooped (sm.events (.launched (.fresh E)) ls) := by
  obtain ⟨looped, drained, htally⟩ := sm.tally_run hrun
  have hloop : (looped.map sm.loopLine).map readLine = looped.map ofHit := by
    rw [List.map_map]
    exact List.map_congr_left fun h _ => sm.readLine_loopLine h
  rw [htally.allLooped, htally.written, htally.enqueued, List.map_append, hloop, List.append_assoc,
    List.map_append, List.append_cancel_left_eq]
  constructor
  · intro hread
    cases drained with
    | nil => exact ⟨rfl, by simpa [drainText] using hread.symm⟩
    | cons h hits =>
      obtain ⟨l, ls, hlines, hne⟩ := sm.readLine_drained h hits
      rw [hlines] at hread
      exact absurd (List.cons.inj hread).1 hne
  · rintro ⟨rfl, hq⟩
    rw [hq]
    rfl

/-- A hit of grade 4 is enqueued, and then the stop is requested: before the
thread has looked at its flag, or once it is about to take. -/
def stopped (early : Bool) : List (Label (List (SpeciesHit ℕ))) :=
  if early then
    .produce [⟨4, 10, 50⟩] :: .requestStop :: .notifyAll :: List.replicate 5 .consumer ++ [.join]
  else
    .produce [⟨4, 10, 50⟩] :: List.replicate 5 .consumer ++ .requestStop :: .notifyAll ::
      List.replicate 6 .consumer ++ [.join]

/-- The drain's line of that hit does not read back. -/
theorem species_read_back_drained :
    ¬ ∀ (ls : List (Label (List (SpeciesHit ℕ)))) (m : System (SpeciesData ℕ)),
      run (next plain.handleSpeciesHits SpeciesData.enqueue) (.launched (.fresh ℕ)) ls = some m →
      m.finish = .joined → m.shared.out.dataLines.map readLine = (enqueued ls).map ofHit := by
  intro h
  have hread := h (stopped true) _ rfl rfl
  revert hread
  decide

/-- The loop's line of it does, and no enqueuing comes after the take. -/
theorem species_read_back_looped :
    ∃ m, run (next plain.handleSpeciesHits SpeciesData.enqueue) (.launched (.fresh ℕ))
        (stopped false) = some m ∧
      m.finish = .joined ∧ AllLooped (plain.events (.launched (.fresh ℕ)) (stopped false)) :=
  ⟨_, rfl, rfl, (species_read_back plain rfl).mp (by decide)⟩

end Sprint3.StorageManager
