/-
# Nothing is lost on the way to the files

The ledgers of the two threads of the storage manager, for files that all
open. What `handleRawHits` has done is one line for each hit; what
`handleSpeciesHits` has done is one line for each species hit, of the loop or
of the drain after it: no grade is a newline.
-/
import Sprint3.Batching
import Sprint3.Lib.Ledger
import Sprint3.StorageManager

namespace Sprint3.StorageManager

open Monitor Text

variable {E : Type*} (sm : StorageManager E)

/-! ### The raw hits -/

def rawLedger : Ledger RawData PxArray Px where
  ok d := d.rawHitsToWrite.buff.Ok ∧ (d.out.isOpen = true ∨ maxRawFileLines < d.out.count)
  prepared d := d.out.isOpen = true
  lastPrepared _ := True
  done d hits := d.out.dataLines = hits.map rawLine
  inHand d := d.rawHitsToWrite.hits
  left d := d.rawHitsToWrite.buff.contents
  added a d := a.accepted d.rawHitsToWrite.buff

theorem raw_copyClear {d : RawData} (hd : rawLedger.ok d) :
    rawLedger.Kept false d true { d with rawHitsToWrite := d.rawHitsToWrite.copyClear } := by
  refine ⟨⟨Intake.copyClear_ok hd.1, hd.2⟩, ?_⟩
  rintro received ⟨hits, hdone, rfl⟩
  refine ⟨hits, hdone, ?_⟩
  simp [rawLedger, Intake.copyClear_hits hd.1, Intake.copyClear_contents hd.1]

/-- Writing what is in hand to a file that is open. -/
theorem raw_write {d : RawData} (hopen : d.out.isOpen = true) {received : List Px}
    (h : rawLedger.Account true d received) : rawLedger.Account false d.write received := by
  obtain ⟨hits, hdone, rfl⟩ := h
  refine ⟨hits ++ d.rawHitsToWrite.hits, ?_, by simp [rawLedger, RawData.write]⟩
  calc (d.out.write (d.rawHitsToWrite.hits.map rawLine)).dataLines
      = d.out.dataLines ++ lines ((d.rawHitsToWrite.hits.map rawLine).flatMap line) :=
        OutFiles.dataLines_write _ hopen _
    _ = hits.map rawLine ++ d.rawHitsToWrite.hits.map rawLine := by
        rw [show d.out.dataLines = hits.map rawLine from hdone,
          lines_flatMap_line (List.forall_mem_map.mpr fun p _ => newline_not_mem_rawLine p)]
    _ = (hits ++ d.rawHitsToWrite.hits).map rawLine := (List.map_append ..).symm

variable (hopens : ∀ path, sm.opens path = true)
include hopens

theorem raw_check {d : RawData} (hd : rawLedger.ok d) (working : Bool) :
    rawLedger.Kept working d working (sm.checkRaw d).1 ∧ (sm.checkRaw d).2 = true := by
  have hopen : (sm.checkRaw d).2 = true := sm.check_isOpen hopens hd.2
  refine ⟨⟨⟨hd.1, .inl hopen⟩, ?_⟩, hopen⟩
  rintro received ⟨hits, hdone, rfl⟩
  exact ⟨hits, (sm.dataLines_check _ _ _ _).trans hdone, rfl⟩

theorem raw_keeps : rawLedger.Keeps sm.handleRawHits RawData.receive where
  prepare hok := ⟨(sm.raw_check hopens hok false).1, (sm.raw_check hopens hok false).2,
    (sm.raw_check hopens hok false).2⟩
  take hok hopen := ⟨raw_copyClear hok, hopen⟩
  work {d} hok hopen := by
    refine ⟨⟨hok.1, .inl ?_⟩, fun received => raw_write hopen⟩
    exact (OutFiles.isOpen_write _ _).trans hopen
  lastPrepare hok := ⟨⟨hok, fun _ h => h⟩, rfl, trivial⟩
  lastTake hok _ := ⟨raw_copyClear hok, Intake.copyClear_contents hok.1⟩
  lastWork {d} hok hleft := by
    obtain ⟨hkept, hopen⟩ := sm.raw_check hopens hok true
    simp only [handleRawHits, if_pos hopen]
    refine ⟨hleft, fun received h => ?_⟩
    obtain ⟨hits, hdone, rfl⟩ :=
      raw_write (show (sm.checkRaw d).1.out.isOpen = true from hopen) (hkept.account received h)
    exact ⟨hits, (OutFiles.dataLines_close _).trans hdone, rfl⟩
  produce {d a} hok := by
    refine ⟨⟨a.addTo_ok hok.1, hok.2⟩, id, id, ?_⟩
    rintro working received ⟨hits, hdone, rfl⟩
    refine ⟨hits, hdone, ?_⟩
    simp only [rawLedger, RawData.receive, Intake.receive, a.addTo_contents hok.1, List.append_assoc]
    rfl

omit hopens

/-! ### The species hits -/

theorem newline_not_mem_drainLine {h : SpeciesHit E} (hgrade : h.grade ≤ outlier) :
    '\n' ∉ sm.drainLine h := by
  refine sm.newline_not_mem_speciesLine (fun hmem => ?_) h
  have hcode : h.grade.toNat ≤ 7 := UInt8.le_iff_toNat_le.mp hgrade
  have hnewline : h.grade.toNat = 10 := by
    rw [← toNat_ofUInt8, ← List.mem_singleton.mp hmem]
    rfl
  omega

section Species

variable [AddCommMonoid E] [LinearOrder E] (getEnergy : Px → E) (sort : ToaSort)

/-- `doProcessing` on a batch, in the queue. -/
def SpeciesData.process (batch : List Px) (d : SpeciesData E) : SpeciesData E :=
  { d with q := doProcessing getEnergy sort d.q batch }

/-- A line of a species hit, by either writer. -/
def IsLine (h : SpeciesHit E) (l : Text) : Prop := l = sm.loopLine h ∨ l = sm.drainLine h

def speciesLedger : Ledger (SpeciesData E) (List Px) (SpeciesHit E) where
  ok d := (∀ h ∈ d.q, h.grade ≤ outlier) ∧
    (d.out.isOpen = true ∨ maxSpeciesFileLines < d.out.count)
  prepared d := d.out.isOpen = true
  lastPrepared d := d.out.isOpen = true
  done d hits := List.Forall₂ sm.IsLine hits d.out.dataLines
  inHand _ := []
  left d := d.q
  added batch _ := doProcessing getEnergy sort [] batch

variable {getEnergy sort}

/-- The whole queue, written by a writer that makes one line of each hit. -/
theorem species_write {d : SpeciesData E} (hopen : d.out.isOpen = true)
    {write : SpeciesHit E → Text} (hwrite : ∀ h, sm.IsLine h (write h))
    (hline : ∀ h ∈ d.q, '\n' ∉ write h) {out : OutFiles}
    (hout : out.dataLines = (d.out.write (d.q.map write)).dataLines) {received : List (SpeciesHit E)}
    (h : (sm.speciesLedger getEnergy sort).Account false d received) (working : Bool) :
    (sm.speciesLedger getEnergy sort).Account working ⟨[], out⟩ received := by
  obtain ⟨hits, hdone, rfl⟩ := h
  refine ⟨hits ++ d.q, ?_, by cases working <;> simp [speciesLedger]⟩
  show List.Forall₂ sm.IsLine (hits ++ d.q) out.dataLines
  rw [hout, OutFiles.dataLines_write _ hopen]
  refine List.rel_append hdone ?_
  rw [lines_flatMap_line (List.forall_mem_map.mpr hline), List.forall₂_map_right_iff,
    List.forall₂_same]
  exact fun h _ => hwrite h

theorem species_check {d : SpeciesData E} (hopens : ∀ path, sm.opens path = true)
    (hd : (sm.speciesLedger getEnergy sort).ok d) :
    (sm.speciesLedger getEnergy sort).Kept false d false (sm.checkSpecies d).1 ∧
      (sm.checkSpecies d).2 = true := by
  have hopen : (sm.checkSpecies d).2 = true := sm.check_isOpen hopens hd.2
  refine ⟨⟨⟨hd.1, .inl hopen⟩, ?_⟩, hopen⟩
  rintro received ⟨hits, hdone, rfl⟩
  refine ⟨hits, ?_, rfl⟩
  show List.Forall₂ sm.IsLine hits (sm.checkSpecies d).1.out.dataLines
  rw [show (sm.checkSpecies d).1.out.dataLines = d.out.dataLines from sm.dataLines_check _ _ _ _]
  exact hdone

theorem species_keeps (hopens : ∀ path, sm.opens path = true) :
    (sm.speciesLedger getEnergy sort).Keeps sm.handleSpeciesHits
      (SpeciesData.process getEnergy sort) where
  prepare hok := ⟨(sm.species_check hopens hok).1, (sm.species_check hopens hok).2,
    (sm.species_check hopens hok).2⟩
  take {d} _ hopen := by
    have hopen' : (d.out.write (d.q.map sm.loopLine)).isOpen = true :=
      (OutFiles.isOpen_write _ _).trans hopen
    refine ⟨⟨⟨nofun, .inl hopen'⟩, fun received h => ?_⟩, hopen'⟩
    exact sm.species_write hopen (fun _ => .inl rfl)
      (fun h _ => sm.newline_not_mem_loopLine h) rfl h false
  work hok _ := ⟨hok, fun _ h => h⟩
  lastPrepare hok := ⟨(sm.species_check hopens hok).1, (sm.species_check hopens hok).2,
    (sm.species_check hopens hok).2⟩
  lastTake {d} hok hopen := by
    have hopen' : (d.out.write (d.q.map sm.drainLine)).isOpen = true :=
      (OutFiles.isOpen_write _ _).trans hopen
    refine ⟨⟨⟨nofun, .inl hopen'⟩, fun received h => ?_⟩, rfl⟩
    exact sm.species_write hopen (fun _ => .inr rfl)
      (fun h hh => sm.newline_not_mem_drainLine (hok.1 h hh)) rfl h true
  lastWork {d} _ hleft := by
    refine ⟨hleft, ?_⟩
    rintro received ⟨hits, hdone, rfl⟩
    refine ⟨hits, ?_, rfl⟩
    show List.Forall₂ sm.IsLine hits d.out.close.dataLines
    rw [OutFiles.dataLines_close]
    exact hdone
  produce {d batch} hok := by
    refine ⟨⟨fun h hh => ?_, hok.2⟩, id, id, ?_⟩
    · rw [SpeciesData.process, doProcessing_append, List.mem_append] at hh
      rcases hh with hh | hh
      · exact hok.1 h hh
      · exact doProcessing_grade getEnergy sort batch h hh
    · rintro working received ⟨hits, hdone, rfl⟩
      refine ⟨hits, hdone, ?_⟩
      simp only [speciesLedger, SpeciesData.process, List.append_assoc,
        doProcessing_append getEnergy sort d.q batch]

end Species

end Sprint3.StorageManager
