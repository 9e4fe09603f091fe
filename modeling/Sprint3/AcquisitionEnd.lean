/-
# What is left in the pixel buffer when an acquisition ends

`history` is what a run's receives bring: pixels, and the points at which the
read loop flushes its buffer (a frame-finished message, a failed receive more
than `report_timeout` after the latest datagram). At every head of the loop
the buffer is empty exactly if every pixel is followed by a flush
(`flushed_run`). For an acquisition of `runAcq` this decides whether its end
loses pixels (`acquisition_end`); both ways for it to end can
(`acquisition_end_loses_pixels`).
-/
import Sprint3.Decoding

namespace Sprint3

open Bits Memory Run

/-! ### Pixels and flushes -/

/-- What a receive brings for the pixel buffer. -/
inductive Mark
  | pixel
  | flush
  | other
  deriving DecidableEq, Repr

/-- Every pixel is followed by a flush. -/
def Flushed : List Mark → Prop := Followed (· = .pixel) (· = .flush)

theorem flushed_concat_flush (marks : List Mark) : Flushed (marks ++ [.flush]) :=
  followed_concat_right marks (by decide) rfl

theorem not_flushed_concat_pixel (marks : List Mark) : ¬ Flushed (marks ++ [.pixel]) :=
  not_followed_concat_left marks rfl

theorem flushed_concat_other {marks : List Mark} :
    Flushed (marks ++ [.other]) ↔ Flushed marks :=
  followed_concat_neither (by decide) (by decide)

/-! ### The history of a run -/

/-- What a message brings. -/
def Md.mark (md : Md) : Mark :=
  if md.header = 0x4 then .pixel else if md.header = 0xC then .flush else .other

/-- What a receive brings, given `md_buffer` and the time of the latest datagram. -/
def Recv.marks (reportTimeout : ℤ) (mdBuffer : ℕ → UInt8) (lastData : ℤ) : Recv → List Mark
  | e@(.data _ _) => (e.mds mdBuffer).map Md.mark
  | .fail now _ => if reportTimeout > 0 ∧ 1000 * (now - lastData) > reportTimeout then [.flush] else []

/-- What a run brings. -/
def history (reportTimeout : ℤ) (mdBuffer : ℕ → UInt8) (start : ℤ) : List Recv → List Mark
  | [] => []
  | e :: es =>
    e.marks reportTimeout mdBuffer start ++
      history reportTimeout (e.buffer mdBuffer) (lastDataTime start [e]) es

theorem history_concat (reportTimeout : ℤ) : ∀ (es : List Recv) (e : Recv) (m : ℕ → UInt8)
    (start : ℤ), history reportTimeout m start (es ++ [e]) =
      history reportTimeout m start es ++
        e.marks reportTimeout (bufferAfter m es) (lastDataTime start es)
  | [], e, m, start => by simp [history, bufferAfter, lastDataTime]
  | e' :: es, e, m, start => by
    simp only [List.cons_append, history, history_concat reportTimeout es e, List.append_assoc]
    cases e' <;> rfl

/-! ### The pixel buffer -/

section Buffer

variable {U : Type*} (h : Handlers U) {acq : Acquisition U}

/-- The buffer is empty if every pixel is flushed, and only then. -/
def Empties (marks : List Mark) (acq : Acquisition U) : Prop :=
  acq.pixelBufferValid = 0 ↔ Flushed marks

theorem empties_message {marks : List Mark} (hempty : Empties marks acq) (m : ℕ → UInt8) (i : ℕ) :
    Empties (marks ++ [(Md.at_ m i).mark]) (handleMeasurementData h acq (load64 m i)) := by
  have hother : (Md.at_ m i).header ≠ 0x4 → (Md.at_ m i).header ≠ 0xC →
      ∀ acq' : Acquisition U, acq'.pixelBufferValid = acq.pixelBufferValid →
        Empties (marks ++ [(Md.at_ m i).mark]) acq' := fun h4 hC acq' hvalid => by
    rw [Md.mark, if_neg h4, if_neg hC, Empties, hvalid, flushed_concat_other]
    exact hempty
  generalize hacq' : handleMeasurementData h acq (load64 m i) = acq'
  cases hacq' ▸ handled h acq m i with
  | pixel hdr =>
    rw [Md.mark, if_pos hdr]
    exact iff_of_false (Nat.succ_ne_zero _) (not_flushed_concat_pixel marks)
  | offset hdr offset hoffset => exact hother (by omega) (by omega) _ rfl
  | newFrame hdr => exact hother (by omega) (by omega) _ rfl
  | frameFinished hdr =>
    rw [Md.mark, if_neg (by omega), if_pos hdr]
    refine iff_of_true ?_ (flushed_concat_flush marks)
    unfold handleCurrentFrameFinished
    simp only
    split <;> rfl
  | unknown hdr =>
    exact hother (fun h4 => hdr (by simp [h4])) (fun hC => hdr (by simp [hC])) _ rfl
  | other hdr info hinfo aborted =>
    exact hother (fun h4 => by simp [h4] at hdr) (fun hC => by simp [hC] at hdr) _ rfl

/-- At every head, over what the receives so far brought. -/
theorem empties_run {r r' : Reader U} (hvalid : r.acq.pixelBufferValid = 0)
    (hdecode : r.acq.decodeData = true) {es : List Recv} (hrun : run (readLoop h) r es = some r') :
    Empties (history r.acq.reportTimeout r.acq.mdBuffer r.lastDataReceived es) r'.acq := by
  refine run_invariant hrun
    (fun es r' => Empties (history r.acq.reportTimeout r.acq.mdBuffer r.lastDataReceived es) r'.acq)
    (iff_of_true hvalid followed_nil) ?_
  intro es m e m' hm hempty hstep
  obtain ⟨-, rfl⟩ := readLoop_eq_some.mp hstep
  have hframe := frame_run h hm
  have hdecode' : m.acq.decodeData = true := hframe.decodeData.trans hdecode
  rw [history_concat, ← hframe.mdBuffer, ← hframe.lastDataReceived]
  cases e with
  | data bytes now =>
    have hdatagram := handleDatagram_invariant h
      (P := fun mds acq => Empties
        (history r.acq.reportTimeout r.acq.mdBuffer r.lastDataReceived es ++ mds.map Md.mark) acq)
      (fun mds acq i hempty => by
        rw [List.map_append, ← List.append_assoc]
        exact empties_message h hempty _ i)
      (mdCount bytes.length) 0 [] (m.acq.stored bytes)
      (by rw [List.map_nil, List.append_nil]; exact hempty) rfl
    rw [← received_eq h m bytes now hdecode', List.nil_append] at hdatagram
    exact hdatagram.1
  | fail now now' =>
    have hfailed := failed_eq h m now now'
    rw [hframe.reportTimeout] at hfailed
    simp only [Reader.iterate, Recv.marks]
    by_cases hreports : r.acq.reportTimeout > 0 ∧
        1000 * (now - m.lastDataReceived) > r.acq.reportTimeout
    · rw [if_pos hreports]
      refine iff_of_true ?_ (flushed_concat_flush _)
      rw [hfailed]
      by_cases hvalid : m.acq.pixelBufferValid > 0
      · rw [if_pos ⟨hreports.1, hreports.2, hvalid⟩]
        rfl
      · rw [if_neg fun hall => hvalid hall.2.2]
        exact Nat.eq_zero_of_not_pos hvalid
    · rw [if_neg hreports, List.append_nil, Empties, hfailed, if_neg fun hall => hreports ⟨hall.1, hall.2.1⟩]
      exact hempty

end Buffer

/-- **When the end of an acquisition loses no pixel.** In every run of an
acquisition of `runAcq`, wherever it ends: the pixel buffer is empty, and all
pixels decoded have been handed out, exactly if every pixel is followed by a
frame-finished message or by a failed receive more than 500 ms after the
latest datagram. -/
theorem acquisition_end {U : Type*} (h : Handlers U) (userCtx : U) (mdBuffer : ℕ → UInt8)
    (pixelBuffer : ℕ → Px) (acqTimeSec : ℕ) (begin_ start : ℤ) (es : List Recv)
    {r : Reader (U × List (List Px))}
    (hrun : run (readLoop (logged h)) (Reader.start
      (runAcqAcquisition (userCtx, []) mdBuffer pixelBuffer acqTimeSec begin_) start) es = some r) :
    (r.acq.pixelBufferValid = 0 ∧
        r.acq.userCtx.2.flatten = refDecode 0 (streamMds mdBuffer es)) ↔
      Flushed (history 500 mdBuffer start es) := by
  have hinv := decodeInv_run h (by decide : 0 < pixelSize * 65536 / pixelSize)
    ⟨rfl, rfl, rfl, Nat.zero_le _, fun _ h => absurd h List.not_mem_nil, rfl, rfl⟩ hrun
  have hempty := empties_run (logged h) (by rfl) (by rfl) hrun
  refine ⟨fun hend => hempty.mp hend.1, fun hflushed => ⟨hempty.mpr hflushed, ?_⟩⟩
  have hpixels := hinv.pixels
  rw [hempty.mpr hflushed, slice_zero, List.append_nil] at hpixels
  exact hpixels

/-- Handlers that do nothing. -/
def noHandlers : Handlers Unit where
  pixelsReceived _ _ _ := ()
  frameStarted _ _ := ()
  frameEnded _ _ _ _ := ()
  dataReceived _ _ _ := ()

/-- The read of an acquisition of `runAcq` by an application that does nothing. -/
def runAcqRead (acqTimeSec : ℕ) (begin_ start : ℤ) (es : List Recv) : Option (Reader Unit) :=
  run (readLoop noHandlers)
    (Reader.start (runAcqAcquisition () default default acqTimeSec begin_) start) es

/-- Whenever the read returns `result`, the pixel buffer is empty. -/
def EndsEmpty (result : ReadResult) : Prop :=
  ∀ (acqTimeSec : ℕ) (begin_ start : ℤ) (es : List Recv) (r : Reader Unit),
    begin_ ≤ start → Nondecreasing start es → runAcqRead acqTimeSec begin_ start es = some r →
    readResult r.acq.state = result → r.acq.pixelBufferValid = 0

theorem not_endsEmpty {result : ReadResult} (es : List Recv) (hclock : Nondecreasing 0 es)
    (hrun : (runAcqRead 1 0 0 es).map (fun r => (readResult r.acq.state, r.acq.pixelBufferValid)) =
      some (result, 1)) : ¬ EndsEmpty result := by
  intro hall
  obtain ⟨r, hr, hend⟩ := Option.map_eq_some_iff.mp hrun
  obtain ⟨hstate, hvalid⟩ := Prod.mk.inj hend
  have hzero := hall 1 0 0 es r le_rfl hclock hr hstate
  omega

/-- A pixel behind the last frame-finished message of a datagram is lost, and
so is a pixel that the limit on the whole read cuts off within its second. -/
theorem acquisition_end_loses_pixels : ¬ EndsEmpty .ok ∧ ¬ EndsEmpty .etimedout := by
  refine ⟨?_, ?_⟩
  · exact not_endsEmpty [.data (frameFinishedMd.bytes ++ pixelMd.bytes) 1] (by decide)
      (by decide +kernel)
  · exact not_endsEmpty [.data pixelMd.bytes 12, .fail 12 12] (by decide)
      (by decide +kernel)

/-- A pixel, and the end of its frame. -/
theorem acquisition_end_example :
    let es : List Recv := [.data pixelMd.bytes 1, .data frameFinishedMd.bytes 1]
    ∃ r, run (readLoop (logged noHandlers))
        (Reader.start (runAcqAcquisition ((), []) default default 1 0) 0) es = some r ∧
      ((r.acq.pixelBufferValid = 0 ∧
          r.acq.userCtx.2.flatten = refDecode 0 (streamMds default es)) ↔
        Flushed (history 500 default 0 es)) := by
  intro es
  have hsome : (run (readLoop (logged noHandlers))
      (Reader.start (runAcqAcquisition ((), []) default default 1 0) 0) es).isSome := by
    decide +kernel
  obtain ⟨r, hr⟩ := Option.isSome_iff_exists.mp hsome
  exact ⟨r, hr, acquisition_end noHandlers () default default 1 0 0 es hr⟩

end Sprint3
