/-
# The timeout on the absence of hits

`lack_of_hit_timeout` is examined at a failed receive, against the time of the
latest datagram of any content. So a read with no pixel for longer than the
timeout ends at a failed receive only if no datagram at all came for that
long, or the limit on the whole read has passed (`hit_timeout`); a datagram
that carries a timestamp offset postpones it (`hit_timeout_postponed`).
-/
import Sprint3.AcquisitionEnd

namespace Sprint3

open Run

/-- The time of the latest datagram with a pixel, `start` if there is none. -/
def lastHitTime (mdBuffer : ℕ → UInt8) (start : ℤ) : List Recv → ℤ
  | [] => start
  | e@(.data _ now) :: es =>
    lastHitTime (e.buffer mdBuffer)
      (if ∃ md ∈ e.mds mdBuffer, md.header = 0x4 then now else start) es
  | .fail _ _ :: es => lastHitTime mdBuffer start es

section

variable {U : Type*} (h : Handlers U)

/-- What the driver reads from the measurement data only, if it decodes it. -/
theorem aborted_run {r r' : Reader U} (hdecode : r.acq.decodeData = false) {es : List Recv}
    (hrun : run (readLoop h) r es = some r') : r'.acq.aborted = r.acq.aborted := by
  refine run_invariant hrun (fun _ r' => r'.acq.aborted = r.acq.aborted) rfl ?_
  intro es m e m' hm haborted hstep
  obtain ⟨-, rfl⟩ := readLoop_eq_some.mp hstep
  have hdecode' : m.acq.decodeData = false := (frame_run h hm).decodeData.trans hdecode
  cases e with
  | data bytes now =>
    have hraw : ¬ (m.acq.stored bytes).decodeData = true := by
      simp [Acquisition.stored, hdecode']
    simp only [Reader.iterate, Reader.received, if_neg hraw]
    exact haborted
  | fail now now' =>
    have hfailed := failed_eq h m now now'
    simp only [Reader.iterate, hfailed]
    split_ifs <;> exact haborted

/-- A failed receive ends the read at one of the two limits, and only there. -/
theorem failed_state {r : Reader U} (hrunning : r.acq.state = .running)
    (haborted : r.acq.decodeData = true ∨ r.acq.aborted = false) (now now' : ℤ) :
    (r.failed h now now').acq.state ≠ .running ↔
      r.acq.lackOfHitTimeout < 1000 * (now - r.lastDataReceived) ∨
        0 < r.killOffTime ∧ r.killOffTime < (now' - r.acq.acqStartTime : ℤ) := by
  have hdone : ¬ (!r.acq.decodeData && r.acq.aborted) = true := by
    rcases haborted with h | h <;> simp [h]
  simp only [failed_eq, Reader.failedState, if_neg hdone, hrunning]
  split_ifs with hlimit
  · exact iff_of_true (by decide) hlimit
  · exact iff_of_false (fun h => h rfl) hlimit

/-- `P` holds of every failed receive (the receives before it, and its clock
readings) at which more than `timeout` ms have passed since the start of the
read and since the latest datagram with a pixel. -/
def AtOverdue (timeout : ℤ) (mdBuffer : ℕ → UInt8) (start : ℤ) (es : List Recv)
    (P : List Recv → ℤ → ℤ → Prop) : Prop :=
  ∀ pre now now' post, es = pre ++ .fail now now' :: post →
    timeout < 1000 * (now - lastHitTime mdBuffer start pre) → P pre now now'

/-- **When the absence of hits ends the read.** In every run of the read loop:
the read ends at every failed receive at which there was no pixel for longer
than the timeout, exactly if at each of these there was no datagram at all for
longer than the timeout, or the limit on the whole read has passed. -/
theorem hit_timeout (userCtx : U) (mdBuffer : ℕ → UInt8) (pixelBuffer : ℕ → Px)
    (pixelBufferSize : ℕ) (reportTimeout failTimeout lackOfHitTimeout noFrames : ℤ) (acqTime : ℚ)
    (decodeData : Bool) (begin_ start : ℤ) (es : List Recv) {r : Reader U} :
    let acq := katherineAcquisitionBegin (katherineAcquisitionInit userCtx mdBuffer pixelBuffer
      pixelBufferSize reportTimeout failTimeout lackOfHitTimeout) noFrames acqTime decodeData begin_
    run (readLoop h) (Reader.start acq start) es = some r →
    (AtOverdue lackOfHitTimeout mdBuffer start es (fun pre now now' =>
        ∀ r', run (readLoop h) (Reader.start acq start) (pre ++ [.fail now now']) = some r' →
          r'.acq.state ≠ .running) ↔
      AtOverdue lackOfHitTimeout mdBuffer start es fun pre now now' =>
        lackOfHitTimeout < 1000 * (now - lastDataTime start pre) ∨
          0 < acq.killOffTime ∧ acq.killOffTime < (now' - begin_ : ℤ)) := by
  intro acq hrun
  refine forall₄_congr fun pre now now' post => forall₂_congr fun hes _ => ?_
  obtain ⟨m, m', hm, hstep, -⟩ := run_split (hes ▸ hrun)
  obtain ⟨hrunning, rfl⟩ := readLoop_eq_some.mp hstep
  have hframe := frame_run h hm
  have haborted : m.acq.decodeData = true ∨ m.acq.aborted = false := by
    rw [hframe.decodeData]
    rcases Bool.eq_false_or_eq_true decodeData with hd | hd
    · exact .inl hd
    · exact .inr (aborted_run h (r := Reader.start acq start) hd hm)
  have hends := failed_state h hrunning haborted now now'
  rw [hframe.lackOfHitTimeout, hframe.acqStartTime, hframe.lastDataReceived,
    hframe.killOffTime] at hends
  refine Iff.trans ⟨fun hall => hall _ ?_, fun hend r' hr' => ?_⟩ hends
  · exact run_concat.mpr ⟨m, hm, hstep⟩
  · obtain ⟨m', hm', hstep'⟩ := run_concat.mp hr'
    obtain rfl : m = m' := Option.some.inj (hm.symm.trans hm')
    obtain rfl := Option.some.inj (hstep.symm.trans hstep')
    exact hend

end

/-- A datagram with a timestamp offset, 100 s into a read without pixels, and
the failed receive 21 s later. -/
theorem hit_timeout_postponed :
    ¬ ∀ (acqTimeSec : ℕ) (begin_ start : ℤ) (es : List Recv) (now now' : ℤ) (r : Reader Unit),
      begin_ ≤ start → Nondecreasing start (es ++ [.fail now now']) →
      runAcqRead acqTimeSec begin_ start (es ++ [.fail now now']) = some r →
      hitTimeout < 1000 * (now - lastHitTime default start es) → r.acq.state ≠ .running := by
  intro hall
  have hrunning : (runAcqRead 3600 0 0 ([.data offsetMd.bytes 100] ++ [.fail 121 121])).map
      (fun r => r.acq.state) = some .running := by decide +kernel
  obtain ⟨r, hr, hstate⟩ := Option.map_eq_some_iff.mp hrunning
  exact hall 3600 0 0 [.data offsetMd.bytes 100] 121 121 r le_rfl (by decide) hr (by decide +kernel)
    hstate

/-- A read that no datagram reaches. -/
theorem hit_timeout_silence :
    let acq := katherineAcquisitionBegin (katherineAcquisitionInit () default default
      (pixelSize * 65536) 500 10000 hitTimeout) 1 (3600 * 10 ^ 9) true 0
    ∃ r, run (readLoop noHandlers) (Reader.start acq 0) [.fail 60 60, .fail 121 121] = some r ∧
      AtOverdue hitTimeout default 0 [.fail 60 60, .fail 121 121] fun pre now now' =>
        ∀ r', run (readLoop noHandlers) (Reader.start acq 0) (pre ++ [.fail now now']) = some r' →
          r'.acq.state ≠ .running := by
  intro acq
  have hsome : (run (readLoop noHandlers) (Reader.start acq 0)
      [.fail 60 60, .fail 121 121]).isSome := by decide +kernel
  obtain ⟨r, hr⟩ := Option.isSome_iff_exists.mp hsome
  refine ⟨r, hr, (hit_timeout noHandlers () default default (pixelSize * 65536) 500 10000 hitTimeout
    1 (3600 * 10 ^ 9) true 0 0 _ hr).mpr ?_⟩
  intro pre now now' post hes hoverdue
  rcases pre with _ | ⟨e, _ | ⟨e', pre⟩⟩
  · obtain ⟨hfail, -⟩ := List.cons.inj hes
    obtain ⟨rfl, rfl⟩ := Recv.fail.inj hfail
    exact absurd hoverdue (by decide)
  · obtain ⟨rfl, htail⟩ := List.cons.inj hes
    obtain ⟨hfail, -⟩ := List.cons.inj htail
    obtain ⟨rfl, rfl⟩ := Recv.fail.inj hfail
    exact .inl (by decide)
  · simp at hes

end Sprint3
