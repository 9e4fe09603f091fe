/-
# What an application is told

The calls of an application's handlers as one history, with the pixels of an
array one by one.

At every head of the read loop the application has been told what a narrator
of the messages received so far tells, and the pixels in the buffer are those
it still keeps. If no frame starts between a pixel and the end of its frame,
the two together are the history told promptly (`application_told`). So the
report of a frame follows its pixels and counts them, with those that were
still in the buffer when it started (`frame_reported`).
-/
import Sprint3.FrameTimes
import Sprint3.Narrator

namespace Sprint3

open Bits Memory Run

/-! ### The history of the handlers -/

/-- Handlers that keep what they are told. -/
def narrating : Handlers (List Report) where
  pixelsReceived told px count := told ++ (slice px 0 count).map .pixel
  frameStarted told frameIdx := told ++ [.started frameIdx]
  frameEnded told frameIdx completed info := told ++ [.ended frameIdx completed info]
  dataReceived told _ _ := told

/-! ### One message -/

section Handled

variable {U : Type*} (h : Handlers U)

/-- A message that tells nothing changes the report of its frame, and that is all. -/
theorem handled_quiet (acq : Acquisition U) (m : ℕ → UInt8) (i : ℕ)
    (hdr : (Md.at_ m i).header ∉ [0x4, 0x5, 0x7, 0xC]) : ∃ aborted dropped,
      handleMeasurementData h acq (load64 m i) =
        { acq with
          currentFrameInfo := acq.currentFrameInfo.after (Md.at_ m i)
          aborted := aborted
          droppedMeasurementData := dropped } := by
  have hhdr := header_toNat m i
  have hpixel := header_eq_pixel m i
  simp only [List.mem_cons, List.not_mem_nil, or_false, not_or] at hdr
  obtain ⟨h4, h5, h7, hC⟩ := hdr
  have hother : (Md.at_ m i).header ∉ [0x7, 0x8, 0x9, 0xA, 0xB, 0xC, 0xD] →
      acq.currentFrameInfo.after (Md.at_ m i) = acq.currentFrameInfo :=
    fun hdr => acq.currentFrameInfo.after_other hdr
  have hkept : ∀ acq' : Acquisition U,
      acq' = { acq with currentFrameInfo := acq.currentFrameInfo.after (Md.at_ m i) } →
      ∃ aborted dropped, acq' =
        { acq with
          currentFrameInfo := acq.currentFrameInfo.after (Md.at_ m i)
          aborted := aborted
          droppedMeasurementData := dropped } :=
    fun _ heq => ⟨acq.aborted, acq.droppedMeasurementData, heq⟩
  unfold handleMeasurementData
  simp only [hpixel, hhdr, if_neg h4]
  split
  case h_1 hdr | h_2 hdr =>
    apply hkept
    rw [hother (by simp [hdr])]
    rfl
  case h_3 hdr => exact absurd hdr h5
  case h_4 hdr => exact absurd hdr h7
  case h_5 hdr =>
    apply hkept
    simp only [FrameInfo.after, hdr, handleFrameStartTimestampLsb, lsb_eq]
  case h_6 hdr =>
    apply hkept
    simp only [FrameInfo.after, hdr, handleFrameStartTimestampMsb, msb_eq]
  case h_7 hdr =>
    apply hkept
    simp only [FrameInfo.after, hdr, handleFrameEndTimestampLsb, lsb_eq]
  case h_8 hdr =>
    apply hkept
    simp only [FrameInfo.after, hdr, handleFrameEndTimestampMsb, msb_eq]
  case h_9 hdr => exact absurd hdr hC
  case h_10 hdr =>
    have hlost := extract_eq MdField.nLost (by decide) m i
    apply hkept
    simp only [FrameInfo.after, hdr, handleLostPixelCount, hlost]
  case h_11 hdr =>
    refine ⟨true, acq.droppedMeasurementData, ?_⟩
    rw [hother (by simp [hdr])]
    rfl
  case h_12 h2 h3 _ _ h8 h9 hA hB _ hD hE =>
    have hnone : (Md.at_ m i).header ∉ [0x7, 0x8, 0x9, 0xA, 0xB, 0xC, 0xD] := by
      simpa [h7, hC] using And.intro h8 ⟨h9, hA, hB, hD⟩
    refine ⟨acq.aborted, acq.droppedMeasurementData + 1, ?_⟩
    rw [hother hnone]
    rfl

end Handled

/-! ### The invariant of the loop -/

/-- The application was told what the narrator tells, and the buffer, with room for `max` pixels,
holds those the narrator keeps. -/
structure Narrated (max : ℕ) (n : Narrator) (acq : Acquisition (List Report)) : Prop where
  told : acq.userCtx = n.told
  pending : slice acq.pixelBuffer 0 acq.pixelBufferValid = n.pending
  info : acq.currentFrameInfo = n.info
  frames : acq.completedFrames = n.frames
  offset : acq.lastToaOffset.toNat = 2 ^ 14 * n.offset
  offset_lt : n.offset < 2 ^ 32
  max_eq : acq.pixelBufferMaxValid = max
  valid_le : acq.pixelBufferValid ≤ max

namespace Narrated

open Narrator

variable {max : ℕ} {n : Narrator} {acq acq' : Acquisition (List Report)}

theorem flush (hn : Narrated max n acq) : Narrated max n.handOver (flushBuffer narrating acq) where
  told := by
    simp only [flushBuffer, narrating, handOver, hn.told, hn.pending]
  pending := rfl
  info := by
    have hvalid : acq.pixelBufferValid = n.pending.length := by
      rw [← hn.pending, slice_length]
    simp only [flushBuffer, handOver, hn.info, hvalid]
  frames := hn.frames
  offset := hn.offset
  offset_lt := hn.offset_lt
  max_eq := hn.max_eq
  valid_le := Nat.zero_le _

/-- Where only other parts of the acquisition change, nothing is said. -/
theorem congr (hn : Narrated max n acq)
    (hsame : (acq'.userCtx, acq'.pixelBuffer, acq'.pixelBufferValid, acq'.pixelBufferMaxValid,
      acq'.currentFrameInfo, acq'.completedFrames, acq'.lastToaOffset) =
      (acq.userCtx, acq.pixelBuffer, acq.pixelBufferValid, acq.pixelBufferMaxValid,
      acq.currentFrameInfo, acq.completedFrames, acq.lastToaOffset)) :
    Narrated max n acq' := by
  simp only [Prod.mk.injEq] at hsame
  obtain ⟨hctx, hbuffer, hvalid, hmax, hinfo, hframes, hoffset⟩ := hsame
  constructor
  · exact hctx.trans hn.told
  · rw [hbuffer, hvalid]
    exact hn.pending
  · exact hinfo.trans hn.info
  · exact hframes.trans hn.frames
  · rw [hoffset]
    exact hn.offset
  · exact hn.offset_lt
  · exact hmax.trans hn.max_eq
  · rw [hvalid]
    exact hn.valid_le

/-- A pixel, behind those in the buffer or, if these have no room for it, behind a flush. -/
theorem pixel {m : ℕ → UInt8} {i : ℕ} (hmax : 0 < max) (hn : Narrated max n acq)
    (hdr : (Md.at_ m i).header = 0x4) : ∃ n', (n' = n ∨ n' = n.handOver) ∧
      Narrated max (n'.hear (Md.at_ m i)) (handlePixel narrating acq (load64 m i)) := by
  obtain ⟨n₁, acq₁, hn₁, hacq₁, hnarrated, hroom⟩ : ∃ n₁ acq₁, (n₁ = n ∨ n₁ = n.handOver) ∧
      (if acq.pixelBufferValid = acq.pixelBufferMaxValid then flushBuffer narrating acq else acq) =
        acq₁ ∧ Narrated max n₁ acq₁ ∧ acq₁.pixelBufferValid < max := by
    have hle := hn.valid_le
    have hm := hn.max_eq
    by_cases hfull : acq.pixelBufferValid = acq.pixelBufferMaxValid
    · rw [if_pos hfull]
      exact ⟨_, _, .inr rfl, rfl, hn.flush, hmax⟩
    · rw [if_neg hfull]
      exact ⟨_, _, .inl rfl, rfl, hn, by omega⟩
  refine ⟨n₁, hn₁, ?_⟩
  unfold handlePixel
  simp only [hacq₁]
  rw [hear_pixel hdr]
  refine ⟨hnarrated.told, ?_, hnarrated.info, hnarrated.frames, hnarrated.offset,
    hnarrated.offset_lt, hnarrated.max_eq, hroom⟩
  rw [slice_store, hnarrated.pending,
    pmdToaTotMap_word m i hnarrated.offset_lt hnarrated.offset]

theorem timestamp {md : Md} {offset : UInt64} (hn : Narrated max n acq) (hdr : md.header = 0x5)
    (hoffset : offset.toNat = 2 ^ 14 * md.field MdField.timeOffset) :
    Narrated max (n.hear md) { acq with lastToaOffset := offset } := by
  rw [hear_offset hdr]
  exact ⟨hn.told, hn.pending, hn.info, hn.frames, hoffset, Field.read_lt _ _, hn.max_eq, hn.valid_le⟩

theorem newFrame {md : Md} (hn : Narrated max n acq) (hdr : md.header = 0x7) :
    Narrated max (n.hear md) (handleNewFrame narrating acq) := by
  rw [hear_newFrame hdr]
  refine ⟨?_, hn.pending, rfl, hn.frames, hn.offset, hn.offset_lt, hn.max_eq, hn.valid_le⟩
  simp only [handleNewFrame, narrating, hn.told, hn.frames]

theorem frameFinished {m : ℕ → UInt8} {i : ℕ} (hn : Narrated max n acq)
    (hdr : (Md.at_ m i).header = 0xC) :
    Narrated max (n.hear (Md.at_ m i)) (handleCurrentFrameFinished narrating acq (load64 m i)) := by
  have hflush := hn.flush
  have hsent := extract_eq MdField.nSent (by decide) m i
  have hafter : { (flushBuffer narrating acq).currentFrameInfo with
      sentPixels := MdField.nSent.extract (load64 m i) } =
      n.handOver.info.after (Md.at_ m i) := by
    simp only [hflush.info, hsent, FrameInfo.after, hdr]
  rw [hear_finished hdr]
  unfold handleCurrentFrameFinished
  generalize flushBuffer narrating acq = acq₁ at hflush hafter ⊢
  have hfinished : Narrated max (n.handOver.finish (Md.at_ m i))
      { acq₁ with
        currentFrameInfo.sentPixels := MdField.nSent.extract (load64 m i)
        userCtx := acq₁.userCtx ++
          [.ended acq₁.completedFrames true { acq₁.currentFrameInfo with
            sentPixels := MdField.nSent.extract (load64 m i) }]
        completedFrames := acq₁.completedFrames + 1 } := by
    refine ⟨?_, hflush.pending, hafter, ?_, hflush.offset, hflush.offset_lt, hflush.max_eq,
      hflush.valid_le⟩
    · simp only [hafter, hflush.told, hflush.frames, finish]
    · simp only [hflush.frames, finish]
  simp only
  split
  · exact hfinished.congr rfl
  · exact hfinished

theorem quiet {m : ℕ → UInt8} {i : ℕ} (hn : Narrated max n acq)
    (hdr : (Md.at_ m i).header ∉ [0x4, 0x5, 0x7, 0xC]) :
    Narrated max (n.hear (Md.at_ m i))
      (handleMeasurementData narrating acq (load64 m i)) := by
  obtain ⟨aborted, dropped, heq⟩ := handled_quiet narrating acq m i hdr
  rw [heq, hear_quiet hdr]
  refine ⟨hn.told, hn.pending, ?_, hn.frames, hn.offset, hn.offset_lt, hn.max_eq, hn.valid_le⟩
  simp only [hn.info]

/-- Every message is heard, a pixel perhaps behind a flush. -/
theorem message (hmax : 0 < max) (hn : Narrated max n acq) (m : ℕ → UInt8) (i : ℕ) :
    ∃ n', (n' = n ∨ n' = n.handOver) ∧
      Narrated max (n'.hear (Md.at_ m i))
        (handleMeasurementData narrating acq (load64 m i)) := by
  by_cases hdr : (Md.at_ m i).header ∈ [0x4, 0x5, 0x7, 0xC]
  · generalize hacq' : handleMeasurementData narrating acq (load64 m i) = acq'
    cases hacq' ▸ handled narrating acq m i with
    | pixel hdr => exact hn.pixel hmax hdr
    | offset hdr offset hoffset => exact ⟨n, .inl rfl, hn.timestamp hdr hoffset⟩
    | newFrame hdr => exact ⟨n, .inl rfl, hn.newFrame hdr⟩
    | frameFinished hdr => exact ⟨n, .inl rfl, hn.frameFinished hdr⟩
    | unknown hunknown =>
      simp only [List.mem_cons, List.not_mem_nil, or_false] at hdr
      exact absurd hunknown (by rcases hdr with h | h | h | h <;> simp [Md.Unrecognised, h])
    | other hother info hinfo aborted =>
      simp only [List.mem_cons, List.not_mem_nil, or_false] at hdr
      rcases hdr with h | h | h | h <;> simp [h] at hother
  · exact ⟨n, .inl rfl, hn.quiet hdr⟩

end Narrated

/-- A loop that starts has told nothing and keeps nothing. -/
theorem narrated_start {mdBuffer : ℕ → UInt8} {pixelBuffer : ℕ → Px} {pixelBufferSize : ℕ}
    {reportTimeout failTimeout lackOfHitTimeout noFrames : ℤ} {acqTime : ℚ} {begin_ start : ℤ} :
    Narrated (pixelBufferSize / pixelSize) .start
      (Reader.start (katherineAcquisitionBegin
        (katherineAcquisitionInit [] mdBuffer pixelBuffer pixelBufferSize reportTimeout failTimeout
          lackOfHitTimeout) noFrames acqTime true begin_) start).acq :=
  ⟨rfl, rfl, rfl, rfl, rfl, by decide, rfl, Nat.zero_le _⟩

/-- At every head, over the messages received so far. -/
theorem narrated_run {max : ℕ} (hmax : 0 < max) {r r' : Reader (List Report)}
    (hstart : Narrated max .start r.acq) (hdecode : r.acq.decodeData = true) {es : List Recv}
    (hrun : run (readLoop narrating) r es = some r') :
    ∃ steps : List (Option Md), steps.reduceOption = streamMds r.acq.mdBuffer es ∧
      Narrated max (Narrator.narrate steps) r'.acq := by
  refine messages_run narrating
    (P := fun mds acq => ∃ steps : List (Option Md), steps.reduceOption = mds ∧
      Narrated max (Narrator.narrate steps) acq) ?_ ?_ ?_ ?_ ⟨[], rfl, hstart⟩ hdecode hrun
  · rintro mds acq m i ⟨steps, rfl, hn⟩
    obtain ⟨n', rfl | rfl, hn'⟩ := hn.message hmax m i
    · refine ⟨steps ++ [some (Md.at_ m i)], List.reduceOption_append _ _, ?_⟩
      rw [Narrator.narrate_concat]
      exact hn'
    · refine ⟨steps ++ [none] ++ [some (Md.at_ m i)], ?_, ?_⟩
      · rw [List.reduceOption_append, List.reduceOption_append]
        exact congrArg (· ++ [Md.at_ m i]) (List.append_nil _)
      · rw [Narrator.narrate_concat, Narrator.narrate_concat]
        exact hn'
  · rintro mds acq bytes ⟨steps, hmds, hn⟩
    exact ⟨steps, hmds, hn.congr rfl⟩
  · rintro mds acq ⟨steps, rfl, hn⟩
    refine ⟨steps ++ [none], (List.reduceOption_append _ _).trans (List.append_nil _), ?_⟩
    rw [Narrator.narrate_concat]
    exact hn.flush
  · rintro mds acq state ⟨steps, hmds, hn⟩
    exact ⟨steps, hmds, hn.congr rfl⟩

/-- **An application is told what the messages stand for.** In every run of the
read loop the handlers were told what a narrator tells that hears the messages
received so far and hands pixels over at some places; the pixels in the buffer
are those it keeps. So every pixel of the stream was told, once and in its
order, or is in the buffer. If no frame starts between a pixel and the end of
its frame, what was told and the pixels in the buffer are the history of the
messages, in this order. -/
theorem application_told (mdBuffer : ℕ → UInt8) (pixelBuffer : ℕ → Px) {pixelBufferSize : ℕ}
    (hsize : pixelSize ≤ pixelBufferSize)
    (reportTimeout failTimeout lackOfHitTimeout noFrames : ℤ) (acqTime : ℚ) (begin_ start : ℤ)
    (es : List Recv) {r : Reader (List Report)}
    (hrun : run (readLoop narrating)
      (Reader.start (katherineAcquisitionBegin
        (katherineAcquisitionInit [] mdBuffer pixelBuffer pixelBufferSize reportTimeout failTimeout
          lackOfHitTimeout) noFrames acqTime true begin_) start) es = some r) :
    let mds := streamMds mdBuffer es
    let buffered := slice r.acq.pixelBuffer 0 r.acq.pixelBufferValid
    (∃ steps : List (Option Md), steps.reduceOption = mds ∧
      r.acq.userCtx = (Narrator.narrate steps).told ∧
      buffered = (Narrator.narrate steps).pending) ∧
    r.acq.userCtx.filterMap Report.pixel? ++ buffered = refDecode 0 mds ∧
    (Framed mds → r.acq.userCtx ++ buffered.map .pixel = (Narrator.promptly mds).told) := by
  intro mds buffered
  obtain ⟨steps, hsteps, hn⟩ := narrated_run (Nat.div_pos hsize (by decide)) narrated_start rfl hrun
  have hmds : steps.reduceOption = mds := hsteps
  have hbuffered : buffered = (Narrator.narrate steps).pending := hn.pending
  rw [hn.told, hbuffered]
  refine ⟨⟨steps, hmds, rfl, rfl⟩, ?_, fun hframed => ?_⟩
  · rw [← hmds]
    exact Narrator.foldl_pixels steps .start
  · rw [← hmds] at hframed ⊢
    exact (Narrator.behind_promptly steps hframed).history

/-! ### The report of a frame -/

/-- **The report of a frame.** In every run of the read loop a frame whose
messages have all been received has been told as it is: its start, all of its
pixels in their order, then its end, with the number of the pixels told since
its start, of those that were lost and of those that were sent. Pixels that
were still in the buffer when it started, the last of those behind the last
end of a frame, are told and counted ahead of its own; there are none if every
pixel before it belongs to a frame that has ended. -/
theorem frame_reported (mdBuffer : ℕ → UInt8) (pixelBuffer : ℕ → Px) {pixelBufferSize : ℕ}
    (hsize : pixelSize ≤ pixelBufferSize)
    (reportTimeout failTimeout lackOfHitTimeout noFrames : ℤ) (acqTime : ℚ) (begin_ start : ℤ)
    (es : List Recv) {r : Reader (List Report)}
    (hrun : run (readLoop narrating)
      (Reader.start (katherineAcquisitionBegin
        (katherineAcquisitionInit [] mdBuffer pixelBuffer pixelBufferSize reportTimeout failTimeout
          lackOfHitTimeout) noFrames acqTime true begin_) start) es = some r)
    {pre mid post : List Md} {newFrame finished : Md}
    (hmds : streamMds mdBuffer es = pre ++ newFrame :: mid ++ finished :: post)
    (hnew : newFrame.header = 0x7) (hfinished : finished.header = 0xC)
    (hmid : ∀ md ∈ mid, md.header ≠ 0x7 ∧ md.header ≠ 0xC) : ∃ before late info after,
      r.acq.userCtx = before ++ .started (pre.countP (·.header = 0xC)) ::
        ((late ++ refDecode (refOffset 0 pre) mid).map .pixel ++
          .ended (pre.countP (·.header = 0xC)) true info :: after) ∧
      late <:+ refDecode 0 pre ∧
      (∀ pre' ended behind, pre = pre' ++ ended :: behind → ended.header = 0xC →
        late <:+ refDecode (refOffset 0 pre') behind) ∧
      (Flushed (pre.map Md.mark) → late = []) ∧
      info.receivedPixels = .ofNat (late.length + mid.countP (·.header = 0x4)) ∧
      info.lostPixels = .ofNat ((mid.filter (·.header = 0xD)).map (·.field MdField.nLost)).sum ∧
      info.sentPixels = .ofNat (finished.field MdField.nSent) := by
  obtain ⟨steps, hsteps, hn⟩ := narrated_run (Nat.div_pos hsize (by decide)) narrated_start rfl hrun
  have hstream : steps.reduceOption = pre ++ newFrame :: (mid ++ finished :: post) := by
    rw [← List.cons_append, ← List.append_assoc, ← hmds]
    exact hsteps
  obtain ⟨behind, rfl, info, after, hframe, hcounts⟩ :=
    Narrator.narrate_frame hstream hnew hfinished hmid
  refine ⟨_, _, info, after, hn.told.trans hframe, Narrator.pending_suffix behind .start, ?_,
    Narrator.pending_of_flushed behind, hcounts⟩
  intro pre' ended late hpre hended
  exact Narrator.pending_late hpre hended

/-- A frame with one pixel, in two datagrams. -/
def frameRecvs : List MdRecv :=
  [.datagram [newFrameMd, pixelMd] 1, .datagram [frameFinishedMd] 2]

theorem framed_frameRecvs : Framed (streamMds default (frameRecvs.map MdRecv.recv)) := by
  rw [streamMds_recv]
  exact framed_single (by decide +kernel)

theorem application_told_frame : ∃ r : Reader (List Report),
    run (readLoop narrating) (Reader.start (runAcqAcquisition [] default default 1 0) 0)
      (frameRecvs.map MdRecv.recv) = some r ∧
    r.acq.userCtx =
      [.started 0, .pixel ⟨⟨10, 10⟩, 1, 0, 1⟩, .ended 0 true ⟨1, 1, 0, ⟨0, 0⟩, ⟨0, 0⟩⟩] := by
  have hempty : (run (readLoop narrating)
      (Reader.start (runAcqAcquisition [] default default 1 0) 0)
      (frameRecvs.map MdRecv.recv)).map (·.acq.pixelBufferValid) = some 0 := by decide +kernel
  obtain ⟨r, hr, hvalid⟩ := Option.map_eq_some_iff.mp hempty
  obtain ⟨-, -, htold⟩ := application_told default default
    (show pixelSize ≤ pixelSize * 65536 by decide) 500 (10 * 1000) hitTimeout 1 (1 * 10 ^ 9) 0 0 _ hr
  have hhistory := htold framed_frameRecvs
  rw [hvalid, slice_zero, List.map_nil, List.append_nil, streamMds_recv] at hhistory
  exact ⟨r, hr, hhistory.trans (by decide +kernel)⟩

/-- A pixel, and a frame with one pixel behind it. -/
def earlyRecvs : List MdRecv :=
  [.datagram [pixelMd, newFrameMd, pixelMd] 1, .datagram [frameFinishedMd] 2]

/-- The pixel ahead of the frame is told, and counted, in it. -/
theorem frame_reported_early : ∃ r : Reader (List Report),
    run (readLoop narrating) (Reader.start (runAcqAcquisition [] default default 1 0) 0)
      (earlyRecvs.map MdRecv.recv) = some r ∧
    r.acq.userCtx = [.started 0, .pixel ⟨⟨10, 10⟩, 1, 0, 1⟩, .pixel ⟨⟨10, 10⟩, 1, 0, 1⟩,
      .ended 0 true ⟨2, 1, 0, ⟨0, 0⟩, ⟨0, 0⟩⟩] ∧
    ∃ before late info after, r.acq.userCtx =
        before ++ .started 0 :: ((late ++ [⟨⟨10, 10⟩, 1, 0, 1⟩]).map .pixel ++
          .ended 0 true info :: after) ∧
      late <:+ [⟨⟨10, 10⟩, 1, 0, 1⟩] ∧ info.receivedPixels = .ofNat (late.length + 1) := by
  have hended : (run (readLoop narrating)
      (Reader.start (runAcqAcquisition [] default default 1 0) 0)
      (earlyRecvs.map MdRecv.recv)).map (·.acq.userCtx) =
        some [.started 0, .pixel ⟨⟨10, 10⟩, 1, 0, 1⟩, .pixel ⟨⟨10, 10⟩, 1, 0, 1⟩,
          .ended 0 true ⟨2, 1, 0, ⟨0, 0⟩, ⟨0, 0⟩⟩] := by decide +kernel
  obtain ⟨r, hr, hctx⟩ := Option.map_eq_some_iff.mp hended
  have hmds : streamMds default (earlyRecvs.map MdRecv.recv) =
      [pixelMd] ++ newFrameMd :: [pixelMd] ++ frameFinishedMd :: [] :=
    streamMds_recv earlyRecvs default
  obtain ⟨before, late, info, after, htold, hlate, -, -, hreceived, -⟩ := frame_reported default
    default (show pixelSize ≤ pixelSize * 65536 by decide) 500 (10 * 1000) hitTimeout 1 (1 * 10 ^ 9)
    0 0 _ hr hmds (by decide +kernel) (by decide +kernel) (by decide +kernel)
  have hpixels : refDecode (refOffset 0 [pixelMd]) [pixelMd] = [⟨⟨10, 10⟩, 1, 0, 1⟩] := by
    decide +kernel
  have hearly : refDecode 0 [pixelMd] = [⟨⟨10, 10⟩, 1, 0, 1⟩] := by decide +kernel
  have hnumber : [pixelMd].countP (·.header = 0xC) = 0 := by decide +kernel
  have hcount : [pixelMd].countP (·.header = 0x4) = 1 := by decide +kernel
  rw [hpixels, hnumber] at htold
  rw [hearly] at hlate
  rw [hcount] at hreceived
  exact ⟨r, hr, hctx, before, late, info, after, htold, hlate, hreceived⟩

end Sprint3
