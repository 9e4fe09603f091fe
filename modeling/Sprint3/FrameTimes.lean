/-
# The times of a frame

The readout sends the start and the end of a frame in two messages each, the
upper 16 bits and the lower 32. The handlers store them as `msb` and `lsb` of
a `katherine_frame_info_time_t`, and `frame_ended` logs `d`, the same eight
bytes as one word. `msb` is the first of the two members, so on a
little-endian machine it is the low half of `d`: what is logged is the time
that was sent exactly if both halves are the same number (`frame_times`).
-/
import Sprint3.Decoding

namespace Sprint3

open Bits Memory Run

variable {U : Type*}

/-! ### The union -/

namespace FrameInfoTime

/-- The union in memory. -/
def bytes (t : FrameInfoTime) : List UInt8 := toBytes 4 t.msb.toNat ++ toBytes 4 t.lsb.toNat

/-- The member `d`. -/
def d (t : FrameInfoTime) : UInt64 := load64 (ofList t.bytes) 0

theorem d_toNat (t : FrameInfoTime) : t.d.toNat = t.msb.toNat + 2 ^ 32 * t.lsb.toNat := by
  have hlen : t.bytes.length = 8 := by simp [bytes]
  calc t.d.toNat
      = ofBytes (slice (ofList t.bytes) 0 t.bytes.length) := by rw [d, load64_toNat, hlen]
    _ = ofBytes (toBytes 4 t.msb.toNat) + 256 ^ 4 * ofBytes (toBytes 4 t.lsb.toNat) := by
        rw [slice_ofList, bytes, ofBytes_append, toBytes_length]
    _ = t.msb.toNat + 2 ^ 32 * t.lsb.toNat := by
        rw [ofBytes_toBytes t.msb.toNat_lt, ofBytes_toBytes t.lsb.toNat_lt]
        rfl

/-- The halves come out in their order if they are the same, and only then. -/
theorem d_eq_iff (t : FrameInfoTime) :
    t.d.toNat = t.msb.toNat * 2 ^ 32 + t.lsb.toNat ↔ t.msb = t.lsb := by
  rw [d_toNat, ← UInt32.toNat_inj]
  omega

end FrameInfoTime

/-! ### One message -/

/-- The start and the end of the current frame, as stored. -/
def Acquisition.times (acq : Acquisition U) : FrameInfoTime × FrameInfoTime :=
  (acq.currentFrameInfo.startTime, acq.currentFrameInfo.endTime)

/-- What a message does to them. -/
def stamp (t : FrameInfoTime × FrameInfoTime) (md : Md) : FrameInfoTime × FrameInfoTime :=
  match md.header with
  | 0x7 => (⟨0, 0⟩, ⟨0, 0⟩)
  | 0x8 => ({ t.1 with lsb := .ofNat (md.field MdField.lsb) }, t.2)
  | 0x9 => ({ t.1 with msb := .ofNat (md.field MdField.msb) }, t.2)
  | 0xA => (t.1, { t.2 with lsb := .ofNat (md.field MdField.lsb) })
  | 0xB => (t.1, { t.2 with msb := .ofNat (md.field MdField.msb) })
  | _ => t

theorem stamp_other {md : Md} (hdr : md.header ∉ [0x7, 0x8, 0x9, 0xA, 0xB])
    (t : FrameInfoTime × FrameInfoTime) : stamp t md = t := by
  simp only [List.mem_cons, List.not_mem_nil, or_false, not_or] at hdr
  obtain ⟨h7, h8, h9, hA, hB⟩ := hdr
  unfold stamp
  split <;> first | rfl | contradiction

theorem lsb_eq (m : ℕ → UInt8) (i : ℕ) :
    (MdField.lsb.extract (load64 m i)).toUInt32 = .ofNat ((Md.at_ m i).field MdField.lsb) := by
  rw [extract_eq _ (by decide), UInt64.toUInt32_ofNat']

theorem msb_eq (m : ℕ → UInt8) (i : ℕ) :
    (MdField.msb.extract (load64 m i)).toUInt16.toUInt32 =
      .ofNat ((Md.at_ m i).field MdField.msb) := by
  have hlt : (Md.at_ m i).field MdField.msb < 2 ^ 16 := Field.read_lt _ _
  rw [extract_eq _ (by decide), UInt64.toUInt16_ofNat', ← UInt32.toNat_inj, UInt16.toNat_toUInt32,
    UInt16.toNat_ofNat_of_lt' hlt, UInt32.toNat_ofNat_of_lt' (hlt.trans (by decide))]

/-- Handlers that also keep the times that `frame_ended` logs. -/
def timed (h : Handlers U) : Handlers (U × List (UInt64 × UInt64)) where
  pixelsReceived ctx px count := (h.pixelsReceived ctx.1 px count, ctx.2)
  frameStarted ctx idx := (h.frameStarted ctx.1 idx, ctx.2)
  frameEnded ctx idx completed info :=
    (h.frameEnded ctx.1 idx completed info, ctx.2 ++ [(info.startTime.d, info.endTime.d)])
  dataReceived ctx data count := (h.dataReceived ctx.1 data count, ctx.2)

/-- What a message logs. -/
def report (t : FrameInfoTime × FrameInfoTime) (md : Md) : List (UInt64 × UInt64) :=
  if md.header = 0xC then [(t.1.d, t.2.d)] else []

theorem times_message (h : Handlers U) (acq : Acquisition (U × List (UInt64 × UInt64)))
    (m : ℕ → UInt8) (i : ℕ) :
    (handleMeasurementData (timed h) acq (load64 m i)).times = stamp acq.times (Md.at_ m i) ∧
      (handleMeasurementData (timed h) acq (load64 m i)).userCtx.2 =
        acq.userCtx.2 ++ report acq.times (Md.at_ m i) := by
  have hhdr := header_toNat m i
  have hpixel := header_eq_pixel m i
  have hother : (Md.at_ m i).header ∉ [0x7, 0x8, 0x9, 0xA, 0xB] → (Md.at_ m i).header ≠ 0xC →
      ∀ acq' : Acquisition (U × List (UInt64 × UInt64)), acq'.times = acq.times →
        acq'.userCtx.2 = acq.userCtx.2 → acq'.times = stamp acq.times (Md.at_ m i) ∧
          acq'.userCtx.2 = acq.userCtx.2 ++ report acq.times (Md.at_ m i) := by
    intro hdr hC acq' htimes hctx
    rw [stamp_other hdr, report, if_neg hC, List.append_nil]
    exact ⟨htimes, hctx⟩
  have hquiet : (Md.at_ m i).header ≠ 0xC → acq.userCtx.2 =
      acq.userCtx.2 ++ report acq.times (Md.at_ m i) := by
    intro hC
    rw [report, if_neg hC, List.append_nil]
  unfold handleMeasurementData
  simp only [hpixel, hhdr]
  by_cases h4 : (Md.at_ m i).header = 0x4
  · rw [if_pos h4]
    unfold handlePixel flushBuffer
    split
    · exact hother (by simp [h4]) (by simp [h4]) _ rfl rfl
    · exact hother (by simp [h4]) (by simp [h4]) _ rfl rfl
  · rw [if_neg h4]
    split
    case h_4 hdr => exact ⟨by rw [stamp, hdr]; rfl, hquiet (by simp [hdr])⟩
    case h_5 hdr =>
      refine ⟨?_, hquiet (by simp [hdr])⟩
      simp only [stamp, hdr, Acquisition.times, handleFrameStartTimestampLsb, lsb_eq]
    case h_6 hdr =>
      refine ⟨?_, hquiet (by simp [hdr])⟩
      simp only [stamp, hdr, Acquisition.times, handleFrameStartTimestampMsb, msb_eq]
    case h_7 hdr =>
      refine ⟨?_, hquiet (by simp [hdr])⟩
      simp only [stamp, hdr, Acquisition.times, handleFrameEndTimestampLsb, lsb_eq]
    case h_8 hdr =>
      refine ⟨?_, hquiet (by simp [hdr])⟩
      simp only [stamp, hdr, Acquisition.times, handleFrameEndTimestampMsb, msb_eq]
    case h_9 hdr =>
      rw [stamp_other (by simp [hdr]), report, if_pos hdr]
      unfold handleCurrentFrameFinished flushBuffer
      simp only
      split <;> exact ⟨rfl, rfl⟩
    case h_3 hdr =>
      -- the record unfolded first: `rfl` alone compares the two offsets
      apply hother (by simp [hdr]) (by simp [hdr])
      · simp only [handleTimestampOffsetDrivenMode, Acquisition.times]
      · simp only [handleTimestampOffsetDrivenMode]
    case h_1 hdr | h_2 hdr | h_10 hdr | h_11 hdr =>
      exact hother (by simp [hdr]) (by simp [hdr]) _ rfl rfl
    case h_12 h7 h8 h9 hA hB hC _ _ =>
      exact hother (by simpa using And.intro h7 ⟨h8, h9, hA, hB⟩) hC _ rfl rfl

/-! ### A run -/

/-- What a stream of messages logs. -/
def reports (t : FrameInfoTime × FrameInfoTime) : List Md → List (UInt64 × UInt64)
  | [] => []
  | md :: mds => report t md ++ reports (stamp t md) mds

theorem reports_append : ∀ (mds mds' : List Md) (t : FrameInfoTime × FrameInfoTime),
    reports t (mds ++ mds') = reports t mds ++ reports (mds.foldl stamp t) mds'
  | [], _, _ => rfl
  | md :: mds, mds', t => by
    simp only [List.cons_append, reports, List.foldl_cons, reports_append mds mds',
      List.append_assoc]

/-- One for each end of a frame. -/
theorem reports_length : ∀ (mds : List Md) (t : FrameInfoTime × FrameInfoTime),
    (reports t mds).length = mds.countP (·.header = 0xC)
  | [], _ => rfl
  | md :: mds, t => by
    rw [reports, List.length_append, reports_length mds, List.countP_cons, report, Nat.add_comm]
    by_cases hdr : md.header = 0xC
    · simp [hdr]
    · simp [hdr]

/-- At every head, over the messages received so far. -/
theorem times_run (h : Handlers U) {r r' : Reader (U × List (UInt64 × UInt64))}
    (hzero : r.acq.currentFrameInfo = .zero) (hnone : r.acq.userCtx.2 = [])
    (hdecode : r.acq.decodeData = true) {es : List Recv}
    (hrun : run (readLoop (timed h)) r es = some r') :
    r'.acq.userCtx.2 = reports (⟨0, 0⟩, ⟨0, 0⟩) (streamMds r.acq.mdBuffer es) := by
  have hstart : r.acq.times = (⟨0, 0⟩, ⟨0, 0⟩) := by
    rw [Acquisition.times, hzero]
    rfl
  refine (messages_run (timed h) (P := fun mds acq => acq.times = mds.foldl stamp (⟨0, 0⟩, ⟨0, 0⟩) ∧
    acq.userCtx.2 = reports (⟨0, 0⟩, ⟨0, 0⟩) mds) ?_ (fun _ _ _ hP => hP) (fun _ _ hP => hP)
    (fun _ _ _ hP => hP) ⟨hstart, hnone⟩ hdecode hrun).2
  rintro mds acq m i ⟨htimes, hctx⟩
  obtain ⟨htimes', hctx'⟩ := times_message h acq m i
  rw [htimes', hctx', htimes, hctx, List.foldl_append, reports_append]
  exact ⟨rfl, by simp [reports]⟩

/-! ### A frame -/

/-- A field that elements of one kind set is what the only one of them sets it to. -/
theorem foldl_of_filter {σ α β : Type*} (step : σ → α → σ) (field : σ → β) (p : α → Bool)
    (value : α → β) : ∀ (l : List α) (s : σ),
      (∀ s, ∀ a ∈ l, field (step s a) = if p a then value a else field s) →
      field (l.foldl step s) = ((l.filter p).map value).getLastD (field s)
  | [], s, _ => rfl
  | a :: l, s, hstep => by
    rw [List.foldl_cons, foldl_of_filter step field p value l _
      fun s b hb => hstep s b (List.mem_cons_of_mem a hb), hstep s a List.mem_cons_self]
    by_cases ha : p a = true
    · simp only [if_pos ha, List.filter_cons, List.map_cons, List.getLastD_cons]
    · simp only [if_neg ha, List.filter_cons]

/-- The messages from the start of a frame to its end: the two halves of each
time once, and no other start of a frame. -/
structure Stamped (mid : List Md) (startLsb startMsb endLsb endMsb : Md) : Prop where
  sameFrame : ∀ md ∈ mid, md.header ≠ 0x7
  startLsb : mid.filter (·.header = 0x8) = [startLsb]
  startMsb : mid.filter (·.header = 0x9) = [startMsb]
  endLsb : mid.filter (·.header = 0xA) = [endLsb]
  endMsb : mid.filter (·.header = 0xB) = [endMsb]

/-- The half that each message sets. -/
theorem stamp_halves {md : Md} (h7 : md.header ≠ 0x7) (t : FrameInfoTime × FrameInfoTime) :
    ((stamp t md).1.lsb =
        if md.header = 0x8 then .ofNat (md.field MdField.lsb) else t.1.lsb) ∧
      ((stamp t md).1.msb =
        if md.header = 0x9 then .ofNat (md.field MdField.msb) else t.1.msb) ∧
      ((stamp t md).2.lsb =
        if md.header = 0xA then .ofNat (md.field MdField.lsb) else t.2.lsb) ∧
      (stamp t md).2.msb =
        if md.header = 0xB then .ofNat (md.field MdField.msb) else t.2.msb := by
  unfold stamp
  split
  case h_1 hdr => exact absurd hdr h7
  case h_2 hdr | h_3 hdr | h_4 hdr | h_5 hdr => simp [hdr]
  case h_6 h8 h9 hA hB =>
    exact ⟨(if_neg h8).symm, (if_neg h9).symm, (if_neg hA).symm, (if_neg hB).symm⟩

theorem Stamped.times {mid : List Md} {startLsb startMsb endLsb endMsb : Md}
    (h : Stamped mid startLsb startMsb endLsb endMsb) (t : FrameInfoTime × FrameInfoTime) :
    mid.foldl stamp t =
      (⟨.ofNat (startMsb.field MdField.msb), .ofNat (startLsb.field MdField.lsb)⟩,
        ⟨.ofNat (endMsb.field MdField.msb), .ofNat (endLsb.field MdField.lsb)⟩) := by
  have hhalves := fun t md hmd => stamp_halves (h.sameFrame md hmd) t
  have hstartLsb := foldl_of_filter stamp (·.1.lsb) (·.header = 0x8)
    (fun md => .ofNat (md.field MdField.lsb)) mid t
    fun t md hmd => by simpa using (hhalves t md hmd).1
  have hstartMsb := foldl_of_filter stamp (·.1.msb) (·.header = 0x9)
    (fun md => .ofNat (md.field MdField.msb)) mid t
    fun t md hmd => by simpa using (hhalves t md hmd).2.1
  have hendLsb := foldl_of_filter stamp (·.2.lsb) (·.header = 0xA)
    (fun md => .ofNat (md.field MdField.lsb)) mid t
    fun t md hmd => by simpa using (hhalves t md hmd).2.2.1
  have hendMsb := foldl_of_filter stamp (·.2.msb) (·.header = 0xB)
    (fun md => .ofNat (md.field MdField.msb)) mid t
    fun t md hmd => by simpa using (hhalves t md hmd).2.2.2
  rw [h.startLsb] at hstartLsb
  rw [h.startMsb] at hstartMsb
  rw [h.endLsb] at hendLsb
  rw [h.endMsb] at hendMsb
  generalize mid.foldl stamp t = t' at hstartLsb hstartMsb hendLsb hendMsb
  obtain ⟨⟨msb, lsb⟩, msb', lsb'⟩ := t'
  exact congrArg₂ _ (congrArg₂ _ hstartMsb hstartLsb) (congrArg₂ _ hendMsb hendLsb)

/-- The time that two messages send. -/
def sentTime (msb lsb : Md) : ℕ := msb.field MdField.msb * 2 ^ 32 + lsb.field MdField.lsb

/-- What is logged for two messages. -/
theorem d_eq_sentTime (msb lsb : Md) :
    (FrameInfoTime.d ⟨.ofNat (msb.field MdField.msb), .ofNat (lsb.field MdField.lsb)⟩).toNat =
      sentTime msb lsb ↔ msb.field MdField.msb = lsb.field MdField.lsb := by
  have hmsb : msb.field MdField.msb < 2 ^ 16 := Field.read_lt _ _
  have hlsb : lsb.field MdField.lsb < 2 ^ 32 := Field.read_lt _ _
  have heq := FrameInfoTime.d_eq_iff
    ⟨.ofNat (msb.field MdField.msb), .ofNat (lsb.field MdField.lsb)⟩
  rw [← UInt32.toNat_inj, UInt32.toNat_ofNat_of_lt' hlsb,
    UInt32.toNat_ofNat_of_lt' (hmsb.trans (by decide))] at heq
  exact heq

/-- **When the logged times are the times that were sent.** In every run of
the read loop, for every frame whose messages hold the halves of its two times
once each, in any order and among any others, and whatever came before them,
the new-frame message included: the times `frame_ended` logs at the end of the
frame are those that were sent exactly if in both the two halves are the same
number. -/
theorem frame_times (mem mem' : ℕ → Px) (mdBuffer : ℕ → UInt8) (pixelBuffer : ℕ → Px)
    (pixelBufferSize : ℕ) (reportTimeout failTimeout lackOfHitTimeout noFrames : ℤ) (acqTime : ℚ)
    (begin_ start : ℤ) (es : List Recv) {r : Reader (AcqController × List (UInt64 × UInt64))}
    (hrun : run (readLoop (timed AcqController.handlers))
      (Reader.start (katherineAcquisitionBegin
        (katherineAcquisitionInit (AcqController.fresh mem mem', []) mdBuffer pixelBuffer
          pixelBufferSize reportTimeout failTimeout lackOfHitTimeout)
        noFrames acqTime true begin_) start) es = some r)
    {pre mid post : List Md} {frameFinished startLsb startMsb endLsb endMsb : Md}
    (hmds : streamMds mdBuffer es = pre ++ mid ++ frameFinished :: post)
    (hfinished : frameFinished.header = 0xC)
    (hstamped : Stamped mid startLsb startMsb endLsb endMsb) :
    ∃ startTime endTime,
      r.acq.userCtx.2[(pre ++ mid).countP (·.header = 0xC)]? =
        some (startTime, endTime) ∧
      (startTime.toNat = sentTime startMsb startLsb ∧ endTime.toNat = sentTime endMsb endLsb ↔
        startMsb.field MdField.msb = startLsb.field MdField.lsb ∧
          endMsb.field MdField.msb = endLsb.field MdField.lsb) := by
  have hreports : r.acq.userCtx.2 = reports (⟨0, 0⟩, ⟨0, 0⟩) (streamMds mdBuffer es) :=
    times_run AcqController.handlers rfl rfl rfl hrun
  have hnow : (pre ++ mid).foldl stamp (⟨0, 0⟩, ⟨0, 0⟩) =
      (⟨.ofNat (startMsb.field MdField.msb), .ofNat (startLsb.field MdField.lsb)⟩,
        ⟨.ofNat (endMsb.field MdField.msb), .ofNat (endLsb.field MdField.lsb)⟩) := by
    rw [List.foldl_append]
    exact hstamped.times _
  refine ⟨_, _, ?_, and_congr (d_eq_sentTime startMsb startLsb) (d_eq_sentTime endMsb endLsb)⟩
  rw [hreports, hmds, reports_append, hnow, ← reports_length _ (⟨0, 0⟩, ⟨0, 0⟩),
    List.getElem?_append_right le_rfl, Nat.sub_self, reports, report, if_pos hfinished]
  rfl

/-- The messages of a frame from 1 to 2 but the first and the last. -/
def stampMds : List Md :=
  [⟨[1, 0, 0, 0, 0, 0x80], rfl⟩, ⟨[0, 0, 0, 0, 0, 0x90], rfl⟩, ⟨[2, 0, 0, 0, 0, 0xA0], rfl⟩,
    ⟨[0, 0, 0, 0, 0, 0xB0], rfl⟩]

def newFrameMd : Md := ⟨[0, 0, 0, 0, 0, 0x70], rfl⟩

/-- The frame in one datagram. -/
def frameDatagram : MdRecv := .datagram (newFrameMd :: stampMds ++ [frameFinishedMd]) 1

theorem stamped_stampMds : Stamped stampMds ⟨[1, 0, 0, 0, 0, 0x80], rfl⟩
    ⟨[0, 0, 0, 0, 0, 0x90], rfl⟩ ⟨[2, 0, 0, 0, 0, 0xA0], rfl⟩ ⟨[0, 0, 0, 0, 0, 0xB0], rfl⟩ := by
  constructor <;> decide +kernel

theorem frame_times_swapped :
    ¬ ∀ (es : List Recv) (r : Reader (AcqController × List (UInt64 × UInt64))),
      run (readLoop (timed AcqController.handlers)) (Reader.start
        (runAcqAcquisition (AcqController.fresh default default, []) default default 1 0) 0) es =
          some r →
      ∀ pre newFrame mid frameFinished post startLsb startMsb endLsb endMsb,
        streamMds default es = pre ++ newFrame :: mid ++ frameFinished :: post →
        newFrame.header = 0x7 → frameFinished.header = 0xC →
        Stamped mid startLsb startMsb endLsb endMsb →
        ∃ startTime endTime,
          r.acq.userCtx.2[(pre ++ newFrame :: mid).countP (·.header = 0xC)]? =
            some (startTime, endTime) ∧
          startTime.toNat = sentTime startMsb startLsb ∧
            endTime.toNat = sentTime endMsb endLsb := by
  intro hall
  have hlogged : (run (readLoop (timed AcqController.handlers)) (Reader.start
      (runAcqAcquisition (AcqController.fresh default default, []) default default 1 0) 0)
      [frameDatagram.recv]).map (·.acq.userCtx.2) = some [(2 ^ 32, 2 ^ 33)] := by
    decide +kernel
  obtain ⟨r, hr, hlog⟩ := Option.map_eq_some_iff.mp hlogged
  obtain ⟨startTime, endTime, htimes, hstart, -⟩ := hall _ r hr [] newFrameMd stampMds
    frameFinishedMd [] _ _ _ _ (streamMds_recv [frameDatagram] default) (by decide +kernel)
    (by decide +kernel) stamped_stampMds
  have hcount : (newFrameMd :: stampMds).countP (fun md => md.header = 0xC) = 0 := by
    decide +kernel
  rw [hlog, List.nil_append, hcount] at htimes
  obtain ⟨rfl, -⟩ := Prod.mk.inj (Option.some.inj htimes)
  exact absurd hstart (by decide +kernel)

theorem frame_times_inOrder :
    ∃ r : Reader (AcqController × List (UInt64 × UInt64)),
      run (readLoop (timed AcqController.handlers)) (Reader.start
        (runAcqAcquisition (AcqController.fresh default default, []) default default 1 0) 0)
        [frameDatagram.recv] = some r ∧
      ∃ startTime endTime, r.acq.userCtx.2[0]? = some (startTime, endTime) ∧
        ¬ (startTime.toNat = 1 ∧ endTime.toNat = 2) := by
  have hsome : (run (readLoop (timed AcqController.handlers)) (Reader.start
      (runAcqAcquisition (AcqController.fresh default default, []) default default 1 0) 0)
      [frameDatagram.recv]).isSome := by decide +kernel
  obtain ⟨r, hr⟩ := Option.isSome_iff_exists.mp hsome
  have hmds : streamMds default [frameDatagram.recv] =
      [newFrameMd] ++ stampMds ++ frameFinishedMd :: [] := streamMds_recv [frameDatagram] default
  obtain ⟨startTime, endTime, htimes, hsent⟩ := frame_times default default default default
    (pixelSize * 65536) 500 (10 * 1000) hitTimeout 1 (1 * 10 ^ 9) 0 0 [frameDatagram.recv] hr hmds
    (by decide +kernel) stamped_stampMds
  have hcount : ([newFrameMd] ++ stampMds).countP (fun md => md.header = 0xC) = 0 := by
    decide +kernel
  rw [hcount] at htimes
  refine ⟨r, hr, startTime, endTime, htimes, fun h => ?_⟩
  exact absurd (hsent.mp h) (by decide +kernel)

end Sprint3
