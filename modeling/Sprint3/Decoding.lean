/-
# Decoding a stream of measurement data

At every head of the read loop, the arrays handed to the application followed
by the pixel buffer are the reference decode of the messages received so far,
whichever way these were cut into datagrams and whatever receives failed in
between (`measurement_stream`).

What a message does depends on the message alone (`handled`); the invariant
`DecodeInv` is kept by each message, by each flush, hence by each iteration.
-/
import Sprint3.AcqController

namespace Sprint3

open Bits Memory Run

variable {U : Type*} (h : Handlers U)

/-! ### One message -/

/-- What the driver does with a message. -/
inductive Handled (acq : Acquisition U) (md : Md) (word : UInt64) : Acquisition U → Prop
  | pixel (hdr : md.header = 0x4) : Handled acq md word (handlePixel h acq word)
  | offset (hdr : md.header = 0x5) (offset : UInt64)
    (hoffset : offset.toNat = 2 ^ 14 * md.field MdField.timeOffset) :
    Handled acq md word { acq with lastToaOffset := offset }
  | newFrame (hdr : md.header = 0x7) : Handled acq md word (handleNewFrame h acq)
  | frameFinished (hdr : md.header = 0xC) :
    Handled acq md word (handleCurrentFrameFinished h acq word)
  | unknown (hdr : md.Unrecognised) : Handled acq md word (handleUnknownMsg acq)
  | other (hdr : md.header ∈ [0x2, 0x3, 0x8, 0x9, 0xA, 0xB, 0xD, 0xE]) (info : FrameInfo)
    (hinfo : info.receivedPixels = acq.currentFrameInfo.receivedPixels) (aborted : Bool) :
    Handled acq md word { acq with currentFrameInfo := info, aborted := aborted }

theorem header_toNat (m : ℕ → UInt8) (i : ℕ) :
    (MdField.header.extract (load64 m i)).toUInt8.toNat = (Md.at_ m i).header := by
  have hlt : (Md.at_ m i).field MdField.header < 2 ^ 4 := Field.read_lt _ _
  rw [UInt64.toNat_toUInt8, extract_word _ (by decide)]
  exact Nat.mod_eq_of_lt (by omega)

theorem header_eq_pixel (m : ℕ → UInt8) (i : ℕ) :
    (MdField.header.extract (load64 m i)).toUInt8 = 0x4 ↔ (Md.at_ m i).header = 0x4 := by
  rw [← header_toNat, ← UInt8.toNat_inj]
  rfl

/-- A 32-bit offset, shifted to its place. -/
theorem offset_toNat {v : ℕ} (hv : v < 2 ^ 32) :
    ((UInt64.ofNat v).toUInt32.toUInt64 <<< 14).toNat = 2 ^ 14 * v := by
  rw [UInt64.toNat_shiftLeft, UInt32.toNat_toUInt64, UInt64.toNat_toUInt32,
    UInt64.toNat_ofNat_of_lt' (by simp only [UInt64.size]; omega), Nat.mod_eq_of_lt hv]
  change v <<< 14 % 2 ^ 64 = 2 ^ 14 * v
  rw [Nat.shiftLeft_eq]
  omega

theorem handleOffset_eq (acq : Acquisition U) (m : ℕ → UInt8) (i : ℕ) : ∃ offset : UInt64,
    offset.toNat = 2 ^ 14 * (Md.at_ m i).field MdField.timeOffset ∧
      handleTimestampOffsetDrivenMode acq (load64 m i) = { acq with lastToaOffset := offset } := by
  refine ⟨_, ?_, rfl⟩
  rw [extract_eq _ (by decide)]
  exact offset_toNat (Field.read_lt MdField.timeOffset _)

/-- The message at an address is handled by its header. -/
theorem handled (acq : Acquisition U) (m : ℕ → UInt8) (i : ℕ) :
    Handled h acq (Md.at_ m i) (load64 m i) (handleMeasurementData h acq (load64 m i)) := by
  have hhdr := header_toNat m i
  have hpixel := header_eq_pixel m i
  have hother : (Md.at_ m i).header ∈ [0x2, 0x3, 0x8, 0x9, 0xA, 0xB, 0xD, 0xE] →
      ∀ acq' : Acquisition U,
        acq'.currentFrameInfo.receivedPixels = acq.currentFrameInfo.receivedPixels →
        { acq with currentFrameInfo := acq'.currentFrameInfo } = acq' →
        Handled h acq (Md.at_ m i) (load64 m i) acq' := fun hdr acq' hinfo hrest =>
    hrest ▸ .other hdr acq'.currentFrameInfo hinfo acq.aborted
  unfold handleMeasurementData
  simp only [hpixel, hhdr]
  by_cases h4 : (Md.at_ m i).header = 0x4
  · rw [if_pos h4]
    exact .pixel h4
  · rw [if_neg h4]
    split
    case h_1 hdr => exact .other (by simp [hdr]) acq.currentFrameInfo rfl acq.aborted
    case h_2 hdr => exact .other (by simp [hdr]) acq.currentFrameInfo rfl acq.aborted
    case h_3 hdr =>
      obtain ⟨offset, hoffset, heq⟩ := handleOffset_eq acq m i
      exact heq ▸ .offset hdr offset hoffset
    case h_4 hdr => exact .newFrame hdr
    case h_5 hdr => exact hother (by simp [hdr]) (handleFrameStartTimestampLsb acq _) rfl rfl
    case h_6 hdr => exact hother (by simp [hdr]) (handleFrameStartTimestampMsb acq _) rfl rfl
    case h_7 hdr => exact hother (by simp [hdr]) (handleFrameEndTimestampLsb acq _) rfl rfl
    case h_8 hdr => exact hother (by simp [hdr]) (handleFrameEndTimestampMsb acq _) rfl rfl
    case h_9 hdr => exact .frameFinished hdr
    case h_10 hdr => exact hother (by simp [hdr]) (handleLostPixelCount acq _) rfl rfl
    case h_11 hdr => exact .other (by simp [hdr]) acq.currentFrameInfo rfl true
    case h_12 h2 h3 h5 h7 h8 h9 hA hB hC hD hE =>
      exact .unknown (by
        simpa [Md.Unrecognised, h4] using And.intro h2 ⟨h3, h5, h7, h8, h9, hA, hB, hC, hD, hE⟩)

/-- What an acquisition keeps while it is read. -/
structure Setup where
  decodeData : Bool
  pixelBufferMaxValid : ℕ
  acqStartTime : ℤ
  reportTimeout : ℤ
  lackOfHitTimeout : ℤ

def Acquisition.setup (acq : Acquisition U) : Setup where
  decodeData := acq.decodeData
  pixelBufferMaxValid := acq.pixelBufferMaxValid
  acqStartTime := acq.acqStartTime
  reportTimeout := acq.reportTimeout
  lackOfHitTimeout := acq.lackOfHitTimeout

/-- No message touches the received bytes or the setup. -/
theorem Handled.frame {acq acq' : Acquisition U} {md : Md} {word : UInt64}
    (hd : Handled h acq md word acq') :
    acq'.mdBuffer = acq.mdBuffer ∧ acq'.setup = acq.setup := by
  cases hd with
  | pixel hdr =>
    unfold handlePixel flushBuffer
    split <;> exact ⟨rfl, rfl⟩
  | frameFinished hdr =>
    unfold handleCurrentFrameFinished flushBuffer
    simp only
    split <;> exact ⟨rfl, rfl⟩
  | _ => exact ⟨rfl, rfl⟩

/-! ### The messages of a run -/

/-- The `n` messages from address `it` on. -/
def mdsAt (m : ℕ → UInt8) (it n : ℕ) : List Md := (List.range' it n mdSize).map (Md.at_ m)

/-- What is in `md_buffer` after a receive. -/
def Recv.buffer (mdBuffer : ℕ → UInt8) : Recv → ℕ → UInt8
  | .data bytes _ => recvInto mdBuffer bytes
  | .fail _ _ => mdBuffer

/-- The messages the driver reads after a receive; if the bytes end within a
message, the rest of it is what the buffer held there. -/
def Recv.mds (mdBuffer : ℕ → UInt8) : Recv → List Md
  | .data bytes _ => mdsAt (recvInto mdBuffer bytes) 0 (mdCount bytes.length)
  | .fail _ _ => []

def bufferAfter (mdBuffer : ℕ → UInt8) (es : List Recv) : ℕ → UInt8 :=
  es.foldl Recv.buffer mdBuffer

/-- The messages of a run. -/
def streamMds (mdBuffer : ℕ → UInt8) : List Recv → List Md
  | [] => []
  | e :: es => e.mds mdBuffer ++ streamMds (e.buffer mdBuffer) es

theorem streamMds_concat : ∀ (es : List Recv) (e : Recv) (m : ℕ → UInt8),
    streamMds m (es ++ [e]) = streamMds m es ++ e.mds (bufferAfter m es)
  | [], e, m => by simp [streamMds, bufferAfter]
  | e' :: es, e, m => by
    simp only [List.cons_append, streamMds, streamMds_concat es e, List.append_assoc]
    rfl

theorem bufferAfter_concat (es : List Recv) (e : Recv) (m : ℕ → UInt8) :
    bufferAfter m (es ++ [e]) = e.buffer (bufferAfter m es) := by
  simp [bufferAfter]

/-- What every message keeps, a datagram keeps. -/
theorem handleDatagram_invariant {P : List Md → Acquisition U → Prop} {m : ℕ → UInt8}
    (hmd : ∀ mds acq i, P mds acq →
      P (mds ++ [Md.at_ m i]) (handleMeasurementData h acq (load64 m i))) :
    ∀ (n it : ℕ) (mds : List Md) (acq : Acquisition U), P mds acq → acq.mdBuffer = m →
      P (mds ++ mdsAt m it n) (handleDatagram h acq it n) ∧
        (handleDatagram h acq it n).mdBuffer = m
  | 0, it, mds, acq, hP, hm => by
    have hmds : mds ++ mdsAt m it 0 = mds := by simp [mdsAt]
    rw [hmds]
    exact ⟨hP, hm⟩
  | n + 1, it, mds, acq, hP, hm => by
    have hstep := hmd mds acq it hP
    have hframe := (handled h acq m it).frame.1
    have ih := handleDatagram_invariant hmd n (it + mdSize) _ _ hstep (hframe.trans hm)
    have hmds : mds ++ mdsAt m it (n + 1) =
        mds ++ [Md.at_ m it] ++ mdsAt m (it + mdSize) n := by
      simp [mdsAt, List.range'_succ]
    rw [hmds]
    unfold handleDatagram at ih ⊢
    rw [List.range'_succ, List.foldl_cons, hm]
    exact ih

/-! ### One receive -/

/-- A datagram is handled message by message. -/
theorem received_eq (r : Reader U) (bytes : List UInt8) (now : ℤ)
    (hdecode : r.acq.decodeData = true) :
    (r.received h bytes now).acq = handleDatagram h (r.acq.stored bytes) 0 (mdCount bytes.length) :=
  if_pos hdecode

/-- The state a failed receive leads to. -/
def Reader.failedState (r : Reader U) (now now' : ℤ) : AcqState :=
  if !r.acq.decodeData && r.acq.aborted then .succeeded
  else if r.acq.lackOfHitTimeout < 1000 * (now - r.lastDataReceived) ∨
      0 < r.killOffTime ∧ r.killOffTime < (now' - r.acq.acqStartTime : ℤ) then .timedOut
  else r.acq.state

/-- A failed receive flushes the buffer or leaves it, and sets the state. -/
theorem failed_eq (r : Reader U) (now now' : ℤ) : (r.failed h now now').acq =
    { (if r.acq.reportTimeout > 0 ∧ 1000 * (now - r.lastDataReceived) > r.acq.reportTimeout ∧
        r.acq.pixelBufferValid > 0 then flushBuffer h r.acq else r.acq) with
      state := r.failedState now now' } := by
  obtain ⟨acq, hacq, hsetup, haborted, hstate⟩ : ∃ acq,
      (if r.acq.reportTimeout > 0 ∧ 1000 * (now - r.lastDataReceived) > r.acq.reportTimeout ∧
        r.acq.pixelBufferValid > 0 then flushBuffer h r.acq else r.acq) = acq ∧
      acq.setup = r.acq.setup ∧ acq.aborted = r.acq.aborted ∧ acq.state = r.acq.state := by
    split_ifs
    · exact ⟨_, rfl, rfl, rfl, rfl⟩
    · exact ⟨_, rfl, rfl, rfl, rfl⟩
  have hlack : acq.lackOfHitTimeout = r.acq.lackOfHitTimeout := congrArg Setup.lackOfHitTimeout hsetup
  have hbegin : acq.acqStartTime = r.acq.acqStartTime := congrArg Setup.acqStartTime hsetup
  have hdecode : acq.decodeData = r.acq.decodeData := congrArg Setup.decodeData hsetup
  unfold Reader.failed Reader.failedState
  simp only [hacq]
  rw [← hlack, ← hbegin, ← hdecode, ← haborted, ← hstate]
  by_cases hhit : acq.lackOfHitTimeout < 1000 * (now - r.lastDataReceived)
  · by_cases hkill : 0 < r.killOffTime ∧ r.killOffTime < (now' - acq.acqStartTime : ℤ)
    · simp only [gt_iff_lt, hhit, hkill, if_true, true_or, and_self]
      split_ifs <;> rfl
    · simp only [gt_iff_lt, hhit, if_true, true_or]
      split_ifs <;> rfl
  · by_cases hkill : 0 < r.killOffTime ∧ r.killOffTime < (now' - acq.acqStartTime : ℤ)
    · simp only [gt_iff_lt, hhit, hkill, if_true, if_false, false_or, and_self]
      split_ifs <;> rfl
    · simp only [gt_iff_lt, hhit, hkill, if_false, false_or]
      split_ifs <;> rfl

/-- The time of the latest datagram, `start` if there is none. -/
def lastDataTime (start : ℤ) : List Recv → ℤ
  | [] => start
  | .data _ now :: es => lastDataTime now es
  | .fail _ _ :: es => lastDataTime start es

theorem lastDataTime_concat : ∀ (es : List Recv) (e : Recv) (start : ℤ),
    lastDataTime start (es ++ [e]) = lastDataTime (lastDataTime start es) [e]
  | [], _, _ => rfl
  | .data _ now :: es, e, _ => lastDataTime_concat es e now
  | .fail _ _ :: es, e, start => lastDataTime_concat es e start

/-- What a run leaves alone, and where its variables come from. -/
structure Frame (r : Reader U) (es : List Recv) (r' : Reader U) : Prop where
  setup : r'.acq.setup = r.acq.setup
  mdBuffer : r'.acq.mdBuffer = bufferAfter r.acq.mdBuffer es
  lastDataReceived : r'.lastDataReceived = lastDataTime r.lastDataReceived es
  killOffTime : r'.killOffTime = r.killOffTime

section Frame

variable {r r' : Reader U} {es : List Recv} (hframe : Frame r es r')

include hframe

theorem Frame.decodeData : r'.acq.decodeData = r.acq.decodeData :=
  congrArg Setup.decodeData hframe.setup

theorem Frame.acqStartTime : r'.acq.acqStartTime = r.acq.acqStartTime :=
  congrArg Setup.acqStartTime hframe.setup

theorem Frame.reportTimeout : r'.acq.reportTimeout = r.acq.reportTimeout :=
  congrArg Setup.reportTimeout hframe.setup

theorem Frame.lackOfHitTimeout : r'.acq.lackOfHitTimeout = r.acq.lackOfHitTimeout :=
  congrArg Setup.lackOfHitTimeout hframe.setup

end Frame

theorem frame_run {r r' : Reader U} {es : List Recv} (hrun : run (readLoop h) r es = some r') :
    Frame r es r' := by
  refine run_invariant hrun (Frame r) ⟨rfl, rfl, rfl, rfl⟩ ?_
  intro es m e m' _ hframe hstep
  obtain ⟨-, rfl⟩ := readLoop_eq_some.mp hstep
  have hbuffer := bufferAfter_concat es e r.acq.mdBuffer
  have hlast := lastDataTime_concat es e r.lastDataReceived
  rw [← hframe.mdBuffer] at hbuffer
  rw [← hframe.lastDataReceived] at hlast
  cases e with
  | data bytes now =>
    have hdatagram := handleDatagram_invariant h (P := fun _ acq => acq.setup = r.acq.setup)
      (fun mds acq i hsetup => (handled h acq _ i).frame.2.trans hsetup)
      (mdCount bytes.length) 0 [] (m.acq.stored bytes) hframe.setup rfl
    have hdata : ((m.received h bytes now).acq.setup = r.acq.setup) ∧
        (m.received h bytes now).acq.mdBuffer = recvInto m.acq.mdBuffer bytes := by
      by_cases hdecode : m.acq.decodeData = true
      · rw [received_eq h m bytes now hdecode]
        exact hdatagram
      · have hraw : (m.received h bytes now).acq = { m.acq.stored bytes with
            userCtx := h.dataReceived m.acq.userCtx (m.acq.stored bytes).mdBuffer bytes.length } :=
          if_neg hdecode
        rw [hraw]
        exact ⟨hframe.setup, rfl⟩
    exact ⟨hdata.1, hdata.2.trans hbuffer.symm, hlast.symm, hframe.killOffTime⟩
  | fail now now' =>
    have hfailed := failed_eq h m now now'
    refine ⟨?_, ?_, hlast.symm, hframe.killOffTime⟩
    · simp only [Reader.iterate, hfailed]
      split_ifs <;> exact hframe.setup
    · simp only [Reader.iterate, hfailed, hbuffer]
      split_ifs <;> rfl

/-- **The rule of the messages.** What every message keeps, and what a receive
does besides, holds at every head of the loop. -/
theorem messages_run {P : List Md → Acquisition U → Prop}
    (hmessage : ∀ mds acq m i, P mds acq →
      P (mds ++ [Md.at_ m i]) (handleMeasurementData h acq (load64 m i)))
    (hstored : ∀ mds acq bytes, P mds acq → P mds (acq.stored bytes))
    (hflush : ∀ mds acq, P mds acq → P mds (flushBuffer h acq))
    (hstate : ∀ mds acq state, P mds acq → P mds { acq with state := state })
    {r r' : Reader U} (hstart : P [] r.acq) (hdecode : r.acq.decodeData = true) {es : List Recv}
    (hrun : run (readLoop h) r es = some r') : P (streamMds r.acq.mdBuffer es) r'.acq := by
  refine run_invariant hrun (fun es r' => P (streamMds r.acq.mdBuffer es) r'.acq) hstart ?_
  intro es m e m' hm hP hstep
  obtain ⟨-, rfl⟩ := readLoop_eq_some.mp hstep
  have hframe := frame_run h hm
  rw [streamMds_concat, ← hframe.mdBuffer]
  cases e with
  | data bytes now =>
    have hdatagram := handleDatagram_invariant h (P := P) (fun mds acq i => hmessage mds acq _ i)
      (mdCount bytes.length) 0 _ _ (hstored _ _ bytes hP) rfl
    rw [← received_eq h m bytes now (hframe.decodeData.trans hdecode)] at hdatagram
    exact hdatagram.1
  | fail now now' =>
    have hfailed := failed_eq h m now now'
    simp only [Reader.iterate, hfailed, Recv.mds, List.append_nil]
    split_ifs
    · exact hstate _ _ _ (hflush _ _ hP)
    · exact hstate _ _ _ hP

/-! ### The invariant -/

/-- Handlers that also keep the arrays `pixels_received` is called with. -/
def logged (h : Handlers U) : Handlers (U × List (List Px)) where
  pixelsReceived ctx px count := (h.pixelsReceived ctx.1 px count, ctx.2 ++ [slice px 0 count])
  frameStarted ctx idx := (h.frameStarted ctx.1 idx, ctx.2)
  frameEnded ctx idx completed info := (h.frameEnded ctx.1 idx completed info, ctx.2)
  dataReceived ctx data count := (h.dataReceived ctx.1 data count, ctx.2)

/-- After the messages `mds`, with room for `max` pixels. -/
structure DecodeInv (max : ℕ) (mds : List Md) (acq : Acquisition (U × List (List Px))) : Prop where
  pixels : acq.userCtx.2.flatten ++ slice acq.pixelBuffer 0 acq.pixelBufferValid = refDecode 0 mds
  offset : acq.lastToaOffset.toNat = 2 ^ 14 * refOffset 0 mds
  max_eq : acq.pixelBufferMaxValid = max
  valid_le : acq.pixelBufferValid ≤ max
  arrays : ∀ px ∈ acq.userCtx.2, px.length ≤ max
  dropped : acq.droppedMeasurementData = mds.countP (·.Unrecognised)
  decodes : acq.decodeData = true

section Invariant

variable {max : ℕ} {mds : List Md} {acq acq' : Acquisition (U × List (List Px))}

theorem DecodeInv.flush (hinv : DecodeInv max mds acq) :
    DecodeInv max mds (flushBuffer (logged h) acq) where
  pixels := by
    have hpixels := hinv.pixels
    simpa [flushBuffer, logged] using hpixels
  offset := hinv.offset
  max_eq := hinv.max_eq
  valid_le := Nat.zero_le _
  arrays := by
    have hlen := hinv.valid_le
    intro px hpx
    rcases List.mem_append.mp hpx with hpx | hpx
    · exact hinv.arrays px hpx
    · obtain rfl := List.mem_singleton.mp hpx
      simpa using hlen
  dropped := hinv.dropped
  decodes := hinv.decodes

/-- A message that is neither a pixel nor an offset, and that the driver knows. -/
theorem DecodeInv.quiet {md : Md} (h4 : md.header ≠ 0x4) (h5 : md.header ≠ 0x5)
    (hknown : ¬ md.Unrecognised) (hinv : DecodeInv max mds acq)
    (hctx : acq'.userCtx.2 = acq.userCtx.2)
    (hsame : (acq'.pixelBuffer, acq'.pixelBufferValid, acq'.pixelBufferMaxValid,
      acq'.lastToaOffset, acq'.droppedMeasurementData, acq'.decodeData) =
      (acq.pixelBuffer, acq.pixelBufferValid, acq.pixelBufferMaxValid,
      acq.lastToaOffset, acq.droppedMeasurementData, acq.decodeData)) :
    DecodeInv max (mds ++ [md]) acq' := by
  simp only [Prod.mk.injEq] at hsame
  obtain ⟨hbuf, hvalid, hmax, hoffset, hdropped, hdecodes⟩ := hsame
  refine ⟨?_, ?_, hmax.trans hinv.max_eq, hvalid ▸ hinv.valid_le, hctx ▸ hinv.arrays, ?_,
    hdecodes.trans hinv.decodes⟩
  · rw [hctx, hbuf, hvalid, hinv.pixels, refDecode_concat, if_neg h4, List.append_nil]
  · rw [hoffset, hinv.offset, refOffset_concat, if_neg h5]
  · rw [hdropped, hinv.dropped, List.countP_append, List.countP_singleton]
    simp [hknown]

theorem DecodeInv.pixel {m : ℕ → UInt8} {i : ℕ} (hmax : 0 < max) (hinv : DecodeInv max mds acq)
    (hdr : (Md.at_ m i).header = 0x4) :
    DecodeInv max (mds ++ [Md.at_ m i]) (handlePixel (logged h) acq (load64 m i)) := by
  obtain ⟨acq₁, hacq₁, hinv₁, hroom⟩ : ∃ acq₁,
      (if acq.pixelBufferValid = acq.pixelBufferMaxValid then flushBuffer (logged h) acq else acq) =
        acq₁ ∧ DecodeInv max mds acq₁ ∧ acq₁.pixelBufferValid < max := by
    have hle := hinv.valid_le
    have hm := hinv.max_eq
    by_cases hfull : acq.pixelBufferValid = acq.pixelBufferMaxValid
    · rw [if_pos hfull]
      exact ⟨_, rfl, hinv.flush h, hmax⟩
    · rw [if_neg hfull]
      exact ⟨_, rfl, hinv, by omega⟩
  have hknown : ¬ (Md.at_ m i).Unrecognised := by simp [Md.Unrecognised, hdr]
  have hoff : refOffset 0 mds < 2 ^ 32 := refOffset_lt mds (by decide)
  unfold handlePixel
  simp only [hacq₁]
  refine ⟨?_, ?_, hinv₁.max_eq, hroom, hinv₁.arrays, ?_, hinv₁.decodes⟩
  · rw [slice_store, ← List.append_assoc, hinv₁.pixels, refDecode_concat, if_pos hdr,
      pmdToaTotMap_word m i hoff hinv₁.offset]
  · rw [hinv₁.offset, refOffset_concat, if_neg (by omega)]
  · rw [hinv₁.dropped, List.countP_append, List.countP_singleton]
    simp [hknown]

/-- Every message keeps the invariant. -/
theorem DecodeInv.message (hmax : 0 < max) (hinv : DecodeInv max mds acq) (m : ℕ → UInt8) (i : ℕ) :
    DecodeInv max (mds ++ [Md.at_ m i])
      (handleMeasurementData (logged h) acq (load64 m i)) := by
  generalize hacq' : handleMeasurementData (logged h) acq (load64 m i) = acq'
  cases hacq' ▸ handled (logged h) acq m i with
  | pixel hdr => exact hinv.pixel h hmax hdr
  | offset hdr offset hoffset =>
    have hknown : ¬ (Md.at_ m i).Unrecognised := by simp [Md.Unrecognised, hdr]
    refine ⟨?_, ?_, hinv.max_eq, hinv.valid_le, hinv.arrays, ?_, hinv.decodes⟩
    · rw [refDecode_concat, if_neg (by omega), List.append_nil]
      exact hinv.pixels
    · rw [refOffset_concat, if_pos hdr]
      exact hoffset
    · rw [List.countP_append, List.countP_singleton]
      simpa [hknown] using hinv.dropped
  | newFrame hdr =>
    exact hinv.quiet (by omega) (by omega) (by simp [Md.Unrecognised, hdr]) rfl rfl
  | frameFinished hdr =>
    refine (hinv.flush h).quiet (by omega) (by omega) (by simp [Md.Unrecognised, hdr]) ?_ ?_
    · unfold handleCurrentFrameFinished
      simp only
      split <;> rfl
    · unfold handleCurrentFrameFinished
      simp only
      split <;> rfl
  | unknown hdr =>
    have h4 : (Md.at_ m i).header ≠ 0x4 := fun h4 => hdr (by simp [h4])
    have h5 : (Md.at_ m i).header ≠ 0x5 := fun h5 => hdr (by simp [h5])
    unfold handleUnknownMsg
    refine ⟨?_, ?_, hinv.max_eq, hinv.valid_le, hinv.arrays, ?_, hinv.decodes⟩
    · rw [refDecode_concat, if_neg h4, List.append_nil]
      exact hinv.pixels
    · rw [refOffset_concat, if_neg h5]
      exact hinv.offset
    · rw [List.countP_append, List.countP_singleton, ← hinv.dropped]
      simp [hdr]
  | other hdr info hinfo aborted =>
    refine hinv.quiet (fun h4 => ?_) (fun h5 => ?_) (fun hunknown => ?_) rfl rfl
    · simp [h4] at hdr
    · simp [h5] at hdr
    · simp only [List.mem_cons, List.not_mem_nil, or_false] at hdr
      exact hunknown (by simp only [List.mem_cons]; omega)

theorem DecodeInv.state (hinv : DecodeInv max mds acq) (state : AcqState) :
    DecodeInv max mds { acq with state := state } :=
  ⟨hinv.pixels, hinv.offset, hinv.max_eq, hinv.valid_le, hinv.arrays, hinv.dropped, hinv.decodes⟩

theorem DecodeInv.stored (hinv : DecodeInv max mds acq) (bytes : List UInt8) :
    DecodeInv max mds (acq.stored bytes) :=
  ⟨hinv.pixels, hinv.offset, hinv.max_eq, hinv.valid_le, hinv.arrays, hinv.dropped, hinv.decodes⟩

end Invariant

/-- At every head, over the messages received so far. -/
theorem decodeInv_run {max : ℕ} (hmax : 0 < max) {r r' : Reader (U × List (List Px))}
    (hstart : DecodeInv max [] r.acq) {es : List Recv}
    (hrun : run (readLoop (logged h)) r es = some r') :
    DecodeInv max (streamMds r.acq.mdBuffer es) r'.acq :=
  messages_run (logged h) (fun _ _ m i hinv => hinv.message h hmax m i)
    (fun _ _ bytes hinv => hinv.stored bytes) (fun _ _ hinv => hinv.flush h)
    (fun _ _ state hinv => hinv.state state) hstart hstart.decodes hrun

/-! ### The controller's count -/

/-- The controller counts the pixels the frame has received. -/
def Counted (acq : Acquisition (AcqController × List (List Px))) : Prop :=
  acq.userCtx.1.nHits = acq.currentFrameInfo.receivedPixels

section Counted

variable {acq acq' : Acquisition (AcqController × List (List Px))}

theorem Counted.flush (hc : Counted acq) :
    Counted (flushBuffer (logged AcqController.handlers) acq) := by
  unfold Counted at hc
  simp [Counted, flushBuffer, logged, AcqController.handlers, AcqController.pixelsReceived, hc]

theorem Counted.message (hc : Counted acq) (m : ℕ → UInt8) (i : ℕ) :
    Counted (handleMeasurementData (logged AcqController.handlers) acq (load64 m i)) := by
  generalize hacq' : handleMeasurementData (logged AcqController.handlers) acq (load64 m i) = acq'
  cases hacq' ▸ handled (logged AcqController.handlers) acq m i with
  | pixel hdr =>
    unfold handlePixel
    by_cases hfull : acq.pixelBufferValid = acq.pixelBufferMaxValid
    · simp only [if_pos hfull]
      exact hc.flush
    · simp only [if_neg hfull]
      exact hc
  | offset hdr offset hoffset => exact hc
  | newFrame hdr => rfl
  | frameFinished hdr =>
    unfold handleCurrentFrameFinished
    simp only
    split <;> exact hc.flush
  | unknown hdr => exact hc
  | other hdr info hinfo aborted => exact Eq.trans hc hinfo.symm

theorem counted_run {r r' : Reader (AcqController × List (List Px))} (hstart : Counted r.acq)
    (hdecode : r.acq.decodeData = true) {es : List Recv}
    (hrun : run (readLoop (logged AcqController.handlers)) r es = some r') : Counted r'.acq :=
  messages_run (logged AcqController.handlers) (P := fun _ acq => Counted acq)
    (fun _ _ m i hc => hc.message m i) (fun _ _ _ hc => hc) (fun _ _ hc => hc.flush)
    (fun _ _ _ hc => hc) hstart hdecode hrun

end Counted

/-! ### Datagrams of whole messages -/

/-- A datagram of whole messages, or a failed receive. -/
inductive MdRecv
  | datagram (mds : List Md) (now : ℤ)
  | fail (now now' : ℤ)
  deriving DecidableEq, Repr

namespace MdRecv

/-- The receive, byte for byte. -/
def recv : MdRecv → Recv
  | .datagram mds now => .data (mds.flatMap Md.bytes) now
  | .fail now now' => .fail now now'

def mds : MdRecv → List Md
  | .datagram mds _ => mds
  | .fail _ _ => []

end MdRecv

theorem length_flatMap_bytes (mds : List Md) :
    (mds.flatMap Md.bytes).length = mdSize * mds.length := by
  simp [List.length_flatMap, Md.size, Nat.mul_comm]

theorem drop_flatMap_bytes : ∀ (mds : List Md) (k : ℕ),
    (mds.flatMap Md.bytes).drop (mdSize * k) = (mds.drop k).flatMap Md.bytes
  | mds, 0 => rfl
  | [], k + 1 => by simp
  | md :: mds, k + 1 => by
    have ih := drop_flatMap_bytes mds k
    have hk : mdSize * (k + 1) = md.bytes.length + mdSize * k := by rw [md.size]; ring
    rw [List.flatMap_cons, hk, List.drop_length_add_append, List.drop_succ_cons, ih]

/-- A buffer that a datagram of whole messages has just filled holds these messages. -/
theorem mdsAt_datagram (m : ℕ → UInt8) (mds : List Md) :
    mdsAt (recvInto m (mds.flatMap Md.bytes)) 0 (mdCount (mds.flatMap Md.bytes).length) = mds := by
  have hcount : mdCount (mds.flatMap Md.bytes).length = mds.length := by
    rw [length_flatMap_bytes, mdCount, mdSize]
    omega
  rw [hcount]
  refine List.ext_getElem (by simp [mdsAt]) fun k hk hk' => Md.ext ?_
  have hlen := length_flatMap_bytes mds
  have hfits : mdSize * k + mdSize ≤ (mds.flatMap Md.bytes).length := by
    rw [hlen, mdSize]
    omega
  have hbytes : (mds.drop k).flatMap Md.bytes =
      mds[k].bytes ++ (mds.drop (k + 1)).flatMap Md.bytes := by
    rw [← List.cons_getElem_drop_succ (h := hk'), List.flatMap_cons]
  have hat : (mdsAt (recvInto m (mds.flatMap Md.bytes)) 0 mds.length)[k].bytes =
      slice (recvInto m (mds.flatMap Md.bytes)) (0 + mdSize * k) mdSize := by
    simp [mdsAt, Md.at_]
  rw [hat, recvInto, slice_copy_within m 0 _ hfits, Nat.zero_add, slice_ofList_range hfits,
    drop_flatMap_bytes, hbytes]
  exact List.take_left' mds[k].size

/-- The messages of a run do not depend on the datagrams they came in. -/
theorem streamMds_recv : ∀ (es : List MdRecv) (m : ℕ → UInt8),
    streamMds m (es.map MdRecv.recv) = es.flatMap MdRecv.mds
  | [], _ => rfl
  | .datagram mds now :: es, m => by
    simp only [List.map_cons, streamMds, streamMds_recv es, List.flatMap_cons, MdRecv.recv,
      Recv.mds, mdsAt_datagram, MdRecv.mds]
  | .fail now now' :: es, m => by
    simp only [List.map_cons, streamMds, streamMds_recv es, List.flatMap_cons, MdRecv.recv,
      Recv.mds, MdRecv.mds]

/-- **Decoding does not depend on the packets and conserves pixels.** At every
head of the read loop of a fresh acquisition, over the messages `mds` received
so far in whatever datagrams and between whatever failed receives: the arrays
handed to `pixels_received` followed by the pixel buffer are the reference
decode of `mds`; the buffer and every array handed out fit its room; the
dropped messages are the unrecognised ones; and the controller's `nHits` is
the frame's `received_pixels`. -/
theorem measurement_stream (mem mem' : ℕ → Px) (mdBuffer : ℕ → UInt8) (pixelBuffer : ℕ → Px)
    {pixelBufferSize : ℕ} (hsize : pixelSize ≤ pixelBufferSize)
    (reportTimeout failTimeout lackOfHitTimeout noFrames : ℤ) (acqTime : ℚ) (begin_ start : ℤ)
    (es : List MdRecv) {r : Reader (AcqController × List (List Px))}
    (hrun : run (readLoop (logged AcqController.handlers))
      (Reader.start (katherineAcquisitionBegin
        (katherineAcquisitionInit (AcqController.fresh mem mem', []) mdBuffer pixelBuffer
          pixelBufferSize reportTimeout failTimeout lackOfHitTimeout)
        noFrames acqTime true begin_) start) (es.map MdRecv.recv) = some r) :
    let mds := es.flatMap MdRecv.mds
    r.acq.userCtx.2.flatten ++ slice r.acq.pixelBuffer 0 r.acq.pixelBufferValid = refDecode 0 mds ∧
      r.acq.pixelBufferMaxValid = pixelBufferSize / pixelSize ∧
      r.acq.pixelBufferValid ≤ r.acq.pixelBufferMaxValid ∧
      (∀ px ∈ r.acq.userCtx.2, px.length ≤ r.acq.pixelBufferMaxValid) ∧
      r.acq.droppedMeasurementData = mds.countP (·.Unrecognised) ∧
      r.acq.userCtx.1.nHits = r.acq.currentFrameInfo.receivedPixels := by
  intro mds
  have hmax : 0 < pixelBufferSize / pixelSize := Nat.div_pos hsize (by decide)
  have hinv := decodeInv_run AcqController.handlers hmax
    ⟨rfl, rfl, rfl, Nat.zero_le _, fun _ h => absurd h List.not_mem_nil, rfl, rfl⟩ hrun
  rw [streamMds_recv] at hinv
  have hcount := counted_run (by rfl) (by rfl) hrun
  exact ⟨hinv.pixels, hinv.max_eq, hinv.max_eq ▸ hinv.valid_le, hinv.max_eq ▸ hinv.arrays,
    hinv.dropped, hcount⟩

/-- A pixel at (10, 10). -/
def pixelMd : Md := ⟨[0x10, 0x40, 0x00, 0xA0, 0xA0, 0x40], rfl⟩

/-- A timestamp offset of 3. -/
def offsetMd : Md := ⟨[0x03, 0x00, 0x00, 0x00, 0x00, 0x50], rfl⟩

/-- The end of a frame with one pixel. -/
def frameFinishedMd : Md := ⟨[0x01, 0x00, 0x00, 0x00, 0x00, 0xC0], rfl⟩

/-- A pixel before and a pixel after an offset, with a failed receive in between. -/
theorem measurement_stream_example :
    let acq := katherineAcquisitionBegin
      (katherineAcquisitionInit (AcqController.fresh default default, ([] : List (List Px)))
        default default pixelSize 500 0 hitTimeout) 1 0 true 0
    let es : List MdRecv :=
      [.datagram [pixelMd] 1, .fail 2 2, .datagram [offsetMd, pixelMd] 3]
    ∃ r, run (readLoop (logged AcqController.handlers)) (Reader.start acq 0) (es.map MdRecv.recv) =
        some r ∧
      r.acq.userCtx.2.flatten ++ slice r.acq.pixelBuffer 0 r.acq.pixelBufferValid =
        [⟨⟨10, 10⟩, 1, 0, 1⟩, ⟨⟨10, 10⟩, 49153, 0, 1⟩] ∧
      r.acq.userCtx.1.nHits = r.acq.currentFrameInfo.receivedPixels := by
  intro acq es
  have hsome : (run (readLoop (logged AcqController.handlers)) (Reader.start acq 0)
      (es.map MdRecv.recv)).isSome := by decide +kernel
  obtain ⟨r, hr⟩ := Option.isSome_iff_exists.mp hsome
  obtain ⟨hpixels, -, -, -, -, hcount⟩ := measurement_stream default default default default
    (le_refl pixelSize) 500 0 hitTimeout 1 0 0 0 es hr
  refine ⟨r, hr, hpixels.trans ?_, hcount⟩
  decide +kernel

end Sprint3
