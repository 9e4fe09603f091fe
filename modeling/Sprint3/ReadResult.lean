/-
# How a read ends

A receive of `acquisition_read_toa_tot` decides by itself whether it is the
last. A datagram is if with its messages as many frames have ended as were
requested, a failed receive if one of the limits has passed; so a read returns
zero exactly at the end of the last frame requested, `ETIMEDOUT` exactly at a
limit, and `EAGAIN` never (`read_ends`).

If the data are not decoded, every datagram is handed on as it is, and none
ends the read. It returns zero at the first failed receive after an abort
(`raw_read`), which is a call of `katherine_acquisition_abort` that could send
its command (`rawStep_abort`).
-/
import Sprint3.AcquisitionBegin
import Sprint3.AcquisitionEnd

namespace Sprint3

open Bits Memory Run

/-! ### Frames -/

/-- The frames that have ended. -/
def framesEnded (mds : List Md) : ℕ := mds.countP (·.header = 0xC)

/-- All of `n` requested frames have ended. -/
def Complete (n : ℤ) (mds : List Md) : Prop := 1 ≤ n ∧ n ≤ framesEnded mds

instance (n : ℤ) (mds : List Md) : Decidable (Complete n mds) := by
  unfold Complete
  infer_instance

theorem framesEnded_concat (mds : List Md) (md : Md) :
    framesEnded (mds ++ [md]) = framesEnded mds + if md.header = 0xC then 1 else 0 := by
  unfold framesEnded
  rw [List.countP_append, List.countP_singleton]
  simp

/-- Frames are complete with the message that ends the last of them. -/
theorem complete_concat {n : ℤ} {mds : List Md} {md : Md} : Complete n (mds ++ [md]) ↔
    Complete n mds ∨ md.header = 0xC ∧ n = framesEnded (mds ++ [md]) := by
  rw [Complete, Complete, framesEnded_concat]
  by_cases hC : md.header = 0xC
  · rw [if_pos hC]
    simp only [hC, true_and]
    omega
  · rw [if_neg hC]
    simp [hC]

section Message

variable {U : Type*} (h : Handlers U) {n : ℤ}

/-- The acquisition counts the frames that have ended. -/
structure Counts (n : ℤ) (mds : List Md) (acq : Acquisition U) : Prop where
  completed : acq.completedFrames = framesEnded mds
  requested : acq.requestedFrames = n

theorem Counts.message {mds : List Md} {acq : Acquisition U} (hc : Counts n mds acq)
    (m : ℕ → UInt8) (i : ℕ) :
    Counts n (mds ++ [Md.at_ m i]) (handleMeasurementData h acq (load64 m i)) ∧
      (handleMeasurementData h acq (load64 m i)).state =
        if (Md.at_ m i).header = 0xC ∧ n = framesEnded (mds ++ [Md.at_ m i]) then .succeeded
        else acq.state := by
  have hconcat := framesEnded_concat mds (Md.at_ m i)
  have hother : (Md.at_ m i).header ≠ 0xC → ∀ acq' : Acquisition U,
      (acq'.completedFrames, acq'.requestedFrames, acq'.state) =
        (acq.completedFrames, acq.requestedFrames, acq.state) →
      Counts n (mds ++ [Md.at_ m i]) acq' ∧ acq'.state =
        if (Md.at_ m i).header = 0xC ∧ n = framesEnded (mds ++ [Md.at_ m i]) then .succeeded
        else acq.state := by
    intro hC acq' hsame
    simp only [Prod.mk.injEq] at hsame
    obtain ⟨hcompleted, hrequested, hstate⟩ := hsame
    rw [if_neg hC, Nat.add_zero] at hconcat
    rw [if_neg fun hfinished => hC hfinished.1]
    refine ⟨⟨?_, hrequested.trans hc.requested⟩, hstate⟩
    rw [hcompleted, hc.completed, hconcat]
  generalize hacq' : handleMeasurementData h acq (load64 m i) = acq'
  cases hacq' ▸ handled h acq m i with
  | pixel hdr =>
    apply hother (by omega)
    unfold handlePixel flushBuffer
    split <;> rfl
  | offset hdr offset hoffset => exact hother (by omega) _ rfl
  | newFrame hdr => exact hother (by omega) _ rfl
  | frameFinished hdr =>
    rw [if_pos hdr] at hconcat
    have hcompleted := hc.completed
    have hrequested := hc.requested
    have hreached : acq.completedFrames + 1 = acq.requestedFrames ↔
        n = framesEnded (mds ++ [Md.at_ m i]) := by
      rw [hcompleted, hrequested, hconcat]
      push_cast
      exact eq_comm
    have hcount : acq.completedFrames + 1 = framesEnded (mds ++ [Md.at_ m i]) := by
      rw [hcompleted, hconcat]
      rfl
    unfold handleCurrentFrameFinished flushBuffer
    simp only
    by_cases hlast : acq.completedFrames + 1 = acq.requestedFrames
    · rw [if_pos hlast, if_pos ⟨hdr, hreached.mp hlast⟩]
      exact ⟨⟨hcount, hrequested⟩, rfl⟩
    · rw [if_neg hlast, if_neg fun hall => hlast (hreached.mpr hall.2)]
      exact ⟨⟨hcount, hrequested⟩, rfl⟩
  | unknown hdr => exact hother (fun hC => hdr (by simp [hC])) _ rfl
  | other hdr info hinfo aborted => exact hother (fun hC => by simp [hC] at hdr) _ rfl

/-- While it decodes a datagram, the acquisition succeeds with the end of the last frame. -/
structure Decides (n : ℤ) (mds : List Md) (acq : Acquisition U) : Prop extends Counts n mds acq where
  state : acq.state = if Complete n mds then .succeeded else .running

theorem Decides.message {mds : List Md} {acq : Acquisition U} (hd : Decides n mds acq)
    (m : ℕ → UInt8) (i : ℕ) :
    Decides n (mds ++ [Md.at_ m i]) (handleMeasurementData h acq (load64 m i)) := by
  obtain ⟨hcounts, hstate⟩ := hd.toCounts.message h m i
  refine ⟨hcounts, ?_⟩
  rw [hstate, hd.state]
  by_cases hlast : (Md.at_ m i).header = 0xC ∧ n = framesEnded (mds ++ [Md.at_ m i])
  · rw [if_pos hlast, if_pos (complete_concat.mpr (.inr hlast))]
  · have hiff : Complete n (mds ++ [Md.at_ m i]) ↔ Complete n mds :=
      complete_concat.trans (or_iff_left hlast)
    rw [if_neg hlast]
    simp only [hiff]

/-- At every head of the loop, if it goes on, a frame is missing. -/
structure Continues (n : ℤ) (mds : List Md) (acq : Acquisition U) : Prop extends
    Counts n mds acq where
  incomplete : acq.state = .running → ¬Complete n mds

end Message

/-! ### The end of a read -/

/-- A limit has passed: on the time since the latest datagram, or on the whole read. -/
def Expired (killOffTime : ℚ) (lackOfHitTimeout begin_ lastData now now' : ℤ) : Prop :=
  lackOfHitTimeout < 1000 * (now - lastData) ∨
    0 < killOffTime ∧ killOffTime < (now' - begin_ : ℤ)

/-- The result of a read that ends with this receive. -/
def Recv.result : Recv → ReadResult
  | .data _ _ => .ok
  | .fail _ _ => .etimedout

instance (killOffTime : ℚ) (lackOfHitTimeout begin_ lastData now now' : ℤ) :
    Decidable (Expired killOffTime lackOfHitTimeout begin_ lastData now now') := by
  unfold Expired
  infer_instance

section Run

variable {U : Type*} (h : Handlers U) {n : ℤ} {r r' : Reader U}

/-- A datagram of a read that goes on. -/
theorem received_decides {mds : List Md} (hc : Continues n mds r.acq)
    (hrunning : r.acq.state = .running) (hdecode : r.acq.decodeData = true) (bytes : List UInt8)
    (now : ℤ) :
    Decides n (mds ++ (Recv.data bytes now).mds r.acq.mdBuffer) (r.received h bytes now).acq := by
  have hstart : Decides n mds (r.acq.stored bytes) := by
    refine ⟨⟨hc.completed, hc.requested⟩, ?_⟩
    rw [if_neg (hc.incomplete hrunning)]
    exact hrunning
  rw [received_eq h r bytes now hdecode]
  exact (handleDatagram_invariant h (fun mds acq i hd => hd.message h _ i)
    (mdCount bytes.length) 0 mds (r.acq.stored bytes) hstart rfl).1

theorem failed_counts {mds : List Md} (hc : Counts n mds r.acq) (now now' : ℤ) :
    Counts n mds (r.failed h now now').acq := by
  rw [failed_eq]
  split_ifs <;> exact ⟨hc.completed, hc.requested⟩

/-- At every head, over the messages received so far. -/
theorem continues_run (hstart : Continues n [] r.acq) (hdecode : r.acq.decodeData = true)
    {es : List Recv} (hrun : run (readLoop h) r es = some r') :
    Continues n (streamMds r.acq.mdBuffer es) r'.acq := by
  refine run_invariant hrun (fun es r' => Continues n (streamMds r.acq.mdBuffer es) r'.acq)
    hstart ?_
  intro es m e m' hm hc hstep
  obtain ⟨hrunning, rfl⟩ := readLoop_eq_some.mp hstep
  have hframe := frame_run h hm
  rw [streamMds_concat, ← hframe.mdBuffer]
  cases e with
  | data bytes now =>
    have hd := received_decides h hc hrunning (hframe.decodeData.trans hdecode) bytes now
    refine ⟨hd.toCounts, fun hrunning hcomplete => ?_⟩
    have hstate := hd.state
    rw [if_pos hcomplete] at hstate
    exact absurd (hstate.symm.trans hrunning) (by decide)
  | fail now now' =>
    simp only [Recv.mds, List.append_nil]
    exact ⟨failed_counts h hc.toCounts now now', fun _ => hc.incomplete hrunning⟩

end Run

/-- **How a read ends.** In every read of an acquisition that decodes its data,
the latest receive, whatever came before it: not all of the requested frames
had ended before; a datagram ends the read, with success, if they have with its
messages, and a failed receive ends it, as timed out, if a limit has passed.
So the kind of the last receive is the result. -/
theorem read_ends {U : Type*} (h : Handlers U) (userCtx : U) (mdBuffer : ℕ → UInt8)
    (pixelBuffer : ℕ → Px) (pixelBufferSize : ℕ)
    (reportTimeout failTimeout lackOfHitTimeout noFrames : ℤ) (acqTime : ℚ) (begin_ start : ℤ)
    (es : List Recv) (e : Recv) {r : Reader U}
    (hrun : run (readLoop h)
      (Reader.start (katherineAcquisitionBegin
        (katherineAcquisitionInit userCtx mdBuffer pixelBuffer pixelBufferSize reportTimeout
          failTimeout lackOfHitTimeout) noFrames acqTime true begin_) start) (es ++ [e]) =
        some r) :
    let killOffTime : ℚ :=
      if failTimeout ≤ 0 then -1 else noFrames * (acqTime / 10 ^ 9) + failTimeout / 1000
    ¬Complete noFrames (streamMds mdBuffer es) ∧
    (∀ bytes now, e = .data bytes now → r.acq.state =
      if Complete noFrames (streamMds mdBuffer (es ++ [e])) then .succeeded else .running) ∧
    (∀ now now', e = .fail now now' → r.acq.state =
      if Expired killOffTime lackOfHitTimeout begin_ (lastDataTime start es) now now' then
        .timedOut
      else .running) ∧
    (r.acq.state ≠ .running → readResult r.acq.state = e.result) := by
  intro killOffTime
  obtain ⟨m, hm, hstep⟩ := run_concat.mp hrun
  obtain ⟨hrunning, rfl⟩ := readLoop_eq_some.mp hstep
  have hframe := frame_run h hm
  have hzero : ¬Complete noFrames [] := by
    unfold Complete framesEnded
    simp only [List.countP_nil]
    omega
  have hc := continues_run h ⟨⟨rfl, rfl⟩, fun _ => hzero⟩ rfl hm
  have hdecode : m.acq.decodeData = true := hframe.decodeData
  have hdata : ∀ bytes now, e = .data bytes now → (m.iterate h e).acq.state =
      if Complete noFrames (streamMds mdBuffer (es ++ [e])) then .succeeded else .running := by
    rintro bytes now rfl
    have hmds : streamMds mdBuffer (es ++ [.data bytes now]) =
        streamMds mdBuffer es ++ (Recv.data bytes now).mds m.acq.mdBuffer := by
      rw [streamMds_concat, hframe.mdBuffer]
      rfl
    rw [hmds]
    exact (received_decides h hc hrunning hdecode bytes now).state
  have hfail : ∀ now now', e = .fail now now' → (m.iterate h e).acq.state =
      if Expired killOffTime lackOfHitTimeout begin_ (lastDataTime start es) now now' then
        .timedOut
      else .running := by
    rintro now now' rfl
    have hlast : m.lastDataReceived = lastDataTime start es := hframe.lastDataReceived
    have hlack : m.acq.lackOfHitTimeout = lackOfHitTimeout := hframe.lackOfHitTimeout
    have hbegin : m.acq.acqStartTime = begin_ := hframe.acqStartTime
    have hkill : m.killOffTime = killOffTime := hframe.killOffTime
    have hdone : ¬(!m.acq.decodeData && m.acq.aborted) = true := by simp [hdecode]
    simp only [Reader.iterate, failed_eq, Reader.failedState, if_neg hdone, hrunning, hlast, hlack,
      hbegin, hkill]
    rfl
  refine ⟨hc.incomplete hrunning, hdata, hfail, fun hend => ?_⟩
  cases e with
  | data bytes now =>
    rw [hdata bytes now rfl] at hend ⊢
    split_ifs at hend ⊢
    · rfl
    · exact absurd rfl hend
  | fail now now' =>
    rw [hfail now now' rfl] at hend ⊢
    split_ifs at hend ⊢
    · rfl
    · exact absurd rfl hend

/-- A frame that ends in the second datagram, after a receive that failed in time. -/
theorem read_ends_frame : ∃ r : Reader Unit,
    run (readLoop noHandlers) (Reader.start (runAcqAcquisition () default default 10 0) 0)
      ([.data pixelMd.bytes 1, .fail 2 2] ++ [.data frameFinishedMd.bytes 3]) = some r ∧
    readResult r.acq.state = .ok := by
  have hstate : (run (readLoop noHandlers)
      (Reader.start (runAcqAcquisition () default default 10 0) 0)
      ([.data pixelMd.bytes 1, .fail 2 2] ++ [.data frameFinishedMd.bytes 3])).map (·.acq.state) =
        some .succeeded := by decide +kernel
  obtain ⟨r, hr, hsucceeded⟩ := Option.map_eq_some_iff.mp hstate
  obtain ⟨-, -, -, hresult⟩ := read_ends noHandlers () default default (pixelSize * 65536) 500
    (10 * 1000) hitTimeout 1 (10 * 10 ^ 9) 0 0 _ _ hr
  exact ⟨r, hr, hresult (by rw [hsucceeded]; decide)⟩

/-! ### Data that are not decoded -/

/-- An iteration of the loop, or `katherine_acquisition_abort` of another thread. -/
inductive RawEvent
  | recv (e : Recv)
  | abort
  deriving DecidableEq, Repr

/-- The receives among the events. -/
def receives : List RawEvent → List Recv
  | [] => []
  | .recv e :: evs => e :: receives evs
  | .abort :: evs => receives evs

/-- The bytes of a datagram. -/
def Recv.bytes? : Recv → Option (List UInt8)
  | .data bytes _ => some bytes
  | .fail _ _ => none

/-- What the handlers are called with, the data alone. -/
inductive RawCall
  | data (bytes : List UInt8)
  | decoded
  deriving DecidableEq, Repr

def keeping : Handlers (List RawCall) where
  pixelsReceived calls _ _ := calls ++ [.decoded]
  frameStarted calls _ := calls ++ [.decoded]
  frameEnded calls _ _ _ := calls ++ [.decoded]
  dataReceived calls data count := calls ++ [.data (slice data 0 count)]

def rawStep {U : Type*} (h : Handlers U) (r : Reader U) : RawEvent → Option (Reader U)
  | .recv e => readLoop h r e
  | .abort => some { r with acq := { r.acq with aborted := true } }

/-- **An abort is such an event.** A call of `katherine_acquisition_abort` on the
acquisition that is being read sends the stop command, and the read goes on as
after an `abort`; or the command cannot be sent, and nothing has happened. -/
theorem rawStep_abort {U : Type} (h : Handlers U) (net : Network) (c : ControlSocket)
    (session : Session U) (lastDataReceived : ℤ) (killOffTime : ℚ) :
    match Session.katherineAcquisitionAbort net (c, session) with
    | .ok _ (c', session') =>
      c'.sent =
        c.sent ++ [(AcqCmdType.acquisitionStop.message session.readoutMode.toInt).encode] ∧
      rawStep h ⟨session.acq, lastDataReceived, killOffTime⟩ .abort =
        some ⟨session'.acq, lastDataReceived, killOffTime⟩
    | .error _ (c', session') => c'.sent = c.sent ∧ session' = session := by
  have habort := Session.triple_abort net (c, session) ⟨(List.append_nil c.sent).symm, rfl⟩
  cases hrun : Session.katherineAcquisitionAbort net (c, session) with
  | ok a s' =>
    rw [hrun] at habort
    obtain ⟨hsent, hsession⟩ := habort
    refine ⟨hsent, ?_⟩
    rw [hsession]
    rfl
  | error e s' =>
    rw [hrun] at habort
    obtain ⟨hsent, hsession⟩ := habort
    exact ⟨hsent.trans (List.append_nil _), hsession⟩

theorem receives_append : ∀ evs evs' : List RawEvent,
    receives (evs ++ evs') = receives evs ++ receives evs'
  | [], _ => rfl
  | .recv e :: evs, evs' => congrArg (e :: ·) (receives_append evs evs')
  | .abort :: evs, evs' => receives_append evs evs'

/-- What was received lies in front of what `md_buffer` held. -/
theorem slice_recvInto (mdBuffer : ℕ → UInt8) (bytes : List UInt8) :
    slice (recvInto mdBuffer bytes) 0 bytes.length = bytes := by
  rw [recvInto, slice_copy, slice_ofList]

/-- After these events, of a read that does not decode. -/
structure Raw (r : Reader (List RawCall)) (evs : List RawEvent) (r' : Reader (List RawCall)) :
    Prop where
  calls : r'.acq.userCtx = ((receives evs).filterMap Recv.bytes?).map .data
  aborted : r'.acq.aborted = decide (.abort ∈ evs)
  decodes : r'.acq.decodeData = false
  empty : r'.acq.pixelBufferValid = 0
  setup : r'.acq.setup = r.acq.setup
  lastDataReceived : r'.lastDataReceived = lastDataTime r.lastDataReceived (receives evs)
  killOffTime : r'.killOffTime = r.killOffTime

section Raw

variable {r m : Reader (List RawCall)} {evs : List RawEvent}

theorem Raw.abort (hraw : Raw r evs m) :
    Raw r (evs ++ [.abort]) { m with acq := { m.acq with aborted := true } } := by
  have hsame : receives (evs ++ [.abort]) = receives evs := by
    rw [receives_append]
    exact List.append_nil _
  refine ⟨?_, ?_, hraw.decodes, hraw.empty, hraw.setup, ?_, hraw.killOffTime⟩
  · rw [hsame]
    exact hraw.calls
  · simp
  · rw [hsame]
    exact hraw.lastDataReceived

theorem Raw.data (hraw : Raw r evs m) (bytes : List UInt8) (now : ℤ) :
    Raw r (evs ++ [.recv (.data bytes now)]) (m.received keeping bytes now) := by
  have hdecodes : (m.acq.stored bytes).decodeData = false := hraw.decodes
  have hreceives : receives (evs ++ [.recv (.data bytes now)]) =
      receives evs ++ [.data bytes now] := receives_append _ _
  have hacq : (m.received keeping bytes now).acq = { m.acq.stored bytes with
      userCtx := m.acq.userCtx ++ [.data bytes] } := by
    have hslice := slice_recvInto m.acq.mdBuffer bytes
    unfold Reader.received
    simp only [hdecodes, Bool.false_eq_true, if_false]
    simp only [keeping, Acquisition.stored, hslice]
  constructor
  · rw [hacq, hreceives, List.filterMap_append, List.map_append, ← hraw.calls]
    rfl
  · rw [hacq]
    simp [Acquisition.stored, hraw.aborted]
  · rw [hacq]
    exact hdecodes
  · rw [hacq]
    exact hraw.empty
  · rw [hacq]
    exact hraw.setup
  · rw [hreceives, lastDataTime_concat]
    rfl
  · exact hraw.killOffTime

theorem Raw.fail (hraw : Raw r evs m) (now now' : ℤ) :
    Raw r (evs ++ [.recv (.fail now now')]) (m.failed keeping now now') := by
  have hreceives : receives (evs ++ [.recv (.fail now now')]) =
      receives evs ++ [.fail now now'] := receives_append _ _
  have hempty := hraw.empty
  have hacq : (m.failed keeping now now').acq = { m.acq with state := m.failedState now now' } := by
    rw [failed_eq, if_neg (by omega)]
  constructor
  · have hnone : [Recv.fail now now'].filterMap Recv.bytes? = [] := rfl
    rw [hacq, hreceives, List.filterMap_append, hnone, List.append_nil]
    exact hraw.calls
  · rw [hacq]
    simp [hraw.aborted]
  · rw [hacq]
    exact hraw.decodes
  · rw [hacq]
    exact hempty
  · rw [hacq]
    exact hraw.setup
  · rw [hreceives, lastDataTime_concat]
    exact hraw.lastDataReceived
  · exact hraw.killOffTime

theorem raw_run {r' : Reader (List RawCall)} (hstart : Raw r [] r)
    (hrun : run (rawStep keeping) r evs = some r') : Raw r evs r' := by
  refine run_invariant hrun (Raw r) hstart ?_
  intro evs m ev m' _ hraw hstep
  cases ev with
  | abort =>
    obtain rfl := Option.some.inj hstep
    exact hraw.abort
  | recv e =>
    obtain ⟨-, rfl⟩ := readLoop_eq_some.mp hstep
    cases e with
    | data bytes now => exact hraw.data bytes now
    | fail now now' => exact hraw.fail now now'

end Raw

/-- **A read that does not decode.** Whatever is received and whenever it is
aborted: the data of each datagram are handed on as they are, and nothing
else; no datagram ends the read; a failed receive does, with success if the
acquisition was aborted before, or as timed out if a limit has passed. -/
theorem raw_read (mdBuffer : ℕ → UInt8) (pixelBuffer : ℕ → Px) (pixelBufferSize : ℕ)
    (reportTimeout failTimeout lackOfHitTimeout noFrames : ℤ) (acqTime : ℚ) (begin_ start : ℤ)
    (evs : List RawEvent) (e : Recv) {r : Reader (List RawCall)}
    (hrun : run (rawStep keeping)
      (Reader.start (katherineAcquisitionBegin
        (katherineAcquisitionInit [] mdBuffer pixelBuffer pixelBufferSize reportTimeout
          failTimeout lackOfHitTimeout) noFrames acqTime false begin_) start)
      (evs ++ [.recv e]) = some r) :
    let killOffTime : ℚ :=
      if failTimeout ≤ 0 then -1 else noFrames * (acqTime / 10 ^ 9) + failTimeout / 1000
    r.acq.userCtx = ((receives (evs ++ [.recv e])).filterMap Recv.bytes?).map .data ∧
    (∀ bytes now, e = .data bytes now → r.acq.state = .running) ∧
    ∀ now now', e = .fail now now' → r.acq.state =
      if .abort ∈ evs then .succeeded
      else if Expired killOffTime lackOfHitTimeout begin_ (lastDataTime start (receives evs))
          now now' then .timedOut
      else .running := by
  intro killOffTime
  have hstart := (raw_run ⟨rfl, rfl, rfl, rfl, rfl, rfl, rfl⟩ hrun).calls
  obtain ⟨m, hm, hstep⟩ := run_concat.mp hrun
  obtain ⟨hrunning, rfl⟩ := readLoop_eq_some.mp hstep
  have hraw := raw_run ⟨rfl, rfl, rfl, rfl, rfl, rfl, rfl⟩ hm
  refine ⟨hstart, ?_, ?_⟩
  · rintro bytes now rfl
    have hdecodes : (m.acq.stored bytes).decodeData = false := hraw.decodes
    simp only [Reader.iterate, Reader.received, hdecodes, Bool.false_eq_true, if_false]
    exact hrunning
  · rintro now now' rfl
    have hlast : m.lastDataReceived = lastDataTime start (receives evs) := hraw.lastDataReceived
    have hlack : m.acq.lackOfHitTimeout = lackOfHitTimeout :=
      congrArg Setup.lackOfHitTimeout hraw.setup
    have hbegin : m.acq.acqStartTime = begin_ := congrArg Setup.acqStartTime hraw.setup
    have hkill : m.killOffTime = killOffTime := hraw.killOffTime
    simp only [Reader.iterate, failed_eq, Reader.failedState, hraw.decodes, hraw.aborted, hrunning,
      hlast, hlack, hbegin, hkill, Bool.not_false, Bool.true_and, decide_eq_true_eq]
    rfl

/-- Three bytes, an abort, and nothing more. -/
theorem raw_read_abort : ∃ r : Reader (List RawCall),
    run (rawStep keeping)
      (Reader.start (katherineAcquisitionBegin
        (katherineAcquisitionInit [] default default pixelSize 500 0 hitTimeout) 1 0 false 0) 0)
      ([.recv (.data [1, 2, 3] 1), .abort] ++ [.recv (.fail 2 2)]) = some r ∧
    r.acq.userCtx = [.data [1, 2, 3]] ∧ r.acq.state = .succeeded := by
  have hsome : (run (rawStep keeping)
      (Reader.start (katherineAcquisitionBegin
        (katherineAcquisitionInit [] default default pixelSize 500 0 hitTimeout) 1 0 false 0) 0)
      ([.recv (.data [1, 2, 3] 1), .abort] ++ [.recv (.fail 2 2)])).isSome := by decide +kernel
  obtain ⟨r, hr⟩ := Option.isSome_iff_exists.mp hsome
  obtain ⟨hcalls, -, hstate⟩ :=
    raw_read default default pixelSize 500 0 hitTimeout 1 0 0 0 _ _ hr
  have hsucceeded := hstate 2 2 rfl
  rw [if_pos (by decide)] at hsucceeded
  exact ⟨r, hr, hcalls, hsucceeded⟩

end Sprint3
