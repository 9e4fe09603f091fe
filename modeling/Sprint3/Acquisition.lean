/-
# The acquisition

The acquisition of `acquisition.c` in the mode `toa_tot`: the handlers of the
measurement data, the loop of `acquisition_read_toa_tot`, and the setup that
precedes it. The application's handlers are a parameter; a wall clock reading
is a number of seconds.

A `Recv` is one return of `katherine_udp_recv` with the clock readings that
follow it.
-/
import Sprint3.Lib.Run
import Sprint3.Md
import Mathlib.Data.Rat.Defs

namespace Sprint3

open Bits Memory

/-- `ACQUISITION_NOT_STARTED` and so on. -/
inductive AcqState
  | notStarted
  | running
  | succeeded
  | timedOut
  deriving DecidableEq, Repr

/-- `katherine_frame_info_time_split_t`. -/
structure FrameInfoTime where
  msb : UInt32
  lsb : UInt32
  deriving DecidableEq, Repr

/-- `katherine_frame_info_t`. -/
structure FrameInfo where
  receivedPixels : UInt64
  sentPixels : UInt64
  lostPixels : UInt64
  startTime : FrameInfoTime
  endTime : FrameInfoTime
  deriving DecidableEq, Repr

/-- A `katherine_frame_info_t` of zero bytes. -/
def FrameInfo.zero : FrameInfo := ⟨0, 0, 0, ⟨0, 0⟩, ⟨0, 0⟩⟩

/-- `katherine_acquisition_handlers_t`: what each does to the user's context. -/
structure Handlers (U : Type*) where
  pixelsReceived : U → (ℕ → Px) → ℕ → U
  frameStarted : U → ℤ → U
  frameEnded : U → ℤ → Bool → FrameInfo → U
  dataReceived : U → (ℕ → UInt8) → ℕ → U

/-- `katherine_acquisition_t`. -/
structure Acquisition (U : Type*) where
  userCtx : U
  state : AcqState
  aborted : Bool
  mdBuffer : ℕ → UInt8
  decodeData : Bool
  pixelBuffer : ℕ → Px
  pixelBufferSize : ℕ
  pixelBufferValid : ℕ
  pixelBufferMaxValid : ℕ
  requestedFrames : ℤ
  requestedFrameDuration : ℚ
  completedFrames : ℤ
  droppedMeasurementData : ℕ
  acqStartTime : ℤ
  reportTimeout : ℤ
  failTimeout : ℤ
  lackOfHitTimeout : ℤ
  currentFrameInfo : FrameInfo
  lastToaOffset : UInt64

/-- `sizeof(katherine_px_toa_tot_t)`. -/
def pixelSize : ℕ := 24

variable {U : Type*}

/-! ### Setup -/

/-- `katherine_acquisition_init` of a zero-initialised acquisition; both
buffers hold anything. -/
def katherineAcquisitionInit (userCtx : U) (mdBuffer : ℕ → UInt8) (pixelBuffer : ℕ → Px)
    (pixelBufferSize : ℕ) (reportTimeout failTimeout lackOfHitTimeout : ℤ) : Acquisition U where
  userCtx := userCtx
  state := .notStarted
  aborted := false
  mdBuffer := mdBuffer
  decodeData := false
  pixelBuffer := pixelBuffer
  pixelBufferSize := pixelBufferSize
  pixelBufferValid := 0
  pixelBufferMaxValid := 0
  requestedFrames := 0
  requestedFrameDuration := 0
  completedFrames := 0
  droppedMeasurementData := 0
  acqStartTime := 0
  reportTimeout := reportTimeout
  failTimeout := failTimeout
  lackOfHitTimeout := lackOfHitTimeout
  currentFrameInfo := .zero
  lastToaOffset := 0

/-- `katherine_acquisition_begin`, with the two settings it reads. -/
def katherineAcquisitionBegin (acq : Acquisition U) (noFrames : ℤ) (acqTime : ℚ)
    (decodeData : Bool) (now : ℤ) : Acquisition U :=
  { acq with
    decodeData := decodeData
    state := .running
    completedFrames := 0
    requestedFrames := noFrames
    requestedFrameDuration := acqTime / 10 ^ 9
    droppedMeasurementData := 0
    pixelBufferValid := 0
    pixelBufferMaxValid := 0
    lastToaOffset := 0
    acqStartTime := now }

/-! ### Measurement data -/

section Handle

variable (h : Handlers U)

def flushBuffer (acq : Acquisition U) : Acquisition U :=
  { acq with
    userCtx := h.pixelsReceived acq.userCtx acq.pixelBuffer acq.pixelBufferValid
    currentFrameInfo.receivedPixels :=
      acq.currentFrameInfo.receivedPixels + .ofNat acq.pixelBufferValid
    pixelBufferValid := 0 }

def handleNewFrame (acq : Acquisition U) : Acquisition U :=
  { acq with
    currentFrameInfo := .zero
    userCtx := h.frameStarted acq.userCtx acq.completedFrames }

def handleTimestampOffsetDrivenMode (acq : Acquisition U) (data : UInt64) : Acquisition U :=
  { acq with lastToaOffset := (MdField.timeOffset.extract data).toUInt32.toUInt64 <<< 14 }

def handleCurrentFrameFinished (acq : Acquisition U) (data : UInt64) : Acquisition U :=
  let acq := flushBuffer h acq
  let acq := { acq with currentFrameInfo.sentPixels := MdField.nSent.extract data }
  let acq :=
    { acq with
      userCtx := h.frameEnded acq.userCtx acq.completedFrames true acq.currentFrameInfo
      completedFrames := acq.completedFrames + 1 }
  if acq.completedFrames = acq.requestedFrames then { acq with state := .succeeded } else acq

def handleFrameStartTimestampLsb (acq : Acquisition U) (data : UInt64) : Acquisition U :=
  { acq with currentFrameInfo.startTime.lsb := (MdField.lsb.extract data).toUInt32 }

def handleFrameStartTimestampMsb (acq : Acquisition U) (data : UInt64) : Acquisition U :=
  { acq with currentFrameInfo.startTime.msb := (MdField.msb.extract data).toUInt16.toUInt32 }

def handleFrameEndTimestampLsb (acq : Acquisition U) (data : UInt64) : Acquisition U :=
  { acq with currentFrameInfo.endTime.lsb := (MdField.lsb.extract data).toUInt32 }

def handleFrameEndTimestampMsb (acq : Acquisition U) (data : UInt64) : Acquisition U :=
  { acq with currentFrameInfo.endTime.msb := (MdField.msb.extract data).toUInt16.toUInt32 }

def handleLostPixelCount (acq : Acquisition U) (data : UInt64) : Acquisition U :=
  { acq with
    currentFrameInfo.lostPixels := acq.currentFrameInfo.lostPixels + MdField.nLost.extract data }

def handleAbortedMeasurement (acq : Acquisition U) : Acquisition U := { acq with aborted := true }

def handleTriggerInfo (acq : Acquisition U) : Acquisition U := acq

def handleUnknownMsg (acq : Acquisition U) : Acquisition U :=
  { acq with droppedMeasurementData := acq.droppedMeasurementData + 1 }

/-- A message with header 4. -/
def handlePixel (acq : Acquisition U) (md : UInt64) : Acquisition U :=
  let acq := if acq.pixelBufferValid = acq.pixelBufferMaxValid then flushBuffer h acq else acq
  { acq with
    pixelBuffer := store acq.pixelBuffer acq.pixelBufferValid (pmdToaTotMap md acq.lastToaOffset)
    pixelBufferValid := acq.pixelBufferValid + 1 }

/-- `handle_measurement_data_toa_tot`. -/
def handleMeasurementData (acq : Acquisition U) (md : UInt64) : Acquisition U :=
  let hdr := (MdField.header.extract md).toUInt8
  if hdr = 0x4 then handlePixel h acq md
  else
    match hdr.toNat with
    | 0x2 => handleTriggerInfo acq
    | 0x3 => handleTriggerInfo acq
    | 0x5 => handleTimestampOffsetDrivenMode acq md
    | 0x7 => handleNewFrame h acq
    | 0x8 => handleFrameStartTimestampLsb acq md
    | 0x9 => handleFrameStartTimestampMsb acq md
    | 0xA => handleFrameEndTimestampLsb acq md
    | 0xB => handleFrameEndTimestampMsb acq md
    | 0xC => handleCurrentFrameFinished h acq md
    | 0xD => handleLostPixelCount acq md
    | 0xE => handleAbortedMeasurement acq
    | _ => handleUnknownMsg acq

/-- The messages at `it, it + 6, …`, `n` of them. -/
def handleDatagram (acq : Acquisition U) (it n : ℕ) : Acquisition U :=
  (List.range' it n mdSize).foldl
    (fun acq i => handleMeasurementData h acq (load64 acq.mdBuffer i)) acq

end Handle

/-! ### The read loop -/

/-- A return of `katherine_udp_recv`: the bytes it stored, and `time(NULL)`
after it; or a failure, and the two readings taken then. -/
inductive Recv
  | data (bytes : List UInt8) (now : ℤ)
  | fail (now now' : ℤ)
  deriving DecidableEq, Repr

/-- The clock readings a receive is followed by. -/
def Recv.clock : Recv → List ℤ
  | .data _ now => [now]
  | .fail now now' => [now, now']

/-- No clock reading from `start` on is below an earlier one. -/
def Nondecreasing (start : ℤ) (es : List Recv) : Prop :=
  (start :: es.flatMap Recv.clock).Pairwise (· ≤ ·)

instance (start : ℤ) (es : List Recv) : Decidable (Nondecreasing start es) := by
  unfold Nondecreasing
  infer_instance

/-- The acquisition with the locals of `acquisition_read_toa_tot`. -/
structure Reader (U : Type*) where
  acq : Acquisition U
  lastDataReceived : ℤ
  killOffTime : ℚ

/-- Seconds from the start of the acquisition, `-1` if there is no limit. -/
def Acquisition.killOffTime (acq : Acquisition U) : ℚ :=
  if acq.failTimeout ≤ 0 then -1
  else acq.requestedFrames * acq.requestedFrameDuration + acq.failTimeout / 1000

/-- Before the first iteration. -/
def Reader.start (acq : Acquisition U) (now : ℤ) : Reader U where
  acq :=
    { acq with pixelBufferValid := 0, pixelBufferMaxValid := acq.pixelBufferSize / pixelSize }
  lastDataReceived := now
  killOffTime := acq.killOffTime

/-- The iterations of `for (i = 0; i < received; i += KATHERINE_MD_SIZE)`. -/
def mdCount (received : ℕ) : ℕ := (received + (mdSize - 1)) / mdSize

/-- What `katherine_udp_recv` leaves in `md_buffer`. -/
def recvInto (mdBuffer : ℕ → UInt8) (bytes : List UInt8) : ℕ → UInt8 :=
  copy mdBuffer 0 (ofList bytes) 0 bytes.length

/-- The acquisition with the received bytes in its buffer. -/
def Acquisition.stored (acq : Acquisition U) (bytes : List UInt8) : Acquisition U :=
  { acq with mdBuffer := recvInto acq.mdBuffer bytes }

/-- The branch of a failed receive. -/
def Reader.failed (h : Handlers U) (r : Reader U) (now now' : ℤ) : Reader U :=
  let acq := r.acq
  let duration := 1000 * (now - r.lastDataReceived)
  let acq :=
    if acq.reportTimeout > 0 ∧ duration > acq.reportTimeout ∧ acq.pixelBufferValid > 0 then
      flushBuffer h acq
    else acq
  let acq := if duration > acq.lackOfHitTimeout then { acq with state := .timedOut } else acq
  let duration := now' - acq.acqStartTime
  let acq :=
    if r.killOffTime > 0 ∧ duration > r.killOffTime then { acq with state := .timedOut } else acq
  let acq := if !acq.decodeData && acq.aborted then { acq with state := .succeeded } else acq
  { r with acq := acq }

/-- The branch of a successful receive. -/
def Reader.received (h : Handlers U) (r : Reader U) (bytes : List UInt8) (now : ℤ) : Reader U :=
  let acq := r.acq.stored bytes
  { r with
    acq :=
      if acq.decodeData then handleDatagram h acq 0 (mdCount bytes.length)
      else { acq with userCtx := h.dataReceived acq.userCtx acq.mdBuffer bytes.length }
    lastDataReceived := now }

/-- An iteration of the loop. -/
def Reader.iterate (h : Handlers U) (r : Reader U) : Recv → Reader U
  | .data bytes now => r.received h bytes now
  | .fail now now' => r.failed h now now'

/-- `while (acq->state == ACQUISITION_RUNNING)`: the iteration of a receive, if there is one. -/
def readLoop (h : Handlers U) (r : Reader U) (e : Recv) : Option (Reader U) :=
  if r.acq.state = .running then some (r.iterate h e) else none

theorem readLoop_eq_some {h : Handlers U} {r r' : Reader U} {e : Recv} :
    readLoop h r e = some r' ↔ r.acq.state = .running ∧ r.iterate h e = r' := by
  unfold readLoop
  by_cases hrunning : r.acq.state = .running
  · simp [hrunning]
  · simp [hrunning]

/-- The result of `acquisition_read_toa_tot`. -/
inductive ReadResult
  | ok
  | etimedout
  | eagain
  deriving DecidableEq, Repr

def readResult : AcqState → ReadResult
  | .succeeded => .ok
  | .timedOut => .etimedout
  | _ => .eagain

end Sprint3
