/-
# The acquisition controller

`AcqController` of the application: its handlers of an acquisition's events,
and the acquisition that `runAcq` reads, with `loadConfig`'s settings.
-/
import Sprint3.Acquisition
import Sprint3.SafeBuff

namespace Sprint3

/-- `AcqController`, its buffers in place of the pointers to them. -/
structure AcqController where
  nHits : UInt64
  rawHitsBuff : SafeBuff Px
  rawHitsToWriteBuff : SafeBuff Px

namespace AcqController

/-- A controller as constructed, on buffers as constructed. -/
def fresh (mem mem' : ℕ → Px) : AcqController := ⟨0, .fresh mem, .fresh mem'⟩

def frameStarted (c : AcqController) (_frameIdx : ℤ) : AcqController := { c with nHits := 0 }

/-- `frame_ended` logs the frame. -/
def frameEnded (c : AcqController) (_frameIdx : ℤ) (_completed : Bool) (_info : FrameInfo) :
    AcqController := c

def pixelsReceived (c : AcqController) (px : ℕ → Px) (count : ℕ) : AcqController where
  nHits := c.nHits + .ofNat count
  rawHitsBuff := (c.rawHitsBuff.addElements count px).buff
  rawHitsToWriteBuff := (c.rawHitsToWriteBuff.addElements count px).buff

/-- The handlers `runAcq` sets; that of `data_received` stays the default one. -/
def handlers : Handlers AcqController where
  pixelsReceived := pixelsReceived
  frameStarted := frameStarted
  frameEnded := frameEnded
  dataReceived c _ _ := c

end AcqController

variable {U : Type*}

/-- The acquisition as `runAcq` reads it: `loadConfig` sets one frame of
`acqTimeSec` seconds. -/
def runAcqAcquisition (userCtx : U) (mdBuffer : ℕ → UInt8) (pixelBuffer : ℕ → Px) (acqTimeSec : ℕ)
    (now : ℤ) : Acquisition U :=
  katherineAcquisitionBegin
    (katherineAcquisitionInit userCtx mdBuffer pixelBuffer (pixelSize * 65536) 500 (10 * 1000)
      hitTimeout)
    1 (acqTimeSec * 10 ^ 9) true now

end Sprint3
