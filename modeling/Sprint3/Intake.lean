/-
# Raw hits on their way to the threads

`pixels_received` adds an array of pixels to a buffer (`PxArray`); the thread
behind it copies the whole buffer to an array of its own, and works on that
(`Intake`). Between a call and the work only what the buffer has no room for
is lost.
-/
import Sprint3.Acquisition
import Sprint3.SafeBuff

namespace Sprint3

open Memory

/-- The array a call of `pixels_received` passes, somewhere in memory. -/
structure PxArray where
  px : ℕ → Px
  count : ℕ
  inMemory : pixelSize * count < 2 ^ 64

theorem one_inMemory : pixelSize * 1 < 2 ^ 64 := by decide

namespace PxArray

def addTo (a : PxArray) (b : SafeBuff Px) : SafeBuff Px := (b.addElements a.count a.px).buff

/-- The part of the array that `addElements` does not discard. -/
def accepted (a : PxArray) (b : SafeBuff Px) : List Px :=
  slice a.px 0 (a.count - (b.addElements a.count a.px).discarded)

theorem inRange (a : PxArray) : a.count + maxBuffEl < 2 ^ 64 := by
  have h := a.inMemory
  unfold pixelSize at h
  unfold maxBuffEl
  omega

theorem addTo_ok (a : PxArray) {b : SafeBuff Px} (hb : b.Ok) : (a.addTo b).Ok :=
  SafeBuff.addElements_ok hb a.px a.inRange

theorem addTo_contents (a : PxArray) {b : SafeBuff Px} (hb : b.Ok) :
    (a.addTo b).contents = b.contents ++ a.accepted b := by
  calc (a.addTo b).contents
      = b.contents ++ Fifo.accepted maxBuffEl b.numElements (slice a.px 0 a.count) :=
        SafeBuff.addElements_contents hb a.px a.inRange
    _ = b.contents ++ a.accepted b := by
        rw [accepted, SafeBuff.accepted_eq_take hb a.px a.inRange]

end PxArray

/-- A buffer, and the variables of the thread that empties it. -/
structure Intake where
  buff : SafeBuff Px
  workBuf : ℕ → Px
  workBufElements : ℕ

namespace Intake

def fresh (mem mem' : ℕ → Px) : Intake := ⟨.fresh mem, mem', 0⟩

/-- The hits taken last. -/
def hits (i : Intake) : List Px := slice i.workBuf 0 i.workBufElements

def receive (a : PxArray) (i : Intake) : Intake := { i with buff := a.addTo i.buff }

/-- `workBufElements = buff->copyClear(workBuf, MAX_BUFF_EL)`. -/
def copyClear (i : Intake) : Intake :=
  let r := i.buff.copyClear i.workBuf maxBuffEl
  { buff := r.buff, workBuf := r.copyBuf, workBufElements := r.count }

variable {i : Intake}

theorem copyClear_ok (hi : i.buff.Ok) : i.copyClear.buff.Ok :=
  SafeBuff.copyClear_ok hi i.workBuf maxBuffEl

theorem copyClear_hits (hi : i.buff.Ok) : i.copyClear.hits = i.buff.contents :=
  (SafeBuff.copyClear_all hi i.workBuf).1

theorem copyClear_contents (hi : i.buff.Ok) : i.copyClear.buff.contents = [] :=
  (SafeBuff.copyClear_all hi i.workBuf).2

end Intake

end Sprint3
