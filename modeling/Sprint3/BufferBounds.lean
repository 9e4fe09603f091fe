/-
# The bounds of the two buffers

Every access of the read loop to `md_buffer` and `pixel_buffer`, by the bytes
it touches. A message of six bytes is read as a `uint64_t`, two bytes beyond
its end; `katherine_acquisition_init` rounds the size of `md_buffer` up to a
multiple of eight for that. The rounding adds nothing to a size that is such a
multiple already, and then the last message of a full datagram is read beyond
the buffer: the accesses stay in bounds exactly for the sizes that
`BuffersSuffice` tells of (`buffers_in_bounds`), as those of `runAcq` are.
-/
import Sprint3.Decoding

namespace Sprint3

open Bits Memory Run

/-! ### Accesses -/

inductive Buffer
  | md
  | pixel
  deriving DecidableEq, Repr

/-- An access to `size` bytes of a buffer from `start` on. -/
structure Access where
  buffer : Buffer
  start : ℕ
  size : ℕ
  deriving DecidableEq, Repr

/-- `actual_md_buffer_size`. -/
def actualMdBufferSize (mdBufferSize : ℕ) : ℕ := (mdBufferSize + 7) / 8 * 8

/-- What is touched was allocated. -/
def Access.InBounds (mdBufferSize pixelBufferSize : ℕ) (a : Access) : Prop :=
  match a.buffer with
  | .md => a.start + a.size ≤ actualMdBufferSize mdBufferSize
  | .pixel => a.start + a.size ≤ pixelBufferSize

section Accesses

variable {U : Type*}

/-- The handler gets the valid pixels. -/
def flushAccess (acq : Acquisition U) : Access := ⟨.pixel, 0, pixelSize * acq.pixelBufferValid⟩

/-- Of `handlePixel`: a full buffer is flushed, and the pixel is the first of it. -/
def pixelAccesses (acq : Acquisition U) : List Access :=
  if acq.pixelBufferValid = acq.pixelBufferMaxValid then
    [flushAccess acq, ⟨.pixel, 0, pixelSize⟩]
  else [⟨.pixel, pixelSize * acq.pixelBufferValid, pixelSize⟩]

/-- Of `handleMeasurementData` for the message at `i`. -/
def messageAccesses (acq : Acquisition U) (i : ℕ) : List Access :=
  let hdr := (MdField.header.extract (load64 acq.mdBuffer i)).toUInt8
  ⟨.md, i, 8⟩ ::
    if hdr = 0x4 then pixelAccesses acq else if hdr = 0xC then [flushAccess acq] else []

variable (h : Handlers U)

/-- Of `handleDatagram`. -/
def datagramAccesses (acq : Acquisition U) (it : ℕ) : ℕ → List Access
  | 0 => []
  | n + 1 =>
    messageAccesses acq it ++
      datagramAccesses (handleMeasurementData h acq (load64 acq.mdBuffer it)) (it + mdSize) n

/-- Of an iteration of the read loop. -/
def Reader.accesses (r : Reader U) : Recv → List Access
  | .data bytes _ =>
    ⟨.md, 0, bytes.length⟩ ::
      if r.acq.decodeData then
        datagramAccesses h (r.acq.stored bytes) 0 (mdCount bytes.length)
      else [⟨.md, 0, bytes.length⟩]
  | .fail now _ =>
    let duration := 1000 * (now - r.lastDataReceived)
    if r.acq.reportTimeout > 0 ∧ duration > r.acq.reportTimeout ∧ r.acq.pixelBufferValid > 0 then
      [flushAccess r.acq]
    else []

end Accesses

/-- The bytes of a receive. -/
def Recv.size : Recv → ℕ
  | .data bytes _ => bytes.length
  | .fail _ _ => 0

/-- There is room for a pixel, and for the two bytes behind the last message of a full datagram. -/
def BuffersSuffice (mdBufferSize pixelBufferSize : ℕ) : Prop :=
  pixelSize ≤ pixelBufferSize ∧
    mdSize * mdCount mdBufferSize + 2 ≤ actualMdBufferSize mdBufferSize

instance (mdBufferSize pixelBufferSize : ℕ) :
    Decidable (BuffersSuffice mdBufferSize pixelBufferSize) :=
  inferInstanceAs (Decidable (_ ∧ _))

/-- A size that is a multiple of eight is not rounded up. -/
example : ¬BuffersSuffice (mdSize * 4) (pixelSize * 65536) := by decide

/-! ### The valid pixels -/

section Bounded

variable {U : Type*} {h : Handlers U} {max mdBufferSize pixelBufferSize : ℕ}
  {acq : Acquisition U}

/-- No more pixels are valid than there is room for. -/
structure Acquisition.Bounded (max : ℕ) (acq : Acquisition U) : Prop where
  valid : acq.pixelBufferValid ≤ max
  maxValid : acq.pixelBufferMaxValid = max

theorem Acquisition.Bounded.flush (hb : acq.Bounded max) : (flushBuffer h acq).Bounded max :=
  ⟨Nat.zero_le _, hb.maxValid⟩

theorem Acquisition.Bounded.pixel (hmax : 0 < max) (hb : acq.Bounded max) (md : UInt64) :
    (handlePixel h acq md).Bounded max := by
  have hvalid := hb.valid
  have hmaxValid := hb.maxValid
  unfold handlePixel
  by_cases hfull : acq.pixelBufferValid = acq.pixelBufferMaxValid
  · simp only [if_pos hfull]
    exact ⟨hmax, hmaxValid⟩
  · simp only [if_neg hfull]
    refine ⟨?_, hmaxValid⟩
    change acq.pixelBufferValid + 1 ≤ max
    omega

/-- What one message keeps. -/
theorem Acquisition.Bounded.handled {acq' : Acquisition U} {md : Md} {word : UInt64}
    (hmax : 0 < max) (hb : acq.Bounded max) (hd : Handled h acq md word acq') :
    acq'.Bounded max := by
  cases hd with
  | pixel hdr => exact hb.pixel hmax word
  | frameFinished hdr =>
    unfold handleCurrentFrameFinished
    simp only
    split
    · exact ⟨Nat.zero_le _, hb.maxValid⟩
    · exact ⟨Nat.zero_le _, hb.maxValid⟩
  | offset | newFrame | unknown | other => exact ⟨hb.valid, hb.maxValid⟩

theorem Acquisition.Bounded.message (hmax : 0 < max) (hb : acq.Bounded max) (i : ℕ) :
    (handleMeasurementData h acq (load64 acq.mdBuffer i)).Bounded max :=
  hb.handled hmax (Sprint3.handled h acq acq.mdBuffer i)

theorem Acquisition.Bounded.datagram (hmax : 0 < max) : ∀ {acq : Acquisition U} (it n : ℕ),
    acq.Bounded max → (handleDatagram h acq it n).Bounded max
  | _, _, 0, hb => hb
  | _, it, n + 1, hb => (hb.message hmax it).datagram hmax (it + mdSize) n

/-- What an iteration of the read loop keeps. -/
theorem Acquisition.Bounded.iterate {r : Reader U} (hmax : 0 < max) (hb : r.acq.Bounded max)
    (e : Recv) : (r.iterate h e).acq.Bounded max := by
  cases e with
  | data bytes now =>
    have hstored : (r.acq.stored bytes).Bounded max := ⟨hb.valid, hb.maxValid⟩
    by_cases hdecode : r.acq.decodeData = true
    · rw [Reader.iterate, received_eq h r bytes now hdecode]
      exact hstored.datagram hmax 0 _
    · have hraw : (r.received h bytes now).acq = { r.acq.stored bytes with
          userCtx := h.dataReceived r.acq.userCtx (r.acq.stored bytes).mdBuffer bytes.length } :=
        if_neg hdecode
      rw [Reader.iterate, hraw]
      exact ⟨hb.valid, hb.maxValid⟩
  | fail now now' =>
    rw [Reader.iterate, failed_eq]
    split
    · exact ⟨Nat.zero_le _, hb.maxValid⟩
    · exact ⟨hb.valid, hb.maxValid⟩

/-! ### What is touched -/

variable (hroom : pixelSize * max ≤ pixelBufferSize)

include hroom

theorem flushAccess_inBounds (hb : acq.Bounded max) :
    (flushAccess acq).InBounds mdBufferSize pixelBufferSize := by
  have hle := Nat.mul_le_mul_left pixelSize hb.valid
  change 0 + pixelSize * acq.pixelBufferValid ≤ pixelBufferSize
  omega

theorem pixelAccesses_inBounds (hmax : 0 < max) (hb : acq.Bounded max) :
    ∀ a ∈ pixelAccesses acq, a.InBounds mdBufferSize pixelBufferSize := by
  have hfirst : pixelSize ≤ pixelBufferSize :=
    (Nat.le_mul_of_pos_right pixelSize hmax).trans hroom
  unfold pixelAccesses
  by_cases hfull : acq.pixelBufferValid = acq.pixelBufferMaxValid
  · rw [if_pos hfull, List.forall_mem_cons, List.forall_mem_singleton]
    refine ⟨flushAccess_inBounds hroom hb, ?_⟩
    change 0 + pixelSize ≤ pixelBufferSize
    omega
  · have hvalid := hb.valid
    rw [hb.maxValid] at hfull
    have hnext : pixelSize * (acq.pixelBufferValid + 1) ≤ pixelSize * max :=
      Nat.mul_le_mul_left pixelSize (by omega)
    rw [if_neg (by rwa [hb.maxValid]), List.forall_mem_singleton]
    change pixelSize * acq.pixelBufferValid + pixelSize ≤ pixelBufferSize
    rw [Nat.mul_add, Nat.mul_one] at hnext
    omega

theorem messageAccesses_inBounds (hmax : 0 < max) (hb : acq.Bounded max) {i : ℕ}
    (hi : i + 8 ≤ actualMdBufferSize mdBufferSize) :
    ∀ a ∈ messageAccesses acq i, a.InBounds mdBufferSize pixelBufferSize := by
  rw [messageAccesses, List.forall_mem_cons]
  refine ⟨hi, ?_⟩
  split
  · exact pixelAccesses_inBounds hroom hmax hb
  · split
    · rw [List.forall_mem_singleton]
      exact flushAccess_inBounds hroom hb
    · exact List.forall_mem_nil _

/-- The last of the messages decides. -/
theorem datagramAccesses_inBounds (hmax : 0 < max) : ∀ {acq : Acquisition U} (it n : ℕ),
    acq.Bounded max → it + mdSize * n + 2 ≤ actualMdBufferSize mdBufferSize →
    ∀ a ∈ datagramAccesses h acq it n, a.InBounds mdBufferSize pixelBufferSize
  | _, _, 0, _, _ => List.forall_mem_nil _
  | acq, it, n + 1, hb, hlast => by
    rw [mdSize, Nat.mul_add] at hlast
    rw [datagramAccesses, List.forall_mem_append]
    refine ⟨messageAccesses_inBounds hroom hmax hb (by omega), ?_⟩
    apply datagramAccesses_inBounds hmax (it + mdSize) n (hb.message hmax it)
    rw [mdSize]
    omega

theorem accesses_inBounds {r : Reader U} (hmax : 0 < max) (hb : r.acq.Bounded max) {e : Recv}
    (hsize : e.size ≤ mdBufferSize)
    (hmd : mdSize * mdCount mdBufferSize + 2 ≤ actualMdBufferSize mdBufferSize) :
    ∀ a ∈ r.accesses h e, a.InBounds mdBufferSize pixelBufferSize := by
  cases e with
  | data bytes now =>
    have hlength : bytes.length ≤ mdBufferSize := hsize
    have hwhole : 0 + bytes.length ≤ actualMdBufferSize mdBufferSize := by
      unfold actualMdBufferSize
      omega
    have hcount : mdCount bytes.length ≤ mdCount mdBufferSize :=
      Nat.div_le_div_right (Nat.add_le_add_right hlength _)
    have hlast : 0 + mdSize * mdCount bytes.length + 2 ≤ actualMdBufferSize mdBufferSize := by
      have hle := Nat.mul_le_mul_left mdSize hcount
      omega
    rw [Reader.accesses, List.forall_mem_cons]
    refine ⟨hwhole, ?_⟩
    split
    · exact datagramAccesses_inBounds hroom hmax 0 _ ⟨hb.valid, hb.maxValid⟩ hlast
    · exact List.forall_mem_singleton.mpr hwhole
  | fail now now' =>
    unfold Reader.accesses
    simp only
    split
    · exact List.forall_mem_singleton.mpr (flushAccess_inBounds hroom hb)
    · exact List.forall_mem_nil _

end Bounded

/-! ### Sizes that do not suffice -/

section Touched

variable {U : Type*} {h : Handlers U}

/-- Each message of a datagram is read as a word. -/
theorem load_mem_accesses : ∀ (acq : Acquisition U) (it : ℕ) {k n : ℕ}, k < n →
    ⟨.md, it + mdSize * k, 8⟩ ∈ datagramAccesses h acq it n
  | _, it, 0, n + 1, _ => List.mem_cons_self
  | acq, it, k + 1, n + 1, hk => by
    have hrest := load_mem_accesses (handleMeasurementData h acq (load64 acq.mdBuffer it))
      (it + mdSize) (Nat.lt_of_succ_lt_succ hk)
    have haddress : it + mdSize + mdSize * k = it + mdSize * (k + 1) := by
      rw [Nat.mul_add]
      omega
    rw [haddress] at hrest
    exact List.mem_append_right _ hrest

/-- The first pixel is the first of the buffer, whatever its size. -/
theorem pixel_mem_accesses {acq : Acquisition U} {it n : ℕ} (hn : 0 < n)
    (hvalid : acq.pixelBufferValid = 0) (hpixel : (Md.at_ acq.mdBuffer it).header = 0x4) :
    ⟨.pixel, 0, pixelSize⟩ ∈ datagramAccesses h acq it n := by
  obtain ⟨n, rfl⟩ := Nat.exists_eq_add_of_lt hn
  rw [Nat.zero_add, datagramAccesses, messageAccesses]
  apply List.mem_append_left
  apply List.mem_cons_of_mem
  rw [if_pos ((header_eq_pixel _ _).mpr hpixel), pixelAccesses, hvalid]
  split <;> simp

/-- Bytes of which each word is a pixel message. -/
def pixelBytes (n : ℕ) : List UInt8 := List.replicate n 0x40

theorem header_pixelBytes (n : ℕ) :
    (Md.at_ (recvInto (fun _ => 0x40) (pixelBytes n)) 0).header = 0x4 := by
  have hsame : recvInto (fun _ => 0x40) (pixelBytes n) = fun _ => 0x40 := by
    funext j
    unfold recvInto copy
    split
    · rename_i hj
      have hlt : j < n := by
        rw [pixelBytes, List.length_replicate] at hj
        omega
      simp [pixelBytes, ofList, hlt]
    · rfl
  rw [hsame]
  decide

end Touched

/-- **The buffers.** Whatever is received, and whatever the buffers held
before, no iteration of the read loop touches a byte that was not allocated,
exactly if the pixel buffer has room for a pixel, and the size of the other,
rounded up, for the two bytes behind the last message of a full datagram. -/
theorem buffers_in_bounds {U : Type*} (h : Handlers U) (userCtx : U) {mdBufferSize : ℕ}
    (hsize : 0 < mdBufferSize) (pixelBufferSize : ℕ) :
    (∀ mdBuffer pixelBuffer reportTimeout failTimeout lackOfHitTimeout noFrames acqTime decodeData
      now now' es (r : Reader U) (e : Recv),
      run (readLoop h)
        (.start
          (katherineAcquisitionBegin
            (katherineAcquisitionInit userCtx mdBuffer pixelBuffer pixelBufferSize reportTimeout
              failTimeout lackOfHitTimeout)
            noFrames acqTime decodeData now) now') es = some r →
      r.acq.state = .running → e.size ≤ mdBufferSize →
      ∀ a ∈ r.accesses h e, a.InBounds mdBufferSize pixelBufferSize) ↔
    BuffersSuffice mdBufferSize pixelBufferSize := by
  have hpos : 0 < pixelSize := by decide
  constructor
  · intro hall
    -- A full datagram of pixels for a buffer that held nothing else.
    let acq := katherineAcquisitionBegin
      (katherineAcquisitionInit userCtx (fun _ => 0x40) default pixelBufferSize 0 0 0) 1 0 true 0
    have htouched : ∀ a ∈ datagramAccesses h ((Reader.start acq 0).acq.stored
        (pixelBytes mdBufferSize)) 0 (mdCount (pixelBytes mdBufferSize).length),
        a.InBounds mdBufferSize pixelBufferSize := fun a ha =>
      hall (fun _ => 0x40) default 0 0 0 1 0 true 0 0 [] (.start acq 0)
        (.data (pixelBytes mdBufferSize) 0) rfl rfl (List.length_replicate ..).le a
        (List.mem_cons_of_mem _ ha)
    have hcount : 0 < mdCount (pixelBytes mdBufferSize).length := by
      rw [pixelBytes, List.length_replicate, mdCount, mdSize]
      omega
    constructor
    · have hpixel := htouched _ (pixel_mem_accesses hcount rfl (header_pixelBytes mdBufferSize))
      change 0 + pixelSize ≤ pixelBufferSize at hpixel
      omega
    · have hload := htouched _ (load_mem_accesses _ 0 (Nat.sub_lt hcount Nat.one_pos))
      rw [pixelBytes, List.length_replicate] at hload hcount
      change 0 + mdSize * (mdCount mdBufferSize - 1) + 8 ≤ _ at hload
      rw [mdSize] at hload ⊢
      omega
  · rintro ⟨hroom, hmd⟩
    intro mdBuffer pixelBuffer reportTimeout failTimeout lackOfHitTimeout noFrames acqTime decodeData
      now now' es r e hrun _ he
    have hmax : 0 < pixelBufferSize / pixelSize := Nat.div_pos hroom hpos
    have hbounded : r.acq.Bounded (pixelBufferSize / pixelSize) := by
      refine run_invariant hrun (fun _ r => r.acq.Bounded (pixelBufferSize / pixelSize)) ?_ ?_
      · exact ⟨Nat.zero_le _, rfl⟩
      · intro _ m e m' _ hm hstep
        obtain ⟨-, rfl⟩ := readLoop_eq_some.mp hstep
        exact hm.iterate hmax e
    exact accesses_inBounds (Nat.mul_div_le pixelBufferSize pixelSize) hmax hbounded he hmd

/-- The buffers of `runAcq`. -/
theorem buffers_in_bounds_runAcq :
    BuffersSuffice (mdSize * 34952533) (pixelSize * 65536) ∧
    ∀ mdBuffer pixelBuffer reportTimeout failTimeout lackOfHitTimeout noFrames acqTime decodeData
      now now' es (r : Reader AcqController) (e : Recv),
      run (readLoop AcqController.handlers)
        (.start
          (katherineAcquisitionBegin
            (katherineAcquisitionInit (.fresh default default) mdBuffer pixelBuffer
              (pixelSize * 65536) reportTimeout failTimeout lackOfHitTimeout)
            noFrames acqTime decodeData now) now') es = some r →
      r.acq.state = .running → e.size ≤ mdSize * 34952533 →
      ∀ a ∈ r.accesses AcqController.handlers e,
        a.InBounds (mdSize * 34952533) (pixelSize * 65536) := by
  have hsuffice : BuffersSuffice (mdSize * 34952533) (pixelSize * 65536) := by decide
  exact ⟨hsuffice, (buffers_in_bounds AcqController.handlers (.fresh default default) (by decide)
    (pixelSize * 65536)).mpr hsuffice⟩

end Sprint3
