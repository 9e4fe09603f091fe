/-
# The history of a stream of messages

What a stream of messages tells of its frames: a frame starts, pixels, a frame
ends. A `Narrator` hears the messages, without datagrams or clocks. It keeps
the pixels until it hands them over, at any place of the stream and at every
end of a frame.

Wherever the pixels are handed over, each is told once and in its order
(`foldl_pixels`), and a frame is told as it is, with the pixels still kept when
it started (`narrate_frame`). If no frame starts between a pixel and the end of
its frame, the places make no difference (`behind_promptly`).
-/
import Sprint3.AcquisitionEnd
import Mathlib.Data.List.ReduceOption

namespace Sprint3

open Bits Memory Run

/-! ### Reports -/

/-- What an application is told. -/
inductive Report
  | pixel (px : Px)
  | started (frameIdx : ℤ)
  | ended (frameIdx : ℤ) (completed : Bool) (info : FrameInfo)
  deriving DecidableEq, Repr

def Report.pixel? : Report → Option Px
  | pixel px => some px
  | _ => none

/-! ### The history of a stream -/

/-- What a message changes in the report of its frame, pixels apart. -/
def FrameInfo.after (info : FrameInfo) (md : Md) : FrameInfo :=
  match md.header with
  | 0x7 => .zero
  | 0x8 => { info with startTime.lsb := .ofNat (md.field MdField.lsb) }
  | 0x9 => { info with startTime.msb := .ofNat (md.field MdField.msb) }
  | 0xA => { info with endTime.lsb := .ofNat (md.field MdField.lsb) }
  | 0xB => { info with endTime.msb := .ofNat (md.field MdField.msb) }
  | 0xC => { info with sentPixels := .ofNat (md.field MdField.nSent) }
  | 0xD => { info with lostPixels := info.lostPixels + .ofNat (md.field MdField.nLost) }
  | _ => info

theorem FrameInfo.after_other (info : FrameInfo) {md : Md}
    (hdr : md.header ∉ [0x7, 0x8, 0x9, 0xA, 0xB, 0xC, 0xD]) : info.after md = info := by
  simp only [List.mem_cons, List.not_mem_nil, or_false, not_or] at hdr
  obtain ⟨h7, h8, h9, hA, hB, hC, hD⟩ := hdr
  unfold FrameInfo.after
  split <;> first | contradiction | rfl

/-- Pixels counted after a message may be counted before it, but for a new frame. -/
theorem FrameInfo.after_counted {md : Md} (h7 : md.header ≠ 0x7) (info : FrameInfo) (n : UInt64) :
    { info with receivedPixels := n }.after md = { info.after md with receivedPixels := n } := by
  unfold FrameInfo.after
  split <;> first | contradiction | rfl

theorem FrameInfo.after_received {md : Md} (h7 : md.header ≠ 0x7) (info : FrameInfo) :
    (info.after md).receivedPixels = info.receivedPixels := by
  unfold FrameInfo.after
  split <;> first | contradiction | rfl

theorem FrameInfo.after_lost {md : Md} (h7 : md.header ≠ 0x7) (info : FrameInfo) :
    (info.after md).lostPixels =
      info.lostPixels + if md.header = 0xD then .ofNat (md.field MdField.nLost) else 0 := by
  unfold FrameInfo.after
  split <;> simp_all

/-- A place in a stream: what was told, the pixels kept, the timestamp offset,
the frames that have ended, and the report of the current one. -/
structure Narrator where
  told : List Report
  pending : List Px
  offset : ℕ
  frames : ℤ
  info : FrameInfo
  deriving DecidableEq, Repr

namespace Narrator

def start : Narrator := ⟨[], [], 0, 0, .zero⟩

/-- The pixels kept are told and counted. -/
def handOver (n : Narrator) : Narrator :=
  { n with
    told := n.told ++ n.pending.map .pixel
    pending := []
    info.receivedPixels := n.info.receivedPixels + .ofNat n.pending.length }

/-- The end of a frame. -/
def finish (n : Narrator) (md : Md) : Narrator :=
  { n with
    told := n.told ++ [.ended n.frames true (n.info.after md)]
    frames := n.frames + 1
    info := n.info.after md }

def hear (n : Narrator) (md : Md) : Narrator :=
  if md.header = 0x4 then { n with pending := n.pending ++ [md.pixel n.offset] }
  else if md.header = 0x5 then { n with offset := md.field MdField.timeOffset }
  else if md.header = 0x7 then { n with told := n.told ++ [.started n.frames], info := .zero }
  else if md.header = 0xC then n.handOver.finish md
  else { n with info := n.info.after md }

/-- A message, or pixels handed over. -/
def step (n : Narrator) : Option Md → Narrator
  | some md => n.hear md
  | none => n.handOver

/-- A stream in which pixels are handed over at some places. -/
def narrate (steps : List (Option Md)) : Narrator := steps.foldl step start

/-- A stream in which every pixel is told at once. -/
def promptly (mds : List Md) : Narrator := mds.foldl (fun n md => (n.hear md).handOver) start

section Hear

variable {n : Narrator} {md : Md}

theorem hear_pixel (hdr : md.header = 0x4) :
    n.hear md = { n with pending := n.pending ++ [md.pixel n.offset] } := by
  simp [hear, hdr]

theorem hear_offset (hdr : md.header = 0x5) :
    n.hear md = { n with offset := md.field MdField.timeOffset } := by
  simp [hear, hdr]

theorem hear_newFrame (hdr : md.header = 0x7) :
    n.hear md = { n with told := n.told ++ [.started n.frames], info := .zero } := by
  simp [hear, hdr]

theorem hear_finished (hdr : md.header = 0xC) : n.hear md = n.handOver.finish md := by
  simp [hear, hdr]

theorem hear_quiet (hdr : md.header ∉ [0x4, 0x5, 0x7, 0xC]) :
    n.hear md = { n with info := n.info.after md } := by
  simp only [List.mem_cons, List.not_mem_nil, or_false, not_or] at hdr
  simp [hear, hdr]

/-- The cases of a message. -/
theorem header_cases (md : Md) : md.header = 0x4 ∨ md.header = 0x5 ∨ md.header = 0x7 ∨
    md.header = 0xC ∨ md.header ∉ [0x4, 0x5, 0x7, 0xC] := by
  simp only [List.mem_cons, List.not_mem_nil, or_false]
  tauto

end Hear

/-! ### What a narrator tells -/

/-- What was told, and the pixels kept behind it. -/
def history (n : Narrator) : List Report := n.told ++ n.pending.map .pixel

/-- The pixels of the current frame, those kept included. -/
def counted (n : Narrator) : UInt64 := n.info.receivedPixels + .ofNat n.pending.length

@[simp] theorem handOver_history (n : Narrator) : n.handOver.history = n.history :=
  List.append_nil _

@[simp] theorem handOver_counted (n : Narrator) : n.handOver.counted = n.counted :=
  UInt64.add_zero _

theorem hear_offset_eq (n : Narrator) (md : Md) :
    (n.hear md).offset = if md.header = 0x5 then md.field MdField.timeOffset else n.offset := by
  rcases header_cases md with hdr | hdr | hdr | hdr | hdr
  · rw [hear_pixel hdr, if_neg (by omega)]
  · rw [hear_offset hdr, if_pos hdr]
  · rw [hear_newFrame hdr, if_neg (by omega)]
  · rw [hear_finished hdr, if_neg (by omega)]
    rfl
  · rw [hear_quiet hdr, if_neg fun h5 => hdr (by simp [h5])]

theorem hear_frames_eq (n : Narrator) (md : Md) :
    (n.hear md).frames = n.frames + if md.header = 0xC then 1 else 0 := by
  rcases header_cases md with hdr | hdr | hdr | hdr | hdr
  · rw [hear_pixel hdr, if_neg (by omega), Int.add_zero]
  · rw [hear_offset hdr, if_neg (by omega), Int.add_zero]
  · rw [hear_newFrame hdr, if_neg (by omega), Int.add_zero]
  · rw [hear_finished hdr, if_pos hdr]
    rfl
  · rw [hear_quiet hdr, if_neg fun hC => hdr (by simp [hC]), Int.add_zero]

/-- Every message but a pixel and the end of a frame leaves the pixels kept as they are. -/
theorem hear_pending_eq {n : Narrator} {md : Md} (h4 : md.header ≠ 0x4) (hC : md.header ≠ 0xC) :
    (n.hear md).pending = n.pending := by
  rcases header_cases md with hdr | hdr | hdr | hdr | hdr
  · exact absurd hdr h4
  · rw [hear_offset hdr]
  · rw [hear_newFrame hdr]
  · exact absurd hdr hC
  · rw [hear_quiet hdr]

theorem told_hear (n : Narrator) (md : Md) : n.told <+: (n.hear md).told := by
  rcases header_cases md with hdr | hdr | hdr | hdr | hdr
  · rw [hear_pixel hdr]
  · rw [hear_offset hdr]
  · rw [hear_newFrame hdr]
    exact List.prefix_append _ _
  · rw [hear_finished hdr, finish, handOver, List.append_assoc]
    exact List.prefix_append _ _
  · rw [hear_quiet hdr]

/-- Within a frame only pixels are told. -/
theorem hear_history {n : Narrator} {md : Md} (h7 : md.header ≠ 0x7) (hC : md.header ≠ 0xC) :
    (n.hear md).history =
      n.history ++ if md.header = 0x4 then [.pixel (md.pixel n.offset)] else [] := by
  rcases header_cases md with hdr | hdr | hdr | hdr | hdr
  · rw [hear_pixel hdr, if_pos hdr, history, history, List.map_append, List.append_assoc]
    rfl
  · rw [hear_offset hdr, if_neg (by omega), List.append_nil]
    rfl
  · exact absurd hdr h7
  · exact absurd hdr hC
  · rw [hear_quiet hdr, if_neg fun h4 => hdr (by simp [h4]), List.append_nil]
    rfl

/-- Within a frame every pixel is counted. -/
theorem hear_counted {n : Narrator} {md : Md} (h7 : md.header ≠ 0x7) :
    (n.hear md).counted = n.counted + if md.header = 0x4 then 1 else 0 := by
  rcases header_cases md with hdr | hdr | hdr | hdr | hdr
  · rw [hear_pixel hdr, if_pos hdr, counted, counted, List.length_append, UInt64.ofNat_add,
      UInt64.add_assoc]
    rfl
  · rw [hear_offset hdr, if_neg (by omega), UInt64.add_zero]
    rfl
  · exact absurd hdr h7
  · rw [hear_finished hdr, if_neg (by omega), UInt64.add_zero, ← handOver_counted n, counted,
      finish, FrameInfo.after_received h7]
    rfl
  · rw [hear_quiet hdr, if_neg fun h4 => hdr (by simp [h4]), UInt64.add_zero, counted,
      FrameInfo.after_received h7]
    rfl

theorem hear_info {n : Narrator} {md : Md} (h7 : md.header ≠ 0x7) (hC : md.header ≠ 0xC) :
    (n.hear md).info = n.info.after md := by
  rcases header_cases md with hdr | hdr | hdr | hdr | hdr
  · rw [hear_pixel hdr, FrameInfo.after_other _ (by simp [hdr])]
  · rw [hear_offset hdr, FrameInfo.after_other _ (by simp [hdr])]
  · exact absurd hdr h7
  · exact absurd hdr hC
  · rw [hear_quiet hdr]

/-- The pixels that were lost are added up. -/
theorem hear_lost {n : Narrator} {md : Md} (h7 : md.header ≠ 0x7) :
    (n.hear md).info.lostPixels = n.info.lostPixels +
      if md.header = 0xD then .ofNat (md.field MdField.nLost) else 0 := by
  rcases header_cases md with hdr | hdr | hdr | hdr | hdr
  · rw [hear_pixel hdr, if_neg (by omega), UInt64.add_zero]
  · rw [hear_offset hdr, if_neg (by omega), UInt64.add_zero]
  · exact absurd hdr h7
  · rw [hear_finished hdr, finish, FrameInfo.after_lost h7]
    rfl
  · rw [hear_quiet hdr, FrameInfo.after_lost h7]

/-- The pixels told and kept. -/
def pixels (n : Narrator) : List Px := n.told.filterMap Report.pixel? ++ n.pending

@[simp] theorem handOver_pixels (n : Narrator) : n.handOver.pixels = n.pixels := by
  have hpixel : Report.pixel? ∘ Report.pixel = some := rfl
  rw [pixels, handOver, List.filterMap_append, List.filterMap_map, hpixel, List.filterMap_some,
    List.append_nil]
  rfl

theorem hear_pixels (n : Narrator) (md : Md) :
    (n.hear md).pixels = n.pixels ++ if md.header = 0x4 then [md.pixel n.offset] else [] := by
  rcases header_cases md with hdr | hdr | hdr | hdr | hdr
  · rw [hear_pixel hdr, if_pos hdr, pixels, pixels, List.append_assoc]
  · rw [hear_offset hdr, if_neg (by omega), List.append_nil]
    rfl
  · rw [hear_newFrame hdr, if_neg (by omega), List.append_nil, pixels, List.filterMap_append]
    exact congrArg (· ++ n.pending) (List.append_nil _)
  · rw [hear_finished hdr, if_neg (by omega), List.append_nil, ← handOver_pixels n, pixels, finish,
      List.filterMap_append]
    exact congrArg (· ++ n.handOver.pending) (List.append_nil _)
  · rw [hear_quiet hdr, if_neg fun h4 => hdr (by simp [h4]), List.append_nil]
    rfl

/-! ### Streams -/

theorem foldl_offset : ∀ (steps : List (Option Md)) (n : Narrator),
    (steps.foldl step n).offset = refOffset n.offset steps.reduceOption
  | [], _ => rfl
  | none :: steps, n => foldl_offset steps n.handOver
  | some md :: steps, n => by
    rw [List.foldl_cons, foldl_offset steps, step, hear_offset_eq, List.reduceOption_cons_of_some,
      refOffset]
    exact apply_ite (refOffset · steps.reduceOption) _ _ _

theorem foldl_frames : ∀ (steps : List (Option Md)) (n : Narrator),
    (steps.foldl step n).frames = n.frames + steps.reduceOption.countP (·.header = 0xC)
  | [], n => (Int.add_zero n.frames).symm
  | none :: steps, n => foldl_frames steps n.handOver
  | some md :: steps, n => by
    rw [List.foldl_cons, foldl_frames steps, step, hear_frames_eq, List.reduceOption_cons_of_some,
      List.countP_cons]
    by_cases hC : md.header = 0xC
    · simp [hC]
      ring
    · simp [hC]

theorem told_mono : ∀ (steps : List (Option Md)) (n : Narrator),
    n.told <+: (steps.foldl step n).told
  | [], _ => List.prefix_rfl
  | none :: steps, n => (List.prefix_append _ _).trans (told_mono steps n.handOver)
  | some md :: steps, n => (told_hear n md).trans (told_mono steps (n.hear md))

/-- **Every pixel is told once**, in the order of the stream, or still kept. -/
theorem foldl_pixels : ∀ (steps : List (Option Md)) (n : Narrator),
    (steps.foldl step n).pixels = n.pixels ++ refDecode n.offset steps.reduceOption
  | [], n => (List.append_nil n.pixels).symm
  | none :: steps, n => by
    rw [List.foldl_cons, foldl_pixels steps, step, handOver_pixels, List.reduceOption_cons_of_none]
    rfl
  | some md :: steps, n => by
    rw [List.foldl_cons, foldl_pixels steps, step, hear_pixels, hear_offset_eq,
      List.reduceOption_cons_of_some, refDecode, List.append_assoc]
    by_cases h4 : md.header = 0x4
    · have h5 : md.header ≠ 0x5 := by omega
      simp only [if_pos h4, if_neg h5, List.singleton_append]
    · by_cases h5 : md.header = 0x5
      · simp only [if_neg h4, if_pos h5, List.nil_append]
      · simp only [if_neg h4, if_neg h5, List.nil_append]

/-- The pixels kept are the last of the stream. -/
theorem pending_suffix : ∀ (steps : List (Option Md)) (n : Narrator),
    (steps.foldl step n).pending <:+ n.pending ++ refDecode n.offset steps.reduceOption
  | [], n => by
    rw [show refDecode n.offset (List.reduceOption []) = [] from rfl, List.append_nil]
    exact List.suffix_rfl
  | none :: steps, n => (pending_suffix steps n.handOver).trans (List.suffix_append _ _)
  | some md :: steps, n => by
    refine (pending_suffix steps (n.hear md)).trans ?_
    rw [hear_offset_eq, List.reduceOption_cons_of_some, refDecode]
    by_cases h4 : md.header = 0x4
    · have h5 : md.header ≠ 0x5 := by omega
      rw [hear_pixel h4, if_pos h4, if_neg h5, List.append_assoc]
      exact List.suffix_rfl
    · have hrest : (if md.header = 0x5 then refDecode (md.field MdField.timeOffset) steps.reduceOption
          else refDecode n.offset steps.reduceOption) =
          refDecode (if md.header = 0x5 then md.field MdField.timeOffset else n.offset)
            steps.reduceOption := (apply_ite (refDecode · steps.reduceOption) _ _ _).symm
      rw [if_neg h4, hrest]
      by_cases hC : md.header = 0xC
      · rw [hear_finished hC]
        exact List.suffix_append _ _
      · rw [hear_pending_eq h4 hC]

/-- Within a frame the pixels are told in their order. -/
theorem foldl_history : ∀ (steps : List (Option Md)) (n : Narrator),
    (∀ md ∈ steps.reduceOption, md.header ≠ 0x7 ∧ md.header ≠ 0xC) →
    (steps.foldl step n).history =
      n.history ++ (refDecode n.offset steps.reduceOption).map .pixel
  | [], n, _ => (List.append_nil n.history).symm
  | none :: steps, n, hmid => by
    rw [List.foldl_cons, foldl_history steps _ hmid, step, handOver_history,
      List.reduceOption_cons_of_none]
    rfl
  | some md :: steps, n, hmid => by
    rw [List.reduceOption_cons_of_some] at hmid
    obtain ⟨h7, hC⟩ := hmid md List.mem_cons_self
    rw [List.foldl_cons, foldl_history steps _ fun md hmd => hmid md (List.mem_cons_of_mem _ hmd),
      step, hear_history h7 hC, hear_offset_eq, List.reduceOption_cons_of_some, refDecode,
      List.append_assoc]
    by_cases h4 : md.header = 0x4
    · have h5 : md.header ≠ 0x5 := by omega
      simp only [if_pos h4, if_neg h5, List.map_cons, List.singleton_append]
    · by_cases h5 : md.header = 0x5
      · simp only [if_neg h4, if_pos h5, List.nil_append]
      · simp only [if_neg h4, if_neg h5, List.nil_append]

theorem foldl_counted : ∀ (steps : List (Option Md)) (n : Narrator),
    (∀ md ∈ steps.reduceOption, md.header ≠ 0x7) →
    (steps.foldl step n).counted = n.counted + .ofNat (steps.reduceOption.countP (·.header = 0x4))
  | [], n, _ => (UInt64.add_zero n.counted).symm
  | none :: steps, n, hmid => by
    rw [List.foldl_cons, foldl_counted steps _ hmid, step, handOver_counted,
      List.reduceOption_cons_of_none]
  | some md :: steps, n, hmid => by
    rw [List.reduceOption_cons_of_some] at hmid
    rw [List.foldl_cons, foldl_counted steps _ fun md hmd => hmid md (List.mem_cons_of_mem _ hmd),
      step, hear_counted (hmid md List.mem_cons_self), List.reduceOption_cons_of_some,
      List.countP_cons, UInt64.ofNat_add, UInt64.add_assoc]
    by_cases h4 : md.header = 0x4
    · simp [h4, UInt64.add_comm]
    · simp [h4]

theorem foldl_lost : ∀ (steps : List (Option Md)) (n : Narrator),
    (∀ md ∈ steps.reduceOption, md.header ≠ 0x7) →
    (steps.foldl step n).info.lostPixels = n.info.lostPixels +
      .ofNat ((steps.reduceOption.filter (·.header = 0xD)).map (·.field MdField.nLost)).sum
  | [], n, _ => (UInt64.add_zero n.info.lostPixels).symm
  | none :: steps, n, hmid => foldl_lost steps n.handOver hmid
  | some md :: steps, n, hmid => by
    rw [List.reduceOption_cons_of_some] at hmid
    rw [List.foldl_cons, foldl_lost steps _ fun md hmd => hmid md (List.mem_cons_of_mem _ hmd),
      step, hear_lost (hmid md List.mem_cons_self), List.reduceOption_cons_of_some]
    by_cases hD : md.header = 0xD
    · simp [hD, UInt64.ofNat_add, UInt64.add_assoc]
    · simp [hD]

theorem narrate_concat (steps : List (Option Md)) (s : Option Md) :
    narrate (steps ++ [s]) = (narrate steps).step s := List.foldl_concat ..

end Narrator

/-! ### Frames that start behind the end of the last -/

/-- When a frame starts, every pixel before it belongs to a frame that has ended. -/
def Framed (mds : List Md) : Prop :=
  ∀ pre md post, mds = pre ++ md :: post → md.header = 0x7 → Flushed (pre.map Md.mark)

theorem Framed.left {mds mds' : List Md} (h : Framed (mds ++ mds')) : Framed mds := by
  rintro pre md post rfl
  exact h pre md (post ++ mds') (by simp)

theorem Framed.last {mds : List Md} {md : Md} (h : Framed (mds ++ [md])) (h7 : md.header = 0x7) :
    Flushed (mds.map Md.mark) :=
  h mds md [] rfl h7

/-- A stream of one frame. -/
theorem framed_single {md : Md} {mds : List Md} (hmds : ∀ md ∈ mds, md.header ≠ 0x7) :
    Framed (md :: mds) := by
  intro pre md' post heq h7
  cases pre with
  | nil => exact followed_nil
  | cons md'' pre =>
    obtain ⟨-, rfl⟩ := List.cons.inj heq
    exact absurd h7 (hmds md' (List.mem_append_right _ List.mem_cons_self))

namespace Narrator

/-- If every pixel belongs to a frame that has ended, none is kept. -/
theorem pending_of_flushed (steps : List (Option Md))
    (h : Flushed (steps.reduceOption.map Md.mark)) : (narrate steps).pending = [] := by
  induction steps using List.reverseRecOn with
  | nil => rfl
  | append_singleton steps s ih =>
    rw [narrate_concat]
    cases s with
    | none => rfl
    | some md =>
      rw [List.reduceOption_append, List.map_append] at h
      have hsingle : [some md].reduceOption.map Md.mark = [md.mark] := rfl
      rw [hsingle] at h
      by_cases h4 : md.header = 0x4
      · rw [Md.mark, if_pos h4] at h
        exact absurd h (not_flushed_concat_pixel _)
      · by_cases hC : md.header = 0xC
        · rw [step, hear_finished hC]
          rfl
        · rw [Md.mark, if_neg h4, if_neg hC, flushed_concat_other] at h
          exact (hear_pending_eq h4 hC).trans (ih h)

/-- A narrator that may be behind one that tells pixels at once. -/
structure Behind (n p : Narrator) : Prop where
  history : n.history = p.told
  pending : p.pending = []
  offset : n.offset = p.offset
  frames : n.frames = p.frames
  info : { n.info with receivedPixels := n.counted } = p.info

namespace Behind

variable {n p : Narrator}

theorem handOver (h : Behind n p) : Behind n.handOver p :=
  ⟨(handOver_history n).trans h.history, h.pending, h.offset, h.frames, by
    rw [handOver_counted, ← h.info]
    rfl⟩

/-- Handing over what there is not. -/
theorem prompt (h : Behind n p) : p.handOver = p := by
  have hpending := h.pending
  obtain ⟨told, pending, offset, frames, info⟩ := p
  obtain rfl : pending = [] := hpending
  simp [Narrator.handOver]

/-- The two reports of the current frame differ in the pixels kept. -/
theorem info_counted (h : Behind n p) (k : UInt64) :
    { n.info with receivedPixels := k } = { p.info with receivedPixels := k } := by
  rw [← h.info]

theorem counted (h : Behind n p) : n.counted = p.counted := by
  rw [Narrator.counted, Narrator.counted, h.pending, ← h.info]
  exact (UInt64.add_zero _).symm

/-- A narrator that keeps no pixel is not behind. -/
theorem eq_of_pending (h : Behind n p) (hnone : n.pending = []) : n = p := by
  have hhistory := h.history
  have hinfo := h.info
  rw [Narrator.history, hnone, List.map_nil, List.append_nil] at hhistory
  rw [Narrator.counted, hnone, List.length_nil, show UInt64.ofNat 0 = 0 from rfl,
    UInt64.add_zero] at hinfo
  have hpending := hnone.trans h.pending.symm
  have hoffset := h.offset
  have hframes := h.frames
  cases n
  cases p
  simp only at hhistory hpending hoffset hframes hinfo
  rw [hhistory, hpending, hoffset, hframes, ← hinfo]

theorem refl_of_pending (hnone : n.pending = []) : Behind n n := by
  refine ⟨?_, hnone, rfl, rfl, ?_⟩
  · rw [Narrator.history, hnone, List.map_nil, List.append_nil]
  · rw [Narrator.counted, hnone, List.length_nil, show UInt64.ofNat 0 = 0 from rfl, UInt64.add_zero]

/-- A message within a frame. -/
theorem hear_mid (h : Behind n p) {md : Md} (h7 : md.header ≠ 0x7) (hC : md.header ≠ 0xC) :
    Behind (n.hear md) (p.hear md).handOver := by
  have hcounted : (n.hear md).counted = (p.hear md).counted := by
    rw [hear_counted h7, hear_counted h7, h.counted]
  refine ⟨?_, rfl, ?_, ?_, ?_⟩
  · have htold : p.history = p.told := by
      rw [Narrator.history, h.pending]
      exact List.append_nil _
    calc (n.hear md).history = (p.hear md).history := by
          rw [hear_history h7 hC, hear_history h7 hC, h.history, htold, h.offset]
      _ = (p.hear md).handOver.told := rfl
  · exact (hear_offset_eq n md).trans (h.offset ▸ (hear_offset_eq p md).symm)
  · exact (hear_frames_eq n md).trans (h.frames ▸ (hear_frames_eq p md).symm)
  · calc { (n.hear md).info with receivedPixels := (n.hear md).counted }
        = { n.info with receivedPixels := (n.hear md).counted }.after md := by
          rw [hear_info h7 hC]
          exact (FrameInfo.after_counted h7 n.info _).symm
      _ = { p.info with receivedPixels := (p.hear md).counted }.after md := by
          rw [h.info_counted, hcounted]
      _ = { (p.hear md).info with receivedPixels := (p.hear md).counted } := by
          rw [hear_info h7 hC]
          exact FrameInfo.after_counted h7 p.info _

/-- A message, a new frame if nothing is kept. -/
theorem hear (h : Behind n p) {md : Md} (h7 : md.header = 0x7 → n.pending = []) :
    Behind (n.hear md) (p.hear md).handOver := by
  have hsame : ∀ n' : Narrator, n'.pending = [] → Behind n' n'.handOver := fun n' hnone => by
    have hn' := refl_of_pending hnone
    rw [hn'.prompt]
    exact hn'
  by_cases hnew : md.header = 0x7
  · obtain rfl := h.eq_of_pending (h7 hnew)
    refine hsame _ ?_
    rw [hear_newFrame hnew]
    exact h.pending
  by_cases hC : md.header = 0xC
  · have hover : n.handOver = p := h.handOver.eq_of_pending rfl
    rw [hear_finished hC, hear_finished hC, h.prompt, hover]
    exact hsame _ h.pending
  · exact h.hear_mid hnew hC

end Behind

/-- If every frame starts behind the end of the last, it makes no difference when pixels are
handed over. -/
theorem behind_promptly (steps : List (Option Md)) (h : Framed steps.reduceOption) :
    Behind (narrate steps) (promptly steps.reduceOption) := by
  induction steps using List.reverseRecOn with
  | nil => exact Behind.refl_of_pending rfl
  | append_singleton steps s ih =>
    rw [narrate_concat]
    rw [List.reduceOption_append] at h ⊢
    have hbehind := ih h.left
    cases s with
    | none =>
      rw [show [none].reduceOption = ([] : List Md) from rfl, List.append_nil]
      exact hbehind.handOver
    | some md =>
      rw [show [some md].reduceOption = [md] from rfl] at h ⊢
      rw [promptly, List.foldl_concat]
      exact hbehind.hear fun h7 => pending_of_flushed steps (h.last h7)

end Narrator

/-! ### A frame -/

/-- A stream, cut before and behind a message. -/
theorem reduceOption_eq_append_cons {steps : List (Option Md)} {pre post : List Md} {md : Md}
    (h : steps.reduceOption = pre ++ md :: post) :
    ∃ before after, steps = before ++ some md :: after ∧
      before.reduceOption = pre ∧ after.reduceOption = post := by
  obtain ⟨before, rest, rfl, hpre, hrest⟩ := (List.reduceOption_eq_append_iff _ _ _).mp h
  obtain ⟨nones, a, after, rfl, hnones, hmd, hpost⟩ := List.filterMap_eq_cons_iff.mp hrest
  obtain rfl : a = some md := hmd
  have hnone : nones.reduceOption = [] := List.filterMap_eq_nil_iff.mpr hnones
  refine ⟨before ++ nones, after, (List.append_assoc _ _ _).symm, ?_, hpost⟩
  rw [List.reduceOption_append, hpre, hnone, List.append_nil]

namespace Narrator

/-- The pixels kept came behind the last end of a frame. -/
theorem pending_late {steps : List (Option Md)} {pre post : List Md} {finished : Md}
    (h : steps.reduceOption = pre ++ finished :: post) (hfinished : finished.header = 0xC) :
    (narrate steps).pending <:+ refDecode (refOffset 0 pre) post := by
  obtain ⟨before, after, rfl, rfl, rfl⟩ := reduceOption_eq_append_cons h
  have hsuffix := pending_suffix after ((narrate before).hear finished)
  have hoffset : (narrate before).offset = refOffset 0 before.reduceOption :=
    foldl_offset before start
  rw [hear_offset_eq, if_neg (by omega), hoffset, hear_finished hfinished] at hsuffix
  rw [narrate, List.foldl_append, List.foldl_cons]
  show ((after.foldl step ((narrate before).hear finished)).pending) <:+ _
  rw [hear_finished hfinished]
  exact hsuffix

/-- What is told of a frame. -/
theorem narrate_frame {steps : List (Option Md)} {pre mid post : List Md} {newFrame finished : Md}
    (h : steps.reduceOption = pre ++ newFrame :: (mid ++ finished :: post))
    (hnew : newFrame.header = 0x7) (hfinished : finished.header = 0xC)
    (hmid : ∀ md ∈ mid, md.header ≠ 0x7 ∧ md.header ≠ 0xC) :
    ∃ behind : List (Option Md), behind.reduceOption = pre ∧ ∃ info after,
      (narrate steps).told = (narrate behind).told ++ .started (pre.countP (·.header = 0xC)) ::
        (((narrate behind).pending ++ refDecode (refOffset 0 pre) mid).map .pixel ++
          .ended (pre.countP (·.header = 0xC)) true info :: after) ∧
      info.receivedPixels =
        .ofNat ((narrate behind).pending.length + mid.countP (·.header = 0x4)) ∧
      info.lostPixels = .ofNat ((mid.filter (·.header = 0xD)).map (·.field MdField.nLost)).sum ∧
      info.sentPixels = .ofNat (finished.field MdField.nSent) := by
  obtain ⟨behind, rest, rfl, rfl, hrest⟩ := reduceOption_eq_append_cons h
  obtain ⟨within, after, rfl, rfl, rfl⟩ := reduceOption_eq_append_cons hrest
  have h7 : ∀ md ∈ within.reduceOption, md.header ≠ 0x7 := fun md hmd => (hmid md hmd).1
  let n := narrate behind
  let opened := n.hear newFrame
  let n' := within.foldl step opened
  have hopened : opened = { n with told := n.told ++ [.started n.frames], info := .zero } :=
    hear_newFrame hnew
  have hframes : n.frames = behind.reduceOption.countP (·.header = 0xC) :=
    (foldl_frames behind start).trans (Int.zero_add _)
  have hframes' : n'.frames = n.frames := by
    have hnone : within.reduceOption.countP (·.header = 0xC) = 0 := by
      rw [List.countP_eq_zero]
      intro md hmd
      simp [(hmid md hmd).2]
    refine (foldl_frames within opened).trans ?_
    rw [hnone, hopened]
    exact Int.add_zero _
  have hoffset : opened.offset = refOffset 0 behind.reduceOption := by
    rw [hopened]
    exact foldl_offset behind start
  have hhistory : n'.history = n.told ++ .started n.frames ::
      (n.pending ++ refDecode (refOffset 0 behind.reduceOption) within.reduceOption).map .pixel := by
    refine (foldl_history within opened hmid).trans ?_
    rw [hoffset, hopened, history]
    simp
  have hcounted : n'.counted =
      .ofNat (n.pending.length + within.reduceOption.countP (·.header = 0x4)) := by
    refine (foldl_counted within opened h7).trans ?_
    rw [hopened, counted, UInt64.ofNat_add]
    exact congrArg (· + _) (UInt64.zero_add _)
  have hlost : n'.info.lostPixels = .ofNat
      ((within.reduceOption.filter (·.header = 0xD)).map (·.field MdField.nLost)).sum := by
    refine (foldl_lost within opened h7).trans ?_
    rw [hopened]
    exact UInt64.zero_add _
  have hended : (n'.hear finished).told =
      n'.history ++ [.ended n'.frames true (n'.handOver.info.after finished)] := by
    rw [hear_finished hfinished]
    rfl
  obtain ⟨later, hlater⟩ := told_mono after (n'.hear finished)
  have htold : (narrate (behind ++ some newFrame :: (within ++ some finished :: after))).told =
      (n'.hear finished).told ++ later := by
    rw [hlater, narrate, List.foldl_append, List.foldl_cons, List.foldl_append, List.foldl_cons]
    rfl
  refine ⟨behind, rfl, n'.handOver.info.after finished, later, ?_, ?_, ?_, ?_⟩
  · rw [htold, hended, hhistory, hframes', hframes]
    simp
    rfl
  · rw [FrameInfo.after_received (by omega)]
    exact hcounted
  · rw [FrameInfo.after_lost (by omega), if_neg (by omega), UInt64.add_zero]
    exact hlost
  · simp only [FrameInfo.after, hfinished]

end Narrator

end Sprint3
