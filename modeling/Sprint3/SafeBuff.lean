/-
# `SafeBuff` is a bounded FIFO

`SafeBuff` of `CustomDataTypes.hpp`: an array of `MAX_BUFF_EL` cells of which
the first `numElements_` are in use. `addElements` copies what fits behind
them, `copyClear` copies the first ones out and moves the rest to the front.

Every run of these calls from a fresh buffer answers as the FIFO of capacity
`MAX_BUFF_EL` does and leaves the buffer holding that FIFO's elements
(`run_refines`); so nothing accepted is lost or reordered (`safeBuff_fifo`).
-/
import Sprint3.Lib.Fifo
import Sprint3.Lib.Memory
import Sprint3.Types

namespace Sprint3

open Memory

/-- `SafeBuff<T>`: the array `buf_` and the count `numElements_`. -/
structure SafeBuff (T : Type*) where
  buf : ℕ → T
  numElements : ℕ

namespace SafeBuff

variable {T : Type*}

/-- A buffer as constructed, in memory that holds anything. -/
def fresh (mem : ℕ → T) : SafeBuff T := ⟨mem, 0⟩

/-- What `addElements` leaves: the buffer, `discarded` and the returned total. -/
structure Added (T : Type*) where
  buff : SafeBuff T
  discarded : ℕ
  total : ℕ

def addElements (b : SafeBuff T) (newElCount : ℕ) (newBuf : ℕ → T) : Added T :=
  let allEl := sizeAdd b.numElements newElCount
  let discardedElCount := if maxBuffEl < allEl then sizeSub allEl maxBuffEl else 0
  let elToAddCount :=
    if maxBuffEl < allEl then sizeSub newElCount discardedElCount else newElCount
  let buff : SafeBuff T :=
    { buf := copy b.buf b.numElements newBuf 0 elToAddCount
      numElements := sizeAdd b.numElements elToAddCount }
  { buff := buff, discarded := discardedElCount, total := buff.numElements }

/-- What `copyClear` leaves: the buffer, the caller's array and the returned count. -/
structure Copied (T : Type*) where
  buff : SafeBuff T
  copyBuf : ℕ → T
  count : ℕ

def copyClear (b : SafeBuff T) (copyBuf : ℕ → T) (maxCopyBufElements : ℕ) : Copied T :=
  let reorgRequired := !decide (b.numElements < maxCopyBufElements)
  let maxElToCopy :=
    if b.numElements < maxCopyBufElements then b.numElements else maxCopyBufElements
  let uncopiedElements := sizeSub b.numElements maxElToCopy
  { buff :=
      if reorgRequired then
        { buf := copy b.buf 0 b.buf maxElToCopy uncopiedElements, numElements := uncopiedElements }
      else { b with numElements := 0 }
    copyBuf := copy copyBuf 0 b.buf 0 maxElToCopy
    count := maxElToCopy }

/-- The elements in use, `buf_[0 .. numElements_)`. -/
def contents (b : SafeBuff T) : List T := slice b.buf 0 b.numElements

/-- The count stays within the array. -/
def Ok (b : SafeBuff T) : Prop := b.numElements ≤ maxBuffEl

theorem fresh_ok (mem : ℕ → T) : (fresh mem).Ok := Nat.zero_le _

@[simp] theorem contents_length (b : SafeBuff T) : b.contents.length = b.numElements := by
  simp [contents]

theorem maxBuffEl_lt : maxBuffEl < 2 ^ 64 := by decide

/-! ### One call -/

theorem addElements_eq {b : SafeBuff T} (hb : b.Ok) {newElCount : ℕ} (newBuf : ℕ → T)
    (hn : newElCount + maxBuffEl < 2 ^ 64) :
    b.addElements newElCount newBuf =
      { buff :=
          { buf := copy b.buf b.numElements newBuf 0 (min newElCount (maxBuffEl - b.numElements))
            numElements := b.numElements + min newElCount (maxBuffEl - b.numElements) }
        discarded := newElCount - (maxBuffEl - b.numElements)
        total := b.numElements + min newElCount (maxBuffEl - b.numElements) } := by
  unfold Ok at hb
  unfold addElements
  rw [sizeAdd_eq (by omega : b.numElements + newElCount < 2 ^ 64)]
  by_cases hover : maxBuffEl < b.numElements + newElCount
  · simp only [if_pos hover]
    rw [sizeSub_eq (a := b.numElements + newElCount) (by omega) (by omega),
      sizeSub_eq (a := newElCount) (by omega) (by omega)]
    have hmin : newElCount - (b.numElements + newElCount - maxBuffEl) =
        min newElCount (maxBuffEl - b.numElements) := by omega
    have hdis : b.numElements + newElCount - maxBuffEl =
        newElCount - (maxBuffEl - b.numElements) := by omega
    rw [hmin, hdis, sizeAdd_eq (by omega)]
  · simp only [if_neg hover]
    have hmin : min newElCount (maxBuffEl - b.numElements) = newElCount := by omega
    have hdis : newElCount - (maxBuffEl - b.numElements) = 0 := by omega
    rw [hmin, hdis, sizeAdd_eq (by omega)]

theorem addElements_ok {b : SafeBuff T} (hb : b.Ok) {newElCount : ℕ} (newBuf : ℕ → T)
    (hn : newElCount + maxBuffEl < 2 ^ 64) : (b.addElements newElCount newBuf).buff.Ok := by
  rw [addElements_eq hb newBuf hn]
  unfold Ok at hb ⊢
  simp only
  omega

/-- `addElements` appends the part of the new elements that fits. -/
theorem addElements_contents {b : SafeBuff T} (hb : b.Ok) {newElCount : ℕ} (newBuf : ℕ → T)
    (hn : newElCount + maxBuffEl < 2 ^ 64) :
    (b.addElements newElCount newBuf).buff.contents =
      b.contents ++ Fifo.accepted maxBuffEl b.numElements (slice newBuf 0 newElCount) := by
  rw [addElements_eq hb newBuf hn]
  simp only [contents, Fifo.accepted, slice_copy_append, slice_take]
  rw [min_comm]

theorem copyClear_eq {b : SafeBuff T} (hb : b.Ok) (copyBuf : ℕ → T) (maxCopyBufElements : ℕ) :
    b.copyClear copyBuf maxCopyBufElements =
      { buff :=
          if b.numElements < maxCopyBufElements then { b with numElements := 0 }
          else
            { buf := copy b.buf 0 b.buf maxCopyBufElements (b.numElements - maxCopyBufElements)
              numElements := b.numElements - maxCopyBufElements }
        copyBuf := copy copyBuf 0 b.buf 0 (min b.numElements maxCopyBufElements)
        count := min b.numElements maxCopyBufElements } := by
  have hlt := maxBuffEl_lt
  unfold Ok at hb
  unfold copyClear
  by_cases hall : b.numElements < maxCopyBufElements
  · simp only [hall, decide_true, Bool.not_true, Bool.false_eq_true, ↓reduceIte]
    rw [min_eq_left hall.le]
  · simp only [hall, decide_false, Bool.not_false, ↓reduceIte]
    rw [sizeSub_eq (by omega) (by omega), min_eq_right (by omega)]

theorem copyClear_numElements {b : SafeBuff T} (hb : b.Ok) (copyBuf : ℕ → T)
    (maxCopyBufElements : ℕ) :
    (b.copyClear copyBuf maxCopyBufElements).buff.numElements =
      b.numElements - maxCopyBufElements := by
  rw [copyClear_eq hb]
  by_cases hall : b.numElements < maxCopyBufElements
  · simp only [if_pos hall]
    omega
  · simp only [if_neg hall]

theorem copyClear_ok {b : SafeBuff T} (hb : b.Ok) (copyBuf : ℕ → T) (maxCopyBufElements : ℕ) :
    (b.copyClear copyBuf maxCopyBufElements).buff.Ok := by
  have h := copyClear_numElements hb copyBuf maxCopyBufElements
  unfold Ok at hb ⊢
  omega

/-- `copyClear` hands out the oldest elements. -/
theorem copyClear_copied {b : SafeBuff T} (hb : b.Ok) (copyBuf : ℕ → T) (maxCopyBufElements : ℕ) :
    slice (b.copyClear copyBuf maxCopyBufElements).copyBuf 0
      (b.copyClear copyBuf maxCopyBufElements).count = b.contents.take maxCopyBufElements := by
  rw [copyClear_eq hb]
  simp only [slice_copy, contents, slice_take]
  rw [min_comm]

/-- `copyClear` keeps the other elements, in order. -/
theorem copyClear_contents {b : SafeBuff T} (hb : b.Ok) (copyBuf : ℕ → T)
    (maxCopyBufElements : ℕ) :
    (b.copyClear copyBuf maxCopyBufElements).buff.contents =
      b.contents.drop maxCopyBufElements := by
  rw [copyClear_eq hb, contents, contents, slice_drop, Nat.zero_add]
  by_cases hall : b.numElements < maxCopyBufElements
  · simp only [if_pos hall, Nat.sub_eq_zero_of_le hall.le, slice_zero]
  · simp only [if_neg hall, slice_copy]

/-- A `copyClear` into an array as large as the buffer takes everything. -/
theorem copyClear_all {b : SafeBuff T} (hb : b.Ok) (copyBuf : ℕ → T) :
    slice (b.copyClear copyBuf maxBuffEl).copyBuf 0 (b.copyClear copyBuf maxBuffEl).count =
      b.contents ∧ (b.copyClear copyBuf maxBuffEl).buff.contents = [] := by
  have hlen : b.contents.length ≤ maxBuffEl := by rw [contents_length]; exact hb
  rw [copyClear_copied hb, copyClear_contents hb]
  exact ⟨List.take_of_length_le hlen, List.drop_of_length_le hlen⟩

/-! ### Runs -/

/-- A call on the buffer, made with the mutex held. -/
inductive Call (T : Type*)
  | addElements (newElCount : ℕ) (newBuf : ℕ → T)
  | copyClear (copyBuf : ℕ → T) (maxCopyBufElements : ℕ)

/-- What the caller gets: `discarded` and the total, or its array and the count copied. -/
inductive Return (T : Type*)
  | added (discarded total : ℕ)
  | copied (copyBuf : ℕ → T) (count : ℕ)

def call (b : SafeBuff T) : Call T → SafeBuff T
  | .addElements newElCount newBuf => (b.addElements newElCount newBuf).buff
  | .copyClear copyBuf maxCopyBufElements => (b.copyClear copyBuf maxCopyBufElements).buff

def return_ (b : SafeBuff T) : Call T → Return T
  | .addElements newElCount newBuf =>
    .added (b.addElements newElCount newBuf).discarded (b.addElements newElCount newBuf).total
  | .copyClear copyBuf maxCopyBufElements =>
    .copied (b.copyClear copyBuf maxCopyBufElements).copyBuf
      (b.copyClear copyBuf maxCopyBufElements).count

def run (b : SafeBuff T) (calls : List (Call T)) : SafeBuff T := calls.foldl call b

def returns : SafeBuff T → List (Call T) → List (Return T)
  | _, [] => []
  | b, c :: calls => b.return_ c :: returns (b.call c) calls

/-- `numElements_ + newElCount` stays within `size_t`. -/
def Call.InRange : Call T → Prop
  | .addElements newElCount _ => newElCount + maxBuffEl < 2 ^ 64
  | .copyClear _ _ => True

/-- The call as the FIFO's client makes it. -/
def Call.op : Call T → Fifo.Op T
  | .addElements newElCount newBuf => .offer (slice newBuf 0 newElCount)
  | .copyClear _ maxCopyBufElements => .poll maxCopyBufElements

/-- The return as the FIFO's client reads it. -/
def Return.answer : Return T → Fifo.Answer T
  | .added discarded total => .offered discarded total
  | .copied copyBuf count => .polled (slice copyBuf 0 count)

/-- The FIFO a buffer holds. -/
def toFifo (b : SafeBuff T) (hb : b.Ok) : Fifo maxBuffEl T :=
  ⟨b.contents, by rw [contents_length]; exact hb⟩

theorem call_ok {b : SafeBuff T} (hb : b.Ok) {c : Call T} (hc : c.InRange) : (b.call c).Ok := by
  cases c with
  | addElements newElCount newBuf => exact addElements_ok hb newBuf hc
  | copyClear copyBuf maxCopyBufElements => exact copyClear_ok hb copyBuf maxCopyBufElements

/-- One call is the FIFO's operation. -/
theorem call_refines {b : SafeBuff T} (hb : b.Ok) {c : Call T} (hc : c.InRange) :
    (b.call c).toFifo (call_ok hb hc) = (b.toFifo hb).apply c.op ∧
      (b.return_ c).answer = (b.toFifo hb).answer c.op := by
  cases c with
  | addElements newElCount newBuf =>
    have hcont := addElements_contents hb newBuf hc
    have hsize : ((b.toFifo hb).offer (slice newBuf 0 newElCount)).items.length =
        (b.addElements newElCount newBuf).total := by
      show (b.contents ++ Fifo.accepted maxBuffEl b.contents.length _).length = _
      rw [contents_length, ← hcont, contents_length]
      rfl
    refine ⟨?_, ?_⟩
    · simp only [toFifo, call, Call.op, Fifo.apply, Fifo.offer, hcont, contents_length]
    · simp only [return_, Return.answer, Call.op, Fifo.answer, hsize]
      simp [addElements_eq hb newBuf hc, toFifo]
  | copyClear copyBuf maxCopyBufElements =>
    refine ⟨?_, ?_⟩
    · simp only [toFifo, call, Call.op, Fifo.apply, Fifo.poll, copyClear_contents hb]
    · simp only [return_, Return.answer, Call.op, Fifo.answer, toFifo, copyClear_copied hb]

theorem run_ok : ∀ (calls : List (Call T)) {b : SafeBuff T}, b.Ok → (∀ c ∈ calls, c.InRange) →
    (b.run calls).Ok
  | [], _, hb, _ => hb
  | c :: calls, _, hb, hc =>
    run_ok calls (call_ok hb (hc c List.mem_cons_self)) fun c' h => hc c' (List.mem_cons_of_mem _ h)

/-- **A run is the FIFO's run.** -/
theorem run_refines : ∀ (calls : List (Call T)) {b : SafeBuff T} (hb : b.Ok)
    (_ : ∀ c ∈ calls, c.InRange),
    (b.run calls).contents = ((b.toFifo hb).run (calls.map Call.op)).items ∧
      (b.returns calls).map Return.answer = (b.toFifo hb).answers (calls.map Call.op)
  | [], _, _, _ => ⟨rfl, rfl⟩
  | c :: calls, b, hb, hc => by
    have hcall := hc c List.mem_cons_self
    obtain ⟨happly, hanswer⟩ := call_refines hb hcall
    obtain ⟨ihrun, ihret⟩ := run_refines calls (call_ok hb hcall)
      fun c' h => hc c' (List.mem_cons_of_mem _ h)
    rw [happly] at ihrun ihret
    refine ⟨ihrun, ?_⟩
    simp only [returns, List.map_cons, Fifo.answers, hanswer, ihret]

/-- The data a run copies out, in order. -/
def copiedOut : List (Return T) → List T
  | [] => []
  | .added _ _ :: rs => copiedOut rs
  | .copied copyBuf count :: rs => slice copyBuf 0 count ++ copiedOut rs

/-- The elements a run discards. -/
def totalDiscarded : List (Return T) → ℕ
  | [] => 0
  | .added discarded _ :: rs => discarded + totalDiscarded rs
  | .copied _ _ :: rs => totalDiscarded rs

/-- The elements a run is offered. -/
def totalOffered : List (Call T) → ℕ
  | [] => 0
  | .addElements newElCount _ :: calls => newElCount + totalOffered calls
  | .copyClear _ _ :: calls => totalOffered calls

/-- The prefixes of the new elements that a run's `addElements` calls accept, in order. -/
def accepted : SafeBuff T → List (Call T) → List T
  | _, [] => []
  | b, .addElements newElCount newBuf :: calls =>
    slice newBuf 0 (newElCount - (b.addElements newElCount newBuf).discarded) ++
      accepted (b.addElements newElCount newBuf).buff calls
  | b, .copyClear copyBuf maxCopyBufElements :: calls =>
    accepted (b.copyClear copyBuf maxCopyBufElements).buff calls

theorem copiedOut_answer : ∀ rs : List (Return T),
    Fifo.handedOut (rs.map Return.answer) = copiedOut rs
  | [] => rfl
  | .added _ _ :: rs => copiedOut_answer rs
  | .copied _ _ :: rs => congrArg _ (copiedOut_answer rs)

theorem totalDiscarded_answer : ∀ rs : List (Return T),
    Fifo.rejected (rs.map Return.answer) = totalDiscarded rs
  | [] => rfl
  | .added _ _ :: rs => congrArg _ (totalDiscarded_answer rs)
  | .copied _ _ :: rs => totalDiscarded_answer rs

theorem totalOffered_op : ∀ calls : List (Call T),
    Fifo.offeredCount (calls.map Call.op) = totalOffered calls
  | [] => rfl
  | .addElements newElCount newBuf :: calls => by
    simp [Fifo.offeredCount, Call.op, totalOffered, totalOffered_op calls]
  | .copyClear _ _ :: calls => totalOffered_op calls

/-- The accepted prefix is what the FIFO accepts. -/
theorem accepted_eq_take {b : SafeBuff T} (hb : b.Ok) {newElCount : ℕ} (newBuf : ℕ → T)
    (hn : newElCount + maxBuffEl < 2 ^ 64) :
    slice newBuf 0 (newElCount - (b.addElements newElCount newBuf).discarded) =
      Fifo.accepted maxBuffEl b.numElements (slice newBuf 0 newElCount) := by
  rw [addElements_eq hb newBuf hn, Fifo.accepted, slice_take]
  simp only
  congr 1
  omega

theorem accepted_op : ∀ (calls : List (Call T)) {b : SafeBuff T} (hb : b.Ok)
    (_ : ∀ c ∈ calls, c.InRange),
    (b.toFifo hb).allAccepted (calls.map Call.op) = b.accepted calls
  | [], _, _, _ => rfl
  | c :: calls, b, hb, hc => by
    have hcall := hc c List.mem_cons_self
    have ih := accepted_op calls (call_ok hb hcall) fun c' h => hc c' (List.mem_cons_of_mem _ h)
    rw [(call_refines hb hcall).1] at ih
    cases c with
    | addElements newElCount newBuf =>
      simp only [List.map_cons, Call.op, Fifo.allAccepted, accepted]
      rw [accepted_eq_take hb newBuf hcall]
      simp only [toFifo, contents_length]
      exact congrArg _ ih
    | copyClear copyBuf maxCopyBufElements => exact ih

/-- **`SafeBuff` is a bounded FIFO.** After every run of calls from a fresh
buffer the count is within the array, the next call of either kind does what
the FIFO does, what was copied out followed by the contents is what was
accepted, and every element offered was copied out, is in the buffer or was
reported as discarded. -/
theorem safeBuff_fifo (mem : ℕ → T) (calls : List (Call T)) (hcalls : ∀ c ∈ calls, c.InRange) :
    let b := (fresh mem).run calls
    let rs := (fresh mem).returns calls
    b.numElements ≤ maxBuffEl ∧
    (∀ newElCount newBuf, newElCount + maxBuffEl < 2 ^ 64 →
      let added := b.addElements newElCount newBuf
      added.buff.contents =
          b.contents ++ (slice newBuf 0 newElCount).take (maxBuffEl - b.numElements) ∧
        added.discarded = newElCount - (maxBuffEl - b.numElements) ∧
        added.total = added.buff.numElements) ∧
    (∀ copyBuf maxCopyBufElements,
      let copied := b.copyClear copyBuf maxCopyBufElements
      copied.count = min b.numElements maxCopyBufElements ∧
        slice copied.copyBuf 0 copied.count = b.contents.take copied.count ∧
        copied.buff.contents = b.contents.drop copied.count) ∧
    rs.map Return.answer = (Fifo.empty : Fifo maxBuffEl T).answers (calls.map Call.op) ∧
    copiedOut rs ++ b.contents = (fresh mem).accepted calls ∧
    totalOffered calls = (copiedOut rs).length + b.numElements + totalDiscarded rs := by
  intro b rs
  have hok : b.Ok := run_ok calls (fresh_ok mem) hcalls
  have hfifo : (fresh mem).toFifo (fresh_ok mem) = Fifo.empty := rfl
  obtain ⟨hrun, hret⟩ := run_refines calls (fresh_ok mem) hcalls
  have hacc := accepted_op calls (fresh_ok mem) hcalls
  rw [hfifo] at hrun hret hacc
  refine ⟨hok, fun newElCount newBuf hn => ?_, fun copyBuf maxCopyBufElements => ?_, hret, ?_, ?_⟩
  · refine ⟨addElements_contents hok newBuf hn, ?_, rfl⟩
    rw [addElements_eq hok newBuf hn]
  · have hcount : (b.copyClear copyBuf maxCopyBufElements).count =
        min b.numElements maxCopyBufElements := by rw [copyClear_eq hok]
    have hlen := contents_length b
    refine ⟨hcount, ?_, ?_⟩
    · rw [copyClear_copied hok, hcount, ← hlen, List.take_eq_take_iff]
      omega
    · rw [copyClear_contents hok, hcount]
      rcases Nat.le_total b.numElements maxCopyBufElements with h | h
      · rw [min_eq_left h, List.drop_of_length_le (by omega), List.drop_of_length_le (by omega)]
      · rw [min_eq_right h]
  · have hcons := Fifo.run_conserves (calls.map Call.op) (Fifo.empty : Fifo maxBuffEl T)
    rw [← hret, ← hrun, copiedOut_answer, hacc] at hcons
    exact hcons
  · have hcount := Fifo.run_counts (calls.map Call.op) (Fifo.empty : Fifo maxBuffEl T)
    rw [← hret, ← hrun, copiedOut_answer, totalDiscarded_answer, totalOffered_op,
      contents_length] at hcount
    have hempty : (Fifo.empty : Fifo maxBuffEl T).items.length = 0 := rfl
    change totalOffered calls = (copiedOut ((fresh mem).returns calls)).length +
      ((fresh mem).run calls).numElements + totalDiscarded ((fresh mem).returns calls)
    omega

/-- A full buffer, one element too many, a partial copy and an empty add. -/
theorem safeBuff_fifo_overflow :
    let calls : List (Call ℕ) :=
      [.addElements 65536 id, .addElements 1 id, .copyClear id 3, .addElements 0 id]
    ((fresh id).run calls).numElements ≤ maxBuffEl ∧
      copiedOut ((fresh id).returns calls) ++ ((fresh id).run calls).contents =
        (fresh id).accepted calls ∧
      totalOffered calls = (copiedOut ((fresh id).returns calls)).length +
        ((fresh id).run calls).numElements + totalDiscarded ((fresh id).returns calls) := by
  intro calls
  have hcalls : ∀ c ∈ calls, c.InRange := by
    intro c hc
    simp only [calls, List.mem_cons, List.not_mem_nil, or_false] at hc
    rcases hc with rfl | rfl | rfl | rfl <;> simp [Call.InRange, maxBuffEl]
  obtain ⟨hok, -, -, -, hcons, hcount⟩ := safeBuff_fifo id calls hcalls
  exact ⟨hok, hcons, hcount⟩

end SafeBuff
end Sprint3
