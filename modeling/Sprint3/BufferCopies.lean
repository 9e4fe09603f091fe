/-
# What `SafeBuff` asks of `memcpy`

`addElements` and `copyClear` with their calls of `memcpy` and their
subtractions one by one, for any implementation of `memcpy`. In every run each
of them stays in its array and no subtraction goes below zero, but the shift
of `copyClear` copies within `buf_`: its ranges are apart exactly if at least
half of the elements were taken (`memcpy_defined`). In the runs in which they
always are, the buffer is the bounded FIFO that `SafeBuff` is with a `memcpy`
that reads everything first (`execute_eq`, `runWith_eq`).
-/
import Sprint3.Intake
import Sprint3.Lib.Copying

namespace Sprint3

open Copying Memory

/-- The arrays of a call: `buf_` and the caller's. -/
inductive Arr
  | buf
  | caller
  deriving DecidableEq, Repr

namespace SafeBuff

variable {T : Type}

/-! ### The code -/

section Code

variable (impl : Implementation Arr T)

/-- `addElements`: the new `numElements_`, which it returns, and `discarded`. -/
def addElementsCode (numElements newElCount : ℕ) : Code Arr T (ℕ × ℕ) := do
  let mut discardedElCount := 0
  let allEl := sizeAdd numElements newElCount
  let mut elToAddCount := newElCount
  if maxBuffEl < allEl then
    discardedElCount ← sub 64 allEl maxBuffEl
    elToAddCount ← sub 64 elToAddCount discardedElCount
  memcpy impl ⟨.buf, numElements, .caller, 0, elToAddCount⟩
  return (sizeAdd numElements elToAddCount, discardedElCount)

/-- `copyClear`: the new `numElements_` and the count it returns. -/
def copyClearCode (numElements maxCopyBufElements : ℕ) : Code Arr T (ℕ × ℕ) := do
  let mut reorgRequired := true
  let mut maxElToCopy := maxCopyBufElements
  if numElements < maxElToCopy then
    reorgRequired := false
    maxElToCopy := numElements
  memcpy impl ⟨.caller, 0, .buf, 0, maxElToCopy⟩
  if reorgRequired then
    let uncopiedElements ← sub 64 numElements maxElToCopy
    memcpy impl ⟨.buf, 0, .buf, maxElToCopy, uncopiedElements⟩
    return (uncopiedElements, maxElToCopy)
  else
    return (0, maxElToCopy)

/-- The caller's array. -/
def Call.array : Call T → ℕ → T
  | .addElements _ newBuf => newBuf
  | .copyClear copyBuf _ => copyBuf

/-- The sizes of the arrays, the caller's being as large as it says. -/
def Call.size : Call T → Arr → ℕ
  | _, .buf => maxBuffEl
  | .addElements newElCount _, .caller => newElCount
  | .copyClear _ maxCopyBufElements, .caller => maxCopyBufElements

/-- The arrays before a call. -/
def memory (b : SafeBuff T) (array : ℕ → T) : Arr → ℕ → T
  | .buf => b.buf
  | .caller => array

def machine (b : SafeBuff T) (c : Call T) : Machine Arr T := ⟨c.size, b.memory c.array, []⟩

/-- What a call leaves: the buffer, what the caller gets, and what was done. -/
structure Outcome (T : Type) where
  buff : SafeBuff T
  return_ : Return T
  log : List (Op Arr)

def execute (b : SafeBuff T) (c : Call T) : Outcome T :=
  match c with
  | .addElements newElCount _ =>
    let ((numElements, discarded), m) :=
      (addElementsCode impl b.numElements newElCount).run (b.machine c)
    ⟨⟨m.mem .buf, numElements⟩, .added discarded numElements, m.log⟩
  | .copyClear _ maxCopyBufElements =>
    let ((numElements, count), m) :=
      (copyClearCode impl b.numElements maxCopyBufElements).run (b.machine c)
    ⟨⟨m.mem .buf, numElements⟩, .copied (m.mem .caller) count, m.log⟩

def runWith (b : SafeBuff T) (calls : List (Call T)) : SafeBuff T :=
  calls.foldl (fun b c => (b.execute impl c).buff) b

end Code

/-! ### One call -/

section Call

variable (impl : Implementation Arr T)

/-- The transfers of a call. -/
def addTransfer (numElements elToAddCount : ℕ) : Transfer Arr :=
  ⟨.buf, numElements, .caller, 0, elToAddCount⟩

def takeTransfer (maxElToCopy : ℕ) : Transfer Arr := ⟨.caller, 0, .buf, 0, maxElToCopy⟩

def shiftTransfer (maxElToCopy uncopiedElements : ℕ) : Transfer Arr :=
  ⟨.buf, 0, .buf, maxElToCopy, uncopiedElements⟩

theorem addElementsCode_over {numElements newElCount : ℕ}
    (hover : maxBuffEl < sizeAdd numElements newElCount) (m : Machine Arr T) :
    (addElementsCode impl numElements newElCount).run m =
      let allEl := sizeAdd numElements newElCount
      let discarded := sizeSub allEl maxBuffEl
      let added := sizeSub newElCount discarded
      ((sizeAdd numElements added, discarded),
        { m with
          mem := impl.run m.size (addTransfer numElements added) m.mem
          log := m.log ++ [.sub allEl maxBuffEl] ++ [.sub newElCount discarded] ++
            [.memcpy (addTransfer numElements added)] }) := by
  unfold addElementsCode
  simp only [if_pos hover]
  rfl

theorem addElementsCode_fits {numElements newElCount : ℕ}
    (hfits : ¬maxBuffEl < sizeAdd numElements newElCount) (m : Machine Arr T) :
    (addElementsCode impl numElements newElCount).run m =
      ((sizeAdd numElements newElCount, 0),
        { m with
          mem := impl.run m.size (addTransfer numElements newElCount) m.mem
          log := m.log ++ [.memcpy (addTransfer numElements newElCount)] }) := by
  unfold addElementsCode
  simp only [if_neg hfits]
  rfl

theorem execute_addElements {b : SafeBuff T} (hb : b.Ok) {newElCount : ℕ} (newBuf : ℕ → T)
    (hn : newElCount + maxBuffEl < 2 ^ 64) :
    b.execute impl (.addElements newElCount newBuf) =
      let added := min newElCount (maxBuffEl - b.numElements)
      let discarded := newElCount - (maxBuffEl - b.numElements)
      let m := b.machine (.addElements newElCount newBuf)
      ⟨⟨impl.run m.size (addTransfer b.numElements added) m.mem .buf, b.numElements + added⟩,
        .added discarded (b.numElements + added),
        if maxBuffEl < b.numElements + newElCount then
          [.sub (b.numElements + newElCount) maxBuffEl, .sub newElCount discarded,
            .memcpy (addTransfer b.numElements added)]
        else [.memcpy (addTransfer b.numElements added)]⟩ := by
  unfold Ok at hb
  have hall : sizeAdd b.numElements newElCount = b.numElements + newElCount :=
    sizeAdd_eq (by omega)
  unfold execute
  by_cases hover : maxBuffEl < b.numElements + newElCount
  · have hdiscarded : sizeSub (b.numElements + newElCount) maxBuffEl =
        newElCount - (maxBuffEl - b.numElements) := by
      rw [sizeSub_eq (by omega) (by omega)]
      omega
    have hadded : sizeSub newElCount (newElCount - (maxBuffEl - b.numElements)) =
        min newElCount (maxBuffEl - b.numElements) := by
      rw [sizeSub_eq (by omega) (by omega)]
      omega
    have hcode := addElementsCode_over impl (hall ▸ hover)
      (b.machine (.addElements newElCount newBuf))
    simp only [hall, hdiscarded, hadded] at hcode
    rw [sizeAdd_eq (by omega)] at hcode
    simp only [hcode, if_pos hover]
    rfl
  · have hadded : min newElCount (maxBuffEl - b.numElements) = newElCount := by omega
    have hdiscarded : newElCount - (maxBuffEl - b.numElements) = 0 := by omega
    have hcode := addElementsCode_fits impl (hall ▸ hover)
      (b.machine (.addElements newElCount newBuf))
    simp only [hall] at hcode
    simp only [hcode, if_neg hover, hadded, hdiscarded]
    rfl

theorem execute_copyClear {b : SafeBuff T} (hb : b.Ok) (copyBuf : ℕ → T)
    (maxCopyBufElements : ℕ) :
    b.execute impl (.copyClear copyBuf maxCopyBufElements) =
      let m := b.machine (.copyClear copyBuf maxCopyBufElements)
      if b.numElements < maxCopyBufElements then
        let mem := impl.run m.size (takeTransfer b.numElements) m.mem
        ⟨⟨mem .buf, 0⟩, .copied (mem .caller) b.numElements, [.memcpy (takeTransfer b.numElements)]⟩
      else
        let shift := shiftTransfer maxCopyBufElements (b.numElements - maxCopyBufElements)
        let mem := impl.run m.size shift (impl.run m.size (takeTransfer maxCopyBufElements) m.mem)
        ⟨⟨mem .buf, b.numElements - maxCopyBufElements⟩, .copied (mem .caller) maxCopyBufElements,
          [.memcpy (takeTransfer maxCopyBufElements), .sub b.numElements maxCopyBufElements,
            .memcpy shift]⟩ := by
  have hlt := maxBuffEl_lt
  unfold Ok at hb
  unfold execute copyClearCode
  by_cases hall : b.numElements < maxCopyBufElements
  · simp only [if_pos hall]
    rfl
  · have hrest : sizeSub b.numElements maxCopyBufElements = b.numElements - maxCopyBufElements :=
      sizeSub_eq (by omega) (by omega)
    simp only [if_neg hall, ← hrest]
    rfl

/-! ### What is defined -/

/-- All that a call does is defined. -/
def Defined (b : SafeBuff T) (c : Call T) : Prop :=
  ∀ op ∈ (b.execute impl c).log, op.Defined c.size

/-- A `copyClear` takes at least half of the elements. -/
def TakesHalf (b : SafeBuff T) : Call T → Prop
  | .addElements _ _ => True
  | .copyClear _ maxCopyBufElements => b.numElements ≤ 2 * maxCopyBufElements

theorem addElements_defined {b : SafeBuff T} (hb : b.Ok) {newElCount : ℕ} (newBuf : ℕ → T)
    (hn : newElCount + maxBuffEl < 2 ^ 64) : b.Defined impl (.addElements newElCount newBuf) := by
  have hadd := execute_addElements impl hb newBuf hn
  unfold Ok at hb
  unfold Defined
  rw [hadd]
  have htransfer : (Op.memcpy (addTransfer b.numElements
      (min newElCount (maxBuffEl - b.numElements)))).Defined
        (Call.addElements newElCount newBuf).size := by
    refine ⟨⟨?_, ?_⟩, Transfer.apart_of_ne (show _ by simp [addTransfer])⟩
    · show b.numElements + min newElCount (maxBuffEl - b.numElements) ≤ maxBuffEl
      omega
    · show 0 + min newElCount (maxBuffEl - b.numElements) ≤ newElCount
      omega
  by_cases hover : maxBuffEl < b.numElements + newElCount
  · simp only [if_pos hover, List.forall_mem_cons]
    refine ⟨⟨hover.le, trivial⟩, ⟨?_, trivial⟩, htransfer, by simp⟩
    exact Nat.sub_le newElCount _
  · simp only [if_neg hover, List.forall_mem_cons]
    exact ⟨htransfer, by simp⟩

/-- The shift of the rest to the front overlaps unless half of the elements were taken. -/
theorem shift_apart (maxElToCopy uncopiedElements : ℕ) :
    (shiftTransfer maxElToCopy uncopiedElements).Apart ↔ uncopiedElements ≤ maxElToCopy := by
  rw [Transfer.apart_iff rfl]
  show uncopiedElements = 0 ∨ 0 + uncopiedElements ≤ maxElToCopy ∨
    maxElToCopy + uncopiedElements ≤ 0 ↔ uncopiedElements ≤ maxElToCopy
  omega

theorem copyClear_defined {b : SafeBuff T} (hb : b.Ok) (copyBuf : ℕ → T)
    (maxCopyBufElements : ℕ) :
    let c := Call.copyClear copyBuf maxCopyBufElements
    (∀ op ∈ (b.execute impl c).log, op.InRange c.size) ∧
      (b.Defined impl c ↔ b.numElements ≤ 2 * maxCopyBufElements) := by
  intro c
  have hcopy := execute_copyClear impl hb copyBuf maxCopyBufElements
  unfold Ok at hb
  unfold Defined
  rw [hcopy]
  have htake : ∀ k ≤ b.numElements, k ≤ maxCopyBufElements →
      (Op.memcpy (takeTransfer k)).Defined c.size := by
    intro k hk hmax
    refine ⟨⟨?_, ?_⟩, Transfer.apart_of_ne (show _ by simp [takeTransfer])⟩
    · show 0 + k ≤ maxCopyBufElements
      omega
    · show 0 + k ≤ maxBuffEl
      omega
  by_cases hall : b.numElements < maxCopyBufElements
  · have htransfer := htake b.numElements le_rfl hall.le
    simp only [if_pos hall, List.forall_mem_cons]
    refine ⟨⟨htransfer.1, by simp⟩, ?_⟩
    constructor
    · intro _
      omega
    · intro _
      exact ⟨htransfer, by simp⟩
  · have htransfer := htake maxCopyBufElements (by omega) le_rfl
    have hsub : maxCopyBufElements ≤ b.numElements := by omega
    have hshift : (shiftTransfer maxCopyBufElements
        (b.numElements - maxCopyBufElements)).Within c.size := by
      refine ⟨?_, ?_⟩
      · show 0 + (b.numElements - maxCopyBufElements) ≤ maxBuffEl
        omega
      · show maxCopyBufElements + (b.numElements - maxCopyBufElements) ≤ maxBuffEl
        omega
    have hapart := shift_apart maxCopyBufElements (b.numElements - maxCopyBufElements)
    simp only [if_neg hall, List.forall_mem_cons]
    refine ⟨⟨htransfer.1, hsub, hshift, by simp⟩, ?_⟩
    constructor
    · rintro ⟨-, -, ⟨-, hshifted⟩, -⟩
      have hle := hapart.mp hshifted
      omega
    · intro hhalf
      exact ⟨htransfer, ⟨hsub, trivial⟩, ⟨hshift, hapart.mpr (by omega)⟩, by simp⟩

/-- No call reaches out of an array or below zero. -/
theorem execute_inRange {b : SafeBuff T} (hb : b.Ok) {c : Call T} (hc : c.InRange) :
    ∀ op ∈ (b.execute impl c).log, op.InRange c.size := by
  cases c with
  | addElements newElCount newBuf =>
    exact fun op hop => (addElements_defined impl hb newBuf hc op hop).1
  | copyClear copyBuf maxCopyBufElements =>
    exact (copyClear_defined impl hb copyBuf maxCopyBufElements).1

theorem defined_iff {b : SafeBuff T} (hb : b.Ok) {c : Call T} (hc : c.InRange) :
    b.Defined impl c ↔ b.TakesHalf c := by
  cases c with
  | addElements newElCount newBuf =>
    exact iff_of_true (addElements_defined impl hb newBuf hc) trivial
  | copyClear copyBuf maxCopyBufElements =>
    exact (copyClear_defined impl hb copyBuf maxCopyBufElements).2

/-! ### What comes of it -/

/-- The count does not depend on what is copied. -/
theorem execute_numElements {b : SafeBuff T} (hb : b.Ok) {c : Call T} (hc : c.InRange) :
    (b.execute impl c).buff.numElements = (b.call c).numElements := by
  cases c with
  | addElements newElCount newBuf =>
    rw [execute_addElements impl hb newBuf hc, call, addElements_eq hb newBuf hc]
  | copyClear copyBuf maxCopyBufElements =>
    rw [execute_copyClear impl hb, call, copyClear_numElements hb]
    by_cases hall : b.numElements < maxCopyBufElements
    · have hzero : b.numElements - maxCopyBufElements = 0 := by omega
      simp only [if_pos hall, hzero]
    · simp only [if_neg hall]

theorem execute_ok {b : SafeBuff T} (hb : b.Ok) {c : Call T} (hc : c.InRange) :
    (b.execute impl c).buff.Ok := by
  have hok := call_ok hb hc
  unfold Ok at hok ⊢
  rwa [execute_numElements impl hb hc]

theorem addTransfer_apply (b : SafeBuff T) (array : ℕ → T) (added : ℕ) :
    (addTransfer b.numElements added).apply (b.memory array) .buf =
      copy b.buf b.numElements array 0 added := Function.update_self ..

theorem takeTransfer_apply (b : SafeBuff T) (array : ℕ → T) (count : ℕ) :
    (takeTransfer count).apply (b.memory array) = b.memory (copy array 0 b.buf 0 count) := by
  funext a
  cases a with
  | buf => exact Function.update_of_ne (by simp [takeTransfer]) ..
  | caller => exact Function.update_self ..

theorem shiftTransfer_apply (b : SafeBuff T) (array : ℕ → T) (count rest : ℕ) :
    (shiftTransfer count rest).apply (b.memory array) =
      (⟨copy b.buf 0 b.buf count rest, b.numElements⟩ : SafeBuff T).memory array := by
  funext a
  cases a with
  | buf => exact Function.update_self ..
  | caller => exact Function.update_of_ne (by simp [shiftTransfer]) ..

/-- **A call all of which is defined is the call of the model**, whatever `memcpy` does
with ranges that overlap. -/
theorem execute_eq {b : SafeBuff T} (hb : b.Ok) {c : Call T} (hc : c.InRange)
    (hdefined : b.Defined impl c) :
    (b.execute impl c).buff = b.call c ∧ (b.execute impl c).return_ = b.return_ c := by
  have hrun : ∀ t, .memcpy t ∈ (b.execute impl c).log →
      ∀ mem, impl.run c.size t mem = t.apply mem := by
    intro t ht mem
    obtain ⟨hwithin, hapart⟩ := hdefined _ ht
    exact impl.run_eq c.size t mem hwithin hapart
  cases c with
  | addElements newElCount newBuf =>
    have hadd := execute_addElements impl hb newBuf hc
    rw [hadd] at hrun ⊢
    have htransfer := hrun (addTransfer b.numElements (min newElCount (maxBuffEl - b.numElements)))
      (by simp only; split <;> simp)
    have hbuf := addTransfer_apply b newBuf (min newElCount (maxBuffEl - b.numElements))
    rw [call, return_, addElements_eq hb newBuf hc]
    simp only [machine, htransfer, Call.array, hbuf, and_self]
  | copyClear copyBuf maxCopyBufElements =>
    have hcopy := execute_copyClear impl hb copyBuf maxCopyBufElements
    rw [hcopy] at hrun ⊢
    rw [call, return_, copyClear_eq hb]
    by_cases hall : b.numElements < maxCopyBufElements
    · simp only [if_pos hall] at hrun ⊢
      have htransfer := hrun (takeTransfer b.numElements) (by simp)
      rw [min_eq_left hall.le]
      simp only [machine, htransfer, Call.array, takeTransfer_apply]
      exact ⟨rfl, rfl⟩
    · simp only [if_neg hall] at hrun ⊢
      have htransfer := hrun (takeTransfer maxCopyBufElements) (by simp)
      have hshift := hrun
        (shiftTransfer maxCopyBufElements (b.numElements - maxCopyBufElements)) (by simp)
      rw [min_eq_right (by omega)]
      simp only [machine, htransfer, hshift, Call.array, takeTransfer_apply, shiftTransfer_apply]
      exact ⟨rfl, rfl⟩

end Call

/-! ### Runs -/

section Runs

variable (impl : Implementation Arr T)

/-- Before each call of a run. -/
def AtEachCall (P : SafeBuff T → Call T → Prop) (b : SafeBuff T) (calls : List (Call T)) : Prop :=
  ∀ before c after, calls = before ++ c :: after → P (b.runWith impl before) c

theorem atEachCall_nil {P : SafeBuff T → Call T → Prop} (b : SafeBuff T) :
    AtEachCall impl P b [] := by
  intro before c after heq
  simp at heq

theorem atEachCall_cons {P : SafeBuff T → Call T → Prop} {b : SafeBuff T} {c : Call T}
    {calls : List (Call T)} (hfirst : P b c)
    (hrest : AtEachCall impl P (b.execute impl c).buff calls) :
    AtEachCall impl P b (c :: calls) := by
  intro before c' after heq
  cases before with
  | nil =>
    obtain ⟨rfl, -⟩ := List.cons.inj heq
    exact hfirst
  | cons _ before =>
    obtain ⟨rfl, rfl⟩ := List.cons.inj heq
    exact hrest before c' after rfl

theorem runWith_concat (b : SafeBuff T) (calls : List (Call T)) (c : Call T) :
    b.runWith impl (calls ++ [c]) = ((b.runWith impl calls).execute impl c).buff := by
  rw [runWith, List.foldl_append]
  rfl

theorem runWith_ok {b : SafeBuff T} (hb : b.Ok) {calls : List (Call T)}
    (hcalls : ∀ c ∈ calls, c.InRange) : (b.runWith impl calls).Ok := by
  induction calls using List.reverseRecOn with
  | nil => exact hb
  | append_singleton calls c ih =>
    have hc : c.InRange := hcalls c (by simp)
    rw [runWith_concat]
    exact execute_ok impl (ih fun c hc => hcalls c (List.mem_append_left _ hc)) hc

/-- What holds of each call from a buffer within its array holds at each call of a run. -/
theorem atEachCall_of_ok {P : SafeBuff T → Call T → Prop} {b : SafeBuff T} (hb : b.Ok)
    {calls : List (Call T)} (hcalls : ∀ c ∈ calls, c.InRange)
    (h : ∀ b c, b.Ok → c.InRange → P b c) : AtEachCall impl P b calls := by
  rintro before c after rfl
  have hbefore : ∀ c ∈ before, c.InRange := fun c hc => hcalls c (List.mem_append_left _ hc)
  exact h _ c (runWith_ok impl hb hbefore) (hcalls c (by simp))

/-- **In a run whose calls take at least half, the buffer is that of the model.** -/
theorem runWith_eq {b : SafeBuff T} (hb : b.Ok) {calls : List (Call T)}
    (hcalls : ∀ c ∈ calls, c.InRange) (hhalf : AtEachCall impl TakesHalf b calls) :
    b.runWith impl calls = b.run calls := by
  induction calls using List.reverseRecOn with
  | nil => rfl
  | append_singleton calls c ih =>
    have hbefore : ∀ c ∈ calls, c.InRange := fun c hc => hcalls c (List.mem_append_left _ hc)
    have hc : c.InRange := hcalls c (by simp)
    have hok := runWith_ok impl hb hbefore
    have hdefined := (defined_iff impl hok hc).mpr (hhalf calls c [] rfl)
    have hhalf' : AtEachCall impl TakesHalf b calls := by
      rintro before c' after rfl
      apply hhalf before c' (after ++ [c])
      simp
    have hrun := ih hbefore hhalf'
    calc b.runWith impl (calls ++ [c])
        = (b.runWith impl calls).call c := by
          rw [runWith_concat, (execute_eq impl hok hc hdefined).1]
      _ = b.run (calls ++ [c]) := by
          rw [hrun, run, run, List.foldl_append]
          rfl

/-- **When `SafeBuff` may call `memcpy`.** In every run from a fresh buffer,
with any `memcpy`, all ranges lie in their arrays and no subtraction goes
below zero; and all ranges are apart, too, exactly if each `copyClear` takes
at least half of the elements that are in the buffer then. -/
theorem memcpy_defined (mem : ℕ → T) (calls : List (Call T)) (hcalls : ∀ c ∈ calls, c.InRange) :
    AtEachCall impl (fun b c => ∀ op ∈ (b.execute impl c).log, op.InRange c.size)
      (fresh mem) calls ∧
    (AtEachCall impl (fun b c => ∀ op ∈ (b.execute impl c).log, op.Defined c.size)
        (fresh mem) calls ↔
      AtEachCall impl TakesHalf (fresh mem) calls) := by
  have hfresh := fresh_ok mem
  refine ⟨atEachCall_of_ok impl hfresh hcalls fun b c hb hc => execute_inRange impl hb hc, ?_⟩
  have hiff := atEachCall_of_ok impl hfresh hcalls fun b c hb hc => defined_iff impl hb hc
  constructor
  · intro hdefined before c after heq
    exact (hiff before c after heq).mp (hdefined before c after heq)
  · intro hhalf before c after heq
    exact (hiff before c after heq).mpr (hhalf before c after heq)

/-- Three elements, of which the shift leaves one where it is taken from. -/
theorem memcpy_overlaps : ¬∀ (impl : Implementation Arr ℕ) (mem : ℕ → ℕ) (calls : List (Call ℕ)),
    (∀ c ∈ calls, c.InRange) →
      AtEachCall impl (fun b c => ∀ op ∈ (b.execute impl c).log, op.Defined c.size)
        (fresh mem) calls := by
  intro h
  let calls : List (Call ℕ) := [.addElements 3 id, .copyClear id 1]
  have hcalls : ∀ c ∈ calls, c.InRange := by simp [calls, Call.InRange, maxBuffEl]
  have hlog : .memcpy (shiftTransfer 1 2) ∈ (((fresh id).runWith .descending
      [.addElements 3 id]).execute .descending (.copyClear id 1)).log := by decide
  obtain ⟨-, hapart⟩ := h .descending id calls hcalls [.addElements 3 id] (.copyClear id 1) [] rfl
    _ hlog
  exact absurd ((shift_apart 1 2).mp hapart) (by decide)

/-- Two elements of three are taken. -/
theorem memcpy_defined_half : AtEachCall .descending
    (fun b c => ∀ op ∈ (b.execute .descending c).log, op.Defined c.size)
    (fresh id) [.addElements 3 id, .copyClear (id : ℕ → ℕ) 2] := by
  have hcalls : ∀ c ∈ [.addElements 3 id, .copyClear (id : ℕ → ℕ) 2], Call.InRange c := by
    simp [Call.InRange, maxBuffEl]
  refine (memcpy_defined .descending id _ hcalls).2.mpr ?_
  refine atEachCall_cons _ trivial (atEachCall_cons _ ?_ (atEachCall_nil _ _))
  show ((fresh id).execute .descending (.addElements 3 id)).buff.numElements ≤ 2 * 2
  decide

/-- Here a `memcpy` from the last cell to the first overwrites an element before it is moved. -/
example : ((fresh id).runWith .descending [.addElements 3 id, .copyClear id 1]).contents = [2, 2] ∧
    ((fresh id).run [.addElements 3 id, .copyClear id 1]).contents = [1, 2] := by decide

end Runs
end SafeBuff

/-! ### The threads -/

variable (impl : Implementation Arr Px)

/-- What `pixels_received` adds it adds with any `memcpy`. -/
theorem PxArray.execute_addTo (a : PxArray) {b : SafeBuff Px} (hb : b.Ok) :
    (b.execute impl (.addElements a.count a.px)).buff = a.addTo b := by
  have hrange : (SafeBuff.Call.addElements a.count a.px).InRange := a.inRange
  have hdefined := SafeBuff.addElements_defined impl hb a.px hrange
  exact (SafeBuff.execute_eq impl hb hrange hdefined).1

/-- Both threads take everything, which is at least half. -/
theorem Intake.execute_copyClear {i : Intake} (hi : i.buff.Ok) :
    (i.buff.execute impl (.copyClear i.workBuf maxBuffEl)).buff = i.copyClear.buff ∧
      (i.buff.execute impl (.copyClear i.workBuf maxBuffEl)).return_ =
        .copied i.copyClear.workBuf i.copyClear.workBufElements := by
  have hrange : (SafeBuff.Call.copyClear i.workBuf maxBuffEl).InRange := trivial
  have hhalf : i.buff.TakesHalf (.copyClear i.workBuf maxBuffEl) := by
    show i.buff.numElements ≤ 2 * maxBuffEl
    unfold SafeBuff.Ok at hi
    omega
  have hdefined := (SafeBuff.defined_iff impl hi hrange).mpr hhalf
  exact SafeBuff.execute_eq impl hi hrange hdefined

end Sprint3
