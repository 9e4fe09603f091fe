/-
# The acquisition time on its way to the device

`katherine_set_acq_time` sends the tick count in two commands, the lower and
the upper 32 bits. A command with a number of 32 bits in it holds the number
in its first four bytes and its type in byte 6 (`encodes_digitLoop`), so the
two read back as the tick count, whatever it is (`acq_time_round_trip`).
-/
import Sprint3.Connection

namespace Sprint3

open Bits Hoare Memory While

/-! ### A command with a number in it -/

/-- A command that holds a number of 32 bits. -/
structure Encodes (type : UInt8) (value : ℕ) (command : List UInt8) : Prop where
  length : command.length = 8
  number : ofBytes (command.take 4) = value
  type : command[6]? = some type
  others : command[4]? = some 0 ∧ command[5]? = some 0 ∧ command[7]? = some 0

theorem encodes_digitLoop (val6 : CmdType) {value : ℕ} (hv : value < 2 ^ 32) :
    Encodes val6.code value (slice (digitLoop (newCmd val6) 0 value) 0 8) := by
  obtain ⟨-, left, -, -, -, hcmd, hinv, hzero⟩ :=
    digitLoop_passes (newCmd val6) (show value < 256 ^ 4 by omega)
  have hle := hinv.le
  have hkept := hinv.kept
  have hwritten := hinv.written
  rw [← hcmd]
  constructor
  · exact slice_length _ 0 8
  · have hzeros : ∀ j < 4 - left.i, left.cmd (0 + left.i + j) = 0 := by
      intro j hj
      have hne : 0 + left.i + j ≠ 6 := by omega
      rw [hkept _ (by omega), newCmd, store, if_neg hne]
    calc ofBytes ((slice left.cmd 0 8).take 4)
        = ofBytes (slice left.cmd 0 (left.i + (4 - left.i))) := by
          rw [slice_take, Nat.add_sub_cancel' hle]
          rfl
      _ = value := by
          rw [slice_add, ofBytes_append, ofBytes_slice_zero hzeros, ← hwritten, hzero]
          simp
  · exact congrArg some (hkept 6 (by omega))
  · exact ⟨congrArg some (hkept 4 (by omega)), congrArg some (hkept 5 (by omega)),
      congrArg some (hkept 7 (by omega))⟩

theorem encodes_uint32 (val6 : CmdType) (value : UInt32) :
    Encodes val6.code value.toNat (slice (katherineCmdUint32 (newCmd val6) value) 0 8) :=
  encodes_digitLoop val6 value.toNat_lt

/-- A negative number is sent as zero. -/
theorem encodes_long_negative (val6 : CmdType) {value : ℤ} (hv : value < 0) :
    Encodes val6.code 0 (slice (katherineCmdLong (newCmd val6) value) 0 8) := by
  have hzero : value.toNat = 0 := by omega
  rw [katherineCmdLong, hzero]
  exact encodes_digitLoop val6 (by decide)

/-! ### The two commands -/

/-- `lsb` of `katherine_set_acq_time`. -/
theorem lsb_toNat (acqt : UInt64) :
    (acqt &&& 0x00000000FFFFFFFF).toUInt32.toNat = acqt.toNat % 2 ^ 32 := by
  have hmask : (0x00000000FFFFFFFF : UInt64).toNat = 2 ^ 32 - 1 := rfl
  rw [UInt64.toNat_toUInt32, UInt64.toNat_and, hmask, Nat.and_two_pow_sub_one_eq_mod, Nat.mod_mod]

/-- `msb` of `katherine_set_acq_time`. -/
theorem msb_toNat (acqt : UInt64) :
    ((acqt &&& 0xFFFFFFFF00000000) >>> 32).toUInt32.toNat = acqt.toNat / 2 ^ 32 := by
  have hlt : acqt.toNat / 2 ^ 32 < 2 ^ 32 := Nat.div_lt_of_lt_mul acqt.toNat_lt
  have hmask : (0xFFFFFFFF00000000 : UInt64).toNat >>> 32 = 2 ^ 32 - 1 := rfl
  have hshift : ((acqt &&& 0xFFFFFFFF00000000) >>> 32).toNat =
      (acqt.toNat &&& (0xFFFFFFFF00000000 : UInt64).toNat) >>> 32 := by
    rw [UInt64.toNat_shiftRight, UInt64.toNat_and]
    rfl
  rw [UInt64.toNat_toUInt32, hshift, Nat.shiftRight_and_distrib, hmask,
    Nat.and_two_pow_sub_one_eq_mod, Nat.mod_mod, Nat.shiftRight_eq_div_pow, Nat.mod_eq_of_lt hlt]

section Sent

variable {net : Network} {sent : List (List UInt8)}

theorem sent_lock : Triple (·.sent = sent) (katherineUdpMutexLock net) (·.sent = sent)
    (·.sent = sent) := by
  intro s hs
  unfold katherineUdpMutexLock
  by_cases hlock : net.lockResult s.locks = 0
  · rw [if_pos hlock]
    exact hs
  · rw [if_neg hlock]
    exact hs

theorem sent_cmd (cmd : ℕ → UInt8) : Triple (·.sent = sent) (sendCmd net cmd)
    (·.sent = sent ++ [slice cmd 0 8]) (·.sent = sent) := by
  refine triple_cmd (fun s hs => ?_) fun s hs _ => hs
  rw [hs]

theorem sent_waitAck : Triple (·.sent = sent) (katherineCmdWaitAck net) (·.sent = sent)
    (·.sent = sent) := by
  have hwait : Triple (·.sent = sent) (katherineCmdWaitAckCrd net) (·.sent = sent)
      (·.sent = sent) := by
    intro s hs
    unfold katherineCmdWaitAckCrd katherineUdpRecvExact
    by_cases hrecv : net.recvResult s.waits = 0
    · rw [if_pos hrecv]
      cases s.link.take with
      | none => exact hs
      | some response => exact hs
    · rw [if_neg hrecv]
      exact hs
  exact hwait.bind fun _ _ hs => hs

/-- A call that fails has sent the first of the commands, up to some number. -/
theorem sent_setAcqTime (acqt : UInt64) :
    let first := slice (katherineCmdUint32 (newCmd .acquisitionTimeSettingsLsb)
      (acqt &&& 0x00000000FFFFFFFF).toUInt32) 0 8
    let second := slice (katherineCmdUint32 (newCmd .acquisitionTimeSettingMsb)
      ((acqt &&& 0xFFFFFFFF00000000) >>> 32).toUInt32) 0 8
    Triple (·.sent = sent) (katherineSetAcqTime net acqt) (·.sent = sent ++ [first, second])
      (fun s => ∃ k ≤ 2, s.sent = sent ++ [first, second].take k) := by
  intro first second
  have hnone : ∀ s : ControlSocket, s.sent = sent →
      ∃ k ≤ 2, s.sent = sent ++ [first, second].take k :=
    fun s hs => ⟨0, by decide, by rw [hs, List.take_zero, List.append_nil]⟩
  have hone : ∀ s : ControlSocket, s.sent = sent ++ [first] →
      ∃ k ≤ 2, s.sent = sent ++ [first, second].take k := fun s hs => ⟨1, by decide, hs⟩
  have htwo : ∀ s : ControlSocket, s.sent = sent ++ [first, second] →
      ∃ k ≤ 2, s.sent = sent ++ [first, second].take k := fun s hs => ⟨2, le_rfl, hs⟩
  have hassoc : sent ++ [first] ++ [second] = sent ++ [first, second] := List.append_assoc _ _ _
  rw [← hassoc] at htwo ⊢
  refine (sent_lock.weaken hnone).bind fun _ => ?_
  refine ((sent_cmd _).weaken hnone).bind fun _ => ?_
  refine (sent_waitAck.weaken hone).bind fun _ => ?_
  refine ((sent_cmd _).weaken hone).bind fun _ => ?_
  exact sent_waitAck.weaken htwo

end Sent

/-- **The acquisition time arrives as it is.** Whatever the tick count, what
`katherine_set_acq_time` sends reads back as its lower and its upper half, in
commands of the right types; the loop that writes a number of 32 bits into a
command ends after at most four passes, each of which writes one of the first
four bytes; a signed number of 32 bits in its place would be negative from
2^31 on, and sent as zero. -/
theorem acq_time_round_trip :
    (∀ acqt : UInt64, ∃ (lsb msb : UInt32) (first second : List UInt8),
      Encodes 0x01 lsb.toNat first ∧ Encodes 0x0A msb.toNat second ∧
        msb.toNat * 2 ^ 32 + lsb.toNat = acqt.toNat ∧
        ∀ (net : Network) (sent : List (List UInt8)),
          Triple (·.sent = sent) (katherineSetAcqTime net acqt) (·.sent = sent ++ [first, second])
            (fun s => ∃ k ≤ 2, s.sent = sent ++ [first, second].take k)) ∧
    (∀ (cmd : ℕ → UInt8) (value : UInt32), ∃ entered left,
      Passes DigitState.Guard DigitState.body ⟨cmd, 0, value.toNat⟩ entered left ∧ entered.length ≤ 4 ∧
        (∀ s ∈ entered, s.i ≤ 3) ∧ left.cmd = katherineCmdUint32 cmd value) ∧
    ∀ (val6 : CmdType) (value : UInt32), 2 ^ 31 ≤ value.toNat →
      value.toInt32.toInt < 0 ∧
        Encodes val6.code 0 (slice (katherineCmdLong (newCmd val6) value.toInt32.toInt) 0 8) := by
  refine ⟨?_, ?_, ?_⟩
  · intro acqt
    have hsum : ((acqt &&& 0xFFFFFFFF00000000) >>> 32).toUInt32.toNat * 2 ^ 32 +
        (acqt &&& 0x00000000FFFFFFFF).toUInt32.toNat = acqt.toNat := by
      rw [lsb_toNat, msb_toNat]
      omega
    exact ⟨_, _, _, _, encodes_uint32 .acquisitionTimeSettingsLsb _,
      encodes_uint32 .acquisitionTimeSettingMsb _, hsum, fun _ _ => sent_setAcqTime acqt⟩
  · intro cmd value
    have hlt : value.toNat < 256 ^ 4 := value.toNat_lt
    obtain ⟨entered, left, hpasses, hlen, hi, hcmd, -, -⟩ := digitLoop_passes cmd hlt
    exact ⟨entered, left, hpasses, hlen, fun s hs => Nat.le_of_lt_succ (hi s hs), hcmd⟩
  · intro val6 value hvalue
    have hneg : value.toInt32.toInt < 0 := by
      show value.toBitVec.toInt < 0
      rw [BitVec.toInt_neg_iff, UInt32.toNat_toBitVec]
      omega
    exact ⟨hneg, encodes_long_negative val6 hneg⟩

/-- A tick count with the top bit of both halves set. -/
theorem acq_time_round_trip_topBits : ∃ s' first second,
    katherineSetAcqTime promptChip 0x9000000080000001 .fresh = .ok ⟨⟩ s' ∧
      s'.sent = [first, second] ∧ Encodes 0x01 0x80000001 first ∧
        Encodes 0x0A 0x90000000 second := by
  obtain ⟨lsb, msb, first, second, hfirst, hsecond, hsum, hsent⟩ :=
    acq_time_round_trip.1 0x9000000080000001
  have hnet : ¬promptChip.Fails 0 := by simp [Network.Fails, promptChip]
  have hlate : Late promptChip .fresh := late_fresh
  obtain ⟨⟨⟩, s', hs'⟩ := (triple_setAcqTime 0x9000000080000001).returns hlate.ready fun _ => hnet
  have hlt := lsb.toNat_lt
  have hacqt : (0x9000000080000001 : UInt64).toNat = 0x9000000080000001 := rfl
  have hlsb : lsb.toNat = 0x80000001 := by omega
  have hmsb : msb.toNat = 0x90000000 := by omega
  rw [hlsb] at hfirst
  rw [hmsb] at hsecond
  exact ⟨s', first, second, hs', (hsent promptChip []).post rfl hs', hfirst, hsecond⟩

end Sprint3
