/-
# Commands on the control socket

`command_interface.h` over `udp_nix.c`: a command is eight bytes, of which
byte 6 is its type, and the code that sends one then waits for the eight bytes
of its response. The socket, the network and the device behind it are an
in-order queue of responses: a wait takes the oldest response that was not
taken before, or fails because that one does not arrive in time. Nothing in a
response is compared with the command it was waited for.

The loop that writes a number into a command puts two hexadecimal digits into
each byte from `cmd[0]` on, until nothing is left of the number. A number of
`n` bytes takes at most `n` passes, which write the first `n` bytes and no
other (`digitLoop_passes`). So a command keeps its type whatever number of 32
bits is written into it, the device takes it for what it is and answers it
(`triple_sendCmd`), and the wait that follows takes a response (`triple_waitAck`).
-/
import Sprint3.Lib.Bits
import Sprint3.Lib.Exchange
import Sprint3.Lib.Hoare
import Sprint3.Lib.While

namespace Sprint3

open Bits Exchange Hoare Memory While

/-! ### The socket -/

/-- What the calls into the system return, one after the other, and what the device answers. -/
structure Network where
  /-- Of `katherine_device_init`. -/
  initResult : ℕ → ℤ
  /-- Of `pthread_mutex_lock`. -/
  lockResult : ℕ → ℤ
  /-- Of sending a datagram: zero or `errno`. -/
  sendResult : ℕ → ℤ
  /-- Of a wait: zero if the oldest response is there in time, else `errno`. -/
  recvResult : ℕ → ℤ
  /-- The eight bytes that answer a command, as a word. -/
  response : ℕ → UInt64

/-- The control socket, with the calls made on it so far and the device at its other end. -/
structure ControlSocket where
  locks : ℕ
  sends : ℕ
  waits : ℕ
  /-- The datagrams that reached the device. -/
  sent : List (List UInt8)
  /-- The data packets that the device takes before the next command. -/
  uploading : ℕ
  link : Channel
  deriving DecidableEq, Repr

abbrev Io := EStateM ℤ ControlSocket

/-- `katherine_cmd_type`, as far as it is used. -/
inductive CmdType
  | acquisitionTimeSettingsLsb
  | biasSettings
  | internalDacSettings
  | hwCommandStart
  | sensorRegisterSetting
  | acquisitionTimeSettingMsb
  | echoChipId
  | setAllPixelConfig
  | numberOfFrames
  | acquisitionSetup
  deriving DecidableEq, Repr

def CmdType.code : CmdType → UInt8
  | acquisitionTimeSettingsLsb => 0x01
  | biasSettings => 0x02
  | internalDacSettings => 0x04
  | hwCommandStart => 0x07
  | sensorRegisterSetting => 0x08
  | acquisitionTimeSettingMsb => 0x0A
  | echoChipId => 0x0B
  | setAllPixelConfig => 0x12
  | numberOfFrames => 0x13
  | acquisitionSetup => 0x21

/-- `katherine_hw_cmd_type`, as far as it is used. -/
inductive HwCmdType
  | sensorConfigRegistersUpdate
  | internalDacUpdate
  | timerSet
  | resetMatrixSequential
  | loadPixelRegisterConfiguration
  | outputBlockConfigUpdate
  deriving DecidableEq, Repr

def HwCmdType.code : HwCmdType → UInt8
  | sensorConfigRegistersUpdate => 0
  | internalDacUpdate => 1
  | timerSet => 4
  | resetMatrixSequential => 5
  | loadPixelRegisterConfiguration => 9
  | outputBlockConfigUpdate => 14

namespace ControlSocket

/-- A socket as created. -/
def fresh : ControlSocket := ⟨0, 0, 0, [], 0, .empty⟩

/-- The device gets a datagram: the last of an upload's data packets, or a command that
announces none, is answered. -/
def deliver (s : ControlSocket) (data : List UInt8) : ControlSocket :=
  match s.uploading with
  | 0 =>
    if data.getD 6 0 = CmdType.setAllPixelConfig.code then { s with uploading := 64 }
    else { s with link := s.link.issue }
  | 1 => { s with uploading := 0, link := s.link.issue }
  | n + 2 => { s with uploading := n + 1 }

end ControlSocket

section Calls

variable (net : Network)

/-- `pthread_mutex_lock`; unlocking, whose result is not looked at, leaves no trace here. -/
def katherineUdpMutexLock : Io PUnit := fun s =>
  if net.lockResult s.locks = 0 then .ok ⟨⟩ { s with locks := s.locks + 1 }
  else .error (net.lockResult s.locks) { s with locks := s.locks + 1 }

def katherineUdpSendExact (data : List UInt8) : Io PUnit := fun s =>
  if net.sendResult s.sends = 0 then
    .ok ⟨⟩ { s.deliver data with sends := s.sends + 1, sent := s.sent ++ [data] }
  else .error (net.sendResult s.sends) { s with sends := s.sends + 1 }

/-- `EAGAIN`: there is nothing to take. -/
def eagain : ℤ := 11

/-- Eight bytes, or the error of a wait that ran out. -/
def katherineUdpRecvExact : Io UInt64 := fun s =>
  if net.recvResult s.waits = 0 then
    match s.link.take with
    | some (n, link) => .ok (net.response n) { s with waits := s.waits + 1, link }
    | none => .error eagain { s with waits := s.waits + 1 }
  else .error (net.recvResult s.waits) { s with waits := s.waits + 1 }

/-! ### `command_interface.h` -/

def katherineCmdWaitAckCrd : Io UInt64 := katherineUdpRecvExact net

def katherineCmdWaitAck : Io PUnit := do
  let _ ← katherineCmdWaitAckCrd net

def katherineCmd (buffer : List UInt8) : Io PUnit := katherineUdpSendExact net buffer

/-- `char cmd[8] = {0}; cmd[6] = val6`. -/
def newCmd (val6 : CmdType) : ℕ → UInt8 := store (fun _ => 0) 6 val6.code

/-- `katherine_cmd(udp, &cmd, sizeof(cmd))`. -/
def sendCmd (cmd : ℕ → UInt8) : Io PUnit := katherineCmd net (slice cmd 0 8)

def katherineCmd6 (val6 : CmdType) : Io PUnit := sendCmd net (newCmd val6)

def katherineCmd60 (val6 : CmdType) (val0 : HwCmdType) : Io PUnit :=
  sendCmd net (store (newCmd val6) 0 val0.code)

/-- The loop of `katherine_cmd_long` and `katherine_cmd_uint32`: two hexadecimal digits a
byte, from `cmd[i]` on. -/
def digitLoop (cmd : ℕ → UInt8) (i value : ℕ) : ℕ → UInt8 :=
  if value = 0 then cmd
  else
    let mlsb := 0x0f &&& value % 16
    let mmsb := 0x0f &&& value / 16 % 16
    digitLoop (store cmd i (.ofNat ((0xff &&& mlsb) ||| (0xff &&& mmsb) <<< 4))) (i + 1)
      (value / 16 / 16)
termination_by value
decreasing_by omega

/-- A negative `value` does not enter the loop. -/
def katherineCmdLong (cmd : ℕ → UInt8) (value : ℤ) : ℕ → UInt8 := digitLoop cmd 0 value.toNat

def katherineCmdUint32 (cmd : ℕ → UInt8) (value : UInt32) : ℕ → UInt8 :=
  digitLoop cmd 0 value.toNat

def katherineCmd6Long (val6 : CmdType) (value : ℤ) : Io PUnit :=
  sendCmd net (katherineCmdLong (newCmd val6) value)

def katherineCmd6Uint32 (val6 : CmdType) (value : UInt32) : Io PUnit :=
  sendCmd net (katherineCmdUint32 (newCmd val6) value)

/-- The `float` is given by its bits. -/
def katherineCmd6Float (val6 : CmdType) (bits : UInt32) : Io PUnit :=
  let cmd := newCmd val6
  let cmd := store cmd 0 (bits &&& 0xff).toUInt8
  let cmd := store cmd 1 ((bits >>> 8) &&& 0xff).toUInt8
  let cmd := store cmd 2 ((bits >>> 16) &&& 0xff).toUInt8
  let cmd := store cmd 3 ((bits >>> 24) &&& 0xff).toUInt8
  sendCmd net cmd

def katherineCmdSetAllPixelConfig : Io PUnit := katherineCmd6 net .setAllPixelConfig

def katherineCmdEchoChipId : Io PUnit := katherineCmd6 net .echoChipId

def katherineCmdHwSensorConfigRegistersUpdate : Io PUnit :=
  katherineCmd60 net .hwCommandStart .sensorConfigRegistersUpdate

def katherineCmdHwInternalDacUpdate : Io PUnit :=
  katherineCmd60 net .hwCommandStart .internalDacUpdate

def katherineCmdHwTimerSet : Io PUnit := katherineCmd60 net .hwCommandStart .timerSet

def katherineCmdHwResetMatrixSequential : Io PUnit :=
  katherineCmd60 net .hwCommandStart .resetMatrixSequential

def katherineCmdHwLoadPixelRegisterConfiguration : Io PUnit :=
  katherineCmd60 net .hwCommandStart .loadPixelRegisterConfiguration

def katherineCmdHwOutputBlockConfigUpdate : Io PUnit :=
  katherineCmd60 net .hwCommandStart .outputBlockConfigUpdate

def katherineCmdSetAcqtimeLsb (arg1 : UInt32) : Io PUnit :=
  katherineCmd6Uint32 net .acquisitionTimeSettingsLsb arg1

def katherineCmdSetAcqtimeMsb (arg1 : UInt32) : Io PUnit :=
  katherineCmd6Uint32 net .acquisitionTimeSettingMsb arg1

def katherineCmdSetNumberOfFrames (arg1 : ℤ) : Io PUnit :=
  katherineCmd6Long net .numberOfFrames arg1

def katherineCmdSetBiasSettings (arg1 : UInt32) : Io PUnit :=
  katherineCmd6Float net .biasSettings arg1

end Calls

/-! ### The loop of the digits -/

/-- The variables of the loop of `katherine_cmd_uint32`. -/
structure DigitState where
  cmd : ℕ → UInt8
  i : ℕ
  value : ℕ

namespace DigitState

/-- `value > 0`. -/
def Guard (s : DigitState) : Prop := 0 < s.value

def body (s : DigitState) : DigitState :=
  let mlsb := 0x0f &&& s.value % 16
  let value := s.value / 16
  let mmsb := 0x0f &&& value % 16
  let value := value / 16
  { cmd := store s.cmd s.i (.ofNat ((0xff &&& mlsb) ||| (0xff &&& mmsb) <<< 4))
    i := s.i + 1
    value := value }

/-- What the loop leaves in `cmd`. -/
theorem cmd_of_passes {s s' : DigitState} {entered : List DigitState}
    (h : Passes Guard body s entered s') : s'.cmd = digitLoop s.cmd s.i s.value := by
  induction h with
  | leave hguard =>
    unfold Guard at hguard
    rw [digitLoop, if_pos (by omega)]
  | @enter s s' entered hguard _ ih =>
    unfold Guard at hguard
    rw [ih, digitLoop.eq_def s.cmd, if_neg (by omega)]
    rfl

/-- Two digits make a byte. -/
theorem digits_toNat (value : ℕ) :
    (UInt8.ofNat ((0xff &&& (0x0f &&& value % 16)) |||
      (0xff &&& (0x0f &&& value / 16 % 16)) <<< 4)).toNat = value % 256 := by
  have hmask : ∀ x < 16, 0xff &&& (0x0f &&& x) = x := by decide
  have hlow : value % 16 < 2 ^ 4 := Nat.mod_lt _ (by decide)
  have hhigh : value / 16 % 16 < 16 := Nat.mod_lt _ (by decide)
  rw [hmask _ hlow, hmask _ hhigh, Nat.or_comm, ← Nat.shiftLeft_add_eq_or_of_lt hlow,
    Nat.shiftLeft_eq, UInt8.toNat_ofNat']
  omega

/-- Of `value`, which takes `n` bytes, those before `i` are written and the others are left. -/
structure Inv (cmd : ℕ → UInt8) (n value : ℕ) (s : DigitState) : Prop where
  le : s.i ≤ n
  lt : s.value < 256 ^ (n - s.i)
  written : ofBytes (slice s.cmd 0 s.i) + 256 ^ s.i * s.value = value
  kept : ∀ j, s.i ≤ j → s.cmd j = cmd j

variable {cmd : ℕ → UInt8} {n value : ℕ} {s : DigitState}

theorem inv_start (hv : value < 256 ^ n) : Inv cmd n value ⟨cmd, 0, value⟩ where
  le := Nat.zero_le n
  lt := hv
  written := by simp [ofBytes]
  kept := fun _ _ => rfl

/-- While something is left of the number, so is a byte for it. -/
theorem Inv.i_lt (h : Inv cmd n value s) (hguard : s.Guard) : s.i < n := by
  have hle := h.le
  have hlt := h.lt
  unfold Guard at hguard
  by_contra hge
  have hzero : n - s.i = 0 := by omega
  rw [hzero, pow_zero] at hlt
  omega

theorem Inv.body (h : Inv cmd n value s) (hguard : s.Guard) : Inv cmd n value s.body where
  le := h.i_lt hguard
  lt := by
    have hi := h.i_lt hguard
    have hlt := h.lt
    have hsucc : n - s.i = n - (s.i + 1) + 1 := by omega
    rw [hsucc, pow_succ, Nat.mul_comm] at hlt
    show s.value / 16 / 16 < 256 ^ (n - (s.i + 1))
    rw [Nat.div_div_eq_div_mul]
    exact Nat.div_lt_of_lt_mul hlt
  written := by
    show ofBytes (slice (store s.cmd s.i _) 0 (s.i + 1)) + 256 ^ (s.i + 1) * (s.value / 16 / 16) =
      value
    rw [slice_store, ofBytes_append, slice_length]
    simp only [ofBytes, digits_toNat, Nat.div_div_eq_div_mul]
    calc ofBytes (slice s.cmd 0 s.i) + 256 ^ s.i * (s.value % 256 + 256 * 0) +
          256 ^ (s.i + 1) * (s.value / 256)
        = ofBytes (slice s.cmd 0 s.i) + 256 ^ s.i * (s.value % 256 + 256 * (s.value / 256)) := by
          ring
      _ = value := by rw [Nat.mod_add_div, h.written]
  kept := by
    intro j hj
    have hlt : s.i < j := hj
    have hne : j ≠ s.i := by omega
    show store s.cmd s.i _ j = cmd j
    rw [store, if_neg hne, h.kept j hlt.le]

end DigitState

open DigitState

/-- **The loop ends.** A number of `n` bytes takes at most `n` passes, which
write the first `n` bytes and no other. -/
theorem digitLoop_passes (cmd : ℕ → UInt8) {n value : ℕ} (hv : value < 256 ^ n) :
    ∃ entered left, Passes Guard DigitState.body ⟨cmd, 0, value⟩ entered left ∧
      entered.length ≤ n ∧ (∀ s ∈ entered, s.i < n) ∧ left.cmd = digitLoop cmd 0 value ∧
      Inv cmd n value left ∧ left.value = 0 := by
  have hstart : Inv cmd n value ⟨cmd, 0, value⟩ := inv_start hv
  have hkept : ∀ s, Inv cmd n value s → s.Guard → Inv cmd n value s.body :=
    fun s hs hguard => hs.body hguard
  have hless : ∀ s, Inv cmd n value s → s.Guard → n - s.body.i < n - s.i := by
    intro s hs hguard
    have hi := hs.i_lt hguard
    show n - (s.i + 1) < n - s.i
    omega
  obtain ⟨entered, left, hpasses, hlen⟩ := Passes.of_variant (fun s => n - s.i)
    (fun s hs hguard => ⟨hkept s hs hguard, hless s hs hguard⟩) hstart
  obtain ⟨hentered, hinv, hleft⟩ := hpasses.invariant hkept hstart
  refine ⟨entered, left, hpasses, hlen, ?_, cmd_of_passes hpasses, hinv, ?_⟩
  · intro s hs
    obtain ⟨hinv, hguard⟩ := hentered s hs
    exact hinv.i_lt hguard
  · unfold Guard at hleft
    omega

/-- The bytes behind those of the number stay as they were. -/
theorem digitLoop_kept (cmd : ℕ → UInt8) {n value j : ℕ} (hv : value < 256 ^ n) (hj : n ≤ j) :
    digitLoop cmd 0 value j = cmd j := by
  obtain ⟨-, left, -, -, -, hcmd, hinv, -⟩ := digitLoop_passes cmd hv
  have hle := hinv.le
  rw [← hcmd, hinv.kept j (by omega)]

/-! ### The type of a command -/

theorem katherineCmdLong_type (cmd : ℕ → UInt8) {value : ℤ} (hv : value < 2 ^ 32) :
    katherineCmdLong cmd value 6 = cmd 6 :=
  digitLoop_kept (n := 4) cmd (by omega) (by decide)

theorem katherineCmdUint32_type (cmd : ℕ → UInt8) (value : UInt32) :
    katherineCmdUint32 cmd value 6 = cmd 6 :=
  digitLoop_kept (n := 4) cmd value.toNat_lt (by decide)

/-- Byte 6 of what is sent. -/
theorem slice_getD_six (cmd : ℕ → UInt8) : (slice cmd 0 8).getD 6 0 = cmd 6 := rfl

/-! ### A command and its response -/

/-- A call fails: on the mutex, on a datagram or on a wait, the `w`-th or a later one. -/
def Network.Fails (net : Network) (w : ℕ) : Prop :=
  (∃ i, net.lockResult i ≠ 0) ∨ (∃ i, net.sendResult i ≠ 0) ∨ ∃ i, w ≤ i ∧ net.recvResult i ≠ 0

/-- Between two commands: `m` of them were answered since `c`. -/
structure Ready (w k m : ℕ) (c : Channel) (s : ControlSocket) : Prop where
  waits : w ≤ s.waits
  uploading : s.uploading = 0
  exchanged : Exchanged k m c s.link

/-- One more command was sent than in `Ready`. -/
structure Waiting (w k m : ℕ) (c : Channel) (s : ControlSocket) : Prop where
  waits : w ≤ s.waits
  uploading : s.uploading = 0
  issued : ∃ c', Exchanged k m c c' ∧ s.link = c'.issue

variable {net : Network} {w k m : ℕ} {c : Channel}

theorem triple_lock : Triple (Ready w k m c) (katherineUdpMutexLock net) (Ready w k m c)
    (fun _ => net.Fails w) := by
  intro s hs
  by_cases hlock : net.lockResult s.locks = 0
  · rw [katherineUdpMutexLock, if_pos hlock]
    exact ⟨hs.waits, hs.uploading, hs.exchanged⟩
  · rw [katherineUdpMutexLock, if_neg hlock]
    exact .inl ⟨s.locks, hlock⟩

/-- What the device makes of a datagram decides what sending it leads to. -/
theorem triple_cmd {P Q E : ControlSocket → Prop} {data : List UInt8}
    (hok : ∀ s, P s → Q { s.deliver data with sends := s.sends + 1, sent := s.sent ++ [data] })
    (herr : ∀ s, P s → net.sendResult s.sends ≠ 0 → E { s with sends := s.sends + 1 }) :
    Triple P (katherineCmd net data) Q E := by
  intro s hs
  by_cases hsend : net.sendResult s.sends = 0
  · rw [katherineCmd, katherineUdpSendExact, if_pos hsend]
    exact hok s hs
  · rw [katherineCmd, katherineUdpSendExact, if_neg hsend]
    exact herr s hs hsend

/-- A wait with a response to come takes it, or it fails. -/
theorem triple_waitAckCrd {P Q E : ControlSocket → Prop}
    (hok : ∀ s, P s → net.recvResult s.waits = 0 →
      ∃ n link, s.link.take = some (n, link) ∧ Q { s with waits := s.waits + 1, link })
    (herr : ∀ s, P s → net.recvResult s.waits ≠ 0 → E { s with waits := s.waits + 1 }) :
    Triple P (katherineCmdWaitAckCrd net) Q E := by
  intro s hs
  by_cases hrecv : net.recvResult s.waits = 0
  · obtain ⟨n, link, htake, hq⟩ := hok s hs hrecv
    rw [katherineCmdWaitAckCrd, katherineUdpRecvExact, if_pos hrecv, htake]
    exact hq
  · rw [katherineCmdWaitAckCrd, katherineUdpRecvExact, if_neg hrecv]
    exact herr s hs hrecv

/-- A device that waits for no packet takes a datagram for the command it is. -/
theorem ControlSocket.deliver_cmd {s : ControlSocket} (hs : s.uploading = 0) {cmd : ℕ → UInt8}
    (hcmd : cmd 6 ≠ CmdType.setAllPixelConfig.code) :
    s.deliver (slice cmd 0 8) = { s with link := s.link.issue } := by
  rw [deliver, hs, slice_getD_six]
  exact if_neg hcmd

theorem triple_sendCmd {cmd : ℕ → UInt8} (hcmd : cmd 6 ≠ CmdType.setAllPixelConfig.code) :
    Triple (Ready w k m c) (sendCmd net cmd) (Waiting w k m c) (fun _ => net.Fails w) := by
  refine triple_cmd (fun s hs => ?_) fun s _ hsend => .inr (.inl ⟨s.sends, hsend⟩)
  rw [ControlSocket.deliver_cmd hs.uploading hcmd]
  exact ⟨hs.waits, hs.uploading, s.link, hs.exchanged, rfl⟩

theorem triple_waitAck : Triple (Waiting w k m c) (katherineCmdWaitAck net) (Ready w k (m + 1) c)
    (fun _ => net.Fails w) := by
  refine Triple.bind (Q := Ready w k (m + 1) c) (triple_waitAckCrd (fun s hs _ => ?_) ?_)
    fun _ _ hs => hs
  · obtain ⟨c', hc', hlink⟩ := hs.issued
    obtain ⟨c'', htake, hnext⟩ := hc'.next
    exact ⟨_, c'', by rw [hlink, htake], Nat.le_succ_of_le hs.waits, hs.uploading, hnext⟩
  · exact fun s hs hrecv => .inr (.inr ⟨s.waits, hs.waits, hrecv⟩)

/-- A command that is sent and waited for. -/
theorem triple_command {cmd : ℕ → UInt8} (hcmd : cmd 6 ≠ CmdType.setAllPixelConfig.code) :
    Triple (Ready w k m c) (do sendCmd net cmd; katherineCmdWaitAck net) (Ready w k (m + 1) c)
      (fun _ => net.Fails w) :=
  (triple_sendCmd hcmd).bind fun _ => triple_waitAck

end Sprint3
