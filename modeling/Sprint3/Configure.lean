/-
# The configuration of the detector

`katherine_configure` and the functions of `config.c` it calls. Each sends its
commands on the control socket and waits after each of them, the upload of the
pixel matrix being one command with 64 packets of data. A call that returns
zero has sent 32 commands and taken 32 responses (`triple_configure`), and it
returns zero unless the mutex, a datagram or a wait fails.
-/
import Sprint3.CommandInterface

namespace Sprint3

open Exchange Hoare Memory

/-! ### `config.h` -/

/-- `katherine_trigger_t`. -/
structure Trigger where
  enabled : Bool
  channel : UInt8
  useFallingEdge : Bool
  deriving DecidableEq, Repr

/-- `katherine_phase_t`. -/
inductive Phase
  | phase1
  | phase2
  | phase4
  | phase8
  | phase16
  deriving DecidableEq, Repr

def Phase.code : Phase → Int32
  | phase1 => 0
  | phase2 => 1
  | phase4 => 2
  | phase8 => 3
  | phase16 => 4

/-- `katherine_freq_t`. -/
inductive Freq
  | freq40
  | freq80
  | freq160
  deriving DecidableEq, Repr

def Freq.code : Freq → Int32
  | freq40 => 1
  | freq80 => 2
  | freq160 => 3

/-- `katherine_tpx3_reg_t`, as far as it is used. -/
inductive Tpx3Reg
  | pllConfig
  | generalConfig
  deriving DecidableEq, Repr

def Tpx3Reg.code : Tpx3Reg → UInt8
  | pllConfig => 3
  | generalConfig => 4

/-- `katherine_config_t`. The acquisition time is given in ticks, `(uint64_t) (ns / 10.)`, the
bias by the bits of the `float`, and the pixel matrix by its bytes. -/
structure Config where
  pixelConfig : ℕ → UInt8
  biasId : UInt8
  acqt : UInt64
  noFrames : Int32
  bias : UInt32
  startTrigger : Trigger
  delayedStart : Bool
  stopTrigger : Trigger
  grayDisable : Bool
  polarityHoles : Bool
  phase : Phase
  freq : Freq
  dacs : ℕ → UInt16

/-! ### `config.c` -/

section Functions

variable (net : Network)

def katherineSetAllPixelConfig (pxConfig : ℕ → UInt8) : Io PUnit := do
  katherineUdpMutexLock net
  katherineCmdSetAllPixelConfig net
  upTo (fun i => katherineCmd net (slice pxConfig (1024 * i) 1024)) 64
  katherineCmdWaitAck net
  katherineCmdHwResetMatrixSequential net
  katherineCmdWaitAck net
  katherineCmdHwLoadPixelRegisterConfiguration net
  katherineCmdWaitAck net

def katherineSetAcqTime (acqt : UInt64) : Io PUnit := do
  katherineUdpMutexLock net
  katherineCmdSetAcqtimeLsb net (acqt &&& 0x00000000FFFFFFFF).toUInt32
  katherineCmdWaitAck net
  katherineCmdSetAcqtimeMsb net ((acqt &&& 0xFFFFFFFF00000000) >>> 32).toUInt32
  katherineCmdWaitAck net

def katherineSetNoFrames (noFrames : Int32) : Io PUnit := do
  katherineUdpMutexLock net
  katherineCmdSetNumberOfFrames net noFrames.toInt
  katherineCmdWaitAck net

/-- `bias_id` is not used. -/
def katherineSetBias (_biasId : UInt8) (biasValue : UInt32) : Io PUnit := do
  katherineUdpMutexLock net
  katherineCmdSetBiasSettings net biasValue
  katherineCmdWaitAck net

/-- A trigger's bits of `cmd[0]` or `cmd[1]`. -/
def Trigger.bits (t : Trigger) : UInt8 :=
  t.enabled.toUInt8 ||| t.channel <<< 1 ||| t.useFallingEdge.toUInt8 <<< 4

def katherineAcquisitionSetup (startTrigger : Trigger) (delayedStart : Bool)
    (endTrigger : Trigger) : Io PUnit := do
  katherineUdpMutexLock net
  let cmd := newCmd .acquisitionSetup
  let cmd := store cmd 4 0x05
  let cmd := store cmd 0 (startTrigger.bits ||| delayedStart.toUInt8 <<< 5)
  let cmd := store cmd 1 endTrigger.bits
  sendCmd net cmd
  katherineCmdWaitAck net

def katherineSetSensorRegister (regIdx : Tpx3Reg) (regValue : Int32) : Io PUnit := do
  katherineUdpMutexLock net
  let cmd := store (newCmd .sensorRegisterSetting) 4 regIdx.code
  sendCmd net (katherineCmdLong cmd regValue.toInt)
  katherineCmdWaitAck net

def katherineUpdateSensorRegisters : Io PUnit := do
  katherineUdpMutexLock net
  katherineCmdHwSensorConfigRegistersUpdate net
  katherineCmdWaitAck net

def katherineOutputBlockConfigUpdate : Io PUnit := do
  katherineUdpMutexLock net
  katherineCmdHwOutputBlockConfigUpdate net
  katherineCmdWaitAck net

def katherineTimerSet : Io PUnit := do
  katherineUdpMutexLock net
  katherineCmdHwTimerSet net
  katherineCmdWaitAck net

/-- An iteration of the loop of `katherine_set_dacs`. -/
def setDac (dacs : ℕ → UInt16) (i : ℕ) : Io PUnit := do
  let cmd := store (newCmd .internalDacSettings) 4 (.ofNat i)
  sendCmd net (katherineCmdLong cmd (dacs i).toNat)
  katherineCmdWaitAck net

def katherineSetDacs (dacs : ℕ → UInt16) : Io PUnit := do
  katherineUdpMutexLock net
  upTo (setDac net dacs) 18
  katherineCmdHwInternalDacUpdate net
  katherineCmdWaitAck net

/-- `general_setup`. -/
def Config.generalSetup (config : Config) : Int32 :=
  let generalSetup : Int32 := 0x58
  let generalSetup := generalSetup ||| if config.polarityHoles then 0 else 1
  generalSetup ||| (if config.grayDisable then (1 : Int32) else 0) <<< (3 : Int32)

/-- `pll_setup`. -/
def Config.pllSetup (config : Config) : Int32 :=
  let pllSetup : Int32 := 0xE
  let pllSetup := pllSetup ||| (0x7 &&& config.phase.code) <<< (6 : Int32)
  let pllSetup := pllSetup ||| (0x3 &&& config.freq.code) <<< (4 : Int32)
  pllSetup ||| (0x14 : Int32) <<< (9 : Int32)

def katherineConfigure (config : Config) : Io PUnit := do
  katherineSetAllPixelConfig net config.pixelConfig
  katherineSetAcqTime net config.acqt
  katherineSetNoFrames net config.noFrames
  katherineSetBias net config.biasId config.bias
  katherineAcquisitionSetup net config.startTrigger config.delayedStart config.stopTrigger
  katherineSetSensorRegister net .generalConfig config.generalSetup
  katherineSetSensorRegister net .pllConfig config.pllSetup
  katherineOutputBlockConfigUpdate net
  katherineUpdateSensorRegisters net
  katherineTimerSet net
  katherineSetDacs net config.dacs

end Functions

/-! ### The commands and their responses -/

section Triples

variable {net : Network} {w k m : ℕ} {c : Channel}

/-- An upload before its `i`-th packet, the 64th being followed by the wait. -/
def Uploading (w k m : ℕ) (c : Channel) (i : ℕ) (s : ControlSocket) : Prop :=
  if i < 64 then w ≤ s.waits ∧ s.uploading = 64 - i ∧ Exchanged k m c s.link
  else Waiting w k m c s

theorem triple_uploadCmd : Triple (Ready w k m c) (katherineCmdSetAllPixelConfig net)
    (Uploading w k m c 0) (fun _ => net.Fails w) := by
  refine triple_cmd (fun s hs => ?_) fun s _ hsend => .inr (.inl ⟨s.sends, hsend⟩)
  have hdeliver : s.deliver (slice (newCmd .setAllPixelConfig) 0 8) =
      { s with uploading := 64 } := by
    rw [ControlSocket.deliver, hs.uploading]
    exact if_pos rfl
  rw [hdeliver]
  exact ⟨hs.waits, rfl, hs.exchanged⟩

theorem triple_packet {i : ℕ} (hi : i < 64) (data : List UInt8) :
    Triple (Uploading w k m c i) (katherineCmd net data) (Uploading w k m c (i + 1))
      (fun _ => net.Fails w) := by
  refine triple_cmd (fun s hs => ?_) fun s _ hsend => .inr (.inl ⟨s.sends, hsend⟩)
  rw [Uploading, if_pos hi] at hs
  obtain ⟨hwaits, huploading, hexchanged⟩ := hs
  by_cases hlast : i + 1 < 64
  · obtain ⟨n, hn⟩ : ∃ n, s.uploading = n + 2 := ⟨62 - i, by omega⟩
    have hnext : n + 1 = 64 - (i + 1) := by omega
    rw [Uploading, if_pos hlast, ControlSocket.deliver, hn]
    exact ⟨hwaits, hnext, hexchanged⟩
  · have hone : s.uploading = 1 := by omega
    rw [Uploading, if_neg hlast, ControlSocket.deliver, hone]
    exact ⟨hwaits, rfl, s.link, hexchanged, rfl⟩

theorem triple_cmd60 (val0 : HwCmdType) :
    Triple (Ready w k m c)
      (do katherineCmd60 net .hwCommandStart val0; katherineCmdWaitAck net)
      (Ready w k (m + 1) c) (fun _ => net.Fails w) :=
  triple_command (show CmdType.hwCommandStart.code ≠ CmdType.setAllPixelConfig.code by decide)

theorem triple_setAllPixelConfig (pxConfig : ℕ → UInt8) :
    Triple (Ready w k m c) (katherineSetAllPixelConfig net pxConfig) (Ready w k (m + 3) c)
      (fun _ => net.Fails w) := by
  have hpackets : Triple (Uploading w k m c 0)
      (upTo (fun i => katherineCmd net (slice pxConfig (1024 * i) 1024)) 64)
      (Uploading w k m c 64) (fun _ => net.Fails w) :=
    Triple.upTo fun i hi => triple_packet hi _
  refine triple_lock.bind fun _ => ?_
  refine triple_uploadCmd.bind fun _ => ?_
  refine hpackets.bind fun _ => ?_
  -- after the 64th packet, `Uploading` is `Waiting`
  refine triple_waitAck.bind fun _ => ?_
  refine (triple_sendCmd (by decide)).bind fun _ => ?_
  refine triple_waitAck.bind fun _ => ?_
  exact triple_cmd60 .loadPixelRegisterConfiguration

/-- A command with a number below `2 ^ 32` in it. -/
theorem triple_long {cmd : ℕ → UInt8} (hcmd : cmd 6 ≠ CmdType.setAllPixelConfig.code) {value : ℤ}
    (hv : value < 2 ^ 32) :
    Triple (Ready w k m c) (do sendCmd net (katherineCmdLong cmd value); katherineCmdWaitAck net)
      (Ready w k (m + 1) c) (fun _ => net.Fails w) :=
  triple_command (by rwa [katherineCmdLong_type cmd hv])

theorem triple_setAcqTime (acqt : UInt64) :
    Triple (Ready w k m c) (katherineSetAcqTime net acqt) (Ready w k (m + 2) c)
      (fun _ => net.Fails w) := by
  have hlsb : newCmd .acquisitionTimeSettingsLsb 6 ≠ CmdType.setAllPixelConfig.code := by decide
  have hmsb : newCmd .acquisitionTimeSettingMsb 6 ≠ CmdType.setAllPixelConfig.code := by decide
  refine triple_lock.bind fun _ => ?_
  refine (triple_sendCmd (by rwa [katherineCmdUint32_type])).bind fun _ => ?_
  refine triple_waitAck.bind fun _ => ?_
  exact triple_command (by rwa [katherineCmdUint32_type])

theorem triple_setNoFrames (noFrames : Int32) :
    Triple (Ready w k m c) (katherineSetNoFrames net noFrames) (Ready w k (m + 1) c)
      (fun _ => net.Fails w) := by
  have hlt := noFrames.toInt_lt
  exact triple_lock.bind fun _ => triple_long (by decide) (by omega)

theorem triple_setBias (biasId : UInt8) (biasValue : UInt32) :
    Triple (Ready w k m c) (katherineSetBias net biasId biasValue) (Ready w k (m + 1) c)
      (fun _ => net.Fails w) :=
  triple_lock.bind fun _ =>
    triple_command (show CmdType.biasSettings.code ≠ CmdType.setAllPixelConfig.code by decide)

theorem triple_acquisitionSetup (startTrigger : Trigger) (delayedStart : Bool)
    (endTrigger : Trigger) :
    Triple (Ready w k m c) (katherineAcquisitionSetup net startTrigger delayedStart endTrigger)
      (Ready w k (m + 1) c) (fun _ => net.Fails w) :=
  triple_lock.bind fun _ =>
    triple_command (show CmdType.acquisitionSetup.code ≠ CmdType.setAllPixelConfig.code by decide)

theorem triple_setSensorRegister (regIdx : Tpx3Reg) (regValue : Int32) :
    Triple (Ready w k m c) (katherineSetSensorRegister net regIdx regValue) (Ready w k (m + 1) c)
      (fun _ => net.Fails w) := by
  have htype : CmdType.sensorRegisterSetting.code ≠ CmdType.setAllPixelConfig.code := by decide
  have hlt := regValue.toInt_lt
  exact triple_lock.bind fun _ => triple_long htype (by omega)

/-- Each iteration of the loop sends the value of a DAC. -/
theorem triple_setDac (dacs : ℕ → UInt16) (i : ℕ) :
    Triple (Ready w k (m + i) c) (setDac net dacs i) (Ready w k (m + (i + 1)) c)
      (fun _ => net.Fails w) := by
  have htype : CmdType.internalDacSettings.code ≠ CmdType.setAllPixelConfig.code := by decide
  have hlt := (dacs i).toNat_lt
  exact triple_long htype (by omega)

theorem triple_setDacs (dacs : ℕ → UInt16) :
    Triple (Ready w k m c) (katherineSetDacs net dacs) (Ready w k (m + 19) c)
      (fun _ => net.Fails w) := by
  have hdacs : Triple (Ready w k m c) (upTo (setDac net dacs) 18) (Ready w k (m + 18) c)
      (fun _ => net.Fails w) :=
    Triple.upTo (I := fun i => Ready w k (m + i) c) fun i _ => triple_setDac dacs i
  refine triple_lock.bind fun _ => ?_
  refine hdacs.bind fun _ => ?_
  exact triple_cmd60 .internalDacUpdate

/-- **The configuration is 32 commands, each followed by the taking of a response.** -/
theorem triple_configure (config : Config) :
    Triple (Ready w k m c) (katherineConfigure net config) (Ready w k (m + 32) c)
      (fun _ => net.Fails w) := by
  refine (triple_setAllPixelConfig _).bind fun _ => ?_
  refine (triple_setAcqTime _).bind fun _ => ?_
  refine (triple_setNoFrames _).bind fun _ => ?_
  refine (triple_setBias _ _).bind fun _ => ?_
  refine (triple_acquisitionSetup _ _ _).bind fun _ => ?_
  refine (triple_setSensorRegister _ _).bind fun _ => ?_
  refine (triple_setSensorRegister _ _).bind fun _ => ?_
  refine (triple_lock.bind fun _ => triple_cmd60 .outputBlockConfigUpdate).bind fun _ => ?_
  refine (triple_lock.bind fun _ => triple_cmd60 .sensorConfigRegistersUpdate).bind fun _ => ?_
  refine (triple_lock.bind fun _ => triple_cmd60 .timerSet).bind fun _ => ?_
  exact triple_setDacs _

end Triples
end Sprint3
