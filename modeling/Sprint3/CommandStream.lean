/-
# What the readout is told

The datagrams of a configuration as the readout reads them: a command is eight
bytes, with its type in byte 6, an index in byte 4 and a number in the first
four; the command that announces the pixel matrix is followed by 64 packets.
`readDatagrams` reads datagrams back, whatever the packets hold
(`readDatagrams_encode`).

A call of `katherine_configure` that returns zero has sent the messages of its
configuration, in order, and one that fails the first of them
(`configure_stream`). The messages tell two configurations apart exactly if
these differ in what the readout is to be told; the setting of the Gray coding
is not among that (`configure_distinguishes`). The pixels of a file arrive one
by one (`configure_uploads_file`).
-/
import Sprint3.AcqTime
import Sprint3.Lib.Emits
import Sprint3.PxConfig

namespace Sprint3

open Bits Hoare Lanes Memory

/-! ### Messages -/

/-- What a datagram says. -/
inductive Message
  | command (type index : UInt8) (number : ℕ)
  | packet (data : List UInt8)
  deriving DecidableEq, Repr

/-- The packets that follow a command of this type. -/
def announced (type : UInt8) : ℕ := if type = CmdType.setAllPixelConfig.code then 64 else 0

namespace Message

def encode : Message → List UInt8
  | command type index number => toBytes 4 number ++ [index, 0, type, 0]
  | packet data => data

/-- A datagram, read as a command. -/
def ofDatagram (data : List UInt8) : Message :=
  .command (data.getD 6 0) (data.getD 4 0) (ofBytes (data.take 4))

end Message

/-- Datagrams as they are read when `uploading` packets are to come. -/
def readDatagrams : ℕ → List (List UInt8) → List Message
  | _, [] => []
  | 0, data :: rest => .ofDatagram data :: readDatagrams (announced (data.getD 6 0)) rest
  | n + 1, data :: rest => .packet data :: readDatagrams n rest

/-- Commands with numbers of 32 bits, each with the packets it announces. -/
def Sequenced : ℕ → List Message → Prop
  | _, [] => True
  | 0, .command type _ number :: rest => number < 2 ^ 32 ∧ Sequenced (announced type) rest
  | 0, .packet _ :: _ => False
  | _ + 1, .command _ _ _ :: _ => False
  | n + 1, .packet _ :: rest => Sequenced n rest

theorem ofDatagram_encode (type index : UInt8) {number : ℕ} (h : number < 2 ^ 32) :
    Message.ofDatagram (Message.command type index number).encode = .command type index number := by
  have hnumber : ofBytes (toBytes 4 number) = number := ofBytes_toBytes h
  have htake : ((Message.command type index number).encode).take 4 = toBytes 4 number :=
    List.take_left' (toBytes_length 4 number)
  rw [Message.ofDatagram, htake, hnumber]
  rfl

/-- **Messages read back**, and so does their beginning. -/
theorem readDatagrams_encode : ∀ (n : ℕ) (messages : List Message), Sequenced n messages →
    readDatagrams n (messages.map Message.encode) = messages
  | _, [], _ => by simp [readDatagrams]
  | 0, .command type index number :: rest, h => by
    obtain ⟨hnumber, hrest⟩ := h
    have htype : ((Message.command type index number).encode).getD 6 0 = type := rfl
    rw [List.map_cons, readDatagrams, ofDatagram_encode type index hnumber, htype,
      readDatagrams_encode _ rest hrest]
  | n + 1, .packet data :: rest, h => by
    rw [List.map_cons, readDatagrams, readDatagrams_encode n rest h]
    rfl

theorem Sequenced.left : ∀ {n : ℕ} {messages more : List Message},
    Sequenced n (messages ++ more) → Sequenced n messages
  | _, [], _, _ => by simp [Sequenced]
  | 0, .command type _ _ :: rest, _, h => ⟨h.1, Sequenced.left h.2⟩
  | n + 1, .packet _ :: rest, _, h => by
    have hrest : Sequenced n rest := Sequenced.left h
    exact hrest

/-- The beginning of a stream reads back. -/
theorem Sequenced.read {plan told : List Message} (h : Sequenced 0 plan) (htold : told <+: plan) :
    readDatagrams 0 (told.map Message.encode) = told := by
  obtain ⟨more, rfl⟩ := htold
  exact readDatagrams_encode 0 told h.left

theorem Sequenced.packets {more : List Message} (hmore : Sequenced 0 more) :
    ∀ packets : List (List UInt8), Sequenced packets.length (packets.map .packet ++ more)
  | [] => hmore
  | _ :: rest => Sequenced.packets hmore rest

/-! ### Commands as bytes -/

/-- A number of 32 bits in a command that holds none. -/
theorem slice_digitLoop {cmd : ℕ → UInt8} (hcmd : ∀ j < 4, cmd j = 0) {value : ℕ}
    (hv : value < 2 ^ 32) :
    slice (digitLoop cmd 0 value) 0 8 = toBytes 4 value ++ slice cmd 4 4 := by
  obtain ⟨-, left, -, -, -, hleft, hinv, hzero⟩ :=
    digitLoop_passes cmd (show value < 256 ^ 4 by omega)
  have hle := hinv.le
  have hkept := hinv.kept
  have hwritten := hinv.written
  have hzeros : ∀ j < 4 - left.i, left.cmd (0 + left.i + j) = 0 := by
    intro j hj
    rw [hkept _ (by omega), hcmd _ (by omega)]
  have hvalue : ofBytes (slice left.cmd 0 4) = value := by
    calc ofBytes (slice left.cmd 0 4)
        = ofBytes (slice left.cmd 0 (left.i + (4 - left.i))) := by rw [Nat.add_sub_cancel' hle]
      _ = value := by
          rw [slice_add, ofBytes_append, ofBytes_slice_zero hzeros, ← hwritten, hzero]
          simp
  have hnumber : slice left.cmd 0 4 = toBytes 4 value := by
    have hbytes := toBytes_ofBytes (slice left.cmd 0 4)
    rw [hvalue, slice_length] at hbytes
    exact hbytes.symm
  have hrest : slice left.cmd 4 4 = slice cmd 4 4 := slice_congr fun j _ => hkept _ (by omega)
  rw [← hleft, show (8 : ℕ) = 4 + 4 from rfl, slice_add, hnumber, hrest]

/-- A command with an index and a number. -/
theorem slice_typed (type index : UInt8) {value : ℤ} (hv : value < 2 ^ 32) :
    slice (katherineCmdLong (store (store (fun _ => 0) 6 type) 4 index) value) 0 8 =
      (Message.command type index value.toNat).encode := by
  have hzero : ∀ j < 4, store (store (fun _ => 0) 6 type) 4 index j = (0 : UInt8) := by
    intro j hj
    have h4 : j ≠ 4 := by omega
    have h6 : j ≠ 6 := by omega
    rw [store, if_neg h4, store, if_neg h6]
  rw [katherineCmdLong, slice_digitLoop hzero (by omega)]
  rfl

theorem slice_long (val6 : CmdType) (index : UInt8) {value : ℤ} (hv : value < 2 ^ 32) :
    slice (katherineCmdLong (store (newCmd val6) 4 index) value) 0 8 =
      (Message.command val6.code index value.toNat).encode :=
  slice_typed val6.code index hv

/-- A command that has no index. -/
theorem store_index (type : UInt8) :
    store (store (fun _ => 0) 6 type) 4 0 = store (fun _ => 0) 6 type := by
  funext j
  by_cases hj : j = 4
  · rw [hj]
    rfl
  · rw [store, if_neg hj]

theorem newCmd_index (val6 : CmdType) : store (newCmd val6) 4 0 = newCmd val6 :=
  store_index val6.code

theorem slice_uint32 (val6 : CmdType) (value : UInt32) :
    slice (katherineCmdUint32 (newCmd val6) value) 0 8 =
      (Message.command val6.code 0 value.toNat).encode := by
  have hlt := value.toNat_lt
  have hlong := slice_long val6 0 (show (value.toNat : ℤ) < 2 ^ 32 by omega)
  rwa [newCmd_index, katherineCmdLong, Int.toNat_natCast] at hlong

/-- Byte `k` of the bits of a `float`. -/
theorem floatByte (bits : UInt32) {k : ℕ} (hk : k < 4) :
    ((bits >>> UInt32.ofNat (8 * k)) &&& 0xff).toUInt8 = .ofNat (bits.toNat / 256 ^ k) := by
  have hshift : (UInt32.ofNat (8 * k)).toNat % 32 = 8 * k := by
    rw [UInt32.toNat_ofNat_of_lt' (by simp only [UInt32.size]; omega)]
    omega
  have hmask : (0xff : UInt32).toNat = 2 ^ 8 - 1 := rfl
  have hpow : 256 ^ k = 2 ^ (8 * k) := (pow_mul 2 8 k).symm
  apply UInt8.toNat_inj.mp
  rw [UInt32.toNat_toUInt8, UInt32.toNat_and, hmask, Nat.and_two_pow_sub_one_eq_mod,
    UInt32.toNat_shiftRight, hshift, Nat.shiftRight_eq_div_pow, hpow, UInt8.toNat_ofNat',
    Nat.mod_mod]

theorem toBytes_float (bits : UInt32) :
    toBytes 4 bits.toNat = [(bits &&& 0xff).toUInt8, ((bits >>> 8) &&& 0xff).toUInt8,
      ((bits >>> 16) &&& 0xff).toUInt8, ((bits >>> 24) &&& 0xff).toUInt8] := by
  have h0 := floatByte bits (show 0 < 4 by decide)
  have h1 := floatByte bits (show 1 < 4 by decide)
  have h2 := floatByte bits (show 2 < 4 by decide)
  have h3 := floatByte bits (show 3 < 4 by decide)
  simp only [toBytes, Nat.div_div_eq_div_mul]
  rw [show (bits &&& 0xff).toUInt8 = _ from h0, show ((bits >>> 8) &&& 0xff).toUInt8 = _ from h1,
    show ((bits >>> 16) &&& 0xff).toUInt8 = _ from h2,
    show ((bits >>> 24) &&& 0xff).toUInt8 = _ from h3]
  simp only [pow_zero, pow_one, Nat.div_one, Nat.reducePow, Nat.reduceMul]

/-! ### The messages of a configuration -/

/-- A hardware command. -/
def hwMessage (val0 : HwCmdType) : Message :=
  .command CmdType.hwCommandStart.code 0 val0.code.toNat

/-- The packets of a pixel matrix, and the commands around them. -/
def uploadMessages (pxConfig : ℕ → UInt8) : List Message :=
  .command CmdType.setAllPixelConfig.code 0 0 ::
    ((List.range 64).map (fun i => .packet (slice pxConfig (1024 * i) 1024)) ++
      [hwMessage .resetMatrixSequential, hwMessage .loadPixelRegisterConfiguration])

/-- A tick count, by halves. -/
def acqTimeMessages (acqt : UInt64) : List Message :=
  [.command CmdType.acquisitionTimeSettingsLsb.code 0 (acqt.toNat % 2 ^ 32),
    .command CmdType.acquisitionTimeSettingMsb.code 0 (acqt.toNat / 2 ^ 32)]

/-- The value of a DAC. -/
def dacMessage (dacs : ℕ → UInt16) (i : ℕ) : Message :=
  .command CmdType.internalDacSettings.code (.ofNat i) (dacs i).toNat

def registerMessage (regIdx : Tpx3Reg) (regValue : Int32) : Message :=
  .command CmdType.sensorRegisterSetting.code regIdx.code regValue.toInt.toNat

namespace Config

/-- The triggers, a byte for each. -/
def triggerNumber (config : Config) : ℕ :=
  (config.startTrigger.bits ||| config.delayedStart.toUInt8 <<< 5).toNat +
    256 * config.stopTrigger.bits.toNat

/-- The commands behind the upload. -/
def settings (config : Config) : List Message :=
  acqTimeMessages config.acqt ++
    .command CmdType.numberOfFrames.code 0 config.noFrames.toInt.toNat ::
    .command CmdType.biasSettings.code 0 config.bias.toNat ::
    .command CmdType.acquisitionSetup.code 5 config.triggerNumber ::
    registerMessage .generalConfig config.generalSetup ::
    registerMessage .pllConfig config.pllSetup ::
    hwMessage .outputBlockConfigUpdate :: hwMessage .sensorConfigRegistersUpdate ::
    hwMessage .timerSet ::
    ((List.range 18).map (dacMessage config.dacs) ++ [hwMessage .internalDacUpdate])

/-- What a configuration tells the readout. -/
def messages (config : Config) : List Message :=
  uploadMessages config.pixelConfig ++ config.settings

end Config

/-- A program that sends these messages, or the first of them. -/
def Tells {α : Type} (x : Io α) (messages : List Message) : Prop :=
  Emits (·.sent) x (messages.map Message.encode)

namespace Tells

variable {α β : Type} {x : Io α} {f : α → Io β} {messages more : List Message}

theorem bind (hx : Tells x messages) (hf : ∀ a, Tells (f a) more) :
    Tells (x >>= f) (messages ++ more) := by
  unfold Tells
  rw [List.map_append]
  exact Emits.bind hx hf

/-- A program in front that sends nothing. -/
theorem bind_silent (hx : Tells x []) (hf : ∀ a, Tells (f a) more) : Tells (x >>= f) more :=
  hx.bind hf

/-- A program in front that sends one message. -/
theorem cons {m : Message} (hx : Tells x [m]) (hf : ∀ a, Tells (f a) more) :
    Tells (x >>= f) (m :: more) :=
  hx.bind hf

theorem upTo {f : ℕ → Io PUnit} {plan : ℕ → Message} (hf : ∀ i, Tells (f i) [plan i]) (n : ℕ) :
    Tells (Hoare.upTo f n) ((List.range n).map plan) := by
  have hloop := Emits.upTo hf n
  rwa [← List.map_flatMap, ← List.map_eq_flatMap] at hloop

variable (net : Network)

theorem lock : Tells (katherineUdpMutexLock net) [] := Emits.of_silent fun _ => sent_lock

theorem waitAck : Tells (katherineCmdWaitAck net) [] := Emits.of_silent fun _ => sent_waitAck

variable {net}

theorem cmd {data : List UInt8} {m : Message} (h : data = m.encode) :
    Tells (katherineCmd net data) [m] := by
  apply Emits.of_last
  intro l
  refine triple_cmd (fun s hs => ?_) fun s hs _ => hs
  rw [hs, h]
  rfl

/-- A command and the wait for its response. -/
theorem command {cmd : ℕ → UInt8} {m : Message} (h : slice cmd 0 8 = m.encode) :
    Tells (do sendCmd net cmd; katherineCmdWaitAck net) [m] :=
  (Tells.cmd h).bind fun _ => waitAck net

end Tells

section Functions

variable (net : Network)

theorem tells_cmd60 (val0 : HwCmdType) :
    Tells (katherineCmd60 net .hwCommandStart val0) [hwMessage val0] := by
  apply Tells.cmd
  cases val0 <;> rfl

theorem tells_hw (val0 : HwCmdType) :
    Tells (do katherineCmd60 net .hwCommandStart val0; katherineCmdWaitAck net)
      [hwMessage val0] :=
  (tells_cmd60 net val0).bind fun _ => Tells.waitAck net

theorem tells_packets (pxConfig : ℕ → UInt8) (n : ℕ) :
    Tells (Hoare.upTo (fun i => katherineCmd net (slice pxConfig (1024 * i) 1024)) n)
      ((List.range n).map fun i => .packet (slice pxConfig (1024 * i) 1024)) := by
  apply Tells.upTo
  intro i
  exact Tells.cmd (m := .packet (slice pxConfig (1024 * i) 1024)) rfl

theorem tells_setAllPixelConfig (pxConfig : ℕ → UInt8) :
    Tells (katherineSetAllPixelConfig net pxConfig) (uploadMessages pxConfig) := by
  have hupload : Tells (katherineCmdSetAllPixelConfig net)
      [.command CmdType.setAllPixelConfig.code 0 0] := Tells.cmd rfl
  refine (Tells.lock net).bind_silent fun _ => ?_
  refine hupload.cons fun _ => ?_
  refine (tells_packets net pxConfig 64).bind fun _ => ?_
  refine (Tells.waitAck net).bind_silent fun _ => ?_
  refine (tells_cmd60 net .resetMatrixSequential).cons fun _ => ?_
  refine (Tells.waitAck net).bind_silent fun _ => ?_
  exact tells_hw net .loadPixelRegisterConfiguration

theorem tells_setAcqTime (acqt : UInt64) :
    Tells (katherineSetAcqTime net acqt) (acqTimeMessages acqt) := by
  have hlsb := slice_uint32 .acquisitionTimeSettingsLsb (acqt &&& 0x00000000FFFFFFFF).toUInt32
  have hmsb := slice_uint32 .acquisitionTimeSettingMsb
    ((acqt &&& 0xFFFFFFFF00000000) >>> 32).toUInt32
  rw [lsb_toNat] at hlsb
  rw [msb_toNat] at hmsb
  refine (Tells.lock net).bind_silent fun _ => ?_
  refine (Tells.cmd hlsb).cons fun _ => ?_
  refine (Tells.waitAck net).bind_silent fun _ => ?_
  exact Tells.command hmsb

theorem tells_setNoFrames (noFrames : Int32) :
    Tells (katherineSetNoFrames net noFrames)
      [.command CmdType.numberOfFrames.code 0 noFrames.toInt.toNat] := by
  have hlt := noFrames.toInt_lt
  have hcmd := slice_long .numberOfFrames 0 (show noFrames.toInt < 2 ^ 32 by omega)
  rw [newCmd_index] at hcmd
  exact (Tells.lock net).bind_silent fun _ => Tells.command hcmd

theorem tells_setBias (biasId : UInt8) (biasValue : UInt32) :
    Tells (katherineSetBias net biasId biasValue)
      [.command CmdType.biasSettings.code 0 biasValue.toNat] := by
  refine (Tells.lock net).bind_silent fun _ => Tells.command ?_
  rw [Message.encode, toBytes_float]
  rfl

theorem tells_acquisitionSetup (config : Config) :
    Tells (katherineAcquisitionSetup net config.startTrigger config.delayedStart
        config.stopTrigger)
      [.command CmdType.acquisitionSetup.code 5 config.triggerNumber] := by
  refine (Tells.lock net).bind_silent fun _ => Tells.command ?_
  have hstart := (config.startTrigger.bits ||| config.delayedStart.toUInt8 <<< 5).toNat_lt
  have hstop := config.stopTrigger.bits.toNat_lt
  have hlow : UInt8.ofNat config.triggerNumber =
      config.startTrigger.bits ||| config.delayedStart.toUInt8 <<< 5 := by
    apply UInt8.toNat_inj.mp
    rw [UInt8.toNat_ofNat', Config.triggerNumber]
    omega
  have hhigh : UInt8.ofNat (config.triggerNumber / 256) = config.stopTrigger.bits := by
    apply UInt8.toNat_inj.mp
    rw [UInt8.toNat_ofNat', Config.triggerNumber]
    omega
  have hnone : config.triggerNumber / 256 / 256 = 0 := by
    rw [Config.triggerNumber]
    omega
  simp only [Message.encode, toBytes, hlow, hhigh, hnone]
  rfl

theorem tells_setSensorRegister (regIdx : Tpx3Reg) (regValue : Int32) :
    Tells (katherineSetSensorRegister net regIdx regValue) [registerMessage regIdx regValue] := by
  have hlt := regValue.toInt_lt
  have hcmd :=
    slice_long .sensorRegisterSetting regIdx.code (show regValue.toInt < 2 ^ 32 by omega)
  exact (Tells.lock net).bind_silent fun _ => Tells.command hcmd

theorem tells_setDacs (dacs : ℕ → UInt16) :
    Tells (katherineSetDacs net dacs)
      ((List.range 18).map (dacMessage dacs) ++ [hwMessage .internalDacUpdate]) := by
  have hdac : ∀ i, Tells (setDac net dacs i) [dacMessage dacs i] := by
    intro i
    have hlt := (dacs i).toNat_lt
    have hcmd := slice_long .internalDacSettings (.ofNat i)
      (show ((dacs i).toNat : ℤ) < 2 ^ 32 by omega)
    exact Tells.command hcmd
  refine (Tells.lock net).bind_silent fun _ => ?_
  refine (Tells.upTo hdac 18).bind fun _ => ?_
  exact tells_hw net .internalDacUpdate

/-- A configuration tells the readout its messages. -/
theorem tells_configure (config : Config) :
    Tells (katherineConfigure net config) config.messages := by
  refine (tells_setAllPixelConfig net _).bind fun _ => ?_
  refine (tells_setAcqTime net _).bind fun _ => ?_
  refine (tells_setNoFrames net _).cons fun _ => ?_
  refine (tells_setBias net _ _).cons fun _ => ?_
  refine (tells_acquisitionSetup net config).cons fun _ => ?_
  refine (tells_setSensorRegister net _ _).cons fun _ => ?_
  refine (tells_setSensorRegister net _ _).cons fun _ => ?_
  refine ((Tells.lock net).bind_silent fun _ => tells_hw net .outputBlockConfigUpdate).cons
    fun _ => ?_
  refine ((Tells.lock net).bind_silent fun _ => tells_hw net .sensorConfigRegistersUpdate).cons
    fun _ => ?_
  refine ((Tells.lock net).bind_silent fun _ => tells_hw net .timerSet).cons fun _ => ?_
  exact tells_setDacs net _

end Functions

/-! ### The stream of a configuration -/

/-- A command that announces nothing, with a number of 32 bits. -/
def Message.Single : Message → Prop
  | .command type _ number => announced type = 0 ∧ number < 2 ^ 32
  | .packet _ => False

theorem Sequenced.singles {more : List Message} (hmore : Sequenced 0 more) :
    ∀ {commands : List Message}, (∀ m ∈ commands, m.Single) → Sequenced 0 (commands ++ more)
  | [], _ => hmore
  | .command type index number :: rest, h => by
    obtain ⟨hnone, hnumber⟩ := h _ List.mem_cons_self
    refine ⟨hnumber, ?_⟩
    rw [hnone]
    exact Sequenced.singles hmore fun m hm => h m (List.mem_cons_of_mem _ hm)
  | .packet data :: _, h => (h _ List.mem_cons_self).elim

theorem single_hw (val0 : HwCmdType) : (hwMessage val0).Single := by
  cases val0 <;> exact ⟨rfl, by decide⟩

theorem single_register (regIdx : Tpx3Reg) (regValue : Int32) :
    (registerMessage regIdx regValue).Single := by
  have hlt := regValue.toInt_lt
  exact ⟨rfl, by omega⟩

theorem single_dac (dacs : ℕ → UInt16) (i : ℕ) : (dacMessage dacs i).Single := by
  have hlt := (dacs i).toNat_lt
  exact ⟨rfl, by omega⟩

theorem single_acqTime (acqt : UInt64) : ∀ m ∈ acqTimeMessages acqt, m.Single := by
  have hlt := acqt.toNat_lt
  intro m hm
  rcases List.mem_pair.mp hm with rfl | rfl
  · exact ⟨rfl, by omega⟩
  · exact ⟨rfl, by omega⟩

theorem triggerNumber_lt (config : Config) : config.triggerNumber < 2 ^ 16 := by
  have hstart := (config.startTrigger.bits ||| config.delayedStart.toUInt8 <<< 5).toNat_lt
  have hstop := config.stopTrigger.bits.toNat_lt
  unfold Config.triggerNumber
  omega

theorem single_settings (config : Config) : ∀ m ∈ config.settings, m.Single := by
  have hframes := config.noFrames.toInt_lt
  have htriggers := triggerNumber_lt config
  have hdacs : ∀ m ∈ (List.range 18).map (dacMessage config.dacs), m.Single := by
    intro m hm
    obtain ⟨i, -, rfl⟩ := List.mem_map.mp hm
    exact single_dac _ i
  unfold Config.settings
  simp only [List.forall_mem_append, List.forall_mem_cons]
  exact ⟨single_acqTime _, ⟨rfl, by omega⟩, ⟨rfl, config.bias.toNat_lt⟩, ⟨rfl, by omega⟩,
    single_register _ _, single_register _ _, single_hw _, single_hw _, single_hw _, hdacs,
    single_hw _, List.forall_mem_nil _⟩

theorem sequenced_upload (pxConfig : ℕ → UInt8) {more : List Message} (hmore : Sequenced 0 more) :
    Sequenced 0 (uploadMessages pxConfig ++ more) := by
  have hend : Sequenced 0
      ([hwMessage .resetMatrixSequential, hwMessage .loadPixelRegisterConfiguration] ++ more) := by
    apply hmore.singles
    exact List.forall_mem_cons.mpr ⟨single_hw _, List.forall_mem_singleton.mpr (single_hw _)⟩
  have hpackets := hend.packets ((List.range 64).map fun i => slice pxConfig (1024 * i) 1024)
  rw [List.length_map, List.length_range, List.map_map] at hpackets
  rw [uploadMessages, List.cons_append, List.append_assoc]
  exact ⟨by decide, hpackets⟩

theorem sequenced_messages (config : Config) : Sequenced 0 config.messages := by
  have hsettings : Sequenced 0 (config.settings ++ []) :=
    Sequenced.singles (show Sequenced 0 [] from trivial) (single_settings config)
  rw [List.append_nil] at hsettings
  exact sequenced_upload _ hsettings

/-- A command is eight bytes. -/
theorem Message.Single.length : ∀ {m : Message}, m.Single → m.encode.length = 8
  | .command type index number, _ => by
    rw [Message.encode, List.length_append, toBytes_length]
    rfl

theorem settings_length (config : Config) : config.settings.length = 29 := by
  simp [Config.settings, acqTimeMessages]

/-- The sizes of the datagrams: a command, the 64 packets, and commands again. -/
theorem messages_sizes (config : Config) : (config.messages.map Message.encode).map List.length =
    8 :: (List.replicate 64 1024 ++ List.replicate 31 8) := by
  have hpackets : (List.range 64).map (fun i => (slice config.pixelConfig (1024 * i) 1024).length) =
      List.replicate 64 1024 := by
    refine List.eq_replicate_iff.mpr ⟨by rw [List.length_map, List.length_range], ?_⟩
    exact List.forall_mem_map.mpr fun i _ => slice_length _ _ _
  have hsettings : config.settings.map (fun m => m.encode.length) = List.replicate 29 8 := by
    refine List.eq_replicate_iff.mpr ⟨by rw [List.length_map, settings_length], ?_⟩
    exact List.forall_mem_map.mpr fun m hm => (single_settings config m hm).length
  rw [Config.messages, uploadMessages, List.map_map, List.cons_append, List.append_assoc,
    List.map_cons, List.map_append, List.map_append, List.map_map]
  simp only [Function.comp_def, Message.encode] at hpackets hsettings ⊢
  rw [hpackets, hsettings]
  rfl

/-- **The readout reads back what it is to be told.** The messages of a
configuration are datagrams of eight bytes but for the 64 packets, of 1024
bytes, behind the first. A call of `katherine_configure` that returns has sent
them, in order; one that fails has sent the first of them, whole, and nothing
else. Either way they read back as they are. -/
theorem configure_stream (net : Network) (config : Config) (s : ControlSocket) :
    (config.messages.map Message.encode).map List.length =
        8 :: (List.replicate 64 1024 ++ List.replicate 31 8) ∧
      match katherineConfigure net config s with
      | .ok _ s' => s'.sent = s.sent ++ config.messages.map Message.encode ∧
          readDatagrams 0 (config.messages.map Message.encode) = config.messages
      | .error _ s' => ∃ told, told <+: config.messages ∧
          s'.sent = s.sent ++ told.map Message.encode ∧
          readDatagrams 0 (told.map Message.encode) = told := by
  have hsequenced := sequenced_messages config
  refine ⟨messages_sizes config, ?_⟩
  cases hrun : katherineConfigure net config s with
  | ok a s' => exact ⟨(tells_configure net config).post hrun, hsequenced.read List.prefix_rfl⟩
  | error e s' =>
    obtain ⟨datagrams, hprefix, hsent⟩ := (tells_configure net config).fails hrun
    obtain ⟨told, htold, rfl⟩ := List.prefix_map_iff.mp hprefix
    exact ⟨told, htold, hsent, hsequenced.read htold⟩

/-! ### What a configuration tells apart -/

/-- What the byte of a trigger tells: the trigger on one of eight channels, the
delayed start, and what is left of the channel. The byte has three bits for the
channel. The next ones of a channel fall on the edge and on the delayed start,
two more on bits that mean nothing, and the highest one is shifted out. -/
def Trigger.told (t : Trigger) (delayedStart : Bool) : Trigger × Bool × UInt8 :=
  (⟨t.enabled, t.channel &&& 7, t.useFallingEdge || t.channel.toNat.testBit 3⟩,
    delayedStart || t.channel.toNat.testBit 4, (t.channel >>> 5) &&& 3)

/-- The byte that tells this. -/
def Trigger.toldByte (told : Trigger × Bool × UInt8) : UInt8 :=
  told.1.bits ||| told.2.1.toUInt8 <<< 5 ||| told.2.2 <<< 6

/-- A byte, read as that of a trigger. -/
def Trigger.ofByte (byte : UInt8) : Trigger × Bool × UInt8 :=
  (⟨byte.toNat.testBit 0, (byte >>> 1) &&& 7, byte.toNat.testBit 4⟩, byte.toNat.testBit 5,
    byte >>> 6)

/-- The byte of a trigger tells this, and nothing else. -/
theorem Trigger.told_bits (t : Trigger) (delayedStart : Bool) :
    ofByte (t.bits ||| delayedStart.toUInt8 <<< 5) = t.told delayedStart ∧
      toldByte (t.told delayedStart) = t.bits ||| delayedStart.toUInt8 <<< 5 := by
  obtain ⟨enabled, channel, useFallingEdge⟩ := t
  have hall : ∀ n < 256, ∀ enabled useFallingEdge delayedStart : Bool,
      ofByte (bits ⟨enabled, .ofNat n, useFallingEdge⟩ ||| delayedStart.toUInt8 <<< 5) =
          told ⟨enabled, .ofNat n, useFallingEdge⟩ delayedStart ∧
        toldByte (told ⟨enabled, .ofNat n, useFallingEdge⟩ delayedStart) =
          bits ⟨enabled, .ofNat n, useFallingEdge⟩ ||| delayedStart.toUInt8 <<< 5 := by
    decide +kernel
  have hchannel := hall channel.toNat channel.toNat_lt enabled useFallingEdge delayedStart
  rwa [UInt8.ofNat_toNat] at hchannel

theorem Trigger.bits_inj {t u : Trigger} {late late' : Bool} :
    t.bits ||| late.toUInt8 <<< 5 = u.bits ||| late'.toUInt8 <<< 5 ↔
      t.told late = u.told late' := by
  obtain ⟨hreadT, hbyteT⟩ := t.told_bits late
  obtain ⟨hreadU, hbyteU⟩ := u.told_bits late'
  constructor
  · intro heq
    rw [← hreadT, heq, hreadU]
  · intro heq
    rw [← hbyteT, heq, hbyteU]

/-- Of a trigger on one of the eight channels its byte tells all. -/
theorem Trigger.told_eq {t : Trigger} (h : t.channel < 8) (late : Bool) :
    t.told late = (t, late, 0) := by
  obtain ⟨enabled, channel, useFallingEdge⟩ := t
  have hall : ∀ n < 8, (UInt8.ofNat n) &&& 7 = .ofNat n ∧ (UInt8.ofNat n).toNat.testBit 3 = false ∧
      (UInt8.ofNat n).toNat.testBit 4 = false ∧ (UInt8.ofNat n >>> 5) &&& 3 = 0 := by decide
  have hchannel := hall channel.toNat (UInt8.lt_iff_toNat_lt.mp h)
  rw [UInt8.ofNat_toNat] at hchannel
  obtain ⟨hlow, hedge, hlate, hrest⟩ := hchannel
  simp only [told, hlow, hedge, hlate, hrest, Bool.or_false]

/-- Two configurations that set the readout up in the same way. -/
structure Config.SameSetup (a b : Config) : Prop where
  pixels : ∀ i < 65536, a.pixelConfig i = b.pixelConfig i
  acqt : a.acqt = b.acqt
  noFrames : max a.noFrames.toInt 0 = max b.noFrames.toInt 0
  bias : a.bias = b.bias
  startTrigger : a.startTrigger.told a.delayedStart = b.startTrigger.told b.delayedStart
  stopTrigger : a.stopTrigger.told false = b.stopTrigger.told false
  polarityHoles : a.polarityHoles = b.polarityHoles
  phase : a.phase = b.phase
  freq : a.freq = b.freq
  dacs : ∀ i < 18, a.dacs i = b.dacs i

theorem uploadMessages_inj {a b : ℕ → UInt8} :
    uploadMessages a = uploadMessages b ↔ ∀ i < 65536, a i = b i := by
  have hpackets : uploadMessages a = uploadMessages b ↔
      ∀ i < 64, slice a (1024 * i) 1024 = slice b (1024 * i) 1024 := by
    simp only [uploadMessages, List.cons.injEq, true_and, List.append_cancel_right_eq,
      List.map_inj_left, List.mem_range, Message.packet.injEq]
  rw [hpackets]
  constructor
  · intro heq i hi
    have hcell := congrArg (fun l => l[i % 1024]?) (heq (i / 1024) (by omega))
    simpa [slice, Nat.div_add_mod, Nat.mod_lt] using hcell
  · intro heq i hi
    exact slice_congr fun j hj => heq _ (by omega)

/-- The Gray coding is the same whatever `gray_disable` is. -/
theorem generalSetup_eq (config : Config) :
    config.generalSetup = if config.polarityHoles then 0x58 else 0x59 := by
  unfold Config.generalSetup
  cases config.polarityHoles <;> cases config.grayDisable <;> rfl

theorem generalSetup_inj {a b : Config} : a.generalSetup.toInt.toNat =
    b.generalSetup.toInt.toNat ↔ a.polarityHoles = b.polarityHoles := by
  rw [generalSetup_eq, generalSetup_eq]
  cases a.polarityHoles <;> cases b.polarityHoles <;> decide

theorem pllSetup_inj {a b : Config} : a.pllSetup.toInt.toNat = b.pllSetup.toInt.toNat ↔
    a.phase = b.phase ∧ a.freq = b.freq := by
  unfold Config.pllSetup
  cases a.phase <;> cases a.freq <;> cases b.phase <;> cases b.freq <;> decide

theorem triggerNumber_inj {a b : Config} : a.triggerNumber = b.triggerNumber ↔
    a.startTrigger.told a.delayedStart = b.startTrigger.told b.delayedStart ∧
      a.stopTrigger.told false = b.stopTrigger.told false := by
  have hstop : ∀ t : Trigger, t.bits ||| false.toUInt8 <<< 5 = t.bits := fun t => by
    rw [show false.toUInt8 <<< 5 = 0 from rfl, UInt8.or_zero]
  rw [← Trigger.bits_inj, ← Trigger.bits_inj, hstop, hstop]
  unfold Config.triggerNumber
  constructor
  · intro heq
    have hstartA := (a.startTrigger.bits ||| a.delayedStart.toUInt8 <<< 5).toNat_lt
    have hstartB := (b.startTrigger.bits ||| b.delayedStart.toUInt8 <<< 5).toNat_lt
    exact ⟨UInt8.toNat_inj.mp (by omega), UInt8.toNat_inj.mp (by omega)⟩
  · rintro ⟨hstart, hstop⟩
    rw [hstart, hstop]

theorem acqTimeMessages_inj {a b : UInt64} : acqTimeMessages a = acqTimeMessages b ↔ a = b := by
  constructor
  · intro heq
    simp only [acqTimeMessages, List.cons.injEq, Message.command.injEq, true_and, and_true] at heq
    exact UInt64.toNat_inj.mp (by omega)
  · rintro rfl
    rfl

theorem dacMessages_inj {a b : ℕ → UInt16} : (List.range 18).map (dacMessage a) =
    (List.range 18).map (dacMessage b) ↔ ∀ i < 18, a i = b i := by
  simp only [List.map_inj_left, List.mem_range, dacMessage, Message.command.injEq, true_and,
    UInt16.toNat_inj]

/-- The settings of two configurations, command by command. -/
theorem settings_inj {a b : Config} : a.settings = b.settings ↔ a.acqt = b.acqt ∧
    a.noFrames.toInt.toNat = b.noFrames.toInt.toNat ∧ a.bias = b.bias ∧
    a.triggerNumber = b.triggerNumber ∧
    a.generalSetup.toInt.toNat = b.generalSetup.toInt.toNat ∧
    a.pllSetup.toInt.toNat = b.pllSetup.toInt.toNat ∧ ∀ i < 18, a.dacs i = b.dacs i := by
  rw [← acqTimeMessages_inj, ← dacMessages_inj]
  unfold Config.settings
  constructor
  · intro heq
    obtain ⟨hacqt, hrest⟩ := List.append_inj heq rfl
    simp only [registerMessage, List.cons.injEq, Message.command.injEq, true_and,
      List.append_cancel_right_eq, UInt32.toNat_inj] at hrest
    exact ⟨hacqt, hrest⟩
  · rintro ⟨hacqt, hframes, hbias, htriggers, hgeneral, hpll, hdacs⟩
    rw [hacqt, hframes, hbias, htriggers, registerMessage, registerMessage, hgeneral, hpll, hdacs]
    rfl

theorem messages_inj {a b : Config} : a.messages = b.messages ↔ a.SameSetup b := by
  have hlength : ∀ px : ℕ → UInt8, (uploadMessages px).length = 67 := by
    intro px
    simp [uploadMessages]
  have hparts : a.messages = b.messages ↔
      uploadMessages a.pixelConfig = uploadMessages b.pixelConfig ∧ a.settings = b.settings := by
    constructor
    · intro heq
      exact List.append_inj heq ((hlength _).trans (hlength _).symm)
    · rintro ⟨hupload, hsettings⟩
      rw [Config.messages, hupload, hsettings, Config.messages]
  rw [hparts, uploadMessages_inj, settings_inj, triggerNumber_inj, generalSetup_inj,
    pllSetup_inj]
  constructor
  · rintro ⟨hpixels, hacqt, hframes, hbias, ⟨hstart, hstop⟩, hholes, ⟨hphase, hfreq⟩, hdacs⟩
    exact ⟨hpixels, hacqt, by omega, hbias, hstart, hstop, hholes, hphase, hfreq, hdacs⟩
  · intro h
    have hframes := h.noFrames
    exact ⟨h.pixels, h.acqt, by omega, h.bias, ⟨h.startTrigger, h.stopTrigger⟩, h.polarityHoles,
      ⟨h.phase, h.freq⟩, h.dacs⟩

/-- Triggers on the eight channels are set up alike only if they are the same. -/
theorem Config.SameSetup.triggers {a b : Config} (h : a.SameSetup b)
    (ha : a.startTrigger.channel < 8 ∧ a.stopTrigger.channel < 8)
    (hb : b.startTrigger.channel < 8 ∧ b.stopTrigger.channel < 8) :
    a.startTrigger = b.startTrigger ∧ a.delayedStart = b.delayedStart ∧
      a.stopTrigger = b.stopTrigger := by
  have hstart := h.startTrigger
  have hstop := h.stopTrigger
  rw [Trigger.told_eq ha.1, Trigger.told_eq hb.1, Prod.mk.injEq, Prod.mk.injEq] at hstart
  rw [Trigger.told_eq ha.2, Trigger.told_eq hb.2, Prod.mk.injEq] at hstop
  exact ⟨hstart.1, hstart.2.1, hstop.1⟩

/-- **Two configurations are told apart exactly if they set the readout up
differently.** Of the settings of a configuration, the index of the bias and
the switch that is to disable the Gray coding do not reach the readout, and of
the channel of a trigger only three bits do so in their place. Triggers on the
eight channels that these count are told apart from each other. -/
theorem configure_distinguishes {a b : Config} {net net' : Network}
    {s t s' t' : ControlSocket} (hs : katherineConfigure net a s = .ok ⟨⟩ s')
    (ht : katherineConfigure net' b t = .ok ⟨⟩ t') :
    ∃ told told', s'.sent = s.sent ++ told ∧ t'.sent = t.sent ++ told' ∧
      (told = told' ↔ a.SameSetup b) ∧
      (a.startTrigger.channel < 8 ∧ a.stopTrigger.channel < 8 →
        b.startTrigger.channel < 8 ∧ b.stopTrigger.channel < 8 → told = told' →
        a.startTrigger = b.startTrigger ∧ a.delayedStart = b.delayedStart ∧
          a.stopTrigger = b.stopTrigger) := by
  have htoldA := (tells_configure net a).post hs
  have htoldB := (tells_configure net' b).post ht
  have hsame : a.messages.map Message.encode = b.messages.map Message.encode ↔ a.SameSetup b := by
    rw [← messages_inj]
    constructor
    · intro heq
      -- datagrams that are the same read back as the same messages
      rw [← (sequenced_messages a).read List.prefix_rfl, heq,
        (sequenced_messages b).read List.prefix_rfl]
    · intro heq
      rw [heq]
  exact ⟨_, _, htoldA, htoldB, hsame, fun ha hb heq => (hsame.mp heq).triggers ha hb⟩

/-- The switch for the Gray coding makes no difference. -/
theorem configure_distinguishes_gray : let config := loadConfig 10 fun _ => 0
    ∃ s' t', katherineConfigure promptChip config .fresh = .ok ⟨⟩ s' ∧
      katherineConfigure promptChip { config with grayDisable := !config.grayDisable } .fresh =
        .ok ⟨⟩ t' ∧ s'.sent = t'.sent := by
  intro config
  have hnet : ¬promptChip.Fails 0 := by simp [Network.Fails, promptChip]
  obtain ⟨s', hs'⟩ := configure_returns late_fresh hnet config
  obtain ⟨t', ht'⟩ :=
    configure_returns late_fresh hnet { config with grayDisable := !config.grayDisable }
  obtain ⟨told, told', htold, htold', hiff, -⟩ := configure_distinguishes hs' ht'
  have hsetup : config.SameSetup { config with grayDisable := !config.grayDisable } := by
    constructor <;> intros <;> rfl
  exact ⟨s', t', hs', ht', by rw [htold, htold', hiff.mpr hsetup]⟩

/-! ### A file on its way to the readout -/

theorem flatten_slices (m : ℕ → UInt8) (k : ℕ) :
    ∀ n, ((List.range n).map fun i => slice m (k * i) k).flatten = slice m 0 (k * n)
  | 0 => rfl
  | n + 1 => by
    rw [List.range_succ, List.map_append, List.flatten_append, flatten_slices m k n, Nat.mul_succ,
      slice_add, Nat.zero_add]
    simp

/-- The bytes of a file, as they lie in the matrix, are all of its bytes. -/
theorem filePlace_perm : ((List.range 65536).map filePlace).Perm (List.range 65536) := by
  have hnodup : ((List.range 65536).map filePlace).Nodup := by
    refine List.Nodup.map_on ?_ List.nodup_range
    intro a ha b hb heq
    rw [← pixelPlace_filePlace (List.mem_range.mp ha), heq,
      pixelPlace_filePlace (List.mem_range.mp hb)]
  refine (List.perm_ext_iff_of_nodup hnodup List.nodup_range).mpr fun i => ⟨?_, ?_⟩
  · intro hi
    obtain ⟨a, ha, rfl⟩ := List.mem_map.mp hi
    exact List.mem_range.mpr (filePlace_lt (List.mem_range.mp ha))
  · intro hi
    obtain ⟨x, y, hx, hy, rfl⟩ := exists_fileIndex (List.mem_range.mp hi)
    have hlt : pixelPlace (fileIndex x y) < 65536 := by
      rw [pixelPlace_fileIndex hx hy]
      omega
    exact List.mem_map.mpr ⟨_, List.mem_range.mpr hlt, filePlace_pixelPlace hx hy⟩

/-- **A file's pixels arrive, each once.** Of a configuration with the matrix
that was loaded from a BMC file, the 64 datagrams of 1024 bytes behind the
first command hold the bytes of the file in the order of the matrix, and so
each of them once. -/
theorem configure_uploads_file {config : Config} {pxConfig : PxConfig} {bmc : ℕ → UInt8}
    (hpixels : config.pixelConfig = bytes (katherinePxConfigLoadBmcData pxConfig bmc).words)
    {net : Network} {s s' : ControlSocket} (h : katherineConfigure net config s = .ok ⟨⟩ s') :
    ∃ first packets rest, s'.sent = s.sent ++ first :: (packets ++ rest) ∧
      packets.length = 64 ∧ (∀ packet ∈ packets, packet.length = 1024) ∧
      packets.flatten = (List.range 65536).map (fun a => bmc (filePlace a)) ∧
      packets.flatten.Perm ((List.range 65536).map bmc) := by
  let packets := (List.range 64).map fun i => slice config.pixelConfig (1024 * i) 1024
  have hflatten : packets.flatten = (List.range 65536).map (fun a => bmc (filePlace a)) := by
    calc packets.flatten = slice config.pixelConfig 0 65536 := flatten_slices _ 1024 64
      _ = (List.range 65536).map config.pixelConfig := by rw [slice, List.range_eq_range']
      _ = _ := by
        refine List.map_congr_left fun a ha => ?_
        rw [hpixels, bytes_load_eq pxConfig bmc (List.mem_range.mp ha)]
  have hsent := (tells_configure net config).post h
  rw [Config.messages, uploadMessages, List.cons_append, List.map_cons, List.append_assoc,
    List.map_append, List.map_map] at hsent
  refine ⟨_, packets, _, hsent, ?_, ?_, hflatten, ?_⟩
  · rw [List.length_map, List.length_range]
  · intro packet hpacket
    obtain ⟨i, -, rfl⟩ := List.mem_map.mp hpacket
    exact slice_length _ _ _
  · rw [hflatten, ← Function.comp_def, ← List.map_map]
    exact filePlace_perm.map bmc

/-- A file that counts, on its way to a chip that answers. -/
theorem configure_uploads_file_prompt : let bmc : ℕ → UInt8 := .ofNat
    let matrix := katherinePxConfigLoadBmcData ⟨fun _ => 0⟩ bmc
    ∃ s' first packets rest,
      katherineConfigure promptChip (loadConfig 10 (bytes matrix.words)) .fresh = .ok ⟨⟩ s' ∧
      s'.sent = first :: (packets ++ rest) ∧
      packets.flatten.Perm ((List.range 65536).map bmc) := by
  intro bmc matrix
  have hnet : ¬promptChip.Fails 0 := by simp [Network.Fails, promptChip]
  have hpixels : (loadConfig 10 (bytes matrix.words)).pixelConfig = bytes matrix.words := rfl
  obtain ⟨s', hs'⟩ := configure_returns late_fresh hnet (loadConfig 10 (bytes matrix.words))
  obtain ⟨first, packets, rest, hsent, -, -, -, hperm⟩ := configure_uploads_file hpixels hs'
  exact ⟨s', first, packets, rest, hs', hsent, hperm⟩

end Sprint3
