/-
# The beginning of an acquisition

`katherine_acquisition_begin` configures the detector, selects the readout and
the acquisition mode, and starts the acquisition. It returns zero only after
the start command was sent, as the last of the messages of `beginMessages`,
and where it fails that command was not sent. A failure may leave the
acquisition in the running state all the same: exactly if all of the messages
but that command were sent and acknowledged (`begin_session`).
-/
import Sprint3.Acquisition
import Sprint3.CommandStream

namespace Sprint3

open Bits Hoare Memory

/-! ### Commands that nothing is waited for -/

/-- More of `katherine_cmd_type`. -/
inductive AcqCmdType
  | acquisitionStart
  | seqReadoutStart
  | acquisitionStop
  | acquisitionModeSetting
  deriving DecidableEq, Repr

def AcqCmdType.code : AcqCmdType → UInt8
  | acquisitionStart => 0x03
  | seqReadoutStart => 0x05
  | acquisitionStop => 0x06
  | acquisitionModeSetting => 0x09

/-- `char cmd[8] = {0}; cmd[6] = val6`. -/
def newAcqCmd (val6 : AcqCmdType) : ℕ → UInt8 := store (fun _ => 0) 6 val6.code

section Calls

variable (net : Network)

/-- `katherine_udp_send_exact` of a command that the device does not answer. -/
def sendUnanswered (data : List UInt8) : Io PUnit := fun s =>
  if net.sendResult s.sends = 0 then
    .ok ⟨⟩ { s with sends := s.sends + 1, sent := s.sent ++ [data] }
  else .error (net.sendResult s.sends) { s with sends := s.sends + 1 }

def katherineCmdSetSeqReadoutStart (arg1 : ℤ) : Io PUnit :=
  sendUnanswered net (slice (katherineCmdLong (newAcqCmd .seqReadoutStart) arg1) 0 8)

def katherineCmdStartAcquisition (arg1 : Int8) : Io PUnit :=
  sendUnanswered net (slice (katherineCmdLong (newAcqCmd .acquisitionStart) arg1.toInt) 0 8)

def katherineCmdStopAcquisition (arg1 : Int8) : Io PUnit :=
  sendUnanswered net (slice (katherineCmdLong (newAcqCmd .acquisitionStop) arg1.toInt) 0 8)

/-! ### `config.c` -/

/-- The command does not produce an acknowledgement. -/
def katherineSetSeqReadoutStart (arg : ℤ) : Io PUnit := do
  katherineUdpMutexLock net
  katherineCmdSetSeqReadoutStart net arg

/-- `acq_mode` is the value of a `katherine_acquisition_mode_t`. -/
def katherineSetAcqMode (acqMode : UInt8) (fastVcoEnabled : Bool) : Io PUnit := do
  katherineUdpMutexLock net
  let cmd := newAcqCmd .acquisitionModeSetting
  let cmd := store cmd 0 (acqMode ||| fastVcoEnabled.toUInt8 <<< 7)
  sendCmd net cmd
  katherineCmdWaitAck net

end Calls

/-! ### `acquisition.c` -/

/-- An acquisition with what it keeps of the modes. -/
structure Session (U : Type) where
  acq : Acquisition U
  readoutMode : Int8
  acqMode : UInt8
  fastVcoEnabled : Bool

/-- Programs on the control socket and an acquisition. -/
abbrev SessionIo (U : Type) := EStateM ℤ (ControlSocket × Session U)

/-- `READOUT_DATA_DRIVEN`. -/
def readoutDataDriven : Int8 := 1

/-- `EINVAL`. -/
def einval : ℤ := 22

namespace Session

variable {U α : Type}

/-- A program on the control socket. -/
def control (x : Io α) : SessionIo U α := fun s =>
  match x s.1 with
  | .ok a c => .ok a (c, s.2)
  | .error e c => .error e (c, s.2)

/-- An assignment to the acquisition. -/
def update (f : Session U → Session U) : SessionIo U PUnit := fun s => .ok ⟨⟩ (s.1, f s.2)

/-- The modes are kept before anything is checked. -/
def select (session : Session U) (readoutMode : Int8) (acqMode : UInt8)
    (fastVcoEnabled decodeData : Bool) : Session U where
  acq := { session.acq with decodeData := decodeData }
  readoutMode := readoutMode
  acqMode := acqMode
  fastVcoEnabled := fastVcoEnabled

/-- The assignments behind the last acknowledgement. -/
def running (session : Session U) (noFrames : ℤ) (acqTime : ℚ) : Session U :=
  { session with
    acq :=
      { session.acq with
        state := .running
        completedFrames := 0
        requestedFrames := noFrames
        requestedFrameDuration := acqTime / 10 ^ 9
        droppedMeasurementData := 0
        pixelBufferValid := 0
        pixelBufferMaxValid := 0
        lastToaOffset := 0 } }

/-- `acq->acq_start_time = time(NULL)`. -/
def started (session : Session U) (now : ℤ) : Session U :=
  { session with acq := { session.acq with acqStartTime := now } }

section Functions

variable (net : Network)

/-- `acqTime` is the `acq_time` of the configuration, in nanoseconds. -/
def katherineAcquisitionBegin (config : Config) (acqTime : ℚ) (readoutMode : Int8)
    (acqMode : UInt8) (fastVcoEnabled decodeData : Bool) (now : ℤ) : SessionIo U PUnit := do
  update fun s => s.select readoutMode acqMode fastVcoEnabled decodeData
  if readoutMode = readoutDataDriven ∧ 1 < config.noFrames.toInt then throw einval
  control (katherineConfigure net config)
  control (katherineSetSeqReadoutStart net readoutMode.toInt)
  control (katherineSetAcqMode net acqMode fastVcoEnabled)
  update fun s => s.running config.noFrames.toInt acqTime
  control (katherineUdpMutexLock net)
  update fun s => s.started now
  control (katherineCmdStartAcquisition net readoutMode)

/-- It waits for nothing, other than its comment says. -/
def katherineAcquisitionStop : SessionIo U PUnit := do
  control (katherineUdpMutexLock net)
  let s ← get
  control (katherineCmdStopAcquisition net s.2.readoutMode)

def katherineAcquisitionAbort : SessionIo U PUnit := do
  katherineAcquisitionStop net
  update fun s => { s with acq := { s.acq with aborted := true } }

end Functions
end Session

/-! ### What is sent -/

/-- A command with a number in it. -/
def AcqCmdType.message (val6 : AcqCmdType) (value : ℤ) : Message :=
  .command val6.code 0 value.toNat

/-- The messages before the start command. -/
def selectMessages (config : Config) (readoutMode : Int8) (acqMode : UInt8)
    (fastVcoEnabled : Bool) : List Message :=
  config.messages ++ [AcqCmdType.seqReadoutStart.message readoutMode.toInt,
    AcqCmdType.acquisitionModeSetting.message (acqMode ||| fastVcoEnabled.toUInt8 <<< 7).toNat]

/-- What the beginning of an acquisition tells the readout. -/
def beginMessages (config : Config) (readoutMode : Int8) (acqMode : UInt8)
    (fastVcoEnabled : Bool) : List Message :=
  selectMessages config readoutMode acqMode fastVcoEnabled ++
    [AcqCmdType.acquisitionStart.message readoutMode.toInt]

theorem slice_acqCmd (val6 : AcqCmdType) (value : Int8) :
    slice (katherineCmdLong (newAcqCmd val6) value.toInt) 0 8 =
      (val6.message value.toInt).encode := by
  have hlt := value.toInt_lt
  have hcmd := slice_typed val6.code 0 (show value.toInt < 2 ^ 32 by omega)
  rwa [store_index] at hcmd

theorem single_acqCmd (val6 : AcqCmdType) (value : Int8) :
    (val6.message value.toInt).Single := by
  have hlt := value.toInt_lt
  cases val6 <;> exact ⟨rfl, by omega⟩

theorem single_acqMode (mode : UInt8) :
    (AcqCmdType.acquisitionModeSetting.message mode.toNat).Single := by
  have hlt := mode.toNat_lt
  exact ⟨rfl, by omega⟩

theorem sequenced_beginMessages (config : Config) (readoutMode : Int8) (acqMode : UInt8)
    (fastVcoEnabled : Bool) :
    Sequenced 0 (beginMessages config readoutMode acqMode fastVcoEnabled) := by
  have hlast : ∀ m ∈ [AcqCmdType.seqReadoutStart.message readoutMode.toInt,
      AcqCmdType.acquisitionModeSetting.message (acqMode ||| fastVcoEnabled.toUInt8 <<< 7).toNat,
      AcqCmdType.acquisitionStart.message readoutMode.toInt], m.Single := by
    simp only [List.forall_mem_cons]
    exact ⟨single_acqCmd _ _, single_acqMode _, single_acqCmd _ _, List.forall_mem_nil _⟩
  have hsettings : Sequenced 0 (config.settings ++ _) :=
    Sequenced.singles (Sequenced.singles (show Sequenced 0 [] from trivial) hlast)
      (single_settings config)
  have hall := sequenced_upload config.pixelConfig hsettings
  simpa only [beginMessages, selectMessages, Config.messages, List.append_assoc, List.cons_append,
    List.nil_append, List.append_nil] using hall

section Tells

variable {net : Network}

/-- A datagram that nothing answers is sent, or nothing is. -/
theorem triple_unanswered {sent : List (List UInt8)} {data : List UInt8} {m : Message}
    (h : data = m.encode) : Triple (·.sent = sent) (sendUnanswered net data)
      (·.sent = sent ++ [m.encode]) (·.sent = sent) := by
  intro s hs
  unfold sendUnanswered
  by_cases hsend : net.sendResult s.sends = 0
  · rw [if_pos hsend, ← h]
    exact congrArg (· ++ [data]) hs
  · rw [if_neg hsend]
    exact hs

theorem tells_unanswered {data : List UInt8} {m : Message} (h : data = m.encode) :
    Tells (sendUnanswered net data) [m] :=
  Emits.of_last fun _ => triple_unanswered h

theorem tells_setSeqReadoutStart (readoutMode : Int8) :
    Tells (katherineSetSeqReadoutStart net readoutMode.toInt)
      [AcqCmdType.seqReadoutStart.message readoutMode.toInt] :=
  (Tells.lock net).bind_silent fun _ => tells_unanswered (slice_acqCmd _ readoutMode)

theorem tells_setAcqMode (acqMode : UInt8) (fastVcoEnabled : Bool) :
    Tells (katherineSetAcqMode net acqMode fastVcoEnabled)
      [AcqCmdType.acquisitionModeSetting.message
        (acqMode ||| fastVcoEnabled.toUInt8 <<< 7).toNat] := by
  refine (Tells.lock net).bind_silent fun _ => Tells.command ?_
  have hlt := (acqMode ||| fastVcoEnabled.toUInt8 <<< 7).toNat_lt
  have hnone : (acqMode ||| fastVcoEnabled.toUInt8 <<< 7).toNat / 256 = 0 := by omega
  rw [AcqCmdType.message, Int.toNat_natCast, Message.encode]
  simp only [toBytes, UInt8.ofNat_toNat, hnone]
  rfl

end Tells

/-! ### What is left of the acquisition -/

namespace Session

variable {U α : Type} {net : Network}

/-- These messages were sent behind `sent`, and the acquisition is this one. -/
def Told (sent : List (List UInt8)) (messages : List Message) (session : Session U)
    (s : ControlSocket × Session U) : Prop :=
  s.1.sent = sent ++ messages.map Message.encode ∧ s.2 = session

variable {sent : List (List UInt8)} {messages : List Message} {session : Session U}

theorem triple_update {E : ControlSocket × Session U → Prop} (f : Session U → Session U) :
    Triple (Told sent messages session) (update f) (Told sent messages (f session)) E := by
  rintro ⟨c, session⟩ ⟨hsent, rfl⟩
  exact ⟨hsent, rfl⟩

/-- A program on the socket tells its messages, or some, and leaves the acquisition alone. -/
theorem triple_control {x : Io α} {more : List Message} (hx : Tells x more) :
    Triple (Told sent messages session) (control x) (Told sent (messages ++ more) session)
      (fun s => ∃ told, told <+: messages ++ more ∧ Told sent told session s) := by
  rintro ⟨c, session⟩ ⟨hsent, rfl⟩
  unfold control
  cases hrun : x c with
  | ok a c' =>
    have hpost := hx.post hrun
    refine ⟨?_, rfl⟩
    rw [hpost, hsent, List.map_append, List.append_assoc]
  | error e c' =>
    obtain ⟨encoded, hencoded, hpost⟩ := hx.fails hrun
    obtain ⟨told, htold, rfl⟩ := List.prefix_map_iff.mp hencoded
    refine ⟨messages ++ told, (List.prefix_append_right_inj messages).mpr htold, ?_, rfl⟩
    rw [hpost, hsent, List.map_append, List.append_assoc]

/-- What is told of a plan when it fails. -/
theorem triple_plan {x : Io α} {more plan : List Message} (hx : Tells x more)
    (hplan : messages ++ more <+: plan) :
    Triple (Told sent messages session) (control x) (Told sent (messages ++ more) session)
      (fun s => ∃ told, told <+: plan ∧ Told sent told session s) :=
  (triple_control hx).weaken fun _ ⟨told, htold, hs⟩ => ⟨told, htold.trans hplan, hs⟩

/-- A call that sends all of its messages, or nothing. -/
theorem triple_whole {x : Io α} {more : List Message}
    (hx : ∀ l, Triple (·.sent = l) x (·.sent = l ++ more.map Message.encode) (·.sent = l)) :
    Triple (Told sent messages session) (control x) (Told sent (messages ++ more) session)
      (Told sent messages session) := by
  rintro ⟨c, session⟩ ⟨hsent, rfl⟩
  have hc := hx _ c hsent
  unfold control
  cases hrun : x c with
  | ok a c' =>
    simp only [hrun] at hc ⊢
    refine ⟨?_, rfl⟩
    rw [hc, List.map_append, List.append_assoc]
  | error e c' =>
    simp only [hrun] at hc ⊢
    exact ⟨hc, rfl⟩

theorem triple_lock : Triple (Told sent messages session) (control (katherineUdpMutexLock net))
    (Told sent messages session) (Told sent messages session) := by
  have hlock : ∀ l, Triple (·.sent = l) (katherineUdpMutexLock net)
      (·.sent = l ++ List.map Message.encode []) (·.sent = l) := by
    intro l
    rw [List.map_nil, List.append_nil]
    exact sent_lock
  have hwhole : Triple (Told sent messages session) (control (katherineUdpMutexLock net))
      (Told sent (messages ++ []) session) (Told sent messages session) := triple_whole hlock
  rwa [List.append_nil] at hwhole

/-- The detector is configured and the modes are selected. -/
theorem triple_select (config : Config) (readoutMode : Int8) (acqMode : UInt8)
    (fastVcoEnabled : Bool) {rest : SessionIo U PUnit} {Q E : ControlSocket × Session U → Prop}
    (hE : ∀ told, told <+: selectMessages config readoutMode acqMode fastVcoEnabled →
      ∀ s, Told sent told session s → E s)
    (hrest : Triple (Told sent (selectMessages config readoutMode acqMode fastVcoEnabled) session)
      rest Q E) :
    Triple (Told sent [] session)
      (do
        control (katherineConfigure net config)
        control (katherineSetSeqReadoutStart net readoutMode.toInt)
        control (katherineSetAcqMode net acqMode fastVcoEnabled)
        rest) Q E := by
  have hweaken : ∀ s, (∃ told, told <+: selectMessages config readoutMode acqMode fastVcoEnabled ∧
      Told sent told session s) → E s := fun s ⟨told, htold, hs⟩ => hE told htold s hs
  have hall : ([] ++ config.messages) ++ [AcqCmdType.seqReadoutStart.message readoutMode.toInt] ++
      [AcqCmdType.acquisitionModeSetting.message
        (acqMode ||| fastVcoEnabled.toUInt8 <<< 7).toNat] =
      selectMessages config readoutMode acqMode fastVcoEnabled := by
    simp [selectMessages]
  refine ((triple_plan (tells_configure net config) ?_).weaken hweaken).bind fun _ => ?_
  · exact List.prefix_append _ _
  refine ((triple_plan (tells_setSeqReadoutStart readoutMode) ?_).weaken hweaken).bind fun _ => ?_
  · rw [← hall]
    exact List.prefix_append _ _
  refine ((triple_plan (tells_setAcqMode acqMode fastVcoEnabled) ?_).weaken hweaken).bind fun _ => ?_
  · rw [hall]
  rw [hall]
  exact hrest

/-- The acquisition is set running before it is started. -/
theorem triple_run (noFrames : ℤ) (acqTime : ℚ) (readoutMode : Int8) (now : ℤ) :
    Triple (Told sent messages session)
      (do
        update fun s => s.running noFrames acqTime
        control (katherineUdpMutexLock net)
        update fun s => s.started now
        control (katherineCmdStartAcquisition net readoutMode))
      (Told sent (messages ++ [AcqCmdType.acquisitionStart.message readoutMode.toInt])
        ((session.running noFrames acqTime).started now))
      (fun s => ∃ session', Told sent messages session' s ∧
        (session' = session.running noFrames acqTime ∨
          session' = (session.running noFrames acqTime).started now)) := by
  have hstart : ∀ l, Triple (·.sent = l) (katherineCmdStartAcquisition net readoutMode)
      (·.sent = l ++ [AcqCmdType.acquisitionStart.message readoutMode.toInt].map Message.encode)
      (·.sent = l) :=
    fun l => triple_unanswered (slice_acqCmd .acquisitionStart readoutMode)
  refine (triple_update _).bind fun _ => ?_
  refine (triple_lock.weaken fun s hs => ⟨_, hs, .inl rfl⟩).bind fun _ => ?_
  refine (triple_update _).bind fun _ => ?_
  exact (triple_whole hstart).weaken fun s hs => ⟨_, hs, .inr rfl⟩

/-- An abort sends the stop command and marks the acquisition, or does neither. -/
theorem triple_abort (net : Network) :
    Triple (Told sent [] session) (katherineAcquisitionAbort net)
      (Told sent [AcqCmdType.acquisitionStop.message session.readoutMode.toInt]
        { session with acq := { session.acq with aborted := true } })
      (Told sent [] session) := by
  have hstop : ∀ l, Triple (·.sent = l) (katherineCmdStopAcquisition net session.readoutMode)
      (·.sent = l ++ [AcqCmdType.acquisitionStop.message session.readoutMode.toInt].map
        Message.encode) (·.sent = l) :=
    fun l => triple_unanswered (slice_acqCmd .acquisitionStop session.readoutMode)
  have hsent : Triple (Told sent [] session) (katherineAcquisitionStop net)
      (Told sent [AcqCmdType.acquisitionStop.message session.readoutMode.toInt] session)
      (Told sent [] session) := by
    refine triple_lock.bind fun _ => ?_
    rintro ⟨c, session'⟩ ⟨hc, rfl⟩
    exact triple_whole hstop (c, _) ⟨hc, rfl⟩
  exact hsent.bind fun _ => triple_update _

section Begin

variable (net) (config : Config) (acqTime : ℚ) (readoutMode : Int8) (acqMode : UInt8)
  (fastVcoEnabled decodeData : Bool) (now : ℤ)

theorem begin_refused (c : ControlSocket)
    (hrefused : readoutMode = readoutDataDriven ∧ 1 < config.noFrames.toInt) :
    katherineAcquisitionBegin net config acqTime readoutMode acqMode fastVcoEnabled decodeData now
        (c, session) =
      .error einval (c, session.select readoutMode acqMode fastVcoEnabled decodeData) := by
  unfold katherineAcquisitionBegin
  simp only [if_pos hrefused]
  rfl

theorem triple_begin (hallowed : ¬(readoutMode = readoutDataDriven ∧ 1 < config.noFrames.toInt)) :
    let selected := session.select readoutMode acqMode fastVcoEnabled decodeData
    let messages := selectMessages config readoutMode acqMode fastVcoEnabled
    let session' := selected.running config.noFrames.toInt acqTime
    Triple (Told sent [] session)
      (katherineAcquisitionBegin net config acqTime readoutMode acqMode fastVcoEnabled decodeData
        now)
      (Told sent (messages ++ [AcqCmdType.acquisitionStart.message readoutMode.toInt])
        (session'.started now))
      (fun s => ∃ told left, told <+: messages ∧ Told sent told left s ∧
        (left = selected ∨ left.acq.state = .running ∧ told = messages)) := by
  intro selected messages session'
  unfold katherineAcquisitionBegin
  simp only [if_neg hallowed]
  refine (triple_update _).bind fun _ => ?_
  refine triple_select config readoutMode acqMode fastVcoEnabled (fun told htold s hs => ?_) ?_
  · exact ⟨told, selected, htold, hs, .inl rfl⟩
  · refine (triple_run config.noFrames.toInt acqTime readoutMode now).weaken ?_
    rintro s ⟨left, hs, hleft⟩
    have hrunning : left.acq.state = .running := by rcases hleft with rfl | rfl <;> rfl
    exact ⟨messages, left, List.prefix_rfl, hs, .inr ⟨hrunning, rfl⟩⟩

end Begin
end Session

/-- The end of a plan is missing from what was told. -/
theorem prefix_ne {plan told : List Message} {m : Message} (h : told <+: plan) :
    told ≠ plan ++ [m] := by
  rintro rfl
  have hlength := h.length_le
  rw [List.length_append, List.length_singleton] at hlength
  omega

/-- **An acquisition is started last.** A call of `katherine_acquisition_begin`
that returns has sent its messages, the start command behind the others, and
leaves the acquisition set up and running. One that fails has not sent that
command. It leaves the acquisition as it was but for the modes, or, if all of
the other messages were sent, running nevertheless. -/
theorem begin_session {U : Type} (net : Network) (config : Config) (acqTime : ℚ)
    (readoutMode : Int8) (acqMode : UInt8) (fastVcoEnabled decodeData : Bool) (now : ℤ)
    (c : ControlSocket) (session : Session U) :
    let selected := session.select readoutMode acqMode fastVcoEnabled decodeData
    let plan := beginMessages config readoutMode acqMode fastVcoEnabled
    let refused := readoutMode = readoutDataDriven ∧ 1 < config.noFrames.toInt
    match Session.katherineAcquisitionBegin net config acqTime readoutMode acqMode fastVcoEnabled
        decodeData now (c, session) with
    | .ok _ (c', session') => ¬refused ∧ ∃ datagrams, c'.sent = c.sent ++ datagrams ∧
        readDatagrams 0 datagrams = plan ∧
        session' = { selected with
          acq := katherineAcquisitionBegin session.acq config.noFrames.toInt acqTime decodeData now }
    | .error e (c', session') => (refused → e = einval ∧ c' = c) ∧
        ∃ datagrams, c'.sent = c.sent ++ datagrams ∧
          readDatagrams 0 datagrams <+: plan ∧ readDatagrams 0 datagrams ≠ plan ∧
          (session' = selected ∨ session'.acq.state = .running ∧
            readDatagrams 0 datagrams =
              selectMessages config readoutMode acqMode fastVcoEnabled) := by
  intro selected plan refused
  have hsequenced := sequenced_beginMessages config readoutMode acqMode fastVcoEnabled
  have hprefix : selectMessages config readoutMode acqMode fastVcoEnabled <+: plan :=
    List.prefix_append _ _
  by_cases hrefused : refused
  · rw [Session.begin_refused net config acqTime readoutMode acqMode fastVcoEnabled decodeData now c
      hrefused]
    exact ⟨fun _ => ⟨rfl, rfl⟩, [], (List.append_nil _).symm, List.nil_prefix,
      (List.cons_ne_nil _ _).symm, .inl rfl⟩
  have hbegin := Session.triple_begin net config acqTime readoutMode acqMode fastVcoEnabled
    decodeData now hrefused (c, session) ⟨(List.append_nil c.sent).symm, rfl⟩
  cases hrun : Session.katherineAcquisitionBegin net config acqTime readoutMode acqMode
      fastVcoEnabled decodeData now (c, session) with
  | ok a s' =>
    rw [hrun] at hbegin
    obtain ⟨hsent, hsession⟩ := hbegin
    exact ⟨hrefused, _, hsent, hsequenced.read List.prefix_rfl, hsession⟩
  | error e s' =>
    rw [hrun] at hbegin
    refine ⟨fun h => absurd h hrefused, ?_⟩
    obtain ⟨told, left, htold, ⟨hsent, hsession⟩, hleft⟩ := hbegin
    have hback := hsequenced.read (htold.trans hprefix)
    refine ⟨told.map Message.encode, hsent, ?_⟩
    rw [hback, hsession]
    exact ⟨htold.trans hprefix, prefix_ne htold, hleft⟩

end Sprint3
