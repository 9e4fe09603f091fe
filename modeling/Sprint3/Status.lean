/-
# Inquiries

The functions of `status.c` send a command, wait for its response and decode
it; the digital test waits up to a hundred times. Nothing in a response says
which command it answers. So an inquiry that was sent and got no response in
time leaves it to the next one, and from then on every inquiry decodes the
response to an earlier one: a `Line` counts what was sent and what was not
heard, and says for any history of inquiries, whatever the network does, what
each of them returns (`inquiries_refine`). Where each is heard, what the
device reports comes back as it was (`values_reported`).

The device is connected exactly if one of the responses heard in five attempts
holds the chip id in its low twenty bits, whichever attempt it answers
(`connected_iff`).
-/
import Sprint3.Connection
import Sprint3.RunHistory
import Sprint3.Lib.Packing

namespace Sprint3

open Bits Exchange Hoare Memory Text

/-! ### `crd.h` -/

namespace ReadoutStatusCrd

def hwType : Field := ⟨0, 8⟩

def hwRevision : Field := ⟨8, 8⟩

def hwSerialNumber : Field := ⟨16, 16⟩

def fwVersion : Field := ⟨32, 16⟩

end ReadoutStatusCrd

namespace CommStatusCrd

def commLinesMask : Field := ⟨0, 8⟩

def totalDataRate : Field := ⟨8, 8⟩

def chipDetectedFlag : Field := ⟨16, 8⟩

end CommStatusCrd

/-! ### `status.c` -/

structure ReadoutStatus where
  hwType : ℕ
  hwRevision : ℕ
  hwSerialNumber : ℕ
  fwVersion : ℕ
  deriving DecidableEq, Repr

structure CommStatus where
  commLinesMask : UInt8
  dataRate : UInt32
  chipDetected : Bool
  deriving DecidableEq, Repr

/-- More of `katherine_cmd_type`. -/
inductive StatusCmdType
  | getAdcVoltage
  | getHwReadoutTemperature
  | getReadoutStatus
  | getCommunicationStatus
  | getSensorTemperature
  | digitalTest
  deriving DecidableEq, Repr

def StatusCmdType.code : StatusCmdType → UInt8
  | getAdcVoltage => 0x0D
  | getHwReadoutTemperature => 0x15
  | getReadoutStatus => 0x17
  | getCommunicationStatus => 0x18
  | getSensorTemperature => 0x19
  | digitalTest => 0x20

/-- `char cmd[8] = {0}; cmd[6] = val6`. -/
def newStatusCmd (val6 : StatusCmdType) : ℕ → UInt8 := store (fun _ => 0) 6 val6.code

def readoutStatus (crd : UInt64) : ReadoutStatus where
  hwType := (ReadoutStatusCrd.hwType.extract crd).toUInt8.toNat
  hwRevision := (ReadoutStatusCrd.hwRevision.extract crd).toUInt8.toNat
  hwSerialNumber := (ReadoutStatusCrd.hwSerialNumber.extract crd).toUInt16.toNat
  fwVersion := (ReadoutStatusCrd.fwVersion.extract crd).toUInt16.toNat

def commStatus (crd : UInt64) : CommStatus where
  commLinesMask := (CommStatusCrd.commLinesMask.extract crd).toUInt8
  dataRate := 5 * (CommStatusCrd.totalDataRate.extract crd).toUInt8.toUInt32
  chipDetected := (CommStatusCrd.chipDetectedFlag.extract crd).toUInt8 ≠ 0

section Calls

variable (net : Network)

def katherineCmdGetReadoutTemperature : Io PUnit :=
  sendCmd net (newStatusCmd .getHwReadoutTemperature)

def katherineCmdGetSensorTemperature : Io PUnit :=
  sendCmd net (newStatusCmd .getSensorTemperature)

def katherineCmdGetReadoutStatus : Io PUnit := sendCmd net (newStatusCmd .getReadoutStatus)

def katherineCmdGetCommStatus : Io PUnit := sendCmd net (newStatusCmd .getCommunicationStatus)

def katherineCmdDigitalTest : Io PUnit := sendCmd net (newStatusCmd .digitalTest)

def katherineCmdGetAdcVoltage (arg1 : UInt8) : Io PUnit :=
  sendCmd net (katherineCmdLong (newStatusCmd .getAdcVoltage) arg1.toNat)

/-- A command, its response and what is read from it. -/
def inquire {α : Type} (cmd : Io PUnit) (read : UInt64 → α) : Io α := do
  cmd
  let crd ← katherineCmdWaitAckCrd net
  pure (read crd)

def katherineGetReadoutStatus : Io ReadoutStatus :=
  inquire net (katherineCmdGetReadoutStatus net) readoutStatus

def katherineGetCommStatus : Io CommStatus :=
  inquire net (katherineCmdGetCommStatus net) commStatus

/-- The `float` is given by its bits, the first four bytes of the response. -/
def katherineGetReadoutTemperature : Io UInt32 :=
  inquire net (katherineCmdGetReadoutTemperature net) UInt64.toUInt32

def katherineGetSensorTemperature : Io UInt32 :=
  inquire net (katherineCmdGetSensorTemperature net) UInt64.toUInt32

def katherineGetAdcVoltage (channelId : UInt8) : Io UInt32 :=
  inquire net (katherineCmdGetAdcVoltage net channelId) UInt64.toUInt32

/-- A wait, and `attempts` more as long as they fail. -/
def waitLoop : ℕ → Io UInt64
  | 0 => katherineCmdWaitAckCrd net
  | attempts + 1 => fun s =>
    match katherineCmdWaitAckCrd net s with
    | .ok crd s' => .ok crd s'
    | .error _ s' => waitLoop attempts s'

def katherinePerformDigitalTest : Io PUnit := do
  katherineCmdDigitalTest net
  let crd ← waitLoop net 99
  -- `crd[0] != 64`
  if crd.toUInt8 ≠ 64 then throw 1

end Calls

/-! ### Inquiries and answers -/

/-- A call of a function of `status.c`. -/
inductive Inquiry
  | readoutStatus
  | commStatus
  | chipId
  | readoutTemperature
  | sensorTemperature
  | digitalTest
  | adcVoltage (channelId : UInt8)
  deriving DecidableEq, Repr

/-- What such a call fills in. -/
inductive Answer
  | readoutStatus (status : ReadoutStatus)
  | commStatus (status : CommStatus)
  | chipId (id : Text)
  | float (bits : UInt32)
  | passed
  deriving DecidableEq, Repr

namespace Inquiry

variable (net : Network)

def ask : Inquiry → Io Answer
  | readoutStatus => return .readoutStatus (← katherineGetReadoutStatus net)
  | commStatus => return .commStatus (← katherineGetCommStatus net)
  | chipId => return .chipId (← katherineGetChipId net)
  | readoutTemperature => return .float (← katherineGetReadoutTemperature net)
  | sensorTemperature => return .float (← katherineGetSensorTemperature net)
  | digitalTest => do
    katherinePerformDigitalTest net
    return .passed
  | adcVoltage channelId => return .float (← katherineGetAdcVoltage net channelId)

/-- Calls one after the other, whatever comes of each. -/
def askAll : List Inquiry → ControlSocket → List (Except ℤ Answer) × ControlSocket
  | [], s => ([], s)
  | i :: inquiries, s =>
    match i.ask net s with
    | .ok a s' => (.ok a :: (askAll inquiries s').1, (askAll inquiries s').2)
    | .error e s' => (.error e :: (askAll inquiries s').1, (askAll inquiries s').2)

/-- The command that is sent. -/
def cmd : Inquiry → ℕ → UInt8
  | readoutStatus => newStatusCmd .getReadoutStatus
  | commStatus => newStatusCmd .getCommunicationStatus
  | chipId => newCmd .echoChipId
  | readoutTemperature => newStatusCmd .getHwReadoutTemperature
  | sensorTemperature => newStatusCmd .getSensorTemperature
  | digitalTest => newStatusCmd .digitalTest
  | adcVoltage channelId => katherineCmdLong (newStatusCmd .getAdcVoltage) channelId.toNat

/-- The waits behind the first one. -/
def retries : Inquiry → ℕ
  | digitalTest => 99
  | _ => 0

/-- What a call makes of a response. -/
def decode : Inquiry → UInt64 → Except ℤ Answer
  | readoutStatus, crd => .ok (.readoutStatus (Sprint3.readoutStatus crd))
  | commStatus, crd => .ok (.commStatus (Sprint3.commStatus crd))
  | chipId, crd => .ok (.chipId (chipIdText crd))
  | digitalTest, crd => if crd.toUInt8 = 64 then .ok .passed else .error 1
  | readoutTemperature, crd | sensorTemperature, crd | adcVoltage _, crd =>
    .ok (.float crd.toUInt32)

/-- All calls have one shape. -/
theorem ask_eq (i : Inquiry) : i.ask net =
    (do sendCmd net i.cmd; let crd ← waitLoop net i.retries; liftExcept (i.decode crd)) := by
  cases i with
  | digitalTest =>
    simp only [ask, katherinePerformDigitalTest, katherineCmdDigitalTest, bind_assoc]
    refine congrArg (_ >>= ·) (funext fun _ => congrArg (_ >>= ·) (funext fun crd => ?_))
    funext s
    by_cases hpassed : crd.toUInt8 = 64
    · simp only [decode, if_pos hpassed, if_neg (not_not.mpr hpassed)]
      rfl
    · simp only [decode, if_neg hpassed, if_pos hpassed]
      rfl
  | _ =>
    simp only [ask, katherineGetReadoutStatus, katherineGetCommStatus, katherineGetChipId, inquire,
      katherineGetReadoutTemperature, katherineGetSensorTemperature, katherineGetAdcVoltage,
      bind_assoc, pure_bind]
    rfl

/-- No inquiry announces data packets. -/
theorem cmd_type (i : Inquiry) : i.cmd 6 ≠ CmdType.setAllPixelConfig.code := by
  cases i with
  | adcVoltage channelId =>
    have hkept : (Inquiry.adcVoltage channelId).cmd 6 = StatusCmdType.getAdcVoltage.code :=
      digitLoop_kept _ (n := 1) (by simpa using channelId.toNat_lt) (by decide)
    rw [hkept]
    decide
  | _ => decide

end Inquiry

/-! ### The line -/

/-- The calls of the system so far, the inquiries that were sent, and of how many of these
nothing was heard. -/
structure Line where
  sends : ℕ
  waits : ℕ
  issued : ℕ
  late : ℕ
  deriving DecidableEq, Repr

namespace Line

variable (net : Network)

def start : Line := ⟨0, 0, 0, 0⟩

/-- The first wait from the `w`-th on that gets a response, of as many as there may be. -/
def heard (w : ℕ) : ℕ → Option ℕ
  | 0 => if net.recvResult w = 0 then some w else none
  | retries + 1 => if net.recvResult w = 0 then some w else heard (w + 1) retries

/-- What an inquiry returns: what it decodes answers the one that is `late` before it. -/
def ask (i : Inquiry) (l : Line) : Except ℤ Answer × Line :=
  if net.sendResult l.sends = 0 then
    match heard net l.waits i.retries with
    | some w =>
      (i.decode (net.response (l.issued - l.late)), ⟨l.sends + 1, w + 1, l.issued + 1, l.late⟩)
    | none =>
      (.error (net.recvResult (l.waits + i.retries)),
        ⟨l.sends + 1, l.waits + i.retries + 1, l.issued + 1, l.late + 1⟩)
  else (.error (net.sendResult l.sends), { l with sends := l.sends + 1 })

def askAll : List Inquiry → Line → List (Except ℤ Answer) × Line
  | [], l => ([], l)
  | i :: inquiries, l =>
    ((l.ask net i).1 :: (askAll inquiries (l.ask net i).2).1, (askAll inquiries (l.ask net i).2).2)

/-- The socket as the line tells it. -/
structure Tells (l : Line) (s : ControlSocket) : Prop where
  sends : s.sends = l.sends
  waits : s.waits = l.waits
  uploading : s.uploading = 0
  issued : s.link.issued = l.issued
  behind : s.link.Behind l.late

theorem tells_start : start.Tells .fresh := ⟨rfl, rfl, rfl, rfl, Channel.behind_empty⟩

end Line

variable {net : Network}

/-- A wait takes the oldest response there is. -/
theorem waitAckCrd_ok {s : ControlSocket} (hrecv : net.recvResult s.waits = 0) {k : ℕ}
    (hs : s.link.Behind (k + 1)) : ∃ link, katherineCmdWaitAckCrd net s =
      .ok (net.response (s.link.issued - 1 - k)) { s with waits := s.waits + 1, link } ∧
        link.Behind k ∧ link.issued = s.link.issued := by
  obtain ⟨link, htake, hbehind, hissued, -⟩ := hs.take
  refine ⟨link, ?_, hbehind, hissued⟩
  rw [katherineCmdWaitAckCrd, katherineUdpRecvExact, if_pos hrecv, htake]

theorem waitAckCrd_error {s : ControlSocket} (hrecv : net.recvResult s.waits ≠ 0) :
    katherineCmdWaitAckCrd net s =
      .error (net.recvResult s.waits) { s with waits := s.waits + 1 } := by
  rw [katherineCmdWaitAckCrd, katherineUdpRecvExact, if_neg hrecv]

theorem waitLoop_succ (retries : ℕ) (s : ControlSocket) : waitLoop net (retries + 1) s =
    match katherineCmdWaitAckCrd net s with
    | .ok crd s' => .ok crd s'
    | .error _ s' => waitLoop net retries s' := rfl

/-- The waits that are made, and what the last of them returns. -/
theorem waitLoop_heard (net : Network) {k : ℕ} : ∀ (retries : ℕ) {s : ControlSocket},
    s.link.Behind (k + 1) →
    match Line.heard net s.waits retries with
    | some w => ∃ link, waitLoop net retries s =
        .ok (net.response (s.link.issued - 1 - k)) { s with waits := w + 1, link } ∧
          link.Behind k ∧ link.issued = s.link.issued
    | none => waitLoop net retries s =
        .error (net.recvResult (s.waits + retries)) { s with waits := s.waits + retries + 1 }
  | 0, s, hs => by
    by_cases hrecv : net.recvResult s.waits = 0
    · rw [Line.heard, if_pos hrecv]
      exact waitAckCrd_ok hrecv hs
    · rw [Line.heard, if_neg hrecv]
      exact waitAckCrd_error hrecv
  | retries + 1, s, hs => by
    by_cases hrecv : net.recvResult s.waits = 0
    · obtain ⟨link, hwait, hlink⟩ := waitAckCrd_ok hrecv hs
      rw [Line.heard, if_pos hrecv]
      exact ⟨link, by rw [waitLoop_succ, hwait], hlink⟩
    · have hnext := waitLoop_heard net retries (s := { s with waits := s.waits + 1 }) hs
      have hloop : waitLoop net (retries + 1) s =
          waitLoop net retries { s with waits := s.waits + 1 } := by
        rw [waitLoop_succ, waitAckCrd_error hrecv]
      have hlast : s.waits + 1 + retries = s.waits + (retries + 1) := by omega
      rw [hlast] at hnext
      rw [Line.heard, if_neg hrecv, hloop]
      exact hnext

/-- A socket on which a command was sent. -/
def ControlSocket.asked (s : ControlSocket) (cmd : ℕ → UInt8) : ControlSocket :=
  { s with link := s.link.issue, sends := s.sends + 1, sent := s.sent ++ [slice cmd 0 8] }

theorem sendCmd_ok {s : ControlSocket} (hs : s.uploading = 0) {cmd : ℕ → UInt8}
    (hcmd : cmd 6 ≠ CmdType.setAllPixelConfig.code) (hsend : net.sendResult s.sends = 0) :
    sendCmd net cmd s = .ok ⟨⟩ (s.asked cmd) := by
  rw [sendCmd, katherineCmd, katherineUdpSendExact, if_pos hsend, ControlSocket.deliver_cmd hs hcmd]
  rfl

theorem sendCmd_error {s : ControlSocket} {cmd : ℕ → UInt8} (hsend : net.sendResult s.sends ≠ 0) :
    sendCmd net cmd s = .error (net.sendResult s.sends) { s with sends := s.sends + 1 } := by
  rw [sendCmd, katherineCmd, katherineUdpSendExact, if_neg hsend]

/-- What a call returns, as the result of a program. -/
def Inquiry.result (r : Except ℤ Answer) (s : ControlSocket) :
    EStateM.Result ℤ ControlSocket Answer :=
  match r with
  | .ok a => .ok a s
  | .error e => .error e s

theorem Inquiry.liftExcept_eq (r : Except ℤ Answer) (s : ControlSocket) :
    (liftExcept r : Io Answer) s = Inquiry.result r s := by
  cases r <;> rfl

namespace Line

variable {l : Line} {i : Inquiry}

theorem ask_unsent (hsend : net.sendResult l.sends ≠ 0) :
    l.ask net i = (.error (net.sendResult l.sends), { l with sends := l.sends + 1 }) :=
  if_neg hsend

theorem ask_heard (hsend : net.sendResult l.sends = 0) {w : ℕ}
    (hheard : heard net l.waits i.retries = some w) : l.ask net i =
      (i.decode (net.response (l.issued - l.late)), ⟨l.sends + 1, w + 1, l.issued + 1, l.late⟩) := by
  rw [ask, if_pos hsend, hheard]

theorem ask_unheard (hsend : net.sendResult l.sends = 0)
    (hheard : heard net l.waits i.retries = none) : l.ask net i =
      (.error (net.recvResult (l.waits + i.retries)),
        ⟨l.sends + 1, l.waits + i.retries + 1, l.issued + 1, l.late + 1⟩) := by
  rw [ask, if_pos hsend, hheard]

/-- **One inquiry** does what the line says. -/
theorem Tells.ask {s : ControlSocket} (h : l.Tells s) (net : Network) (i : Inquiry) :
    ∃ s', i.ask net s = Inquiry.result (l.ask net i).1 s' ∧ (l.ask net i).2.Tells s' := by
  obtain ⟨sends, waits, issued, late⟩ := l
  obtain ⟨rfl, rfl, huploading, rfl, hbehind⟩ := h
  rw [i.ask_eq]
  by_cases hsend : net.sendResult s.sends = 0
  · rw [bind_ok (sendCmd_ok huploading i.cmd_type hsend)]
    have hasked : (s.asked i.cmd).link.Behind (late + 1) := hbehind.issue
    have hissued : (s.asked i.cmd).link.issued = s.link.issued + 1 := rfl
    have hloop := waitLoop_heard net i.retries hasked
    cases hheard : heard net s.waits i.retries with
    | some w =>
      rw [show (s.asked i.cmd).waits = s.waits from rfl, hheard] at hloop
      obtain ⟨link, hwait, hlink, hkept⟩ := hloop
      rw [ask_heard hsend hheard, bind_ok hwait, Inquiry.liftExcept_eq, hissued, Nat.add_sub_cancel]
      exact ⟨_, rfl, rfl, rfl, huploading, hkept, hlink⟩
    | none =>
      rw [show (s.asked i.cmd).waits = s.waits from rfl, hheard] at hloop
      rw [ask_unheard hsend hheard, bind_error hloop]
      exact ⟨_, rfl, rfl, rfl, huploading, rfl, hasked⟩
  · rw [ask_unsent hsend, bind_error (sendCmd_error hsend)]
    exact ⟨_, rfl, rfl, rfl, huploading, rfl, hbehind⟩

/-- Any number of inquiries. -/
theorem Tells.askAll (net : Network) : ∀ (inquiries : List Inquiry) {l : Line}
    {s : ControlSocket}, l.Tells s →
    (Inquiry.askAll net inquiries s).1 = (askAll net inquiries l).1 ∧
      (askAll net inquiries l).2.Tells (Inquiry.askAll net inquiries s).2
  | [], _, _, h => ⟨rfl, h⟩
  | i :: inquiries, l, s, h => by
    obtain ⟨s', hask, hs'⟩ := h.ask net i
    obtain ⟨hresults, htells⟩ := Tells.askAll net inquiries hs'
    rw [Inquiry.askAll, hask, Line.askAll]
    cases hresult : (l.ask net i).1 with
    | ok a => exact ⟨congrArg (_ :: ·) hresults, htells⟩
    | error e => exact ⟨congrArg (_ :: ·) hresults, htells⟩

end Line

/-- **Inquiries in a row.** Whatever is inquired on a new socket and whatever
the network does, each inquiry returns what the line says, and the socket is
left as the line has it. -/
theorem inquiries_refine (net : Network) (inquiries : List Inquiry) :
    (Inquiry.askAll net inquiries .fresh).1 = (Line.askAll net inquiries .start).1 ∧
      (Line.askAll net inquiries .start).2.Tells (Inquiry.askAll net inquiries .fresh).2 :=
  Line.Tells.askAll net inquiries Line.tells_start

/-- A response that comes too late is taken by the next inquiry. -/
example : let net : Network := { slowChip with response := fun n => if n = 0 then 0x362A else 64 }
    (Inquiry.askAll net [.chipId, .readoutStatus, .digitalTest, .chipId] .fresh).1 =
      [.error eagain, .ok (.readoutStatus ⟨0x2A, 0x36, 0, 0⟩), .ok .passed,
        .ok (.chipId "@4-W0000".toList)] := by decide

/-! ### The chip id -/

/-- The three numbers of a chip id. -/
def chipIdX : Field := ⟨0, 4⟩

def chipIdY : Field := ⟨4, 4⟩

def chipIdW : Field := ⟨8, 12⟩

/-- What a shift and a mask read from the low half of a word. -/
theorem read_toUInt32 (f : Field) (hf : f.start + f.width < 32) (crd : UInt64) :
    ((crd.toUInt32 >>> .ofNat f.start) &&& .ofNat (2 ^ f.width - 1)).toNat = f.read crd.toNat := by
  have hstart : (UInt32.ofNat f.start).toNat = f.start :=
    UInt32.toNat_ofNat_of_lt' (lt_trans (by omega : f.start < 32) (by decide))
  have hpow : 2 ^ f.width < 2 ^ 32 := Nat.pow_lt_pow_right (by decide) (by omega)
  have hmask : (UInt32.ofNat (2 ^ f.width - 1)).toNat = 2 ^ f.width - 1 :=
    UInt32.toNat_ofNat_of_lt' (lt_of_le_of_lt (Nat.sub_le _ _) hpow)
  calc ((crd.toUInt32 >>> .ofNat f.start) &&& .ofNat (2 ^ f.width - 1)).toNat
      = (crd.toNat % 2 ^ 32) / 2 ^ f.start &&& (2 ^ f.width - 1) := by
        rw [UInt32.toNat_and, UInt32.toNat_shiftRight, hstart, hmask, UInt64.toNat_toUInt32,
          Nat.mod_eq_of_lt (by omega : f.start < 32), Nat.shiftRight_eq_div_pow]
    _ = f.read (crd.toNat % 2 ^ 32) := Nat.and_two_pow_sub_one_eq_mod _ _
    _ = f.read crd.toNat := f.read_mod hf.le _

/-- The id is written out from these. -/
theorem chipIdText_eq (crd : UInt64) : chipIdText crd =
    Char.ofNat (64 + chipIdX.read crd.toNat) :: (decimal (chipIdY.read crd.toNat) ++
      '-' :: ("W000".toList ++ decimal (chipIdW.read crd.toNat))) := by
  have hx : (crd.toUInt32 &&& 0xF).toNat = chipIdX.read crd.toNat := by
    have hread := read_toUInt32 chipIdX (by decide) crd
    rwa [show crd.toUInt32 >>> .ofNat chipIdX.start = crd.toUInt32 from UInt32.shiftRight_zero]
      at hread
  have hy : ((crd.toUInt32 >>> 4) &&& 0xF).toNat = chipIdY.read crd.toNat :=
    read_toUInt32 chipIdY (by decide) crd
  have hw : ((crd.toUInt32 >>> 8) &&& 0xFFF).toNat = chipIdW.read crd.toNat :=
    read_toUInt32 chipIdW (by decide) crd
  have hchar : (65 + ((chipIdX.read crd.toNat : ℤ) - 1)).toNat = 64 + chipIdX.read crd.toNat := by
    omega
  simp only [chipIdText, hx, hy, hw, hchar, List.append_assoc, List.cons_append]
  rfl

/-- The id tells the low twenty bits. -/
theorem chipIdText_inj {crd crd' : UInt64} :
    chipIdText crd = chipIdText crd' ↔ crd.toNat % 2 ^ 20 = crd'.toNat % 2 ^ 20 := by
  rw [chipIdText_eq, chipIdText_eq]
  constructor
  · intro h
    have hletter : ∀ a < 16, ∀ b < 16, Char.ofNat (64 + a) = Char.ofNat (64 + b) → a = b := by
      decide
    obtain ⟨hx, hrest⟩ := List.cons.inj h
    obtain ⟨hy, hrest⟩ := (decimal_sep_inj (by decide)).mp hrest
    have hx := hletter _ (chipIdX.read_lt _) _ (chipIdX.read_lt _) hx
    have hw := decimal_inj (List.append_cancel_left hrest)
    simp only [chipIdX, chipIdY, chipIdW, Field.read] at hx hy hw
    omega
  · intro h
    have hread : ∀ f : Field, f.start + f.width ≤ 20 → f.read crd.toNat = f.read crd'.toNat :=
      fun f hf => by rw [← f.read_mod hf crd.toNat, h, f.read_mod hf]
    rw [hread chipIdX (by decide), hread chipIdY (by decide), hread chipIdW (by decide)]

/-- The low twenty bits of the expected id. -/
theorem chipIdText_expected {crd : UInt64} :
    chipIdText crd = chipIdExpected ↔ crd.toNat % 2 ^ 20 = 0x362A := by
  have hexpected : chipIdExpected = chipIdText 0x362A := by decide
  rw [hexpected, chipIdText_inj]
  rfl

/-! ### The connection -/

/-- The responses heard in so many attempts, from these calls of the system on. -/
def heardIn (net : Network) (attempts sends waits : ℕ) : ℕ :=
  (List.range' waits ((List.range' sends attempts).countP fun j => net.sendResult j = 0)).countP
    fun j => net.recvResult j = 0

section HeardIn

variable {sends : ℕ} (attempts waits : ℕ)

theorem heardIn_unsent (hsend : net.sendResult sends ≠ 0) :
    heardIn net (attempts + 1) sends waits = heardIn net attempts (sends + 1) waits := by
  simp [heardIn, List.range'_succ, hsend]

theorem heardIn_sent (hsend : net.sendResult sends = 0) :
    heardIn net (attempts + 1) sends waits =
      heardIn net attempts (sends + 1) (waits + 1) + if net.recvResult waits = 0 then 1 else 0 := by
  simp [heardIn, List.range'_succ, List.countP_cons, hsend]

end HeardIn

/-- An attempt is an inquiry. -/
theorem testLoop_succ (attempts : ℕ) (s : ControlSocket) :
    testLoop net (attempts + 1) (some s) =
      match Inquiry.chipId.ask net s with
      | .ok a s' =>
        if a = .chipId chipIdExpected then (true, some s') else testLoop net attempts (some s')
      | .error _ s' => testLoop net attempts (some s') := by
  have hask : Inquiry.chipId.ask net = katherineGetChipId net >>= fun id => pure (.chipId id) := rfl
  rw [testLoop, testConnection, hask]
  cases hget : katherineGetChipId net s with
  | ok id s' =>
    rw [bind_ok hget]
    by_cases hid : id = chipIdExpected
    · simp [pure, EStateM.pure, hid]
    · simp [pure, EStateM.pure, hid]
  | error e s' => rw [bind_error hget]

/-- The attempts go on until a response heard holds the id. -/
theorem testLoop_iff (net : Network) : ∀ (attempts : ℕ) {l : Line} {s : ControlSocket}, l.Tells s →
    ((testLoop net attempts (some s)).1 = true ↔
      ∃ n, l.issued - l.late ≤ n ∧
        n < l.issued - l.late + heardIn net attempts l.sends l.waits ∧
        (net.response n).toNat % 2 ^ 20 = 0x362A)
  | 0, l, s, _ => by
    refine iff_of_false (by simp [testLoop]) ?_
    rintro ⟨n, hle, hlt, -⟩
    simp only [heardIn, List.range'_zero, List.countP_nil] at hlt
    omega
  | attempts + 1, l, s, h => by
    obtain ⟨s', hask, hs'⟩ := h.ask net .chipId
    have hrest := testLoop_iff net attempts hs'
    rw [testLoop_succ, hask]
    by_cases hsend : net.sendResult l.sends = 0
    · rw [heardIn_sent attempts l.waits hsend]
      by_cases hrecv : net.recvResult l.waits = 0
      · have hle : l.late ≤ l.issued := h.issued ▸ h.behind.le
        have hnext : l.issued + 1 - l.late = l.issued - l.late + 1 := by omega
        have hheard : Line.heard net l.waits Inquiry.chipId.retries = some l.waits := if_pos hrecv
        simp only [Line.ask_heard hsend hheard, hnext] at hrest
        rw [Line.ask_heard hsend hheard, if_pos hrecv]
        simp only [Inquiry.decode, Inquiry.result, Answer.chipId.injEq, chipIdText_expected]
        by_cases hid : (net.response (l.issued - l.late)).toNat % 2 ^ 20 = 0x362A
        · rw [if_pos hid]
          exact iff_of_true rfl ⟨l.issued - l.late, le_rfl, by omega, hid⟩
        · rw [if_neg hid, hrest]
          constructor
          · rintro ⟨n, hge, hlt, hn⟩
            exact ⟨n, by omega, by omega, hn⟩
          · rintro ⟨n, hge, hlt, hn⟩
            have hne : n ≠ l.issued - l.late := fun heq => hid (heq ▸ hn)
            exact ⟨n, by omega, by omega, hn⟩
      · have hsub : l.issued + 1 - (l.late + 1) = l.issued - l.late := Nat.add_sub_add_right _ _ _
        have hheard : Line.heard net l.waits Inquiry.chipId.retries = none := if_neg hrecv
        rw [Line.ask_unheard hsend hheard, hsub] at hrest
        rw [Line.ask_unheard hsend hheard, if_neg hrecv]
        exact hrest
    · rw [Line.ask_unsent hsend] at hrest ⊢
      rw [heardIn_unsent attempts l.waits hsend]
      exact hrest

theorem emplaceLoop_eq : ∀ n i : ℕ, emplaceLoop net n i =
    if ∃ j < n, net.initResult (i + j) = 0 then some .fresh else none
  | 0, i => by simp [emplaceLoop]
  | n + 1, i => by
    by_cases hinit : net.initResult i = 0
    · rw [emplaceLoop, if_pos hinit, if_pos ⟨0, Nat.succ_pos n, hinit⟩]
    · have hiff : (∃ j < n, net.initResult (i + 1 + j) = 0) ↔
          ∃ j < n + 1, net.initResult (i + j) = 0 := by
        constructor
        · rintro ⟨j, hj, hzero⟩
          exact ⟨j + 1, Nat.succ_lt_succ hj, by rwa [← Nat.add_assoc, Nat.add_right_comm]⟩
        · rintro ⟨_ | j, hj, hzero⟩
          · exact absurd hzero hinit
          · exact ⟨j, Nat.lt_of_succ_lt_succ hj, by rwa [Nat.add_right_comm]⟩
      rw [emplaceLoop, if_neg hinit, emplaceLoop_eq n (i + 1)]
      simp only [hiff]

/-- **The connection.** The device is connected exactly if one of five
attempts creates the sockets, and one of the responses heard in five attempts
holds the expected id in its low twenty bits. The text that is compared tells
these bits, and no others. -/
theorem connected_iff (net : Network) : ((connectDevice net).1 = true ↔
    (∃ i < cnxtAttempts, net.initResult i = 0) ∧
      ∃ n < heardIn net cnxtAttempts 0 0, (net.response n).toNat % 2 ^ 20 = 0x362A) ∧
    ∀ crd crd' : UInt64,
      chipIdText crd = chipIdText crd' ↔ crd.toNat % 2 ^ 20 = crd'.toNat % 2 ^ 20 := by
  refine ⟨?_, fun crd crd' => chipIdText_inj⟩
  have hloop := testLoop_iff net cnxtAttempts Line.tells_start
  simp only [Line.start, Nat.sub_zero, Nat.zero_add, Nat.zero_le, true_and] at hloop
  rw [connectDevice, emplaceLoop_eq]
  simp only [Nat.zero_add]
  by_cases hinit : ∃ i < cnxtAttempts, net.initResult i = 0
  · rw [if_pos hinit, and_iff_right hinit]
    exact hloop
  · rw [if_neg hinit]
    exact iff_of_false Bool.false_ne_true fun h => hinit h.1

/-! ### Reports -/

/-- A word with these values in the fields. -/
def ofFields (fs : List Field) (vs : List ℕ) : UInt64 := .ofNat (pack fs vs)

theorem read_ofFields {fs : List Field} {vs : List ℕ} (hfs : Ascending 0 fs) (h : Fits fs vs)
    (hsize : ∀ f ∈ fs, f.start + f.width < 64) :
    fs.map (fun f => f.read (ofFields fs vs).toNat) = vs := by
  have hlt : pack fs vs < UInt64.size := pack_lt hfs h fun f hf => (hsize f hf).le
  have hvalue : (ofFields fs vs).toNat = pack fs vs := UInt64.toNat_ofNat_of_lt' hlt
  rw [hvalue]
  exact read_pack hfs h

/-- What the device reports in a response. -/
inductive StatusReport
  | readoutStatus (hwType hwRevision hwSerialNumber fwVersion : ℕ)
  | commStatus (commLinesMask totalDataRate chipDetected : ℕ)
  | chipId (x y w : ℕ)
  | float (bits : UInt32)
  | digitalTest (outcome : UInt8)
  deriving DecidableEq, Repr

namespace StatusReport

def readoutStatusFields : List Field :=
  [ReadoutStatusCrd.hwType, ReadoutStatusCrd.hwRevision, ReadoutStatusCrd.hwSerialNumber,
    ReadoutStatusCrd.fwVersion]

def commStatusFields : List Field :=
  [CommStatusCrd.commLinesMask, CommStatusCrd.totalDataRate, CommStatusCrd.chipDetectedFlag]

def chipIdFields : List Field := [chipIdX, chipIdY, chipIdW]

/-- The response. The column of a chip is counted from one. -/
def crd : StatusReport → UInt64
  | readoutStatus hwType hwRevision hwSerialNumber fwVersion =>
    ofFields readoutStatusFields [hwType, hwRevision, hwSerialNumber, fwVersion]
  | commStatus commLinesMask totalDataRate chipDetected =>
    ofFields commStatusFields [commLinesMask, totalDataRate, chipDetected]
  | chipId x y w => ofFields chipIdFields [x + 1, y, w]
  | float bits => bits.toUInt64
  | digitalTest outcome => outcome.toUInt64

/-- What the inquiry is to return. -/
def result : StatusReport → Except ℤ Answer
  | readoutStatus hwType hwRevision hwSerialNumber fwVersion =>
    .ok (.readoutStatus ⟨hwType, hwRevision, hwSerialNumber, fwVersion⟩)
  | commStatus commLinesMask totalDataRate chipDetected =>
    .ok (.commStatus ⟨.ofNat commLinesMask, .ofNat (5 * totalDataRate), chipDetected ≠ 0⟩)
  | chipId x y w =>
    .ok (.chipId (Char.ofNat (65 + x) :: (decimal y ++ '-' :: ("W000".toList ++ decimal w))))
  | float bits => .ok (.float bits)
  | digitalTest outcome => if outcome = 64 then .ok .passed else .error 1

/-- A report that has room in the response to the inquiry. -/
def Suits : Inquiry → StatusReport → Prop
  | .readoutStatus, readoutStatus hwType hwRevision hwSerialNumber fwVersion =>
    Fits readoutStatusFields [hwType, hwRevision, hwSerialNumber, fwVersion]
  | .commStatus, commStatus commLinesMask totalDataRate chipDetected =>
    Fits commStatusFields [commLinesMask, totalDataRate, chipDetected]
  | .chipId, chipId x y w => Fits chipIdFields [x + 1, y, w]
  | .readoutTemperature, float _ | .sensorTemperature, float _ | .adcVoltage _, float _ => True
  | .digitalTest, digitalTest _ => True
  | _, _ => False

/-- A number in a field of eight bits. -/
theorem extract_toUInt8 {f : Field} (hf : f.start + f.width < 64) (hwidth : f.width ≤ 8) {v : ℕ}
    {crd : UInt64} (h : f.read crd.toNat = v) : (f.extract crd).toUInt8.toNat = v := by
  have hlt : f.read crd.toNat < 2 ^ 8 :=
    lt_of_lt_of_le (f.read_lt _) (Nat.pow_le_pow_right (by decide) hwidth)
  rw [UInt64.toNat_toUInt8, f.extract_toNat hf, Nat.mod_eq_of_lt hlt, h]

theorem extract_toUInt16 {f : Field} (hf : f.start + f.width < 64) (hwidth : f.width ≤ 16) {v : ℕ}
    {crd : UInt64} (h : f.read crd.toNat = v) : (f.extract crd).toUInt16.toNat = v := by
  have hlt : f.read crd.toNat < 2 ^ 16 :=
    lt_of_lt_of_le (f.read_lt _) (Nat.pow_le_pow_right (by decide) hwidth)
  rw [UInt64.toNat_toUInt16, f.extract_toNat hf, Nat.mod_eq_of_lt hlt, h]

theorem decode_readoutStatus {hwType hwRevision hwSerialNumber fwVersion : ℕ} {crd : UInt64}
    (h : readoutStatusFields.map (fun f => f.read crd.toNat) =
      [hwType, hwRevision, hwSerialNumber, fwVersion]) :
    Sprint3.readoutStatus crd = ⟨hwType, hwRevision, hwSerialNumber, fwVersion⟩ := by
  simp only [readoutStatusFields, List.map_cons, List.map_nil, List.cons.injEq, and_true] at h
  obtain ⟨htype, hrevision, hserial, hversion⟩ := h
  rw [Sprint3.readoutStatus, extract_toUInt8 (by decide) (by decide) htype,
    extract_toUInt8 (by decide) (by decide) hrevision,
    extract_toUInt16 (by decide) (by decide) hserial,
    extract_toUInt16 (by decide) (by decide) hversion]

theorem decode_commStatus {commLinesMask totalDataRate chipDetected : ℕ} {crd : UInt64}
    (h : commStatusFields.map (fun f => f.read crd.toNat) =
      [commLinesMask, totalDataRate, chipDetected]) : Sprint3.commStatus crd =
        ⟨.ofNat commLinesMask, .ofNat (5 * totalDataRate), chipDetected ≠ 0⟩ := by
  simp only [commStatusFields, List.map_cons, List.map_nil, List.cons.injEq, and_true] at h
  obtain ⟨hmask, hrate, hdetected⟩ := h
  have hmask := extract_toUInt8 (by decide) (by decide) hmask
  have hrate := extract_toUInt8 (by decide) (by decide) hrate
  have hdetected := extract_toUInt8 (by decide) (by decide) hdetected
  have hbyte : ∀ {b : UInt8} {n : ℕ}, b.toNat = n → b = .ofNat n := fun h => by
    rw [← h, UInt8.ofNat_toNat]
  have hdata : 5 * (CommStatusCrd.totalDataRate.extract crd).toUInt8.toUInt32 =
      .ofNat (5 * totalDataRate) := by
    apply UInt32.toNat_inj.mp
    rw [UInt32.toNat_mul, UInt8.toNat_toUInt32, hrate, UInt32.toNat_ofNat']
    rfl
  have hflag : ((CommStatusCrd.chipDetectedFlag.extract crd).toUInt8 ≠ 0) = (chipDetected ≠ 0) := by
    rw [ne_eq, ← UInt8.toNat_inj, hdetected]
    rfl
  simp only [Sprint3.commStatus, hbyte hmask, hdata, hflag]

theorem decode_chipId {x y w : ℕ} {crd : UInt64}
    (h : chipIdFields.map (fun f => f.read crd.toNat) = [x + 1, y, w]) : chipIdText crd =
      Char.ofNat (65 + x) :: (decimal y ++ '-' :: ("W000".toList ++ decimal w)) := by
  simp only [chipIdFields, List.map_cons, List.map_nil, List.cons.injEq, and_true] at h
  obtain ⟨hx, hy, hw⟩ := h
  have hletter : 64 + (x + 1) = 65 + x := by omega
  rw [chipIdText_eq, hx, hy, hw, hletter]

/-- **A report comes back as it was.** -/
theorem decode_crd {i : Inquiry} {r : StatusReport} (h : Suits i r) :
    i.decode r.crd = r.result := by
  cases r with
  | readoutStatus hwType hwRevision hwSerialNumber fwVersion =>
    cases i with
    | readoutStatus =>
      have hread := decode_readoutStatus (read_ofFields (by decide) h (by decide))
      exact congrArg (fun s => Except.ok (Answer.readoutStatus s)) hread
    | _ => exact h.elim
  | commStatus commLinesMask totalDataRate chipDetected =>
    cases i with
    | commStatus =>
      have hread := decode_commStatus (read_ofFields (by decide) h (by decide))
      exact congrArg (fun s => Except.ok (Answer.commStatus s)) hread
    | _ => exact h.elim
  | chipId x y w =>
    cases i with
    | chipId =>
      have hread := decode_chipId (read_ofFields (by decide) h (by decide))
      exact congrArg (fun t => Except.ok (Answer.chipId t)) hread
    | _ => exact h.elim
  | float bits =>
    have hbits : (Except.ok (Answer.float bits.toUInt64.toUInt32) : Except ℤ Answer) =
        .ok (.float bits) := by rw [UInt32.toUInt32_toUInt64]
    cases i with
    | readoutTemperature | sensorTemperature | adcVoltage channelId => exact hbits
    | _ => exact h.elim
  | digitalTest outcome =>
    cases i with
    | digitalTest => simp only [Inquiry.decode, crd, result, UInt8.toUInt8_toUInt64]
    | _ => exact h.elim

end StatusReport

namespace Line

/-- What was not heard is never caught up with. -/
theorem late_le_ask (net : Network) (i : Inquiry) (l : Line) : l.late ≤ (l.ask net i).2.late := by
  by_cases hsend : net.sendResult l.sends = 0
  · cases hheard : heard net l.waits i.retries with
    | some w => rw [ask_heard hsend hheard]
    | none =>
      rw [ask_unheard hsend hheard]
      exact Nat.le_succ _
  · rw [ask_unsent hsend]

theorem late_le_askAll (net : Network) : ∀ (inquiries : List Inquiry) (l : Line),
    l.late ≤ (askAll net inquiries l).2.late
  | [], _ => le_rfl
  | i :: inquiries, l => (late_le_ask net i l).trans (late_le_askAll net inquiries _)

/-- Where everything is sent and heard, each inquiry gets its own report. -/
theorem askAll_reports : ∀ {inquiries : List Inquiry} {reports : List StatusReport} {l : Line},
    List.Forall₂ StatusReport.Suits inquiries reports → l.late = 0 →
    (askAll net inquiries l).2.late = 0 →
    (∀ j < inquiries.length, net.sendResult (l.sends + j) = 0) →
    (∀ n r, reports[n]? = some r → net.response (l.issued + n) = r.crd) →
    (askAll net inquiries l).1 = reports.map StatusReport.result
  | _, _, _, .nil, _, _, _, _ => rfl
  | i :: inquiries, r :: reports, l, .cons hr hreports, hl, hlate, hsend, hresponse => by
    have hsent : net.sendResult l.sends = 0 := hsend 0 (Nat.succ_pos _)
    have hfirst : net.response l.issued = r.crd := hresponse 0 r rfl
    cases hheard : heard net l.waits i.retries with
    | none =>
      have hle := late_le_askAll net inquiries (l.ask net i).2
      have hunheard : (l.ask net i).2.late = l.late + 1 := by rw [ask_unheard hsent hheard]
      have hlast : (askAll net inquiries (l.ask net i).2).2.late = 0 := hlate
      omega
    | some w =>
      have hnext : (l.ask net i).2 = ⟨l.sends + 1, w + 1, l.issued + 1, l.late⟩ := by
        rw [ask_heard hsent hheard]
      have hown : (l.ask net i).1 = r.result := by
        rw [ask_heard hsent hheard, hl, Nat.sub_zero, hfirst, StatusReport.decode_crd hr]
      have hrest : (askAll net inquiries (l.ask net i).2).1 = reports.map StatusReport.result := by
        refine askAll_reports hreports (by rw [hnext, hl]) hlate ?_ ?_
        · intro j hj
          rw [hnext, Nat.add_assoc, Nat.add_comm 1]
          exact hsend (j + 1) (Nat.succ_lt_succ hj)
        · intro n r' hr'
          rw [hnext, Nat.add_assoc, Nat.add_comm 1]
          exact hresponse (n + 1) r' hr'
      rw [askAll, hown, hrest, List.map_cons]

end Line

/-- **Reports.** Where every inquiry is sent and heard, each returns what the
device reported in its response. -/
theorem values_reported {net : Network} {inquiries : List Inquiry} {reports : List StatusReport}
    (hsuits : List.Forall₂ StatusReport.Suits inquiries reports)
    (hsend : ∀ j < inquiries.length, net.sendResult j = 0)
    (hheard : (Line.askAll net inquiries .start).2.late = 0)
    (hresponse : ∀ n r, reports[n]? = some r → net.response n = r.crd) :
    (Inquiry.askAll net inquiries .fresh).1 = reports.map StatusReport.result := by
  rw [(Line.Tells.askAll net inquiries Line.tells_start).1]
  refine Line.askAll_reports hsuits rfl hheard ?_ ?_
  · simpa only [Line.start, Nat.zero_add] using hsend
  · simpa only [Line.start, Nat.zero_add] using hresponse

/-- A device that makes these reports, the second one after two waits that run out. -/
def slowTest (reports : List StatusReport) : Network :=
  { promptChip with
    recvResult := fun j => if j = 1 ∨ j = 2 then eagain else 0
    response := fun n => (reports[n]?.map StatusReport.crd).getD 0 }

theorem values_reported_slowTest :
    let reports : List StatusReport :=
      [.chipId 9 2 54, .digitalTest 64, .readoutStatus 1 2 300 7, .commStatus 0xFF 200 1, .float 42]
    (Inquiry.askAll (slowTest reports)
      [.chipId, .digitalTest, .readoutStatus, .commStatus, .adcVoltage 3] .fresh).1 =
        reports.map StatusReport.result :=
  values_reported
    (.cons (show Fits _ _ by decide) (.cons trivial (.cons (show Fits _ _ by decide)
      (.cons (show Fits _ _ by decide) (.cons trivial .nil)))))
    (fun _ _ => rfl) (by decide) fun n r hr => by simp [slowTest, hr]

end Sprint3
