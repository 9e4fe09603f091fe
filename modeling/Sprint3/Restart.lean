/-
# Sockets and restarts

`main` calls `loop` until it returns true. A `loop` that cannot connect to the
device switches its power off and on and tries again, each time with twice the
pause up to 160 s; one whose acquisition ends with an exception does so once
more, for 10 s, and returns false.

The device is two sockets, which come and go with each attempt to connect and
with each `loop`, and whose creation can fail at every call. `Owned` says that
what is open is exactly the device's; it is kept whatever fails
(`sockets_owned`). The pauses follow from the outcomes (`power_cycles`).
-/
import Sprint3.AcquisitionBegin
import Sprint3.Connection
import Sprint3.Lib.Handles
import Sprint3.Lib.Run

namespace Sprint3
namespace Restart

open Handles Run Text

/-! ### `udp_nix.c` -/

/-- What the calls that a `katherine_udp_init` makes return: zero or `errno`, and whether the
remote address is one. -/
structure Answers where
  socket : ℤ
  bind : ℤ
  setsockopt : ℤ
  inetPton : Bool
  mutexInit : ℤ
  deriving DecidableEq, Repr

/-- The calls of `katherine_udp_init` so far, and the sockets, with the port if they are bound. -/
structure Kernel where
  inits : ℕ
  sockets : Table (Option UInt16)
  deriving DecidableEq, Repr

/-- `EADDRINUSE`. -/
def eaddrinuse : ℤ := 98

namespace Kernel

def fresh : Kernel := ⟨0, .empty⟩

def socket (k : Kernel) : Kernel := { k with sockets := k.sockets.acquire none }

def close (k : Kernel) (sock : ℕ) : Kernel := { k with sockets := k.sockets.release sock }

/-- A port can be bound once; the program is at fault if it holds the port itself. -/
def bind (k : Kernel) (sock : ℕ) (port : UInt16) (answer : ℤ) : ℤ × Kernel :=
  if k.sockets.live.any fun p => p.2 = some port then
    (eaddrinuse, { k with sockets := k.sockets.fault })
  else if answer ≠ 0 then (answer, k)
  else (0, { k with sockets := k.sockets.update sock (some port) })

end Kernel

section System

variable (sys : ℕ → Answers)

/-- The socket, or `errno`. The options and the mutex leave no trace here. -/
def katherineUdpInit (k : Kernel) (localPort : UInt16) (timeoutMs : UInt32) :
    Except ℤ ℕ × Kernel :=
  let a := sys k.inits
  let k := { k with inits := k.inits + 1 }
  if a.socket ≠ 0 then (.error a.socket, k)
  else
    let sock := k.sockets.created
    let (res, k) := k.socket.bind sock localPort a.bind
    if res ≠ 0 then (.error res, k.close sock)
    else if 0 < timeoutMs ∧ a.setsockopt ≠ 0 then (.error a.setsockopt, k.close sock)
    else if !a.inetPton then (.error einval, k.close sock)
    else if a.mutexInit ≠ 0 then (.error a.mutexInit, k.close sock)
    else (.ok sock, k)

def katherineUdpFini (k : Kernel) (sock : ℕ) : Kernel := k.close sock

/-! ### `device.c` -/

/-- `katherine_device_t`. -/
structure Device where
  controlSocket : ℕ
  dataSocket : ℕ
  deriving DecidableEq, Repr

def controlPort : UInt16 := 1555
def dataPort : UInt16 := 1556
def controlTimeout : UInt32 := 100
def dataTimeout : UInt32 := 100

def katherineDeviceInit (k : Kernel) : Except ℤ Device × Kernel :=
  match katherineUdpInit sys k controlPort controlTimeout with
  | (.error res, k) => (.error res, k)
  | (.ok controlSocket, k) =>
    match katherineUdpInit sys k dataPort dataTimeout with
    | (.error res, k) => (.error res, katherineUdpFini k controlSocket)
    | (.ok dataSocket, k) => (.ok ⟨controlSocket, dataSocket⟩, k)

def katherineDeviceFini (k : Kernel) (device : Device) : Kernel :=
  katherineUdpFini (katherineUdpFini k device.dataSocket) device.controlSocket

/-! ### `AcqController` -/

/-- The optional is emptied; its device's destructor closes the sockets. -/
def reset (k : Kernel) : Option Device → Kernel
  | none => k
  | some device => katherineDeviceFini k device

/-- `device.emplace`, up to `n` times: what was in the optional is destroyed first, and after an
exception of the constructor it is empty. -/
def emplaceLoop : ℕ → Kernel → Option Device → Option Device × Kernel
  | 0, k, device => (device, k)
  | n + 1, k, device =>
    match katherineDeviceInit sys (reset k device) with
    | (.ok device, k) => (some device, k)
    | (.error _, k) => emplaceLoop n k none

/-- What the attempts to create a device return. -/
def emplaceResults : ℕ → Kernel → Option Device → List ℤ
  | 0, _, _ => []
  | n + 1, k, device =>
    match katherineDeviceInit sys (reset k device) with
    | (.ok _, _) => [0]
    | (.error res, k) => res :: emplaceResults n k none

/-- `AcqController::connectDevice`; the device is tested as before. -/
def connectDevice (net : Network) (k : Kernel) (device : Option Device) :
    Bool × Option Device × Kernel :=
  match emplaceLoop sys cnxtAttempts k device with
  | (none, k) => (false, none, k)
  | (some device, k) => ((testLoop net cnxtAttempts (some .fresh)).1, some device, k)

end System

/-! ### `main.cpp` -/

/-- The command that `powerCycle` runs. -/
def powerCycle (seconds : ℕ) : Text :=
  ("./core/pwrcycle.sh 0 ".toList ++ decimal seconds).take 127

def powerCycleSecondsMin : ℕ := 10
def powerCycleSecondsMax : ℕ := 160

/-- Where `main` is; `connecting` with the `seconds` of the next pause. -/
inductive Stage
  | between
  | connecting (seconds : ℕ)
  | connected
  | exited
  deriving DecidableEq, Repr

structure Main where
  kernel : Kernel
  /-- Of the `AcqController`, if there is one. -/
  device : Option Device
  stage : Stage
  /-- The commands run so far. -/
  commands : List Text
  deriving DecidableEq, Repr

/-- What happens in a `loop`: both configurations are loaded or not, the device is connected
or not, and the acquisition is set up, begun and read with these results. -/
inductive MainStep
  | enter (calibLoads configLoads : Bool)
  | connect (net : Network)
  | acquire (init begin_ read : ℤ)

namespace Main

def start : Main := ⟨.fresh, none, .between, []⟩

/-- A command is run. -/
def ran (m : Main) (command : Text) : Main := { m with commands := m.commands ++ [command] }

/-- `loop` returns; the destructor of the `AcqController` destroys the device. -/
def leave (m : Main) (stage : Stage) : Main :=
  { m with kernel := reset m.kernel m.device, device := none, stage }

def step (sys : ℕ → Answers) (m : Main) : MainStep → Option Main
  | .enter calibLoads configLoads =>
    match m.stage with
    | .between =>
      some (if calibLoads && configLoads then { m with stage := .connecting powerCycleSecondsMin }
        else m.leave .exited)
    | _ => none
  | .connect net =>
    match m.stage with
    | .connecting seconds =>
      let (connected, device, kernel) := connectDevice sys net m.kernel m.device
      some (if connected then { m with kernel, device, stage := .connected }
        else { m.ran (powerCycle seconds) with
          kernel
          device
          stage := .connecting (if seconds < powerCycleSecondsMax then seconds * 2 else seconds) })
    | _ => none
  | .acquire init begin_ read =>
    match m.stage with
    | .connected =>
      some (if init = 0 ∧ begin_ = 0 ∧ read = 0 then m.leave .exited
        else (m.ran (powerCycle powerCycleSecondsMin)).leave .between)
    | _ => none

/-- What a step can do. -/
inductive Stepped (sys : ℕ → Answers) (m : Main) : MainStep → Main → Prop
  | enters (hstage : m.stage = .between) :
    Stepped sys m (.enter true true) { m with stage := .connecting powerCycleSecondsMin }
  | escapes {calibLoads configLoads : Bool} (hstage : m.stage = .between)
      (hload : (calibLoads && configLoads) = false) :
    Stepped sys m (.enter calibLoads configLoads) (m.leave .exited)
  | connects {net : Network} {seconds : ℕ} {device : Option Device} {kernel : Kernel}
      (hstage : m.stage = .connecting seconds)
      (hconnect : connectDevice sys net m.kernel m.device = (true, device, kernel)) :
    Stepped sys m (.connect net) { m with kernel, device, stage := .connected }
  | pauses {net : Network} {seconds : ℕ} {device : Option Device} {kernel : Kernel}
      (hstage : m.stage = .connecting seconds)
      (hconnect : connectDevice sys net m.kernel m.device = (false, device, kernel)) :
    Stepped sys m (.connect net) { m.ran (powerCycle seconds) with
      kernel
      device
      stage := .connecting (if seconds < powerCycleSecondsMax then seconds * 2 else seconds) }
  | completes (hstage : m.stage = .connected) : Stepped sys m (.acquire 0 0 0) (m.leave .exited)
  | restarts {init begin_ read : ℤ} (hstage : m.stage = .connected)
      (hfails : ¬(init = 0 ∧ begin_ = 0 ∧ read = 0)) :
    Stepped sys m (.acquire init begin_ read)
      ((m.ran (powerCycle powerCycleSecondsMin)).leave .between)

theorem step_stepped {sys : ℕ → Answers} {m m' : Main} {e : MainStep}
    (h : m.step sys e = some m') : m.Stepped sys e m' := by
  cases e with
  | enter calibLoads configLoads =>
    simp only [step] at h
    split at h
    · rename_i hstage
      obtain rfl := Option.some.inj h
      cases hload : calibLoads && configLoads with
      | true =>
        obtain ⟨rfl, rfl⟩ := Bool.and_eq_true_iff.mp hload
        exact .enters hstage
      | false => exact .escapes hstage hload
    · cases h
  | connect net =>
    simp only [step] at h
    split at h
    · rename_i seconds hstage
      obtain rfl := Option.some.inj h
      rcases hconnect : connectDevice sys net m.kernel m.device with ⟨_ | _, device, kernel⟩
      · exact .pauses hstage hconnect
      · exact .connects hstage hconnect
    · cases h
  | acquire init begin_ read =>
    simp only [step] at h
    split at h
    · rename_i hstage
      obtain rfl := Option.some.inj h
      by_cases hgood : init = 0 ∧ begin_ = 0 ∧ read = 0
      · rw [if_pos hgood]
        obtain ⟨rfl, rfl, rfl⟩ := hgood
        exact .completes hstage
      · rw [if_neg hgood]
        exact .restarts hstage hgood
    · cases h

end Main

/-! ### Whose sockets are open -/

/-- The sockets of a device: the control socket and the data socket. -/
def owned : Option Device → List (ℕ × Option UInt16)
  | none => []
  | some device => [(device.controlSocket, some controlPort), (device.dataSocket, some dataPort)]

/-- What is open is exactly the device's, and no call was at fault. -/
def Owned (k : Kernel) (device : Option Device) : Prop := k.sockets.Holds (owned device)

variable (sys : ℕ → Answers) {k : Kernel} {sockets : List (ℕ × Option UInt16)}

/-- A port that is not held is bound, or the socket stays as it is. -/
theorem bind_spec {sock : ℕ} (h : k.sockets.Holds (sockets ++ [(sock, none)])) {port : UInt16}
    (hport : ∀ p ∈ sockets, p.2 ≠ some port) (answer : ℤ) :
    (∃ k', k.bind sock port answer = (0, k') ∧
      k'.sockets.Holds (sockets ++ [(sock, some port)])) ∨
    ∃ res, res ≠ 0 ∧ k.bind sock port answer = (res, k) := by
  have hfree : ¬(k.sockets.live.any fun p => p.2 = some port) = true := by
    rw [h.live, List.any_eq_true]
    rintro ⟨p, hp, heq⟩
    rcases List.mem_append.mp hp with hp | hp
    · exact hport p hp (of_decide_eq_true heq)
    · obtain rfl := List.mem_singleton.mp hp
      cases of_decide_eq_true heq
  rw [Kernel.bind, if_neg hfree]
  by_cases hanswer : answer = 0
  · rw [if_neg (not_not.mpr hanswer)]
    exact .inl ⟨_, rfl, h.update (some port)⟩
  · rw [if_pos hanswer]
    exact .inr ⟨answer, hanswer, rfl⟩

theorem close_spec {sock : ℕ} {port : Option UInt16}
    (h : k.sockets.Holds (sockets ++ [(sock, port)])) : (k.close sock).sockets.Holds sockets := by
  have hreleased := Table.Holds.release sockets h
  rwa [List.append_nil] at hreleased

/-- **A session is open or leaves nothing open.** -/
theorem udpInit_spec (h : k.sockets.Holds sockets) (port : UInt16)
    (hport : ∀ p ∈ sockets, p.2 ≠ some port) (timeoutMs : UInt32) :
    (∃ sock k', katherineUdpInit sys k port timeoutMs = (.ok sock, k') ∧
      k'.sockets.Holds (sockets ++ [(sock, some port)])) ∨
    ∃ res k', res ≠ 0 ∧ katherineUdpInit sys k port timeoutMs = (.error res, k') ∧
      k'.sockets.Holds sockets := by
  unfold katherineUdpInit
  simp only []
  by_cases hsocket : (sys k.inits).socket ≠ 0
  · rw [if_pos hsocket]
    exact .inr ⟨_, _, hsocket, rfl, h⟩
  · rw [if_neg hsocket]
    have hopen : (Kernel.socket { k with inits := k.inits + 1 }).sockets.Holds
        (sockets ++ [(k.sockets.created, none)]) := h.acquire none
    rcases bind_spec hopen hport (sys k.inits).bind with ⟨k', hbind, hbound⟩ | ⟨res, hres, hbind⟩
    · have hclosed := close_spec hbound
      rw [hbind]
      simp only [ne_eq, not_true_eq_false, if_false]
      split
      · rename_i hfails
        exact .inr ⟨_, _, hfails.2, rfl, hclosed⟩
      · split
        · exact .inr ⟨einval, _, by decide, rfl, hclosed⟩
        · split
          · rename_i hfails
            exact .inr ⟨_, _, hfails, rfl, hclosed⟩
          · exact .inl ⟨_, _, rfl, hbound⟩
    · rw [hbind]
      simp only [hres, ne_eq, not_false_eq_true, if_true]
      exact .inr ⟨_, _, hres, rfl, close_spec hopen⟩

theorem deviceInit_spec (h : Owned k none) :
    (∃ device k', katherineDeviceInit sys k = (.ok device, k') ∧ Owned k' (some device)) ∨
    ∃ res k', res ≠ 0 ∧ katherineDeviceInit sys k = (.error res, k') ∧ Owned k' none := by
  unfold katherineDeviceInit
  rcases udpInit_spec sys h controlPort (by simp [owned]) controlTimeout with
    ⟨control, k₁, hcontrol, h₁⟩ | ⟨res, k₁, hres, hcontrol, h₁⟩
  · have hport : ∀ p ∈ owned none ++ [(control, some controlPort)], p.2 ≠ some dataPort := by
      simp [owned, controlPort, dataPort]
    rw [hcontrol]
    rcases udpInit_spec sys h₁ dataPort hport dataTimeout with
      ⟨data, k₂, hdata, h₂⟩ | ⟨res, k₂, hres, hdata, h₂⟩
    · exact .inl ⟨⟨control, data⟩, k₂, by simp only [hdata], h₂⟩
    · exact .inr ⟨res, _, hres, by simp only [hdata, katherineUdpFini], close_spec h₂⟩
  · exact .inr ⟨res, k₁, hres, by rw [hcontrol], h₁⟩

theorem owned_reset : ∀ {device : Option Device}, Owned k device → Owned (reset k device) none
  | none, h => h
  | some _, h =>
    have hdata := Table.Holds.release [_] h
    Table.Holds.release [] hdata

theorem owned_emplaceLoop : ∀ (n : ℕ) {k : Kernel} {device : Option Device}, Owned k device →
    Owned (emplaceLoop sys n k device).2 (emplaceLoop sys n k device).1
  | 0, _, _, h => h
  | n + 1, k, device, h => by
    rw [emplaceLoop]
    rcases deviceInit_spec sys (owned_reset h) with
      ⟨device', k', hinit, h'⟩ | ⟨res, k', -, hinit, h'⟩
    · rw [hinit]
      exact h'
    · rw [hinit]
      exact owned_emplaceLoop n h'

theorem owned_connectDevice (net : Network) {device : Option Device} (h : Owned k device) :
    Owned (connectDevice sys net k device).2.2 (connectDevice sys net k device).2.1 := by
  have hloop := owned_emplaceLoop sys cnxtAttempts h
  unfold connectDevice
  split
  · rename_i hnone
    rwa [hnone] at hloop
  · rename_i device' k' hsome
    rwa [hsome] at hloop

/-- The attempts to create the device, as `Connection` has them: whether there is one follows
from what they return. -/
theorem emplaceLoop_refines (net : Network) : ∀ (n i : ℕ) {k : Kernel}, Owned k none →
    (∀ j r, (emplaceResults sys n k none)[j]? = some r → net.initResult (i + j) = r) →
    Sprint3.emplaceLoop net n i = (emplaceLoop sys n k none).1.map fun _ => .fresh
  | 0, _, _, _, _ => rfl
  | n + 1, i, k, h, hresults => by
    rw [Sprint3.emplaceLoop, emplaceLoop]
    rw [emplaceResults] at hresults
    rcases deviceInit_spec sys (owned_reset h) with
      ⟨device', k', hinit, h'⟩ | ⟨res, k', hres, hinit, h'⟩
    · rw [hinit] at hresults ⊢
      have hfirst : net.initResult i = 0 := hresults 0 0 rfl
      rw [if_pos hfirst]
      rfl
    · rw [hinit] at hresults ⊢
      have hfirst : net.initResult i = res := hresults 0 res rfl
      rw [if_neg (by rw [hfirst]; exact hres)]
      apply emplaceLoop_refines net n (i + 1) h'
      intro j r hj
      rw [Nat.add_assoc, Nat.add_comm 1 j]
      exact hresults (j + 1) r hj

/-- **The connection.** `connectDevice` returns what it returns in `Connection`, and leaves a
device or none as it does there. -/
theorem connectDevice_refines {net : Network} {device : Option Device} (h : Owned k device)
    (hresults : ∀ j r, (emplaceResults sys cnxtAttempts k device)[j]? = some r →
      net.initResult j = r) :
    (connectDevice sys net k device).1 = (Sprint3.connectDevice net).1 ∧
    (connectDevice sys net k device).2.1.isSome = (Sprint3.connectDevice net).2.isSome := by
  have hfirst : emplaceLoop sys cnxtAttempts k device =
      emplaceLoop sys cnxtAttempts (reset k device) none := rfl
  have hloop := emplaceLoop_refines sys net cnxtAttempts 0 (owned_reset h)
    fun j r hj => by rw [Nat.zero_add]; exact hresults j r hj
  obtain ⟨b, s, htest, -⟩ := @testLoop_late net cnxtAttempts .fresh late_fresh
  rw [connectDevice, Sprint3.connectDevice, hfirst, hloop]
  rcases emplaceLoop sys cnxtAttempts (reset k device) none with ⟨_ | device', k'⟩
  · exact ⟨rfl, rfl⟩
  · simp only [Option.map_some, htest, Option.isSome_some, and_self]

/-- Between two loops, and after the last, there is no device; with one connected, there is. -/
structure Main.Ok (m : Main) : Prop where
  owned : Owned m.kernel m.device
  noDevice : m.stage = .between ∨ m.stage = .exited → m.device = none
  connected : m.stage = .connected → m.device.isSome = true

theorem emplaced_of_connected {sys : ℕ → Answers} {net : Network} {device : Option Device}
    (h : (connectDevice sys net k device).1 = true) :
    (connectDevice sys net k device).2.1.isSome = true := by
  unfold connectDevice at h ⊢
  split at h
  · cases h
  · rfl

theorem Main.Ok.leave {m : Main} (h : m.Ok) {stage : Stage} (hstage : stage ≠ .connected) :
    (m.leave stage).Ok where
  owned := owned_reset h.owned
  noDevice := fun _ => rfl
  connected := fun heq => absurd heq hstage

/-- What one step keeps. -/
theorem Main.Ok.step {m m' : Main} {e : MainStep} (h : m.Ok) (hstep : m.Stepped sys e m') :
    m'.Ok := by
  cases hstep with
  | enters hstage => exact ⟨h.owned, by simp, by simp⟩
  | escapes hstage hload => exact h.leave (by simp)
  | @connects net _ _ _ hstage hconnect =>
    have howned := owned_connectDevice sys net h.owned
    have hdevice := emplaced_of_connected (congrArg Prod.fst hconnect)
    rw [hconnect] at howned hdevice
    exact ⟨howned, by simp, fun _ => hdevice⟩
  | @pauses net _ _ _ hstage hconnect =>
    have howned := owned_connectDevice sys net h.owned
    rw [hconnect] at howned
    exact ⟨howned, by simp, by simp⟩
  | completes hstage => exact h.leave (by simp)
  | restarts hstage hfails =>
    have hcommands : (m.ran (powerCycle powerCycleSecondsMin)).Ok :=
      ⟨h.owned, h.noDevice, h.connected⟩
    exact hcommands.leave (by simp)

/-- **No socket is left behind.** Whatever calls of the system fail, in every
run of the program the open sockets are the two of the device, bound to the two
ports, or there is no device and none is open, as between two loops and after
the last. No socket is closed twice, and the program never stands in its own
way on a port. -/
theorem sockets_owned {es : List MainStep} {m : Main}
    (hrun : run (Main.step sys) .start es = some m) :
    m.kernel.sockets.live = owned m.device ∧ m.kernel.sockets.faults = 0 ∧
    (m.stage = .between ∨ m.stage = .exited → m.kernel.sockets.live = []) ∧
    (m.stage = .connected → ∃ device, m.device = some device ∧
      m.kernel.sockets.live =
        [(device.controlSocket, some controlPort), (device.dataSocket, some dataPort)]) := by
  have hok : m.Ok := by
    refine run_invariant hrun (fun _ m => m.Ok) ?_ fun _ _ _ _ _ h hstep =>
      h.step sys (Main.step_stepped hstep)
    exact ⟨Table.holds_empty, fun _ => rfl, by simp [Main.start]⟩
  have hlive : m.kernel.sockets.live = owned m.device := hok.owned.live
  refine ⟨hlive, hok.owned.faults, ?_, ?_⟩
  · intro hstage
    rw [hlive, hok.noDevice hstage]
    rfl
  · intro hstage
    obtain ⟨device, hdevice⟩ := Option.isSome_iff_exists.mp (hok.connected hstage)
    refine ⟨device, hdevice, ?_⟩
    rw [hlive, hdevice]
    rfl

/-- Another program holds the data port until the first attempt is over. -/
def busyPort : ℕ → Answers := fun i => ⟨0, if i = 1 then eaddrinuse else 0, 0, true, 0⟩

/-- The device, and the two sockets of the second attempt. -/
theorem sockets_owned_busyPort :
    ∃ m, run (Main.step busyPort) .start [.enter true true, .connect promptChip] = some m ∧
      m.kernel.inits = 4 ∧ ∃ device, m.device = some device ∧ m.kernel.sockets.live =
        [(device.controlSocket, some controlPort), (device.dataSocket, some dataPort)] := by
  have hrun : run (Main.step busyPort) .start [.enter true true, .connect promptChip] =
      some ⟨⟨4, 4, [(2, some 1555), (3, some 1556)], 0⟩, some ⟨2, 3⟩, .connected, []⟩ := by
    decide +kernel
  exact ⟨_, hrun, rfl, (sockets_owned busyPort hrun).2.2.2 rfl⟩

/-! ### The pauses -/

/-- The pause after the failure number `k` of a loop, counted from zero. -/
def backoff (k : ℕ) : ℕ := min (powerCycleSecondsMin * 2 ^ k) powerCycleSecondsMax

/-- What a step means for the power. -/
inductive Outcome
  | unconnected
  | failed
  | smooth
  deriving DecidableEq, Repr

/-- The outcome of a step: a `connect` fails if `connectDevice` returns false, an `acquire` if the
set-up, the begin or the read throws. -/
def Main.outcome (m : Main) : MainStep → Outcome
  | .enter _ _ => .smooth
  | .connect net => if (connectDevice sys net m.kernel m.device).1 then .smooth else .unconnected
  | .acquire init begin_ read => if init = 0 ∧ begin_ = 0 ∧ read = 0 then .smooth else .failed

/-- The pauses of a program whose present loop has failed to connect `misses` times so far. -/
def pauses (misses : ℕ) : List Outcome → List ℕ
  | [] => []
  | .unconnected :: rest => backoff misses :: pauses (misses + 1) rest
  | .failed :: rest => powerCycleSecondsMin :: pauses 0 rest
  | .smooth :: rest => pauses misses rest

/-- How often the loop that is then present has failed to connect. -/
def missesAfter (misses : ℕ) : List Outcome → ℕ
  | [] => misses
  | .unconnected :: rest => missesAfter (misses + 1) rest
  | .failed :: rest => missesAfter 0 rest
  | .smooth :: rest => missesAfter misses rest

theorem backoff_succ (k : ℕ) : backoff (k + 1) =
    if backoff k < powerCycleSecondsMax then backoff k * 2 else backoff k := by
  by_cases hk : k < 4
  · obtain rfl | rfl | rfl | rfl : k = 0 ∨ k = 1 ∨ k = 2 ∨ k = 3 := by omega
    all_goals rfl
  · have hpow : 2 ^ 4 ≤ 2 ^ k := Nat.pow_le_pow_right (by decide) (not_lt.mp hk)
    have hmax : ∀ j, k ≤ j → backoff j = powerCycleSecondsMax := by
      intro j hj
      have hle : 2 ^ k ≤ 2 ^ j := Nat.pow_le_pow_right (by decide) hj
      apply Nat.min_eq_right
      simp only [powerCycleSecondsMin, powerCycleSecondsMax]
      omega
    rw [hmax k le_rfl, hmax (k + 1) (Nat.le_succ k), if_neg (lt_irrefl _)]

theorem pauses_append : ∀ (before after : List Outcome) (misses : ℕ),
    pauses misses (before ++ after) =
      pauses misses before ++ pauses (missesAfter misses before) after
  | [], _, _ => rfl
  | .unconnected :: before, after, misses =>
    congrArg (_ :: ·) (pauses_append before after (misses + 1))
  | .failed :: before, after, _ => congrArg (_ :: ·) (pauses_append before after 0)
  | .smooth :: before, after, misses => pauses_append before after misses

theorem missesAfter_append : ∀ (before after : List Outcome) (misses : ℕ),
    missesAfter misses (before ++ after) = missesAfter (missesAfter misses before) after
  | [], _, _ => rfl
  | .unconnected :: before, after, misses => missesAfter_append before after (misses + 1)
  | .failed :: before, after, _ => missesAfter_append before after 0
  | .smooth :: before, after, misses => missesAfter_append before after misses

/-- The program has paused as these outcomes want it, and goes on with the next pause of the
present loop. -/
structure Main.Paused (outcomes : List Outcome) (m : Main) : Prop where
  commands : m.commands = (pauses 0 outcomes).map powerCycle
  between : m.stage = .between → missesAfter 0 outcomes = 0
  connecting : ∀ seconds, m.stage = .connecting seconds → seconds = backoff (missesAfter 0 outcomes)

theorem Main.Paused.step {outcomes : List Outcome} {m m' : Main} {e : MainStep}
    (h : m.Paused outcomes) (hstep : m.Stepped sys e m') :
    m'.Paused (outcomes ++ [m.outcome sys e]) := by
  -- a step that shows no failure leaves the commands and the count as they are
  have hsmooth : m.outcome sys e = .smooth → m'.commands = m.commands →
      (m'.stage = .between → missesAfter 0 outcomes = 0) →
      (∀ seconds, m'.stage = .connecting seconds → seconds = backoff (missesAfter 0 outcomes)) →
      m'.Paused (outcomes ++ [m.outcome sys e]) := by
    intro houtcome hcommands hbetween hconnecting
    have hmisses : missesAfter 0 (outcomes ++ [.smooth]) = missesAfter 0 outcomes :=
      missesAfter_append outcomes _ 0
    rw [houtcome]
    refine ⟨?_, ?_, ?_⟩
    · rw [hcommands, h.commands, pauses_append]
      exact congrArg (List.map powerCycle) (List.append_nil _).symm
    · rwa [hmisses]
    · rwa [hmisses]
  cases hstep with
  | enters hstage =>
    refine hsmooth rfl rfl (by simp) ?_
    rintro seconds ⟨rfl⟩
    rw [h.between hstage]
    rfl
  | escapes hstage hload => exact hsmooth rfl rfl (by simp [leave]) (by simp [leave])
  | @connects net seconds device kernel hstage hconnect =>
    refine hsmooth ?_ rfl (by simp) (by simp)
    rw [outcome, hconnect]
    rfl
  | @pauses net seconds device kernel hstage hconnect =>
    obtain rfl := h.connecting seconds hstage
    have houtcome : m.outcome sys (.connect net) = .unconnected := by
      rw [outcome, hconnect]
      rfl
    have hmisses : missesAfter 0 (outcomes ++ [.unconnected]) = missesAfter 0 outcomes + 1 :=
      missesAfter_append outcomes _ 0
    rw [houtcome]
    refine ⟨?_, by simp, ?_⟩
    · change m.commands ++ [powerCycle (backoff (missesAfter 0 outcomes))] = _
      rw [pauses_append, List.map_append, h.commands]
      rfl
    · rintro seconds ⟨rfl⟩
      rw [hmisses, backoff_succ]
  | completes hstage => exact hsmooth rfl rfl (by simp [leave]) (by simp [leave])
  | @restarts init begin_ read hstage hfails =>
    have houtcome : m.outcome sys (.acquire init begin_ read) = .failed := if_neg hfails
    rw [houtcome]
    refine ⟨?_, fun _ => missesAfter_append outcomes _ 0, by simp [leave]⟩
    change m.commands ++ [powerCycle powerCycleSecondsMin] = _
    rw [pauses_append, List.map_append, h.commands]
    rfl

/-- **The pauses.** In every run of the program the power was switched off and
on for just these times: in each loop for 10 s after the first connection that
failed, then twice as long after each that did, up to 160 s, and for 10 s after
its acquisition failed. The program ends only after a loop that could not load a
configuration, or whose acquisition was set up, begun and read without error. -/
theorem power_cycles {es : List MainStep} {m : Main}
    (hrun : run (Main.step sys) .start es = some m) :
    let outcomes := seen (Main.step sys) (Main.outcome sys) .start es
    (m.commands = (pauses 0 outcomes).map powerCycle ∧
      ∀ seconds, m.stage = .connecting seconds → seconds = backoff (missesAfter 0 outcomes)) ∧
    (m.stage = .exited → ∃ es' e, es = es' ++ [e] ∧
      ((∃ calibLoads configLoads, e = .enter calibLoads configLoads ∧
        (calibLoads && configLoads) = false) ∨ e = .acquire 0 0 0)) := by
  intro outcomes
  constructor
  · have hpaused : m.Paused outcomes := by
      refine run_invariant hrun
        (fun es m => m.Paused (seen (Main.step sys) (Main.outcome sys) .start es)) ?_ ?_
      · exact ⟨rfl, fun _ => rfl, by simp [Main.start]⟩
      · intro es m e m' hm h hstep
        rw [seen_concat (Main.outcome sys) e hm]
        exact h.step sys (Main.step_stepped hstep)
    exact ⟨hpaused.commands, hpaused.connecting⟩
  · intro hexited
    cases es using List.reverseRecOn with
    | nil =>
      obtain rfl := Option.some.inj hrun
      cases hexited
    | append_singleton es e =>
      obtain ⟨m₀, -, hstep⟩ := run_concat.mp hrun
      refine ⟨es, e, rfl, ?_⟩
      cases Main.step_stepped hstep with
      | escapes hstage hload => exact .inl ⟨_, _, rfl, hload⟩
      | completes hstage => exact .inr rfl
      | enters | connects | pauses | restarts => cases hexited

/-- The device is there after three pauses. -/
def lateDevice : ℕ → Answers := fun i => ⟨0, if i < 15 then eaddrinuse else 0, 0, true, 0⟩

theorem power_cycles_lateDevice :
    ∃ m, run (Main.step lateDevice) .start [.enter true true, .connect promptChip,
        .connect promptChip, .connect promptChip, .connect promptChip, .acquire 0 0 11] = some m ∧
      m.commands = [10, 20, 40, 10].map powerCycle := by
  have hrun : run (Main.step lateDevice) .start [.enter true true, .connect promptChip,
        .connect promptChip, .connect promptChip, .connect promptChip, .acquire 0 0 11] =
      some ⟨⟨17, 17, [], 0⟩, none, .between, [10, 20, 40, 10].map powerCycle⟩ := by
    decide +kernel
  have houtcomes : seen (Main.step lateDevice) (Main.outcome lateDevice) .start
      [.enter true true, .connect promptChip, .connect promptChip, .connect promptChip,
        .connect promptChip, .acquire 0 0 11] =
      [.smooth, .unconnected, .unconnected, .unconnected, .smooth, .failed] := by
    decide +kernel
  have hcommands := (power_cycles lateDevice hrun).1.1
  rw [houtcomes] at hcommands
  exact ⟨_, hrun, hcommands⟩

end Restart
end Sprint3
