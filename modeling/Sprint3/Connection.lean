/-
# The connection to the device

`AcqController::connectDevice` creates the sockets and asks for the chip id,
up to five times on the same socket, until the answer is the right one. An
attempt whose wait runs out leaves its response to come: `testLoop_late` counts
them. `katherine_configure` then takes, for each of its commands, the response
to the command as many before it, and still returns zero. What it takes are
its own acknowledgements exactly if no wait for a chip id ran out
(`configure_acknowledged`).
-/
import Sprint3.Configure
import Sprint3.Lib.Text

namespace Sprint3

open Exchange Hoare Memory Text

/-! ### `status.c` -/

/-- The chip id in a response, written out. -/
def chipIdText (crd : UInt64) : Text :=
  let chipId := crd.toUInt32
  let x : ℤ := (chipId &&& 0xF).toNat - 1
  let y := ((chipId >>> 4) &&& 0xF).toNat
  let w := ((chipId >>> 8) &&& 0xFFF).toNat
  Char.ofNat (65 + x).toNat :: decimal y ++ "-W000".toList ++ decimal w

def katherineGetChipId (net : Network) : Io Text := do
  katherineCmdEchoChipId net
  let crd ← katherineCmdWaitAckCrd net
  pure (chipIdText crd)

/-! ### `AcqController` -/

/-- `loadConfig`, for the pixel configuration read from the file. The nanoseconds of the time are
a whole number, and so are its ticks. -/
def loadConfig (acqTimeSec : ℕ) (pxConfig : ℕ → UInt8) : Config where
  biasId := 0
  acqt := .ofNat (acqTimeSec * 10 ^ 9 / 10)
  noFrames := 1
  bias := 0
  delayedStart := false
  startTrigger := ⟨false, 0, false⟩
  stopTrigger := ⟨false, 0, false⟩
  grayDisable := false
  polarityHoles := true
  phase := .phase1
  freq := .freq40
  dacs := ofList [32, 8, 128, 15, 164, 378, 7, 32, 8, 32, 8, 60, 128, 128, 0, 0, 128, 128]
  pixelConfig := pxConfig

/-- `CHIP_ID`. -/
def chipIdExpected : Text := "J2-W00054".toList

/-- `CNXT_ATTEMPTS`. -/
def cnxtAttempts : ℕ := 5

section Connect

variable (net : Network)

/-- The device, if there is one, is asked for its chip id; the exception of a failed call is
logged. -/
def testConnection : Option ControlSocket → Bool × Option ControlSocket
  | none => (false, none)
  | some s =>
    match katherineGetChipId net s with
    | .ok id s' => (id = chipIdExpected, some s')
    | .error _ s' => (false, some s')

/-- `device.emplace`, up to `n` times, the first one being the `i`-th. -/
def emplaceLoop : ℕ → ℕ → Option ControlSocket
  | 0, _ => none
  | n + 1, i => if net.initResult i = 0 then some .fresh else emplaceLoop n (i + 1)

/-- `testConnection`, up to `n` times. -/
def testLoop : ℕ → Option ControlSocket → Bool × Option ControlSocket
  | 0, device => (false, device)
  | n + 1, device =>
    match testConnection net device with
    | (true, device) => (true, device)
    | (false, device) => testLoop n device

/-- Whether the device is connected, and the device. -/
def connectDevice : Bool × Option ControlSocket :=
  match emplaceLoop net cnxtAttempts 0 with
  | none => (false, none)
  | some s => testLoop net cnxtAttempts (some s)

end Connect

/-! ### Responses that are late -/

/-- The waits that failed among the first `n`. -/
def failedWaits (net : Network) (n : ℕ) : ℕ :=
  (List.range n).countP fun j => net.recvResult j ≠ 0

theorem failedWaits_succ (net : Network) (n : ℕ) :
    failedWaits net (n + 1) = failedWaits net n + if net.recvResult n ≠ 0 then 1 else 0 := by
  simp [failedWaits, List.range_succ, List.countP_append]

theorem failedWaits_eq_zero {net : Network} {n : ℕ} :
    failedWaits net n = 0 ↔ ∀ j < n, net.recvResult j = 0 := by
  simp [failedWaits, List.countP_eq_zero]

/-- Each wait that failed has left its response to come. -/
structure Late (net : Network) (s : ControlSocket) : Prop where
  uploading : s.uploading = 0
  behind : s.link.Behind (failedWaits net s.waits)

/-- The command for the chip id was sent and not yet waited for. -/
structure Asked (net : Network) (s : ControlSocket) : Prop where
  uploading : s.uploading = 0
  behind : s.link.Behind (failedWaits net s.waits + 1)

variable {net : Network}

theorem late_fresh : Late net .fresh := ⟨rfl, Channel.behind_empty⟩

theorem triple_echoChipId :
    Triple (Late net) (katherineCmdEchoChipId net) (Asked net) (Late net) := by
  refine triple_cmd (fun s hs => ?_) fun s hs _ => ⟨hs.uploading, hs.behind⟩
  rw [ControlSocket.deliver_cmd hs.uploading (by decide)]
  exact ⟨hs.uploading, hs.behind.issue⟩

/-- The wait takes the oldest response or adds one to those that are late. -/
theorem triple_waitChipId :
    Triple (Asked net) (katherineCmdWaitAckCrd net) (Late net) (Late net) := by
  refine triple_waitAckCrd (fun s hs hrecv => ?_) fun s hs hrecv => ⟨hs.uploading, ?_⟩
  · obtain ⟨link, htake, hbehind, -, -⟩ := hs.behind.take
    refine ⟨_, link, htake, hs.uploading, ?_⟩
    rwa [failedWaits_succ, if_neg (not_not.mpr hrecv)]
  · rw [failedWaits_succ, if_pos hrecv]
    exact hs.behind

theorem triple_getChipId :
    Triple (Late net) (katherineGetChipId net) (Late net) (Late net) :=
  triple_echoChipId.bind fun _ => triple_waitChipId.bind fun _ _ hs => hs

/-- An attempt, whatever comes of it. -/
theorem testConnection_late {s : ControlSocket} (hs : Late net s) :
    ∃ b s', testConnection net (some s) = (b, some s') ∧ Late net s' := by
  have hpost := triple_getChipId s hs
  cases hid : katherineGetChipId net s with
  | ok id s' =>
    rw [hid] at hpost
    exact ⟨id = chipIdExpected, s', by simp only [testConnection, hid], hpost⟩
  | error e s' =>
    rw [hid] at hpost
    exact ⟨false, s', by simp only [testConnection, hid], hpost⟩

/-- Any number of attempts. -/
theorem testLoop_late (n : ℕ) {s : ControlSocket} (hs : Late net s) :
    ∃ b s', testLoop net n (some s) = (b, some s') ∧ Late net s' := by
  induction n generalizing s with
  | zero => exact ⟨false, s, rfl, hs⟩
  | succ n ih =>
    obtain ⟨b, s', htest, hs'⟩ := testConnection_late hs
    unfold testLoop
    rw [htest]
    cases b with
    | true => exact ⟨true, s', rfl, hs'⟩
    | false => exact ih hs'

theorem emplaceLoop_fresh : ∀ {n i : ℕ} {s : ControlSocket},
    emplaceLoop net n i = some s → s = .fresh
  | 0, _, _, h => by cases h
  | n + 1, i, s, h => by
    unfold emplaceLoop at h
    by_cases hinit : net.initResult i = 0
    · rw [if_pos hinit] at h
      exact (Option.some.inj h).symm
    · rw [if_neg hinit] at h
      exact emplaceLoop_fresh h

theorem connectDevice_late {b : Bool} {s : ControlSocket}
    (h : connectDevice net = (b, some s)) : Late net s := by
  unfold connectDevice at h
  cases hemplace : emplaceLoop net cnxtAttempts 0 with
  | none =>
    rw [hemplace] at h
    cases h
  | some s₀ =>
    rw [hemplace] at h
    obtain rfl := emplaceLoop_fresh hemplace
    obtain ⟨b', s', htest, hs'⟩ := testLoop_late cnxtAttempts late_fresh
    obtain ⟨-, hs⟩ := Prod.mk.inj (htest.symm.trans h)
    exact Option.some.inj hs ▸ hs'

/-! ### The acknowledgements of a configuration -/

theorem Late.ready {s : ControlSocket} (hs : Late net s) :
    Ready s.waits (failedWaits net s.waits) 0 s.link s :=
  ⟨le_rfl, hs.uploading, .refl hs.behind⟩

/-- Where no call fails after the connection, the configuration succeeds. -/
theorem configure_returns {s : ControlSocket} (hs : Late net s) (hnet : ¬net.Fails s.waits)
    (config : Config) : ∃ s', katherineConfigure net config s = .ok ⟨⟩ s' := by
  obtain ⟨⟨⟩, s', hs'⟩ := (triple_configure config).returns hs.ready fun _ => hnet
  exact ⟨s', hs'⟩

/-- What a successful configuration has taken is as many responses late as waits failed before. -/
theorem configure_exchanged {s s' : ControlSocket} (hs : Late net s) {config : Config}
    (h : katherineConfigure net config s = .ok ⟨⟩ s') :
    Exchanged (failedWaits net s.waits) 32 s.link s'.link := by
  have hready := (triple_configure config).post hs.ready h
  exact hready.exchanged

/-- **A configuration that succeeds was acknowledged command by command** exactly if no wait for
the chip id had run out before. -/
theorem configure_acknowledged {config : Config} {s s' : ControlSocket}
    (hconnect : connectDevice net = (true, some s))
    (hconfigure : katherineConfigure net config s = .ok ⟨⟩ s') :
    s.link.Acknowledged s'.link ↔ ∀ j < s.waits, net.recvResult j = 0 := by
  have hlate := connectDevice_late hconnect
  rw [(configure_exchanged hlate hconfigure).acknowledged_iff hlate.behind, failedWaits_eq_zero]

/-! ### A chip id that comes late -/

/-- The command for the chip id. -/
def echoChipId : List UInt8 := [0, 0, 0, 0, 0, 0, 0x0B, 0]

/-- A chip that answers each command with its id, in time. -/
def promptChip : Network where
  initResult _ := 0
  lockResult _ := 0
  sendResult _ := 0
  recvResult _ := 0
  response _ := 0x362A

theorem configure_acknowledged_prompt :
    ∃ s s', connectDevice promptChip = (true, some s) ∧
      katherineConfigure promptChip (loadConfig 10 fun _ => 0) s = .ok ⟨⟩ s' ∧
        s.link.Acknowledged s'.link := by
  have hconnect : connectDevice promptChip =
      (true, some ⟨0, 1, 1, [echoChipId], 0, ⟨1, [], [(0, 0)]⟩⟩) := by decide
  obtain ⟨s', hs'⟩ := configure_returns (connectDevice_late hconnect)
    (by simp [Network.Fails, promptChip]) (loadConfig 10 fun _ => 0)
  exact ⟨_, s', hconnect, hs', (configure_acknowledged hconnect hs').mpr fun _ _ => rfl⟩

/-- The same chip, too late for the first wait. -/
def slowChip : Network :=
  { promptChip with recvResult := fun j => if j = 0 then eagain else 0 }

/-- The first command of the configuration takes the response to the second attempt. -/
theorem configure_behind : ¬∀ (net : Network) (config : Config) (s s' : ControlSocket),
    connectDevice net = (true, some s) → katherineConfigure net config s = .ok ⟨⟩ s' →
      s.link.Acknowledged s'.link := by
  intro h
  have hconnect : connectDevice slowChip =
      (true, some ⟨0, 2, 2, [echoChipId, echoChipId], 0, ⟨2, [1], [(1, 0)]⟩⟩) := by decide
  have hlate := connectDevice_late hconnect
  have hnet : ¬slowChip.Fails 2 := by simp [Network.Fails, slowChip, promptChip]
  obtain ⟨s', hs'⟩ := configure_returns hlate hnet (loadConfig 10 fun _ => 0)
  have hzero := ((configure_exchanged hlate hs').acknowledged_iff hlate.behind).mp
    (h _ _ _ _ hconnect hs')
  exact absurd hzero (by decide)

end Sprint3
