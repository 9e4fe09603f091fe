/-
# The datagram socket

`udp_nix.c` over `sendto` and `recvfrom`. Both loops count bytes, and a
datagram carries them only whole: what a `recvfrom` has no room for is lost.
So a call that receives ends with a datagram, and the next call starts with the
next one (`received_in_order`). Each `recvfrom` also writes the address it
received from over the address that `sendto` sends to (`sent_to_last_sender`).

The control socket of `CommandInterface` has neither loops nor addresses. As
long as the system takes datagrams whole and what comes are the eight bytes of
the device's responses, its calls are the calls here (`socket_refines`).
-/
import Sprint3.CommandInterface
import Sprint3.Lib.Run

namespace Sprint3
namespace Udp

open Bits Exchange Run

/-! ### `udp_nix.c` -/

/-- A datagram, with the address it comes from or goes to. -/
structure Datagram (A : Type*) where
  payload : List UInt8
  address : A
  deriving DecidableEq, Repr

/-- A datagram that passed the socket. -/
inductive Event (A : Type*)
  | sent (d : Datagram A)
  | received (d : Datagram A)
  deriving DecidableEq, Repr

/-- The calls of the functions that move data. -/
inductive Call
  | sendExact (data : List UInt8)
  | recvExact (count : ℕ)
  | recv (count : ℕ)
  deriving DecidableEq, Repr

/-- A session, with what the system is going to return and what happened so far. -/
structure Socket (A : Type*) where
  /-- `addr_remote`. -/
  addrRemote : A
  /-- Of each `sendto` to come: the bytes it takes, or `errno`. -/
  sendto : List (Except ℤ ℕ)
  /-- Of each `recvfrom` to come: the datagram that it takes, or `errno`. -/
  recvfrom : List (Except ℤ (Datagram A))
  trace : List (Event A)
  /-- The calls that have returned, with `errno` or the bytes they received. -/
  returned : List (Call × Except ℤ (List UInt8))

variable {A : Type*}

namespace Socket

/-- As `katherine_udp_init` leaves it. -/
def init (remote : A) (sendto : List (Except ℤ ℕ)) (recvfrom : List (Except ℤ (Datagram A))) :
    Socket A where
  addrRemote := remote
  sendto
  recvfrom
  trace := []
  returned := []

/-- A `sendto` took a datagram. -/
def send (u : Socket A) (payload : List UInt8) : Socket A :=
  { u with trace := u.trace ++ [.sent ⟨payload, u.addrRemote⟩] }

/-- A `recvfrom` took a datagram: its sender is now the other side. -/
def receive (u : Socket A) (d : Datagram A) : Socket A :=
  { u with addrRemote := d.address, trace := u.trace ++ [.received d] }

/-- The loop of `katherine_udp_send_exact`, with the data from `total` on; `none` while a call
into the system does not return. -/
def sendLoop : List UInt8 → List (Except ℤ ℕ) → Socket A → Option (Except ℤ (List UInt8) × Socket A)
  | _, [], _ => none
  | _, .error errno :: sendto, u => some (.error errno, { u with sendto })
  | data, .ok sent :: sendto, u =>
    if sent < data.length then sendLoop (data.drop sent) sendto (u.send (data.take sent))
    else some (.ok [], { u.send (data.take sent) with sendto })

def katherineUdpSendExact (u : Socket A) (data : List UInt8) :
    Option (Except ℤ (List UInt8) × Socket A) :=
  sendLoop data u.sendto u

/-- The loop of `katherine_udp_recv_exact`, with the `total` bytes received so far. -/
def recvLoop (count : ℕ) : List UInt8 → List (Except ℤ (Datagram A)) → Socket A →
    Option (Except ℤ (List UInt8) × Socket A)
  | data, [], u =>
    if data.length < count then none else some (.ok data, { u with recvfrom := [] })
  | data, a :: recvfrom, u =>
    if data.length < count then
      match a with
      | .error errno => some (.error errno, { u with recvfrom })
      | .ok d => recvLoop count (data ++ d.payload.take (count - data.length)) recvfrom (u.receive d)
    else some (.ok data, { u with recvfrom := a :: recvfrom })

def katherineUdpRecvExact (u : Socket A) (count : ℕ) : Option (Except ℤ (List UInt8) × Socket A) :=
  recvLoop count [] u.recvfrom u

def katherineUdpRecv (u : Socket A) (count : ℕ) : Option (Except ℤ (List UInt8) × Socket A) :=
  match u.recvfrom with
  | [] => none
  | .error errno :: recvfrom => some (.error errno, { u with recvfrom })
  | .ok d :: recvfrom => some (.ok (d.payload.take count), { u.receive d with recvfrom })

def call (u : Socket A) : Call → Option (Except ℤ (List UInt8) × Socket A)
  | .sendExact data => u.katherineUdpSendExact data
  | .recvExact count => u.katherineUdpRecvExact count
  | .recv count => u.katherineUdpRecv count

/-- A call is made and returns. -/
def step (u : Socket A) (c : Call) : Option (Socket A) :=
  (u.call c).map fun r => { r.2 with returned := r.2.returned ++ [(c, r.1)] }

end Socket

/-! ### What a call takes -/

/-- The bytes of datagrams, one after the other. -/
def payloads (ds : List (Datagram A)) : List UInt8 := ds.flatMap Datagram.payload

/-- A call for `count` bytes that got datagrams and ended: the bytes are theirs, and none was
taken when there were enough. -/
structure Gathered (count : ℕ) (ds : List (Datagram A)) (data : List UInt8) : Prop where
  data : data = (payloads ds).take count
  enough : count ≤ (payloads ds).length
  needed : ∀ ds' d, ds = ds' ++ [d] → (payloads ds').length < count

/-- What a call takes off the arrivals, and what it returns for it. -/
def Call.Takes : Call → List (Except ℤ (Datagram A)) → Except ℤ (List UInt8) → Prop
  | .sendExact _, arrivals, _ => arrivals = []
  | .recvExact count, arrivals, .ok data => ∃ ds, arrivals = ds.map .ok ∧ Gathered count ds data
  | .recvExact count, arrivals, .error errno =>
    ∃ ds, arrivals = ds.map .ok ++ [.error errno] ∧ (payloads ds).length < count
  | .recv count, arrivals, .ok data => ∃ d, arrivals = [.ok d] ∧ data = d.payload.take count
  | .recv _, arrivals, .error errno => arrivals = [.error errno]

/-- The datagrams sent among the events. -/
def sentOf (events : List (Event A)) : List (Datagram A) :=
  events.filterMap fun
    | .sent d => some d
    | .received _ => none

/-- What a call sends, and what it returns for it. -/
def Call.Sends : Call → List (Datagram A) → Except ℤ (List UInt8) → Prop
  | .sendExact data, ds, .ok _ => payloads ds = data
  | .sendExact data, ds, .error _ => payloads ds <+: data
  | .recvExact _, ds, _ => ds = []
  | .recv _, ds, _ => ds = []

/-- Who sent last, `a` if no one has. -/
def lastSender (a : A) : List (Event A) → A
  | [] => a
  | .sent _ :: events => lastSender a events
  | .received d :: events => lastSender d.address events

/-- Each datagram goes to who sent last before. -/
def Addressed (a : A) (events : List (Event A)) : Prop :=
  ∀ pre d post, events = pre ++ .sent d :: post → d.address = lastSender a pre

/-- What a call does. -/
structure Did (c : Call) (r : Except ℤ (List UInt8)) (u u' : Socket A)
    (arrivals : List (Except ℤ (Datagram A))) (events : List (Event A)) : Prop where
  returned : u'.returned = u.returned
  recvfrom : u.recvfrom = arrivals ++ u'.recvfrom
  trace : u'.trace = u.trace ++ events
  takes : c.Takes arrivals r
  sends : c.Sends (sentOf events) r
  addrRemote : u'.addrRemote = lastSender u.addrRemote events
  addressed : Addressed u.addrRemote events

@[simp]
theorem payloads_nil : payloads ([] : List (Datagram A)) = [] := rfl

@[simp]
theorem payloads_cons (d : Datagram A) (ds : List (Datagram A)) :
    payloads (d :: ds) = d.payload ++ payloads ds := rfl

theorem sentOf_append (events events' : List (Event A)) :
    sentOf (events ++ events') = sentOf events ++ sentOf events' :=
  List.filterMap_append

theorem sentOf_sent (ds : List (Datagram A)) : sentOf (ds.map .sent) = ds := by
  induction ds with
  | nil => rfl
  | cons d ds ih =>
    rw [List.map_cons, sentOf, List.filterMap_cons]
    exact congrArg (d :: ·) ih

theorem sentOf_received (ds : List (Datagram A)) : sentOf (ds.map .received) = [] := by
  induction ds with
  | nil => rfl
  | cons d ds ih =>
    rw [List.map_cons, sentOf, List.filterMap_cons]
    exact ih

theorem lastSender_append (a : A) (events events' : List (Event A)) :
    lastSender a (events ++ events') = lastSender (lastSender a events) events' := by
  induction events generalizing a with
  | nil => rfl
  | cons e events ih =>
    cases e with
    | sent d => exact ih a
    | received d => exact ih d.address

theorem lastSender_sent (a : A) (ds : List (Datagram A)) : lastSender a (ds.map .sent) = a := by
  induction ds with
  | nil => rfl
  | cons d ds ih => exact ih

theorem addressed_sent {a : A} {ds : List (Datagram A)} (h : ∀ d ∈ ds, d.address = a) :
    Addressed a (ds.map .sent) := by
  intro pre d post heq
  obtain ⟨ds₁, ds₂, rfl, rfl, hpost⟩ := List.map_eq_append_iff.mp heq
  obtain ⟨d', ds₃, rfl, hd, -⟩ := List.map_eq_cons_iff.mp hpost
  obtain rfl := Event.sent.inj hd
  rw [lastSender_sent]
  exact h d' (by simp)

theorem addressed_received (a : A) (ds : List (Datagram A)) : Addressed a (ds.map .received) := by
  intro pre d post heq
  have hmem : Event.sent d ∈ ds.map .received := by simp [heq]
  simp at hmem

theorem Addressed.append {a : A} {events events' : List (Event A)} (h : Addressed a events)
    (h' : Addressed (lastSender a events) events') : Addressed a (events ++ events') := by
  intro pre d post heq
  rcases List.append_eq_append_iff.mp heq with ⟨mid, rfl, hmid⟩ | ⟨mid, rfl, hmid⟩
  · rw [lastSender_append]
    exact h' mid d post hmid
  · cases mid with
    | nil =>
      have hfirst := h' [] d post (by simpa using hmid.symm)
      simpa [lastSender] using hfirst
    | cons e mid =>
      obtain ⟨rfl, -⟩ := List.cons.inj hmid
      exact h pre d mid rfl

/-! ### The two loops -/

/-- A datagram more, as far as there was room for it. -/
theorem Gathered.cons {room : ℕ} {d : Datagram A} {ds : List (Datagram A)} {rest : List UInt8}
    (hroom : 0 < room) (h : Gathered (room - (d.payload.take room).length) ds rest) :
    Gathered room (d :: ds) (d.payload.take room ++ rest) where
  data := by
    have hleft : room - (d.payload.take room).length = room - d.payload.length := by
      rw [List.length_take]
      omega
    rw [payloads_cons, List.take_append, h.data, hleft]
  enough := by
    have henough := h.enough
    rw [List.length_take] at henough
    rw [payloads_cons, List.length_append]
    omega
  needed := by
    intro ds' e heq
    cases ds' with
    | nil => exact hroom
    | cons d' ds' =>
      obtain ⟨rfl, rfl⟩ := List.cons.inj heq
      have hneeded := h.needed ds' e rfl
      rw [List.length_take] at hneeded
      rw [payloads_cons, List.length_append]
      omega

namespace Socket

/-- The pieces that the sending loop sends make up the data, or a start of it. -/
theorem sendLoop_did {data : List UInt8} {sendto : List (Except ℤ ℕ)} {u u' : Socket A}
    {r : Except ℤ (List UInt8)} (h : sendLoop data sendto u = some (r, u')) :
    ∃ ds : List (Datagram A), (∀ d ∈ ds, d.address = u.addrRemote) ∧
      u'.trace = u.trace ++ ds.map .sent ∧ u'.addrRemote = u.addrRemote ∧
      u'.recvfrom = u.recvfrom ∧ u'.returned = u.returned ∧ (Call.sendExact data).Sends ds r := by
  induction sendto generalizing data u with
  | nil => cases h
  | cons answer sendto ih =>
    cases answer with
    | error errno =>
      obtain ⟨rfl, rfl⟩ := Prod.mk.inj (Option.some.inj h)
      exact ⟨[], by simp, by simp, rfl, rfl, rfl, List.nil_prefix⟩
    | ok sent =>
      rw [sendLoop] at h
      by_cases hmore : sent < data.length
      · rw [if_pos hmore] at h
        obtain ⟨ds, haddress, htrace, hremote, harrivals, hreturned, hsends⟩ := ih h
        refine ⟨⟨data.take sent, u.addrRemote⟩ :: ds, ?_, ?_, hremote, harrivals, hreturned, ?_⟩
        · simpa [send] using haddress
        · simpa [send] using htrace
        · cases r with
          | ok out =>
            have hrest : payloads ds = data.drop sent := hsends
            change data.take sent ++ payloads ds = data
            rw [hrest, List.take_append_drop]
          | error errno =>
            have hrest : payloads ds <+: data.drop sent := hsends
            change data.take sent ++ payloads ds <+: data
            have hsame := (List.prefix_append_right_inj (data.take sent)).mpr hrest
            rwa [List.take_append_drop] at hsame
      · rw [if_neg hmore] at h
        obtain ⟨rfl, rfl⟩ := Prod.mk.inj (Option.some.inj h)
        refine ⟨[⟨data.take sent, u.addrRemote⟩], by simp, rfl, rfl, rfl, rfl, ?_⟩
        change data.take sent ++ [] = data
        rw [List.append_nil, List.take_of_length_le (by omega)]

/-- With enough bytes the receiving loop is left. -/
theorem recvLoop_enough {count : ℕ} {data : List UInt8} (henough : ¬data.length < count)
    (recvfrom : List (Except ℤ (Datagram A))) (u : Socket A) :
    recvLoop count data recvfrom u = some (.ok data, { u with recvfrom }) := by
  cases recvfrom <;> exact if_neg henough

/-- What the receiving loop does from `data` on: it goes on to the end of a datagram. -/
structure LoopDid (count : ℕ) (data : List UInt8) (r : Except ℤ (List UInt8)) (u u' : Socket A)
    (arrivals : List (Except ℤ (Datagram A))) (ds : List (Datagram A)) : Prop where
  returned : u'.returned = u.returned
  trace : u'.trace = u.trace ++ ds.map .received
  addrRemote : u'.addrRemote = lastSender u.addrRemote (ds.map .received)
  ok : ∀ out, r = .ok out → arrivals = ds.map .ok ∧
    ∃ rest, out = data ++ rest ∧ Gathered (count - data.length) ds rest
  error : ∀ errno, r = .error errno → arrivals = ds.map .ok ++ [.error errno] ∧
    (payloads ds).length < count - data.length

theorem LoopDid.of_enough {count : ℕ} {data : List UInt8} (henough : ¬data.length < count)
    (u : Socket A) (recvfrom : List (Except ℤ (Datagram A))) :
    LoopDid count data (.ok data) u { u with recvfrom } [] [] where
  returned := rfl
  trace := (List.append_nil _).symm
  addrRemote := rfl
  ok := by
    rintro out ⟨rfl⟩
    have hroom : count - data.length = 0 := by omega
    exact ⟨rfl, [], (List.append_nil _).symm, List.take_nil.symm, by simp [hroom], by simp⟩
  error := by simp

theorem LoopDid.cons {count : ℕ} {data : List UInt8} {r : Except ℤ (List UInt8)} {u u' : Socket A}
    {arrivals : List (Except ℤ (Datagram A))} {d : Datagram A} {ds : List (Datagram A)}
    (hmore : data.length < count)
    (h : LoopDid count (data ++ d.payload.take (count - data.length)) r (u.receive d) u' arrivals
      ds) : LoopDid count data r u u' (.ok d :: arrivals) (d :: ds) := by
  have hroom : count - (data ++ d.payload.take (count - data.length)).length =
      count - data.length - (d.payload.take (count - data.length)).length := by
    rw [List.length_append, Nat.sub_add_eq]
  refine ⟨h.returned, ?_, h.addrRemote, ?_, ?_⟩
  · simpa [receive] using h.trace
  · intro out hout
    obtain ⟨rfl, rest, rfl, hgathered⟩ := h.ok out hout
    rw [hroom] at hgathered
    exact ⟨rfl, _, List.append_assoc _ _ _, hgathered.cons (Nat.sub_pos_of_lt hmore)⟩
  · intro errno herr
    obtain ⟨rfl, hlen⟩ := h.error errno herr
    rw [hroom, List.length_take] at hlen
    refine ⟨rfl, ?_⟩
    rw [payloads_cons, List.length_append]
    omega

theorem recvLoop_did {count : ℕ} {data : List UInt8} {recvfrom : List (Except ℤ (Datagram A))}
    {u u' : Socket A} {r : Except ℤ (List UInt8)}
    (h : recvLoop count data recvfrom u = some (r, u')) :
    ∃ arrivals ds, recvfrom = arrivals ++ u'.recvfrom ∧ LoopDid count data r u u' arrivals ds := by
  induction recvfrom generalizing data u with
  | nil =>
    by_cases hmore : data.length < count
    · rw [recvLoop, if_pos hmore] at h
      cases h
    · rw [recvLoop_enough hmore] at h
      obtain ⟨rfl, rfl⟩ := Prod.mk.inj (Option.some.inj h)
      exact ⟨[], [], rfl, .of_enough hmore u []⟩
  | cons arrival recvfrom ih =>
    by_cases hmore : data.length < count
    · cases arrival with
      | error errno =>
        rw [recvLoop, if_pos hmore] at h
        obtain ⟨rfl, rfl⟩ := Prod.mk.inj (Option.some.inj h)
        refine ⟨[.error errno], [], rfl, rfl, (List.append_nil _).symm, rfl, by simp, ?_⟩
        rintro errno' ⟨rfl⟩
        exact ⟨rfl, Nat.sub_pos_of_lt hmore⟩
      | ok d =>
        rw [recvLoop, if_pos hmore] at h
        obtain ⟨arrivals, ds, harrivals, hdid⟩ := ih h
        exact ⟨.ok d :: arrivals, d :: ds, congrArg (Except.ok d :: ·) harrivals, hdid.cons hmore⟩
    · rw [recvLoop_enough hmore] at h
      obtain ⟨rfl, rfl⟩ := Prod.mk.inj (Option.some.inj h)
      exact ⟨[], [], rfl, .of_enough hmore u (arrival :: recvfrom)⟩

/-- **What a call does.** -/
theorem call_did {c : Call} {r : Except ℤ (List UInt8)} {u u' : Socket A}
    (h : u.call c = some (r, u')) : ∃ arrivals events, Did c r u u' arrivals events := by
  cases c with
  | sendExact data =>
    obtain ⟨ds, haddress, htrace, hremote, hrecvfrom, hreturned, hsends⟩ := sendLoop_did h
    refine ⟨[], ds.map .sent, hreturned, hrecvfrom.symm, htrace, rfl, ?_, ?_, ?_⟩
    · rwa [sentOf_sent]
    · rwa [lastSender_sent]
    · exact addressed_sent haddress
  | recvExact count =>
    obtain ⟨arrivals, ds, hrecvfrom, hdid⟩ := recvLoop_did h
    refine ⟨arrivals, ds.map .received, hdid.returned, hrecvfrom, hdid.trace, ?_, ?_,
      hdid.addrRemote, addressed_received _ ds⟩
    · cases r with
      | ok out =>
        obtain ⟨harrivals, rest, rfl, hgathered⟩ := hdid.ok out rfl
        exact ⟨ds, harrivals, hgathered⟩
      | error errno => exact ⟨ds, hdid.error errno rfl⟩
    · rw [sentOf_received]
      exact rfl
  | recv count =>
    rw [call, katherineUdpRecv] at h
    split at h
    · cases h
    · rename_i errno recvfrom harrivals
      obtain ⟨rfl, rfl⟩ := Prod.mk.inj (Option.some.inj h)
      refine ⟨[.error errno], [], rfl, harrivals, (List.append_nil _).symm, rfl, rfl, rfl, ?_⟩
      exact addressed_received _ []
    · rename_i d recvfrom harrivals
      obtain ⟨rfl, rfl⟩ := Prod.mk.inj (Option.some.inj h)
      refine ⟨[.ok d], [.received d], rfl, harrivals, rfl, ⟨d, rfl, rfl⟩, rfl, rfl, ?_⟩
      exact addressed_received _ [d]

theorem step_did {c : Call} {u u' : Socket A} (h : u.step c = some u') :
    ∃ r arrivals events, Did c r u { u' with returned := u.returned } arrivals events ∧
      u'.returned = u.returned ++ [(c, r)] := by
  obtain ⟨⟨r, u''⟩, hcall, rfl⟩ := Option.map_eq_some_iff.mp h
  obtain ⟨arrivals, events, hdid⟩ := call_did hcall
  refine ⟨r, arrivals, events, ⟨rfl, hdid.recvfrom, hdid.trace, hdid.takes, hdid.sends,
    hdid.addrRemote, hdid.addressed⟩, ?_⟩
  rw [hdid.returned]

end Socket

/-! ### Every history of calls -/

section Histories

/-- What a history of calls did to a session, call by call. -/
structure History (u u' : Socket A) : Prop where
  received : ∃ arrivals : List (List (Except ℤ (Datagram A))),
    u.recvfrom = arrivals.flatten ++ u'.recvfrom ∧
    List.Forall₂ (fun cr as => Call.Takes cr.1 as cr.2) u'.returned arrivals
  sent : ∃ sent : List (List (Datagram A)), sentOf u'.trace = sent.flatten ∧
    List.Forall₂ (fun cr ds => Call.Sends cr.1 ds cr.2) u'.returned sent
  addrRemote : u'.addrRemote = lastSender u.addrRemote u'.trace
  addressed : Addressed u.addrRemote u'.trace

variable {remote : A} {sendto : List (Except ℤ ℕ)} {recvfrom : List (Except ℤ (Datagram A))}

theorem history_run {calls : List Call} {s : Socket A}
    (hrun : run Socket.step (.init remote sendto recvfrom) calls = some s) :
    History (.init remote sendto recvfrom) s := by
  refine run_invariant hrun (fun _ s => History (.init remote sendto recvfrom) s) ?_ ?_
  · refine ⟨⟨[], rfl, .nil⟩, ⟨[], rfl, .nil⟩, rfl, ?_⟩
    exact addressed_received remote []
  · intro _ s c s' _ hs hstep
    obtain ⟨r, arrivals, events, hdid, hreturned⟩ := Socket.step_did hstep
    obtain ⟨received, hreceived, htakes⟩ := hs.received
    obtain ⟨sent, hsent, hsends⟩ := hs.sent
    have htrace : s'.trace = s.trace ++ events := hdid.trace
    refine ⟨⟨received ++ [arrivals], ?_, ?_⟩, ⟨sent ++ [sentOf events], ?_, ?_⟩, ?_, ?_⟩
    · have hrest : s.recvfrom = arrivals ++ s'.recvfrom := hdid.recvfrom
      rw [hreceived, hrest, List.flatten_append, List.append_assoc]
      simp
    · rw [hreturned]
      exact List.rel_append htakes (.cons hdid.takes .nil)
    · rw [htrace, sentOf_append, hsent, List.flatten_append]
      simp
    · rw [hreturned]
      exact List.rel_append hsends (.cons hdid.sends .nil)
    · have hnext : s'.addrRemote = lastSender s.addrRemote events := hdid.addrRemote
      rw [htrace, lastSender_append, hnext, hs.addrRemote]
    · rw [htrace]
      refine hs.addressed.append ?_
      rw [← hs.addrRemote]
      exact hdid.addressed

/-- Of datagrams as long as the call asks for, it takes one. -/
theorem Gathered.single {count : ℕ} {ds : List (Datagram A)} {data : List UInt8}
    (h : Gathered count ds data) (hcount : 0 < count)
    (hwhole : ∀ d ∈ ds, d.payload.length = count) : ∃ d, ds = [d] ∧ data = d.payload := by
  cases ds with
  | nil => exact absurd h.enough (by simpa using hcount.ne')
  | cons d ds =>
    have hlen := hwhole d List.mem_cons_self
    cases hds : ds using List.reverseRecOn with
    | nil =>
      refine ⟨d, rfl, ?_⟩
      rw [h.data, hds, payloads_cons, payloads_nil, List.append_nil, ← hlen, List.take_length]
    | append_singleton ds' e =>
      have hneeded := h.needed (d :: ds') e (by rw [hds]; rfl)
      rw [payloads_cons, List.length_append] at hneeded
      omega

/-- A call for as many bytes as each datagram has takes one arrival and returns it. -/
theorem Call.Takes.single {count : ℕ} {arrivals : List (Except ℤ (Datagram A))}
    {r : Except ℤ (List UInt8)} (h : Call.Takes (.recvExact count) arrivals r) (hcount : 0 < count)
    (hwhole : ∀ d, .ok d ∈ arrivals → d.payload.length = count) :
    ∃ a, arrivals = [a] ∧ r = a.map Datagram.payload := by
  cases r with
  | ok data =>
    obtain ⟨ds, rfl, hgathered⟩ := h
    obtain ⟨d, rfl, rfl⟩ := hgathered.single hcount fun d hd => hwhole d (List.mem_map_of_mem hd)
    exact ⟨.ok d, rfl, rfl⟩
  | error errno =>
    obtain ⟨ds, rfl, hlen⟩ := h
    cases ds with
    | nil => exact ⟨.error errno, rfl, rfl⟩
    | cons d ds =>
      have hd := hwhole d (by simp)
      rw [payloads_cons, List.length_append] at hlen
      omega

theorem takes_single {count : ℕ} (hcount : 0 < count)
    {returned : List (Call × Except ℤ (List UInt8))}
    {arrivals : List (List (Except ℤ (Datagram A)))}
    (h : List.Forall₂ (fun cr as => Call.Takes cr.1 as cr.2) returned arrivals)
    (hcalls : ∀ cr ∈ returned, cr.1 = .recvExact count)
    (hwhole : ∀ d, .ok d ∈ arrivals.flatten → d.payload.length = count) :
    returned.map Prod.snd = arrivals.flatten.map (Except.map Datagram.payload) := by
  induction h with
  | nil => rfl
  | @cons cr as returned arrivals htakes hrest ih =>
    obtain ⟨c, r⟩ := cr
    obtain rfl : c = .recvExact count := hcalls (c, r) List.mem_cons_self
    obtain ⟨a, rfl, rfl⟩ := htakes.single hcount fun d hd => hwhole d (by simp [hd])
    have hothers := ih (fun cr hcr => hcalls cr (List.mem_cons_of_mem _ hcr))
      fun d hd => hwhole d (by simpa using Or.inr hd)
    rw [List.map_cons, hothers, List.flatten_cons, List.singleton_append, List.map_cons]

theorem returned_calls {calls : List Call} {s : Socket A}
    (hrun : run Socket.step (.init remote sendto recvfrom) calls = some s) :
    s.returned.map Prod.fst = calls := by
  refine run_invariant hrun (fun calls s => s.returned.map Prod.fst = calls) rfl ?_
  intro calls s c s' _ hs hstep
  obtain ⟨r, -, -, -, hreturned⟩ := Socket.step_did hstep
  rw [hreturned, List.map_append, hs]
  rfl

/-- **Nothing is received twice, and a call ends with a datagram.** Over every
history of calls, what the socket took off the arrivals is, call by call, what
each call returned: datagrams of which none was superfluous, the bytes beyond
those asked for being lost; or datagrams that were too few, and the error after
them. Where every datagram has the length asked for, the calls return the
arrivals one for one. -/
theorem received_in_order {calls : List Call} {s : Socket A}
    (hrun : run Socket.step (.init remote sendto recvfrom) calls = some s) :
    s.returned.map Prod.fst = calls ∧
    (∃ arrivals : List (List (Except ℤ (Datagram A))), recvfrom = arrivals.flatten ++ s.recvfrom ∧
      List.Forall₂ (fun cr as => Call.Takes cr.1 as cr.2) s.returned arrivals) ∧
    ∀ count, 0 < count → (∀ c ∈ calls, c = .recvExact count) →
      (∀ d, .ok d ∈ recvfrom → d.payload.length = count) →
      ∃ arrivals, recvfrom = arrivals ++ s.recvfrom ∧
        s.returned.map Prod.snd = arrivals.map (Except.map Datagram.payload) := by
  have hcalls := returned_calls hrun
  obtain ⟨arrivals, hrecvfrom, htakes⟩ := (history_run hrun).received
  change recvfrom = _ at hrecvfrom
  refine ⟨hcalls, ⟨arrivals, hrecvfrom, htakes⟩, ?_⟩
  intro count hcount hall hwhole
  refine ⟨arrivals.flatten, hrecvfrom, takes_single hcount htakes ?_ ?_⟩
  · intro cr hcr
    apply hall
    rw [← hcalls]
    exact List.mem_map_of_mem hcr
  · intro d hd
    apply hwhole
    rw [hrecvfrom]
    exact List.mem_append_left _ hd

/-- Three bytes of a stranger, then a response of the device. -/
def stray : List (Except ℤ (Datagram ℕ)) :=
  [.ok ⟨[7, 7, 7], 9⟩, .ok ⟨[0, 1, 2, 3, 4, 5, 6, 7], 1⟩, .ok ⟨[0, 0, 0, 0, 0, 0, 0, 1], 1⟩]

theorem received_in_order_stray :
    ∃ s, run Socket.step (.init 1 [] stray) [.recvExact 8, .recvExact 8] = some s ∧
      s.returned = [(.recvExact 8, .ok [7, 7, 7, 0, 1, 2, 3, 4]),
        (.recvExact 8, .ok [0, 0, 0, 0, 0, 0, 0, 1])] ∧
      ∃ arrivals : List (List (Except ℤ (Datagram ℕ))), stray = arrivals.flatten ++ s.recvfrom ∧
        List.Forall₂ (fun cr as => Call.Takes cr.1 as cr.2) s.returned arrivals :=
  ⟨_, rfl, rfl,
    (@received_in_order ℕ 1 [] stray [.recvExact 8, .recvExact 8] _ rfl).2.1⟩

theorem lastSender_eq {a : A} {events : List (Event A)}
    (h : ∀ d, .received d ∈ events → d.address = a) : lastSender a events = a := by
  induction events with
  | nil => rfl
  | cons e events ih =>
    have hrest := ih fun d hd => h d (List.mem_cons_of_mem _ hd)
    cases e with
    | sent d => exact hrest
    | received d =>
      have hd : d.address = a := h d List.mem_cons_self
      rw [lastSender, hd, hrest]

/-- **A datagram goes to who sent last.** Over every history of calls each
datagram is sent to the sender of the last one received before, or where none
was, to the address given first; so all go there if nobody else sends. What is
sent is, call by call, the data of the calls, or a start of them in a call that
fails. -/
theorem sent_to_last_sender {calls : List Call} {s : Socket A}
    (hrun : run Socket.step (.init remote sendto recvfrom) calls = some s) :
    Addressed remote s.trace ∧
    ((∀ d, .received d ∈ s.trace → d.address = remote) →
      ∀ d, .sent d ∈ s.trace → d.address = remote) ∧
    ∃ sent : List (List (Datagram A)), sentOf s.trace = sent.flatten ∧
      List.Forall₂ (fun cr ds => Call.Sends cr.1 ds cr.2) s.returned sent := by
  have h := history_run hrun
  refine ⟨h.addressed, ?_, h.sent⟩
  intro hreceived d hd
  obtain ⟨pre, post, hsplit⟩ := List.append_of_mem hd
  have hlast : d.address = lastSender remote pre := h.addressed pre d post hsplit
  rw [hlast]
  apply lastSender_eq
  intro d' hd'
  apply hreceived
  rw [hsplit]
  exact List.mem_append_left _ hd'

/-- The first command goes to the stranger. -/
theorem sent_to_last_sender_stray :
    ∃ s, run Socket.step (.init 1 [.ok 1, .ok 1] stray)
        [.recv 8, .sendExact [5], .recv 8, .sendExact [6]] = some s ∧
      s.trace = [.received ⟨[7, 7, 7], 9⟩, .sent ⟨[5], 9⟩,
        .received ⟨[0, 1, 2, 3, 4, 5, 6, 7], 1⟩, .sent ⟨[6], 1⟩] ∧ Addressed 1 s.trace :=
  ⟨_, rfl, rfl, (@sent_to_last_sender ℕ 1 [.ok 1, .ok 1] stray
    [.recv 8, .sendExact [5], .recv 8, .sendExact [6]] _ rfl).1⟩

end Histories

/-! ### The control socket -/

/-- The two calls that are made on the control socket. -/
inductive Command
  | send (data : List UInt8)
  | wait
  deriving DecidableEq, Repr

namespace Command

/-- The call of `udp_nix.c`. -/
def call : Command → Call
  | send data => .sendExact data
  | wait => .recvExact 8

variable (net : Network)

/-- What the call on the queue of responses returns, and leaves. -/
def result : Command → ControlSocket → Except ℤ (List UInt8) × ControlSocket
  | send data, s =>
    match katherineUdpSendExact net data s with
    | .ok _ s' => (.ok [], s')
    | .error errno s' => (.error errno, s')
  | wait, s =>
    match katherineUdpRecvExact net s with
    | .ok crd s' => (.ok (toBytes 8 crd.toNat), s')
    | .error errno s' => (.error errno, s')

/-- What the system does meanwhile: it takes a datagram whole or not at all. -/
def sendto (s : ControlSocket) : Command → List (Except ℤ ℕ)
  | send data =>
    [if net.sendResult s.sends = 0 then .ok data.length else .error (net.sendResult s.sends)]
  | wait => []

/-- What arrives meanwhile: the oldest response, as a datagram of the device. -/
def recvfrom (device : A) (s : ControlSocket) : Command → List (Except ℤ (Datagram A))
  | send _ => []
  | wait =>
    [if net.recvResult s.waits = 0 then
      match s.link.take with
      | some (n, _) => .ok ⟨toBytes 8 (net.response n).toNat, device⟩
      | none => .error eagain
    else .error (net.recvResult s.waits)]

end Command

section Refinement

variable (net : Network)

/-- The results of a history on the queue, and what it leaves. -/
def results : List Command → ControlSocket → List (Except ℤ (List UInt8)) × ControlSocket
  | [], s => ([], s)
  | c :: cs, s =>
    let (r, s) := c.result net s
    let (rs, s) := results cs s
    (r :: rs, s)

/-- What the system does over a history. -/
def sendtos : List Command → ControlSocket → List (Except ℤ ℕ)
  | [], _ => []
  | c :: cs, s => c.sendto net s ++ sendtos cs (c.result net s).2

/-- What arrives over a history. -/
def arrivals (device : A) : List Command → ControlSocket → List (Except ℤ (Datagram A))
  | [], _ => []
  | c :: cs, s => c.recvfrom net device s ++ arrivals device cs (c.result net s).2

end Refinement

variable {net : Network}

/-- The socket stands where the queue does. -/
structure Simulates (device : A) (u : Socket A) (s : ControlSocket) : Prop where
  addrRemote : u.addrRemote = device
  sent : sentOf u.trace = s.sent.map (⟨·, device⟩)

/-- A datagram that is taken whole is sent by one pass of the loop. -/
theorem step_send_ok {u : Socket A} {data : List UInt8} {sends : List (Except ℤ ℕ)}
    (hsendto : u.sendto = .ok data.length :: sends) :
    u.step (.sendExact data) = some { u.send data with
      sendto := sends, returned := u.returned ++ [(.sendExact data, .ok [])] } := by
  rw [Socket.step, Socket.call, Socket.katherineUdpSendExact, hsendto, Socket.sendLoop,
    if_neg (lt_irrefl _), List.take_length]
  rfl

theorem step_send_error {u : Socket A} {data : List UInt8} {errno : ℤ}
    {sends : List (Except ℤ ℕ)} (hsendto : u.sendto = .error errno :: sends) :
    u.step (.sendExact data) = some { u with
      sendto := sends, returned := u.returned ++ [(.sendExact data, .error errno)] } := by
  rw [Socket.step, Socket.call, Socket.katherineUdpSendExact, hsendto]
  rfl

/-- A datagram of the length asked for is received by one pass of the loop. -/
theorem step_wait_ok {u : Socket A} {d : Datagram A} {rest : List (Except ℤ (Datagram A))}
    (hlen : d.payload.length = 8) (hrecvfrom : u.recvfrom = .ok d :: rest) :
    u.step (.recvExact 8) = some { u.receive d with
      recvfrom := rest, returned := u.returned ++ [(.recvExact 8, .ok d.payload)] } := by
  have htake : d.payload.take 8 = d.payload := List.take_of_length_le hlen.le
  rw [Socket.step, Socket.call, Socket.katherineUdpRecvExact, hrecvfrom, Socket.recvLoop,
    if_pos (by decide), List.nil_append, List.length_nil, Nat.sub_zero, htake,
    Socket.recvLoop_enough (by omega)]
  rfl

theorem step_wait_error {u : Socket A} {errno : ℤ} {rest : List (Except ℤ (Datagram A))}
    (hrecvfrom : u.recvfrom = .error errno :: rest) :
    u.step (.recvExact 8) = some { u with
      recvfrom := rest, returned := u.returned ++ [(.recvExact 8, .error errno)] } := by
  rw [Socket.step, Socket.call, Socket.katherineUdpRecvExact, hrecvfrom]
  rfl

/-- **One call.** -/
theorem step_simulates {device : A} {u : Socket A} {s : ControlSocket} (hsim : Simulates device u s)
    (c : Command) {sends : List (Except ℤ ℕ)} {rest : List (Except ℤ (Datagram A))}
    (hsendto : u.sendto = c.sendto net s ++ sends)
    (hrecvfrom : u.recvfrom = c.recvfrom net device s ++ rest) :
    ∃ u', u.step c.call = some u' ∧ Simulates device u' (c.result net s).2 ∧
      u'.sendto = sends ∧ u'.recvfrom = rest ∧
      u'.returned = u.returned ++ [(c.call, (c.result net s).1)] := by
  cases c with
  | send data =>
    by_cases hsend : net.sendResult s.sends = 0
    · have hresult : Command.result net (.send data) s = (.ok [],
          { s.deliver data with sends := s.sends + 1, sent := s.sent ++ [data] }) := by
        rw [Command.result, katherineUdpSendExact, if_pos hsend]
      rw [Command.sendto, if_pos hsend] at hsendto
      refine ⟨_, step_send_ok hsendto, ?_, rfl, hrecvfrom, by rw [hresult]; rfl⟩
      rw [hresult]
      refine ⟨hsim.addrRemote, ?_⟩
      change sentOf (u.trace ++ [.sent ⟨data, u.addrRemote⟩]) = (s.sent ++ [data]).map _
      rw [sentOf_append, hsim.sent, hsim.addrRemote, List.map_append]
      rfl
    · have hresult : Command.result net (.send data) s =
          (.error (net.sendResult s.sends), { s with sends := s.sends + 1 }) := by
        rw [Command.result, katherineUdpSendExact, if_neg hsend]
      rw [Command.sendto, if_neg hsend] at hsendto
      refine ⟨_, step_send_error hsendto, ?_, rfl, hrecvfrom, by rw [hresult]; rfl⟩
      rw [hresult]
      exact ⟨hsim.addrRemote, hsim.sent⟩
  | wait =>
    have hfails (errno : ℤ)
        (hrecv : Command.recvfrom net device s .wait = [.error errno])
        (hresult : Command.result net .wait s = (.error errno, { s with waits := s.waits + 1 })) :
        ∃ u', u.step Command.wait.call = some u' ∧
          Simulates device u' (Command.result net .wait s).2 ∧ u'.sendto = sends ∧
          u'.recvfrom = rest ∧
          u'.returned = u.returned ++ [(Command.wait.call, (Command.result net .wait s).1)] := by
      rw [hrecv] at hrecvfrom
      refine ⟨_, step_wait_error hrecvfrom, ?_, hsendto, rfl, by rw [hresult]; rfl⟩
      rw [hresult]
      exact ⟨hsim.addrRemote, hsim.sent⟩
    by_cases hrecv : net.recvResult s.waits = 0
    · cases htake : s.link.take with
      | none =>
        refine hfails eagain ?_ ?_
        · rw [Command.recvfrom, if_pos hrecv, htake]
        · rw [Command.result, katherineUdpRecvExact, if_pos hrecv, htake]
      | some taken =>
        obtain ⟨n, link⟩ := taken
        have hresult : Command.result net .wait s = (.ok (toBytes 8 (net.response n).toNat),
            { s with waits := s.waits + 1, link }) := by
          rw [Command.result, katherineUdpRecvExact, if_pos hrecv, htake]
        rw [Command.recvfrom, if_pos hrecv, htake] at hrecvfrom
        refine ⟨_, step_wait_ok (toBytes_length _ _) hrecvfrom, ?_, hsendto, rfl,
          by rw [hresult]; rfl⟩
        rw [hresult]
        refine ⟨rfl, ?_⟩
        change sentOf (u.trace ++ [.received _]) = s.sent.map _
        rw [sentOf_append, hsim.sent]
        exact List.append_nil _
    · refine hfails (net.recvResult s.waits) ?_ ?_
      · rw [Command.recvfrom, if_neg hrecv]
      · rw [Command.result, katherineUdpRecvExact, if_neg hrecv]

theorem run_simulates {device : A} (commands : List Command) {u : Socket A} {s : ControlSocket}
    (hsim : Simulates device u s) {sends : List (Except ℤ ℕ)}
    {rest : List (Except ℤ (Datagram A))} (hsendto : u.sendto = sendtos net commands s ++ sends)
    (hrecvfrom : u.recvfrom = arrivals net device commands s ++ rest) :
    ∃ u', run Socket.step u (commands.map Command.call) = some u' ∧
      Simulates device u' (results net commands s).2 ∧ u'.sendto = sends ∧ u'.recvfrom = rest ∧
      u'.returned =
        u.returned ++ (commands.map Command.call).zip (results net commands s).1 := by
  induction commands generalizing u s with
  | nil => exact ⟨u, rfl, hsim, hsendto, hrecvfrom, (List.append_nil _).symm⟩
  | cons c commands ih =>
    rw [sendtos, List.append_assoc] at hsendto
    rw [arrivals, List.append_assoc] at hrecvfrom
    obtain ⟨m, hstep, hsim, hsendto, hrecvfrom, hreturned⟩ :=
      step_simulates hsim c hsendto hrecvfrom
    obtain ⟨u', hrun, hsim, hsendto, hrecvfrom, hrest⟩ := ih hsim hsendto hrecvfrom
    refine ⟨u', ?_, hsim, hsendto, hrecvfrom, ?_⟩
    · rw [List.map_cons, run, hstep]
      exact hrun
    · rw [hrest, hreturned, List.append_assoc]
      rfl

/-- **The control socket.** Whatever the network does and whatever is sent and
waited for, in any order: where the system takes each datagram whole or not at
all, and what arrives are the responses that the queue gives, the loops over
`sendto` and `recvfrom` return what the calls on the queue return, take one
arrival for each wait, and send the same to the device. -/
theorem socket_refines (net : Network) (device : A) (commands : List Command)
    (sends : List (Except ℤ ℕ)) (rest : List (Except ℤ (Datagram A))) :
    ∃ u, run Socket.step (.init device (sendtos net commands .fresh ++ sends)
        (arrivals net device commands .fresh ++ rest)) (commands.map Command.call) = some u ∧
      u.returned = (commands.map Command.call).zip (results net commands .fresh).1 ∧
      sentOf u.trace = (results net commands .fresh).2.sent.map (⟨·, device⟩) ∧
      u.addrRemote = device ∧ u.sendto = sends ∧ u.recvfrom = rest := by
  obtain ⟨u, hrun, hsim, hsendto, hrecvfrom, hreturned⟩ :=
    run_simulates commands (u := .init device (sendtos net commands .fresh ++ sends)
      (arrivals net device commands .fresh ++ rest)) ⟨rfl, rfl⟩ rfl rfl
  exact ⟨u, hrun, hreturned, hsim.sent, hsim.addrRemote, hsendto, hrecvfrom⟩

end Udp
end Sprint3
