import Nctuns.Lib.Run

/-!
# The 802.11 DCF MAC

`mac-802_11-dcf.cc`: one frame to be sent, one being received, and the timers of the transmission, the
deferral, the backoff and the reception. Clocks are inputs: a running timer may expire at any time, and
with it the backoff, whose length the contention window would decide. A one-shot timer is reset before
its handler is called.
-/

namespace Wlan

/-- An Ethernet address. -/
abbrev EtherAddr := BitVec 48

/-- The broadcast address. -/
def etherbroadcastaddr : EtherAddr := 0xffffffffffff#48

/-- `fc_type` and `fc_subtype`, as far as they are told apart. -/
inductive FrameType where
  | Management (beacon : Bool)
  | RTS
  | CTS
  | ACK
  | Data
  | invalid
  deriving DecidableEq, Repr

/-- `recvHandler` gives the frame to `recvDATA`. -/
def FrameType.isData : FrameType → Bool
  | .Management _ | .Data => true
  | _ => false

/-- A frame: its header, its length and whether it is damaged. -/
structure Frame where
  dh_fc : FrameType
  dh_duration : ℕ
  dh_addr1 : EtherAddr
  dh_addr2 : EtherAddr
  pkt_getlen : ℕ
  pkt_err_ : Bool
  deriving DecidableEq, Repr

/-- The length without `hdr_mac802_11`. -/
def Frame.pktlen (f : Frame) : Int := f.pkt_getlen - 28

/-- What the sender or the receiver of the station does. -/
inductive MacState where
  | MAC_IDLE
  | MAC_RECV
  | MAC_COLL
  | MAC_RTS
  | MAC_CTS
  | MAC_ACK
  | MAC_SEND
  deriving DecidableEq, Repr

/-- A timer: whether it runs, and whether it is held. -/
structure TimerObj where
  busy_ : Bool
  paused_ : Bool
  deriving DecidableEq, Repr

namespace TimerObj

/-- A timer that does not run. -/
def stopped : TimerObj := ⟨false, false⟩
/-- A timer that runs. -/
def started : TimerObj := ⟨true, false⟩

end TimerObj

/-- The answers of a station. -/
inductive CtrlType where
  | CTS
  | ACK
  deriving DecidableEq, Repr

/-- A CTS or ACK that waits to be sent, with its receiver. -/
structure CtrlFrame where
  subtype : CtrlType
  ra : EtherAddr
  deriving DecidableEq, Repr

/-- A frame that is given up: after failed attempts of its RTS in a row, or of the frame itself. -/
inductive Dropped where
  | rts (attempts : ℕ)
  | data (pktlen : Int) (attempts : ℕ)
  deriving DecidableEq, Repr

/-- How often an RTS or a short frame may fail. -/
def aShortRetryLimit : ℕ := 7
/-- How often a long frame may fail. -/
def aLongRetryLimit : ℕ := 4

/-- The address and the thresholds of the station; `MICRO_TO_TICK`; and `eifs`. -/
structure DcfConfig where
  mac_ : EtherAddr
  aRTSThreshold : Int
  MICRO_TO_TICK : ℕ → ℕ
  eifs : ℕ

/-- The station, the CTS and ACK frames that it has made, and what happened to the frame to be sent: the
    transmissions of its RTS since the last CTS, those of the frame, and the frames given up. -/
structure Dcf where
  promiscuous : Bool
  tx_state : MacState
  rx_state : MacState
  tx_active : Bool
  nav : ℕ
  ssrc : ℕ
  slrc : ℕ
  epktCTRL : Option CtrlFrame
  epktRTS : Bool
  epktTx : Option Frame
  epktBEACON : Option Frame
  epktRx : Option Frame
  mhSend : TimerObj
  mhDefer : TimerObj
  mhBackoff : TimerObj
  mhRecv : TimerObj
  made : List CtrlFrame
  rtsTries : ℕ
  dataTries : ℕ
  drops : List Dropped
  deriving DecidableEq, Repr

/-- How a handler ends the program. -/
inductive Fault where
  | assertion
  | ErrorMesg
  deriving DecidableEq, Repr

/-- An assertion of the source. -/
def assert (c : Prop) [Decidable c] : Except Fault Unit := if c then .ok () else .error .assertion

namespace Dcf

/-- A station without frames. -/
def init (promiscuous : Bool) : Dcf where
  promiscuous := promiscuous
  tx_state := .MAC_IDLE
  rx_state := .MAC_IDLE
  tx_active := false
  nav := 0
  ssrc := 0
  slrc := 0
  epktCTRL := none
  epktRTS := false
  epktTx := none
  epktBEACON := none
  epktRx := none
  mhSend := .stopped
  mhDefer := .stopped
  mhBackoff := .stopped
  mhRecv := .stopped
  made := []
  rtsTries := 0
  dataTries := 0
  drops := []

variable (p : DcfConfig) (now : ℕ) (s : Dcf)

/-! ## Carrier sense -/

/-- Neither the station nor the medium is busy. -/
def is_idle : Bool := s.rx_state = .MAC_IDLE ∧ s.tx_state = .MAC_IDLE ∧ s.nav ≤ now

/-- `CHECK_BACKOFF_TIMER`. -/
def checkBackoff : Dcf :=
  if s.is_idle now then
    if s.mhBackoff.paused_ then { s with mhBackoff := { s.mhBackoff with paused_ := false } } else s
  else if s.mhBackoff.busy_ then { s with mhBackoff := { s.mhBackoff with paused_ := true } }
  else s

/-- The sender changes its state, and the back-off is held or goes on. -/
def setTxState (x : MacState) : Dcf := { s with tx_state := x }.checkBackoff now

/-- The receiver changes its state, and the back-off is held or goes on. -/
def setRxState (x : MacState) : Dcf := { s with rx_state := x }.checkBackoff now

/-- The medium is reserved for a number of ticks, unless it is for longer. -/
def set_NAV (ticks : ℕ) : Dcf := if now + ticks > s.nav then { s with nav := now + ticks } else s

/-- The wait in front of a frame begins. -/
def start_defer : Dcf := { s with mhDefer := .started }

/-- The back-off begins, held while the medium is busy. -/
def start_backoff : Dcf := { s with mhBackoff := ⟨true, !s.is_idle now⟩ }

/-- The reservation of the medium is over: a back-off that was held goes on. -/
def navHandler : Dcf :=
  if s.is_idle now ∧ s.mhBackoff.paused_ = true then
    { s with mhBackoff := { s.mhBackoff with paused_ := false } }
  else s

/-! ## Sending -/

/-- The frame to be sent. -/
def outgoing : Option Frame := s.epktTx.or s.epktBEACON

/-- No RTS goes before the frame. -/
def Plain (f : Frame) : Prop := f.pktlen < p.aRTSThreshold ∨ f.dh_addr1 = etherbroadcastaddr

instance (f : Frame) : Decidable (Plain p f) := inferInstanceAs (Decidable (_ ∨ _))

/-- The RTS of a frame, where it needs one. -/
def sendRTS : Except Fault Dcf :=
  match s.outgoing with
  | none => .error .assertion
  | some f => do
    assert (s.epktRTS = false)
    .ok (if Plain p f then s else { s with epktRTS := true })

/-- `transmit`; an ACK is sent even if a frame is being received, which is then lost. -/
def transmit (ack : Bool) : Except Fault Dcf :=
  if s.rx_state ≠ .MAC_IDLE then
    match s.epktRx with
    | none => .error .assertion
    | some f => do
      assert (ack = true)
      .ok { s with tx_active := true, mhSend := .started, epktRx := some { f with pkt_err_ := true } }
  else .ok { s with tx_active := true, mhSend := .started }

/-- The sender is idle, and the wait for what is to be sent next begins. -/
def tx_resume : Except Fault Dcf := do
  assert (s.mhSend.busy_ = false)
  let s :=
    if s.epktCTRL.isSome then s.start_defer
    else if s.epktRTS ∨ s.outgoing.isSome then
      if s.mhBackoff.busy_ = false then s.start_defer else s
    else s
  .ok (s.setTxState now .MAC_IDLE)

/-- `check_pktCTRL`; `none` is -1. -/
def check_pktCTRL : Except Fault (Option Dcf) :=
  match s.epktCTRL with
  | none => .ok none
  | some c =>
    if s.tx_state = .MAC_CTS ∨ s.tx_state = .MAC_ACK then .ok none
    else
      match c.subtype with
      | .CTS =>
        if s.is_idle now = false then .ok (some { s with epktCTRL := none })
        else do
          let s ← (s.setTxState now .MAC_CTS).transmit false
          .ok (some s)
      | .ACK => do
        let s ← (s.setTxState now .MAC_ACK).transmit true
        .ok (some s)

/-- An RTS is sent, if there is one. -/
def check_pktRTS : Except Fault (Option Dcf) := do
  assert (s.mhBackoff.busy_ = false)
  if s.epktRTS = false then .ok none
  else if s.is_idle now = false then .ok (some (s.start_backoff now))
  else
    let s := s.setTxState now .MAC_RTS
    let s ← { s with rtsTries := s.rtsTries + 1 }.transmit false
    .ok (some s)

/-- A beacon is sent, if there is one. -/
def check_pktBEACON : Except Fault (Option Dcf) := do
  assert (s.mhBackoff.busy_ = false)
  match s.epktBEACON with
  | none => .ok none
  | some f =>
    if f.dh_fc ≠ .Management true then .error .ErrorMesg
    else if s.is_idle now = false then .ok (some (s.start_backoff now))
    else
      let s ← { s.setTxState now .MAC_SEND with dataTries := s.dataTries + 1 }.transmit false
      .ok (some s)

/-- The data frame is sent, if there is one. -/
def check_pktTx : Except Fault (Option Dcf) := do
  assert (s.mhBackoff.busy_ = false)
  match s.epktTx with
  | none => .ok none
  | some f =>
    match f.dh_fc with
    | .Management _ | .Data =>
      if s.is_idle now = false then do
        -- the medium is busy: RTS and CTS are done again
        let s ← s.sendRTS p
        .ok (some (s.start_backoff now))
      else do
        let s ← { s.setTxState now .MAC_SEND with dataTries := s.dataTries + 1 }.transmit false
        .ok (some s)
    | _ => .error .ErrorMesg

/-- What `deferHandler` and `backoffHandler` try after a CTS or ACK. -/
def checkPackets : Except Fault Dcf := do
  match ← s.check_pktRTS now with
  | some s => .ok s
  | none =>
    match ← s.check_pktBEACON now with
    | some s => .ok s
    | none =>
      match ← s.check_pktTx p now with
      | some s => .ok s
      | none => .ok s

/-- The wait is over: an answer first, then the other frames. -/
def deferHandler : Except Fault Dcf := do
  assert (s.epktCTRL.isSome ∨ s.epktRTS = true ∨ s.outgoing.isSome)
  match ← s.check_pktCTRL now with
  | some s => .ok s
  | none => do
    assert (s.mhBackoff.busy_ = false)
    s.checkPackets p now

/-- The back-off is over: the frames that wait, unless an answer goes first. -/
def backoffHandler : Except Fault Dcf :=
  if s.epktCTRL.isSome then do
    assert (s.mhSend.busy_ = true ∨ s.mhDefer.busy_ = true)
    .ok s
  else s.checkPackets p now

/-- `send`: the upper layer's frame is rejected while there is another one. -/
def send (f : Frame) : Except Fault Dcf :=
  if s.outgoing.isSome then .ok s
  else do
    let s := { s with rtsTries := 0, dataTries := 0 }
    let s := if f.dh_fc = .Management true then { s with epktBEACON := some f } else { s with epktTx := some f }
    let s ← s.sendRTS p
    .ok (if s.mhBackoff.busy_ = false then
      if s.is_idle now then if s.mhDefer.busy_ = false then s.start_defer else s else s.start_backoff now
    else s)

/-! ## Retransmissions -/

/-- The frame to be sent is given up. -/
def giveUp (d : Dropped) : Dcf :=
  let s := if s.epktTx.isSome then { s with epktTx := none } else { s with epktBEACON := none }
  { s with drops := s.drops ++ [d] }

/-- The RTS has failed: it is sent again, or the frame is given up. -/
def retransmitRTS : Except Fault Dcf := do
  assert (s.outgoing.isSome ∧ s.epktRTS = true)
  assert (s.mhBackoff.busy_ = false)
  if s.ssrc + 1 ≥ aShortRetryLimit then
    .ok { s.giveUp (.rts s.rtsTries) with epktRTS := false, ssrc := 0 }
  else .ok ({ s with ssrc := s.ssrc + 1 }.start_backoff now)

/-- The data frame has failed: it is sent again, or given up. -/
def retransmitDATA : Except Fault Dcf := do
  assert (s.mhBackoff.busy_ = false)
  match s.epktTx with
  | none => .error .assertion
  | some f => do
    assert (s.epktRTS = false)
    if f.pktlen < p.aRTSThreshold then
      if s.ssrc + 1 > aShortRetryLimit then
        .ok { s.giveUp (.data f.pktlen s.dataTries) with ssrc := 0 }
      else do
        let s ← { s with ssrc := s.ssrc + 1 }.sendRTS p
        .ok (s.start_backoff now)
    else if s.slrc + 1 > aLongRetryLimit then
      .ok { s.giveUp (.data f.pktlen s.dataTries) with slrc := 0 }
    else do
      let s ← { s with slrc := s.slrc + 1 }.sendRTS p
      .ok (s.start_backoff now)

/-- The `switch` of `sendHandler`. -/
def sendFailed : Except Fault Dcf :=
  match s.tx_state with
  | .MAC_RTS => s.retransmitRTS now
  | .MAC_CTS | .MAC_ACK => do
    assert s.epktCTRL.isSome
    .ok { s with epktCTRL := none }
  | .MAC_SEND =>
    match s.outgoing with
    | none => .error .assertion
    | some f =>
      if f.dh_addr1 ≠ etherbroadcastaddr then s.retransmitDATA p now
      else
        let s := if s.epktTx.isSome then { s with epktTx := none } else { s with epktBEACON := none }
        .ok (s.start_backoff now)
  | .MAC_IDLE => .ok s
  | _ => .error .assertion

/-- What was sent has not been answered. -/
def sendHandler : Except Fault Dcf := do
  let s ← s.sendFailed p now
  s.tx_resume now

/-! ## Receiving -/

/-- `sendCTS` and `sendACK`. -/
def sendCtrl (c : CtrlFrame) : Except Fault Dcf := do
  assert (s.epktCTRL = none)
  .ok { s with epktCTRL := some c, made := s.made ++ [c] }

/-- An RTS is answered, if the station is idle. -/
def recvRTS (f : Frame) : Except Fault Dcf :=
  if s.tx_state ≠ .MAC_IDLE then .ok s
  else if s.epktCTRL.isSome then .ok s
  else do
    let s ← s.sendCtrl ⟨.CTS, f.dh_addr2⟩
    { s with mhDefer := .stopped }.tx_resume now

/-- The RTS of the station has been answered. -/
def recvCTS : Except Fault Dcf :=
  if s.tx_state ≠ .MAC_RTS then .ok s
  else do
    assert (s.epktRTS = true ∧ s.outgoing.isSome)
    { s with epktRTS := false, mhSend := .stopped, ssrc := 0, rtsTries := 0 }.tx_resume now

/-- The data frame of the station has been acknowledged. -/
def recvACK : Except Fault Dcf :=
  if s.tx_state ≠ .MAC_SEND then .ok s
  else
    match s.epktTx with
    | none => .error .assertion
    | some f => do
      let s := { s with epktTx := none, mhSend := .stopped }
      let s := if f.pktlen < p.aRTSThreshold then { s with ssrc := 0 } else { s with slrc := 0 }
      assert (s.mhBackoff.busy_ = false)
      (s.start_backoff now).tx_resume now

/-- `recvDATA`, up to the cache of sequence numbers and the upper layer. -/
def recvDATA (f : Frame) : Except Fault Dcf :=
  if f.dh_addr1 = etherbroadcastaddr then .ok s
  else if f.pkt_getlen ≥ p.aRTSThreshold then
    if s.tx_state = .MAC_CTS then do
      assert s.epktCTRL.isSome
      let s ← { s with epktCTRL := none, mhSend := .stopped, ssrc := 0 }.sendCtrl ⟨.ACK, f.dh_addr2⟩
      s.tx_resume now
    else .ok s
  else if s.epktCTRL.isSome then .ok s
  else do
    let s ← s.sendCtrl ⟨.ACK, f.dh_addr2⟩
    if s.mhSend.busy_ = false then s.tx_resume now else .ok s

/-- The frame is not for this station, which does not listen to others. -/
def Filtered (f : Frame) : Prop :=
  f.dh_addr1 ≠ etherbroadcastaddr ∧ f.dh_addr1 ≠ p.mac_ ∧ s.promiscuous = false

instance (f : Frame) : Decidable (s.Filtered p f) := inferInstanceAs (Decidable (_ ∧ _))

/-- The rest of `recvHandler` for a frame without errors. -/
def recvFrame (f : Frame) : Except Fault Dcf :=
  let s := if f.dh_addr1 ≠ p.mac_ then s.set_NAV now (p.MICRO_TO_TICK f.dh_duration) else s
  if s.Filtered p f then .ok s
  else
    match f.dh_fc with
    | .Management _ => s.recvDATA p now f
    | .RTS => s.recvRTS now f
    | .CTS => s.recvCTS now
    | .ACK => s.recvACK p now
    | .Data => s.recvDATA p now f
    | .invalid => .error .ErrorMesg

/-- The frame arrives without errors, collisions, and while the station does not send. -/
def Clear (f : Frame) : Prop :=
  s.tx_active = false ∧ s.rx_state ≠ .MAC_COLL ∧ f.pkt_err_ = false

instance (f : Frame) : Decidable (s.Clear f) := inferInstanceAs (Decidable (_ ∧ _))

/-- `recvHandler` up to `done`. -/
def arrive (f : Frame) : Except Fault Dcf :=
  if s.Clear f then s.recvFrame p now f
  else if s.tx_active then .ok s
  else .ok (s.set_NAV now p.eifs)

/-- The frame on the air has arrived. -/
def recvHandler : Except Fault Dcf :=
  match s.epktRx with
  | none => .error .assertion
  | some f => do
    assert (s.rx_state = .MAC_RECV ∨ s.rx_state = .MAC_COLL)
    let s ← s.arrive p now f
    assert (s.mhRecv.busy_ = false)
    .ok ({ s with epktRx := none }.setRxState now .MAC_IDLE)

/-- What `recv` makes of a frame that arrives during another one: it is much weaker, or both collide and
    the one that ends last goes on. -/
inductive Overlap where
  | capture (ticks : ℕ)
  | collision (last : Bool)
  deriving DecidableEq, Repr

/-- `recv`. -/
def recv (f : Frame) (overlap : Overlap) : Except Fault Dcf :=
  let f := if s.tx_active then { f with pkt_err_ := true } else f
  if s.rx_state = .MAC_IDLE then do
    let s := s.setRxState now .MAC_RECV
    assert (s.epktRx = none)
    .ok { s with epktRx := some f, mhRecv := .started }
  else
    match overlap with
    | .capture ticks => .ok (s.set_NAV now ticks)
    | .collision last => do
      let s := if s.rx_state = .MAC_RECV then s.setRxState now .MAC_COLL else s
      assert (s.epktRx.isSome ∧ s.mhRecv.busy_ = true)
      .ok (if last then { s with epktRx := some f, mhRecv := .started } else s)

/-! ## Runs -/

/-- A call of `send` or `recv`, the end of a timer, or a change of the variable `promiscuous`. -/
inductive Action where
  | send (f : Frame)
  | recv (f : Frame) (overlap : Overlap)
  | nav
  | sendTimer
  | deferTimer
  | backoffTimer
  | interface
  | recvTimer
  | promisc (on : Bool)
  deriving DecidableEq, Repr

/-- An action at a time. A timer that does not run does not end. -/
def step (s : Dcf) : ℕ × Action → Except Fault Dcf
  | (now, .send f) => s.send p now f
  | (now, .recv f overlap) => s.recv now f overlap
  | (now, .nav) => .ok (s.navHandler now)
  | (now, .sendTimer) =>
    if s.mhSend.busy_ then { s with mhSend := .stopped }.sendHandler p now else .ok s
  | (now, .deferTimer) =>
    if s.mhDefer.busy_ then { s with mhDefer := .stopped }.deferHandler p now else .ok s
  | (now, .backoffTimer) =>
    if s.mhBackoff = .started then { s with mhBackoff := .stopped }.backoffHandler p now else .ok s
  | (_, .interface) => .ok { s with tx_active := false }
  | (now, .recvTimer) =>
    if s.mhRecv.busy_ then { s with mhRecv := .stopped }.recvHandler p now else .ok s
  | (_, .promisc on) => .ok { s with promiscuous := on }

/-! ## Frames of others -/

/-- The handler of the frame does something. -/
def Acts (s : Dcf) (f : Frame) : Prop :=
  match f.dh_fc with
  | .RTS => s.tx_state = .MAC_IDLE ∧ s.epktCTRL = none
  | .CTS => s.tx_state = .MAC_RTS
  | .ACK => s.tx_state = .MAC_SEND
  | .Management _ | .Data =>
    f.dh_addr1 ≠ etherbroadcastaddr ∧
      if f.pkt_getlen ≥ p.aRTSThreshold then s.tx_state = .MAC_CTS else s.epktCTRL = none
  | .invalid => False

/-- Only a frame for this station is answered, and only a CTS or ACK for it counts. -/
structure OwnOnly (f : Frame) (s s' : Dcf) : Prop where
  made : s'.made ≠ s.made → f.dh_addr1 = p.mac_
  counts : f.dh_fc = .CTS ∨ f.dh_fc = .ACK →
    s'.epktRTS ≠ s.epktRTS ∨ s'.epktTx ≠ s.epktTx ∨ s'.mhSend ≠ s.mhSend ∨ s'.ssrc ≠ s.ssrc ∨
      s'.slrc ≠ s.slrc → f.dh_addr1 = p.mac_

/-! ## Retry limits -/

/-- The limit for the length class of a frame. -/
def limit (pktlen : Int) : ℕ := if pktlen < p.aRTSThreshold then aShortRetryLimit else aLongRetryLimit

/-- An RTS is given up at its limit, and a frame one attempt behind its own. -/
def Due : Dropped → Prop
  | .rts attempts => attempts = aShortRetryLimit
  | .data pktlen attempts => attempts = limit p pktlen + 1

/-- The counters are zero when the next frame is accepted, no frame is sent too often, and each one given
    up was sent often enough. -/
structure Limits (s : Dcf) : Prop where
  fresh : s.outgoing = none → s.ssrc = 0 ∧ s.slrc = 0
  rts : s.rtsTries ≤ aShortRetryLimit
  data : ∀ f ∈ s.outgoing, s.dataTries ≤ limit p f.pktlen + 1
  drops : ∀ d ∈ s.drops, Due p d

/-- `recvDATA` takes the frame in as the long one for which the station has sent a CTS. -/
def TakesLong (s : Dcf) (f : Frame) : Prop :=
  f.dh_fc.isData = true ∧ f.dh_addr1 ≠ etherbroadcastaddr ∧ f.pkt_getlen ≥ p.aRTSThreshold ∧
    s.tx_state = .MAC_CTS

instance (s : Dcf) (f : Frame) : Decidable (s.TakesLong p f) := inferInstanceAs (Decidable (_ ∧ _ ∧ _ ∧ _))

/-- A frame is not given up for its RTS after it has failed itself, and the station does not get a long
    frame while it waits to repeat an RTS or a short frame. -/
def Sane (s : Dcf) : ℕ × Action → Prop
  | (_, .sendTimer) => s.tx_state = .MAC_RTS → s.ssrc + 1 ≥ aShortRetryLimit → s.slrc = 0
  | (_, .recvTimer) => ∀ f ∈ s.epktRx, s.Clear f → ¬ s.Filtered p f → s.TakesLong p f → s.ssrc = 0
  | _ => True

instance (s : Dcf) : (i : ℕ × Action) → Decidable (Sane p s i)
  | (_, .send _) => .isTrue trivial
  | (_, .recv _ _) => .isTrue trivial
  | (_, .nav) => .isTrue trivial
  | (_, .sendTimer) => inferInstanceAs (Decidable (_ → _ → _))
  | (_, .deferTimer) => .isTrue trivial
  | (_, .backoffTimer) => .isTrue trivial
  | (_, .interface) => .isTrue trivial
  | (_, .recvTimer) => inferInstanceAs (Decidable (∀ f ∈ s.epktRx, _))
  | (_, .promisc _) => .isTrue trivial

end Dcf

end Wlan
