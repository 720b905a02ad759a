import Mathlib.Algebra.Order.Ring.Int
import Nctuns.Lib.Run

/-!
# The 802.3 MAC

`mac8023.cc` in half-duplex mode: one frame to be sent, one being received, and the timers of the
transmission, the reception, the interframe space, the jam and the backoff. A one-shot timer is reset
before its handler is called. What `scheduleTime` computes with floating-point numbers is a parameter.
-/

namespace Mac

/-- A frame: its length with the padding added so far, whether it arrives with bit errors, and whether
    `pktFilter` drops it. -/
structure Frame where
  len : Nat
  padding : Nat
  CRCerror : Bool
  filtered : Bool
  deriving DecidableEq, Repr

/-- The bit times of a slot. -/
def IEEE_8023_SLOT : Nat := 512
/-- The attempts after which a frame is given up. -/
def IEEE_8023_ALIMIT : Nat := 16
/-- The attempt from which the back-off no longer grows. -/
def IEEE_8023_BLIMIT : Nat := 10
/-- The bytes of the check sequence of a frame. -/
def IEEE_8023_FCS_LEN : Nat := 4
/-- The bytes of the shortest frame. -/
def IEEE_8023_MINFRAME : Nat := 64

/-- The delays of `scheduleTime`, in ticks: of the interframe space, of a number of bits, and of a frame,
    which is random in part. `pktFilterOpt` says whether frames are filtered. -/
structure Mac8023Config where
  IFS : Nat
  bits : Nat → Nat
  frame : Frame → Nat → Nat
  pktFilterOpt : Bool

/-- What the station does. -/
inductive MacState where
  | MAC_IDLE
  | MAC_SEND
  | MAC_RECV
  | MAC_IFS
  | MAC_JAM
  deriving DecidableEq, Repr

/-- A timer is pending when it holds its expiry. `up` and `down` are the frames that went to
    `recvtarget_` and `sendtarget_`. -/
structure Mac8023 where
  now : Nat
  macState : MacState
  busy : Bool
  retxCnt : Nat
  pktRetx : Option Frame
  pktRx : Option Frame
  txTimer : Option Nat
  rxTimer : Option Nat
  retxTimer : Option Nat
  IFSTimer : Option Nat
  jamTimer : Option Nat
  IFSStartTick : Nat
  up : List Frame
  down : List Frame
  deriving DecidableEq, Repr

/-- A failed assertion. -/
inductive Halt where
  | assertion
  deriving DecidableEq, Repr

namespace Mac8023

/-- An idle station without a frame. -/
def init : Mac8023 where
  now := 0
  macState := .MAC_IDLE
  busy := false
  retxCnt := 1
  pktRetx := none
  pktRx := none
  txTimer := none
  rxTimer := none
  retxTimer := none
  IFSTimer := none
  jamTimer := none
  IFSStartTick := 0
  up := []
  down := []

variable (p : Mac8023Config)

/-- The gap between frames begins. -/
def IFSScheduler (s : Mac8023) : Except Halt Mac8023 :=
  if s.busy then .error .assertion
  else .ok { s with IFSStartTick := s.now, IFSTimer := some (s.now + p.IFS), busy := true }

/-- `_send`: carrier sense. -/
def _send (s : Mac8023) : Except Halt Mac8023 :=
  if s.macState ≠ .MAC_IDLE ∨ s.IFSTimer ≠ none ∨ s.retxTimer ≠ none then .ok s
  else if s.macState = .MAC_SEND then .error .assertion
  else IFSScheduler p { s with macState := .MAC_IFS }

/-- The frame will have left after its length in ticks. -/
def txScheduler (s : Mac8023) (pkt : Frame) (rand : Nat) : Except Halt Mac8023 :=
  if s.busy then .error .assertion
  else .ok { s with txTimer := some (s.now + p.frame pkt rand), busy := true }

set_option linter.style.nameCheck false in
/-- `__send`, with the frame that `txScheduler` asserts to be there. -/
def __send (s : Mac8023) (rand : Nat) : Except Halt Mac8023 :=
  match s.pktRetx with
  | none => .error .assertion
  | some pkt =>
    match txScheduler p { s with macState := .MAC_SEND } pkt rand with
    | .error e => .error e
    | .ok s => .ok { s with down := s.down ++ [pkt] }

/-- The station is idle, and sends a frame that waits. -/
def resume (s : Mac8023) : Except Halt Mac8023 :=
  if s.pktRx ≠ none ∨ s.rxTimer ≠ none ∨ s.txTimer ≠ none ∨ s.IFSTimer ≠ none then .error .assertion
  else
    let s := { s with macState := .MAC_IDLE }
    if s.pktRetx ≠ none ∧ s.retxTimer = none then s._send p else .ok s

/-- The frame is given up, or has been sent. -/
def retxReset (s : Mac8023) : Except Halt Mac8023 :=
  if s.busy then
    if s.pktRetx = none then .error .assertion
    else .ok { s with retxTimer := none, busy := false, pktRetx := none, retxCnt := 1 }
  else .ok { s with retxCnt := 1, pktRetx := none }

/-- `retxReset(); resume();` -/
def resetResume (s : Mac8023) : Except Halt Mac8023 :=
  match s.retxReset with
  | .error e => .error e
  | .ok s => s.resume p

/-- A back-off of some slots, or the frame is given up. -/
def retxScheduler (s : Mac8023) (rand : Nat) : Except Halt Mac8023 :=
  if s.pktRetx = none ∨ s.busy = true then .error .assertion
  else if s.retxCnt < IEEE_8023_ALIMIT then
    let k := min s.retxCnt IEEE_8023_BLIMIT
    let r := rand % 2 ^ k
    .ok { s with retxTimer := some (s.now + p.bits (r * IEEE_8023_SLOT)), busy := true }
  else s.resetResume p

/-! ## Handlers -/

/-- The frame has been sent. -/
def txHandler (s : Mac8023) : Except Halt Mac8023 :=
  if s.pktRetx = none then .error .assertion
  else { s with busy := false }.resetResume p

/-- The frame without its padding. -/
def unpad (pkt : Frame) : Frame :=
  if pkt.padding ≠ 0 then { pkt with len := pkt.len - pkt.padding, padding := 0 } else pkt

/-- `recvComplete`: a frame with bit errors, a jam frame or a filtered one goes no further. -/
def recvComplete (s : Mac8023) (pkt : Frame) : Except Halt Mac8023 :=
  if s.rxTimer ≠ none ∨ s.txTimer ≠ none then .error .assertion
  else if pkt.CRCerror = true ∨ pkt.len = 4 ∨ (p.pktFilterOpt = true ∧ pkt.filtered = true) then
    s.resume p
  else { s with up := s.up ++ [unpad pkt] }.resume p

/-- The frame has been received. -/
def rxHandler (s : Mac8023) : Except Halt Mac8023 :=
  match s.pktRx with
  | none => .error .assertion
  | some pkt => { s with pktRx := none }.recvComplete p pkt

/-- The back-off is over: the next attempt. -/
def retxHandler (s : Mac8023) : Except Halt Mac8023 :=
  if s.pktRetx = none ∨ s.busy = false then .error .assertion
  else { s with busy := false, retxCnt := s.retxCnt + 1 }._send p

/-- The gap is over: the frame is sent. -/
def IFSHandler (s : Mac8023) (rand : Nat) : Except Halt Mac8023 :=
  { s with busy := false }.__send p rand

/-- The jam is over: the back-off begins. -/
def jamHandler (s : Mac8023) (rand : Nat) : Except Halt Mac8023 :=
  if s.pktRetx = none ∨ s.retxTimer ≠ none then .error .assertion
  else { s with busy := false, macState := .MAC_IDLE }.retxScheduler p rand

/-- Another frame arrives while the station is not idle. -/
def collision (s : Mac8023) (rand : Nat) : Except Halt Mac8023 :=
  match s.macState with
  | .MAC_SEND =>
    if s.txTimer ≠ none ∧ s.busy = false then .error .assertion
    else
      let s := if s.txTimer ≠ none then { s with txTimer := none, busy := false } else s
      { s with macState := .MAC_IDLE }.retxScheduler p rand
  | .MAC_RECV => .ok { s with rxTimer := none, pktRx := none, macState := .MAC_IDLE }
  | .MAC_IFS =>
    if s.now - s.IFSStartTick ≤ p.IFS * 2 / 3 then
      { s with IFSTimer := none, busy := false, macState := .MAC_IDLE }._send p
    else if s.now - s.IFSStartTick ≤ p.IFS then .ok s
    else .error .assertion
  | .MAC_JAM => .ok s
  | .MAC_IDLE => .error .assertion

/-- A frame arrives. -/
def recv (s : Mac8023) (pkt : Frame) (rand : Nat) : Except Halt Mac8023 :=
  if s.macState = .MAC_IDLE then
    .ok { s with
      macState := .MAC_RECV
      pktRx := some pkt
      rxTimer := some (s.now + p.frame pkt rand) }
  else s.collision p rand

/-- The frame with the padding that `send` adds once. -/
def pad (pkt : Frame) : Frame :=
  if pkt.padding = 0 then
    let pktlen := pkt.len + IEEE_8023_FCS_LEN
    if pktlen < IEEE_8023_MINFRAME then
      { pkt with
        len := IEEE_8023_MINFRAME
        padding := IEEE_8023_FCS_LEN + (IEEE_8023_MINFRAME - pktlen) }
    else { pkt with len := pktlen, padding := IEEE_8023_FCS_LEN }
  else pkt

/-- `send`, which leaves a frame that comes while another is held to its sender. -/
def send (s : Mac8023) (pkt : Frame) : Except Halt Mac8023 :=
  if s.pktRetx ≠ none then s._send p else { s with pktRetx := some (pad pkt) }._send p

end Mac8023

/-- The timers of the station. -/
inductive MacTimer where
  | tx
  | rx
  | retx
  | IFS
  | jam
  deriving DecidableEq, Repr

/-- What happens to the module, with what `random` returns. -/
inductive Mac8023Action where
  | send (pkt : Frame)
  | recv (pkt : Frame) (rand : Nat)
  /-- Time passes, but not beyond the expiry of a timer. -/
  | elapse (ticks : Nat)
  | expire (timer : MacTimer) (rand : Nat)
  deriving DecidableEq, Repr

namespace Mac8023

variable (p : Mac8023Config)

/-- When a timer expires, if it runs. -/
def timer (s : Mac8023) : MacTimer → Option Nat
  | .tx => s.txTimer
  | .rx => s.rxTimer
  | .retx => s.retxTimer
  | .IFS => s.IFSTimer
  | .jam => s.jamTimer

/-- The handler of a timer, which has been reset. -/
def handler (s : Mac8023) (rand : Nat) : MacTimer → Except Halt Mac8023
  | .tx => { s with txTimer := none }.txHandler p
  | .rx => { s with rxTimer := none }.rxHandler p
  | .retx => { s with retxTimer := none }.retxHandler p
  | .IFS => { s with IFSTimer := none }.IFSHandler p rand
  | .jam => { s with jamTimer := none }.jamHandler p rand

/-- The time at which the next timer expires, if it is before `t`. -/
def nextExpiry (s : Mac8023) (t : Nat) : Nat :=
  [s.txTimer, s.rxTimer, s.retxTimer, s.IFSTimer, s.jamTimer].foldl
    (fun t expiry => min t (expiry.getD t)) t

/-- A frame from above or below, time passing, or a timer that expires. -/
def step (s : Mac8023) : Mac8023Action → Except Halt Mac8023
  | .send pkt => s.send p pkt
  | .recv pkt rand => s.recv p pkt rand
  | .elapse ticks => .ok { s with now := max s.now (s.nextExpiry (s.now + ticks)) }
  | .expire timer rand =>
    match s.timer timer with
    | none => .ok s
    | some expiry => if expiry ≤ s.now then s.handler p rand timer else .ok s

/-- A frame that waits while the medium is idle will be tried again. -/
def Waits (s : Mac8023) : Prop :=
  s.pktRetx ≠ none → s.macState = .MAC_IDLE → s.IFSTimer ≠ none ∨ s.retxTimer ≠ none

/-- No frame collides with one being received while a frame waits without a backoff. -/
def Spared (s : Mac8023) : Mac8023Action → Prop
  | .recv .. => s.macState = .MAC_RECV → s.pktRetx ≠ none → s.retxTimer ≠ none
  | _ => True

instance (s : Mac8023) : Decidable s.Waits := inferInstanceAs (Decidable (_ → _ → _))

instance Spared.decidable (s : Mac8023) : (a : Mac8023Action) → Decidable (s.Spared a)
  | .recv .. => inferInstanceAs (Decidable (s.macState = .MAC_RECV → s.pktRetx ≠ none → s.retxTimer ≠ none))
  | .send _ => .isTrue trivial
  | .elapse _ => .isTrue trivial
  | .expire .. => .isTrue trivial

end Mac8023

end Mac
