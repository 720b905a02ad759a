import Nctuns.Wimax.Connection

/-!
# The bandwidth report of a data connection

`GetInformation` counts the bytes that a connection needs for its packets, in an `int`; `EncapsulateAll`
returns those that it has sent, in an `unsigned int`.
-/

namespace Wimax

/-- A sum of lengths does not fit into an `int`. -/
inductive IntOverflow where
  | intOverflow
  deriving DecidableEq, Repr

/-- A sum of two `int`s that are not negative. -/
def addInt (a b : ℕ) : Except IntOverflow ℕ :=
  if a + b < 2 ^ 31 then .ok (a + b) else .error .intOverflow

namespace Connection

variable {k : ConnClass}

/-- Nothing waits to be sent. -/
def Empty (c : Connection k) : Bool := c.qPkt.isNone && c.PduQ.isEmpty

/-- `hlen + len + padding`. -/
def reported (c : Connection k) (hlen len : ℕ) : Except IntOverflow ℕ := do
  let n ← addInt hlen len
  addInt n c.padding

/-- `GetInformation`: the total and what it puts into `info`. -/
def GetInformation (c : Connection k) : Except IntOverflow (ℕ × List ℕ) := do
  let first ← match c.qPkt with
    | none => .ok (0, [])
    | some pkt => do
      let n ← c.reported (c.GetHeaderLength + 1) (pkt.pkt_getlen - c.qLen)
      .ok (n, [n])
  c.PduQ.foldlM (fun r pkt => do
    let n ← c.reported c.GetHeaderLength pkt.pkt_getlen
    let totallen ← addInt r.1 n
    .ok (totallen, r.2 ++ [n])) first

/-- `sendlen` at the end of the loop of `EncapsulateAll` over the queue. -/
def queueSendlen (hlen padding maxlen : ℕ) : List (DataPacket k) → ℕ → ℕ
  | [], sendlen => sendlen
  | pkt :: rest, sendlen =>
    let pdulen := hlen + pkt.pkt_getlen + padding
    if (sendlen + pdulen) % 2 ^ 32 ≤ maxlen then
      let sendlen := (sendlen + pdulen) % 2 ^ 32
      if maxlen ≤ sendlen + 6 + padding then sendlen
      else queueSendlen hlen padding maxlen rest sendlen
    else
      let pdulen := (maxlen - sendlen) % 2 ^ 32
      if hlen + 1 + padding ≥ pdulen then sendlen else (sendlen + pdulen) % 2 ^ 32

/-- What `EncapsulateAll` returns. -/
def sendlen (c : Connection k) (maxlen : ℕ) : ℕ :=
  match c.qPkt with
  | none => queueSendlen c.GetHeaderLength c.padding maxlen c.PduQ 0
  | some pkt =>
    let hlen := c.GetHeaderLength + 1
    if hlen + c.padding ≥ maxlen then 0
    else
      let pdulen := hlen + pkt.pkt_getlen - c.qLen + c.padding
      if pdulen ≤ maxlen then queueSendlen c.GetHeaderLength c.padding maxlen c.PduQ pdulen
      else maxlen % 2 ^ 32

/-- A packet is queued, or a burst is filled. -/
inductive Call (k : ConnClass) where
  | Insert (pkt : DataPacket k)
  | EncapsulateAll (maxlen : ℕ)

/-- The connection after a call. -/
def call (c : Connection k) : Call k → Connection k
  | .Insert pkt => c.Insert pkt
  | .EncapsulateAll maxlen => (c.EncapsulateAll maxlen).2

/-- The lengths of the PDUs that would send all packets to their ends. -/
def needed (c : Connection k) : List ℕ :=
  (c.qPkt.toList.map fun p => c.GetHeaderLength + 1 + (p.pkt_getlen - c.qLen) + c.padding) ++
    c.PduQ.map fun p => c.GetHeaderLength + p.pkt_getlen + c.padding

/-- In a burst of the reported total everything is sent, nothing of it as a new fragment; in a smaller
    one no more than fits. -/
def ReportAgrees (c : Connection k) : Prop :=
  ∃ total info, c.GetInformation = .ok (total, info) ∧ c.sendlen total = total ∧
    (c.EncapsulateAll total).2.Empty = true ∧
    (∀ pdu ∈ (c.EncapsulateAll total).1, ∀ f ∈ fraghdr pdu, f.fc = .frgLast) ∧
    ∀ maxlen < total, c.sendlen maxlen ≤ maxlen

end Connection

end Wimax
