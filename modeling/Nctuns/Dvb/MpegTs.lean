import Mathlib.Algebra.Order.Ring.Int
import Mathlib.Logic.Function.Basic
import Nctuns.Lib.Lossy
import Nctuns.Lib.Memory

/-!
# MPEG-2 transport stream: sections in packets

`mpeg2_ts_sp.cc`, `mpeg2_ts_ncc.cc` (the senders) and `mpeg2_ts_rcst.cc` (the receiver): a section is
cut into packets of 188 bytes, 4 of header and 184 of payload, numbered for each PID by a continuity
counter of 4 bits. What `malloc` returns is not initialised: the contents of every new buffer are an
input.
-/

namespace Dvb

open Memory

/-- The identifier of a stream. -/
abbrev Pid := Fin (2 ^ 13)

/-- A packet: the fields of `Ts_header` that the receiver reads, and the 184 bytes behind it. -/
structure TsPacket where
  payload_unit_start_indicator : Bool
  pid : Pid
  continuity_counter : Nat
  data : Nat → Byte

/-- `Section_draft::get_section_length`: the upper 12 bits of the 16 bits behind the table id, which
    the bit-fields of the supported compiler fill from the low end. -/
def get_section_length (section_ : Nat → Byte) : Nat :=
  (section_ 1).toNat / 16 + 16 * (section_ 2).toNat

/-- `(int)ceil(len / 184.0)`. -/
def tsPacketCount (len : Nat) : Nat := (len + 183) / 184

/-! ## The senders -/

/-- The packet that the loop of `send` makes in round `i`: `conti_cnt` is the counter of the PID
    before the section, `junk` what `malloc` returned for the packet. -/
def tsPacket (pid : Pid) (conti_cnt : Nat) (data_ptr : Nat → Byte) (len : Nat) (junk : Nat → Byte)
    (i : Nat) : TsPacket where
  payload_unit_start_indicator := i == 0
  pid := pid
  continuity_counter := (conti_cnt + i) % 16
  data := copy junk 0 (fun k => data_ptr (184 * i + k))
    (if tsPacketCount len - i = 1 then len % 184 else 184)

/-- A section to be sent and what `malloc` returns for each of its packets. -/
structure Section where
  bytes : List Byte
  junk : Nat → Nat → Byte

/-- The section in the memory of the sender. -/
def Section.data (s : Section) : Nat → Byte := ofList s.bytes fun _ => 0

/-- The packets of a section. -/
def Section.packets (s : Section) (pid : Pid) (conti_cnt : Nat) : List TsPacket :=
  (List.range (tsPacketCount s.bytes.length)).map fun i =>
    tsPacket pid conti_cnt s.data s.bytes.length (s.junk i) i

/-- The continuity counters of a sender, one for each PID that it has sent on. -/
abbrev ContiCount := Pid → Option Nat

/-- The common part of both `send` functions: the packets of a section and the counters after it. -/
def sendSection (cc : ContiCount) (section_pid : Pid) (s : Section) : List TsPacket × ContiCount :=
  let conti_cnt := (cc section_pid).getD 0
  (s.packets section_pid conti_cnt,
    Function.update cc section_pid (some ((conti_cnt + tsPacketCount s.bytes.length) % 16)))

/-- The two senders, which differ in how they hand a packet to the layer below. -/
inductive TsSender where
  | sp
  | ncc

/-- `Mpeg2_ts_sp::send` and `Mpeg2_ts_ncc::send`. -/
def TsSender.send : TsSender → ContiCount → Pid → Section → List TsPacket × ContiCount
  | .sp => sendSection
  | .ncc => sendSection

/-- The packets of the sections sent one after another on a PID. -/
def TsSender.sendAll (sender : TsSender) (cc : ContiCount) (pid : Pid) : List Section → List TsPacket
  | [] => []
  | s :: ss => (sender.send cc pid s).1 ++ sender.sendAll (sender.send cc pid s).2 pid ss

/-! ## The receiver -/

/-- `sec_info`: the section that is being received on a PID. -/
structure SecInfo where
  ts_pkt_cnt : Nat
  next_conti_cnt : Nat
  sect_len : Nat
  data_ptr : Nat → Byte

/-- A packet that arrives, and what `malloc` returns if it starts a section. -/
structure Arrival where
  pkt : TsPacket
  fresh : Nat → Byte

/-- The new entry for a packet that starts a section. -/
def SecInfo.new (a : Arrival) : SecInfo :=
  let sect_len := get_section_length a.pkt.data + 3
  { ts_pkt_cnt := tsPacketCount sect_len % 256
    next_conti_cnt := (a.pkt.continuity_counter + 1) % 16
    sect_len := sect_len
    data_ptr := a.fresh }

/-- The payload of a packet goes to its place in the section. -/
def SecInfo.put (si : SecInfo) (pkt : TsPacket) : SecInfo :=
  let off := 184 * (tsPacketCount si.sect_len - si.ts_pkt_cnt)
  { si with
    ts_pkt_cnt := (si.ts_pkt_cnt + 255) % 256
    next_conti_cnt := (pkt.continuity_counter + 1) % 16
    data_ptr :=
      if si.ts_pkt_cnt = 1 ∧ si.sect_len % 184 ≠ 0 then
        copy si.data_ptr off pkt.data (si.sect_len % 184)
      else copy si.data_ptr off pkt.data 184 }

/-- What `Mpeg2_ts_rcst::recv` does with the entry of the packet's PID: the entry after it, and the
    section that is complete. -/
def recvEntry (curr : Option SecInfo) (a : Arrival) : Option SecInfo × Option (List Byte) :=
  let accept (si : SecInfo) : Option SecInfo × Option (List Byte) :=
    let si := si.put a.pkt
    if si.ts_pkt_cnt = 0 then (none, some (read si.data_ptr si.sect_len)) else (some si, none)
  if a.pkt.payload_unit_start_indicator then accept (.new a)
  else
    match curr with
    | some si =>
      if a.pkt.continuity_counter = si.next_conti_cnt then accept si else (none, none)
    | none => (none, none)

/-- `Mpeg2_ts_rcst`: the entries of the list `si_start`, at most one for each PID. -/
abbrev TsRcst := Pid → Option SecInfo

/-- `Mpeg2_ts_rcst::recv`: the entries after a packet, and the section handed up. -/
def TsRcst.recv (st : TsRcst) (a : Arrival) : TsRcst × Option (List Byte) :=
  let (entry, out) := recvEntry (st a.pkt.pid) a
  (Function.update st a.pkt.pid entry, out)

/-- The sections handed up, with their PIDs. -/
def TsRcst.recvAll (st : TsRcst) : List Arrival → List (Pid × List Byte)
  | [] => []
  | a :: as => ((st.recv a).2.map (a.pkt.pid, ·)).toList ++ (st.recv a).1.recvAll as

/-- The sections handed up on one PID to a receiver that starts without entries. -/
def deliveredOn (pid : Pid) (as : List Arrival) : List (List Byte) :=
  ((TsRcst.recvAll (fun _ => none) as).filter (·.1 = pid)).map Prod.snd

/-! ## What the transport is for -/

/-- A section of 4 to 4098 bytes whose length field is right. -/
def ValidSection (bytes : List Byte) : Prop :=
  4 ≤ bytes.length ∧ bytes.length ≤ 4098 ∧
    get_section_length (ofList bytes fun _ => 0) + 3 = bytes.length

instance (bytes : List Byte) : Decidable (ValidSection bytes) :=
  inferInstanceAs (Decidable (_ ∧ _))

/-- The packets of a PID among those that arrive. -/
def packetsOn (pid : Pid) (as : List Arrival) : List TsPacket :=
  (as.map Arrival.pkt).filter (·.pid = pid)

/-- Whatever the buffers contain, whatever arrives on other PIDs in between: without losses the
    sections sent on `pid` are delivered as they are, and when fewer than 16 packets in a row are
    lost, the sections delivered are sections that were sent, in order. -/
def Transports (sender : TsSender) (pid : Pid) (sections : List (List Byte)) : Prop :=
  ∀ ss : List Section, ss.map Section.bytes = sections → ∀ as : List Arrival,
    (packetsOn pid as = sender.sendAll (fun _ => none) pid ss → deliveredOn pid as = sections) ∧
    (Lossy.Survives 16 0 (sender.sendAll (fun _ => none) pid ss) (packetsOn pid as) →
      (deliveredOn pid as).Sublist sections)

end Dvb
