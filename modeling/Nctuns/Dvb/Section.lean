import Nctuns.Lib.LittleEndian

/-!
# Tables in sections

What `sct_section.cc` and `tbtp_section.cc` share: a table is a queue of entries that is cut into
sections between two entries, and a handler puts the entries of all sections it gets into a new
table, until it has seen a section of every number. A `TableFormat` has what differs. The CRC, which
the module below checks, is left out; a section is its draft and the bytes between draft and CRC.
-/

namespace Dvb

namespace SectionConst

/-- The bytes of a section up to its length field. -/
def SECTION_DRAFT_SIZE : UInt32 := 3
/-- The bytes of a checksum. -/
def CRC32_SIZE : UInt32 := 4
/-- The sections for which `_section_length` has room. -/
def MAX_SECTIONS : Nat := 1000

/-- `MAX_SCT_SECTION_SIZE_NO_INCLUDING_CRC32` and its sibling for TBTPs. -/
def MAX_SECTION_SIZE_NO_INCLUDING_CRC32 : UInt32 := 1024 - 4

end SectionConst

open SectionConst

/-- How a table or a section fails. -/
inductive SectionHalt where
  | assertion
  /-- More sections than `_section_length` has room for. -/
  | tooManySections
  /-- A walk over the entries goes on behind the last one. -/
  | pastEnd
  /-- Bytes behind the section are read. -/
  | overread
  deriving DecidableEq, Repr

/-- The fields of `Section_draft` and `Si_type_a_section_draft`, and `loop_count` behind them.
    `more` has the other fields of a `Tbtp_section_draft`. -/
structure SectionDraft (δ : Type) where
  section_length : UInt16
  network_id : UInt16
  version_number : UInt8
  current_next_indicator : UInt8
  section_number : UInt8
  last_section_number : UInt8
  more : δ
  loop_count : UInt8
  deriving DecidableEq, Repr

/-- A section: its fields, and the bytes of its entries. -/
structure TableSection (δ : Type) where
  draft : SectionDraft δ
  info : List UInt8
  deriving DecidableEq, Repr

/-- `Sct` or `Tbtp`, `entries` from the head of the queue on. -/
structure SiTable (δ ι : Type) where
  network_id : UInt16
  version_number : UInt8
  current_next_indicator : UInt8
  more : δ
  loop_count : Nat
  entries : List ι
  deriving DecidableEq, Repr

/-- What the cutting of a table needs to know of its kind. -/
structure TableFormat (ι : Type) where
  DRAFT_SIZE : UInt32
  /-- `superframe_info_len` or `frame_info_len`. -/
  info_len : ι → UInt32
  /-- The bytes that `table_to_section` copies of an entry. -/
  put : ι → List UInt8
  /-- The entry that `to_table` makes of the bytes at hand, and the bytes behind it. -/
  get : List UInt8 → Except SectionHalt (ι × List UInt8)
  /-- What `to_table` takes off `_total_info_len`. -/
  partial_header : Nat
  /-- Where the loop count of a table wraps. -/
  loop_count_limit : Nat

variable {δ ι : Type}

/-- The first entry of a queue with `p` changed. -/
def modifyFirst (p : ι → Bool) (f : ι → ι) : List ι → List ι
  | [] => []
  | e :: es => if p e then f e :: es else e :: modifyFirst p f es

/-! ## Cutting a table -/

variable (F : TableFormat ι)

namespace TableFormat

/-- The length of a section that is closed at `_offset`. -/
def closed (_offset : UInt32) : UInt16 := (_offset - SECTION_DRAFT_SIZE + CRC32_SIZE).toUInt16

/-- The loop of `_calculate_last_section_number_and_section_lengths`. -/
def section_lengths : UInt32 → List ι → List UInt16
  | _offset, [] => [closed _offset]
  | _offset, e :: es =>
    let _new_offset := _offset + F.info_len e
    if _new_offset ≤ MAX_SECTION_SIZE_NO_INCLUDING_CRC32 then section_lengths _new_offset es
    else closed _offset :: section_lengths (F.DRAFT_SIZE + F.info_len e) es

/-- The loop of `table_to_section`: how many entries there are up to `stop`, their bytes, and the
    entries left. -/
def fill (stop : UInt32) : UInt32 → List ι → Except SectionHalt (UInt8 × List UInt8 × List ι)
  | _offset, [] => if _offset = stop then .ok (0, [], []) else .error .pastEnd
  | _offset, e :: es =>
    if _offset = stop then .ok (0, [], e :: es)
    else do
      let (count, bytes, rest) ← fill stop (_offset + UInt32.ofNat (F.put e).length) es
      .ok (count + 1, F.put e ++ bytes, rest)

/-- `table_to_section` once for each section, the numbers `_current_section_number` on. -/
def table_to_section (t : SiTable δ ι) (_last_section_number : UInt16) :
    UInt16 → List UInt16 → List ι → Except SectionHalt (List (TableSection δ))
  | _, [], _ => .ok []
  | _current_section_number, size :: sizes, es => do
    let total := size.toUInt32 + SECTION_DRAFT_SIZE
    let (count, bytes, rest) ← F.fill (total - CRC32_SIZE) F.DRAFT_SIZE es
    let tail ← table_to_section t _last_section_number (_current_section_number + 1) sizes rest
    .ok
      ({ draft :=
          { section_length := size % 4096
            network_id := t.network_id
            version_number := t.version_number % 32
            current_next_indicator := t.current_next_indicator % 2
            section_number := _current_section_number.toUInt8
            last_section_number := _last_section_number.toUInt8
            more := t.more
            loop_count := count - 1 }
         info := bytes } :: tail)

/-- All sections of a table. -/
def sections (t : SiTable δ ι) : Except SectionHalt (List (TableSection δ)) :=
  let sizes := F.section_lengths F.DRAFT_SIZE t.entries
  if t.entries = [] then .error .assertion
  else if sizes.length > MAX_SECTIONS then .error .tooManySections
  else F.table_to_section t (UInt16.ofNat (sizes.length - 1)) 0 sizes t.entries

end TableFormat

/-! ## Putting a table together -/

/-- The word of `k` bytes at the position of a scan. -/
def word (k : Nat) (l : List UInt8) : Except SectionHalt (Nat × List UInt8) :=
  match LittleEndian.read k l with
  | some r => .ok r
  | none => .error .overread

/-- `Sct_section_to_table_handler` or its sibling for TBTPs. -/
structure SectionHandler (δ ι : Type) where
  _last_section_number : UInt8
  _received : UInt8 → Bool
  table : SiTable δ ι

namespace SectionHandler

/-- `init`. -/
def init (draft : SectionDraft δ) : SectionHandler δ ι where
  _last_section_number := draft.last_section_number
  _received := fun _ => false
  table :=
    { network_id := draft.network_id
      version_number := draft.version_number
      current_next_indicator := draft.current_next_indicator
      more := draft.more
      loop_count := 0
      entries := [] }

/-- All sections up to the last one have arrived. -/
def _is_complete (h : SectionHandler δ ι) : Bool :=
  (List.range (h._last_section_number.toNat + 1)).all fun i => h._received (UInt8.ofNat i)

end SectionHandler

/-- The loop of `to_table`, `pos` bytes behind the draft in a part of `total` bytes. With a round for
    each byte the loop ends before `fuel` does. -/
def TableFormat.scan (total : Int) : Nat → Nat → List UInt8 → SiTable δ ι →
    Except SectionHalt (SiTable δ ι)
  | 0, _, _, _ => .error .overread
  | fuel + 1, pos, l, t =>
    if (pos : Int) < total then do
      let (e, rest) ← F.get l
      scan total fuel (pos + (l.length - rest.length)) rest
        { t with
          loop_count := (t.loop_count + 1) % F.loop_count_limit
          entries := e :: t.entries }
    else .ok t

/-- A section that is currently applicable turns the table's flag on. -/
def SiTable.turnOn (t : SiTable δ ι) (_current_next_indicator : UInt8) : SiTable δ ι :=
  if _current_next_indicator = 1 then { t with current_next_indicator := 1 } else t

namespace SectionHandler

/-- `to_table`: the handler afterwards, and the table if it is complete. -/
def to_table (h : SectionHandler δ ι) (s : TableSection δ) :
    Except SectionHalt (SectionHandler δ ι × Option (SiTable δ ι)) := do
  let _total_info_len := (s.draft.section_length - CRC32_SIZE.toUInt16).toNat
  let t := h.table.turnOn s.draft.current_next_indicator
  let t ← F.scan (_total_info_len - F.partial_header : Int) (s.info.length + 1) 0 s.info t
  let h := { h with
    _received := fun i => i == s.draft.section_number || h._received i
    table := t }
  .ok (h, if h._is_complete then some t else none)

/-- Sections handed to a handler until it returns a table. -/
def collect (h : SectionHandler δ ι) : List (TableSection δ) →
    Except SectionHalt (Option (SiTable δ ι))
  | [] => .ok none
  | s :: ss => do
    match ← h.to_table F s with
    | (_, some t) => .ok (some t)
    | (h, none) => h.collect ss

end SectionHandler

/-- What a new handler makes of the sections that arrive: it is initialised by the first one. -/
def TableFormat.reassemble : List (TableSection δ) → Except SectionHalt (Option (SiTable δ ι))
  | [] => .ok none
  | s :: ss => (SectionHandler.init s.draft).collect F (s :: ss)

/-- Of `n` sections, those with the numbers in `as` are all that the handler waits for: section
    numbers have eight bits. -/
def Covers (n : Nat) (as : List Nat) : Prop := ∀ i ≤ (n - 1) % 256, ∃ k ∈ as, k % 256 = i

instance (n : Nat) (as : List Nat) : Decidable (Covers n as) :=
  inferInstanceAs (Decidable (∀ i ≤ (n - 1) % 256, ∃ k ∈ as, k % 256 = i))

/-- The arrivals up to the one that completes the table. -/
def CompletedBy (n : Nat) (as pre : List Nat) : Prop :=
  pre <+: as ∧ Covers n pre ∧ ∀ q, q <+: pre → Covers n q → q = pre

/-- Of the arrivals, those of each section that carries an entry are just one. -/
def OnceEach (secs : List (TableSection δ)) (pre : List Nat) : Prop :=
  ∀ k s, secs[k]? = some s → s.info ≠ [] → pre.count k = 1

end Dvb
