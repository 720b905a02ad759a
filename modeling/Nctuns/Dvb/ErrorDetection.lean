import Nctuns.Dvb.RcsAtm

/-!
# Error detection in sections, PDUs and cells

`crc_okay` and `fill_crc` (`section_draft.cc`), and what `Rcs_atm` accepts. A receiver joins the word
that came with the data and its own CRC by an inclusive or and compares the result with a mask.
-/

namespace Dvb

open Memory

/-! ### Sections -/

/-- `section_total_length`: the twelve bits of `_section_length`, and `SECTION_DRAFT_SIZE`. -/
def section_total_length (buf : List Byte) : Nat :=
  (buf.getD 1 0).toNat / 16 + 16 * (buf.getD 2 0).toNat + 3

/-- `fill_crc`. -/
def fill_crc (buf : List Byte) : List Byte :=
  let offset := section_total_length buf - 4
  let crc32 := ~~~ CRC32 (buf.take offset) IEEE_8023_CRC32_POLY 1
  buf.take offset ++ LittleEndian.bytes 4 crc32.toNat ++ buf.drop (offset + 4)

/-- `crc_okay`. -/
def crc_okay (buf : List Byte) : Bool :=
  let offset := section_total_length buf - 4
  let crc32 : UInt32 := .ofNat (LittleEndian.value ((buf.drop offset).take 4))
  decide (crc32 ||| CRC32 (buf.take offset) IEEE_8023_CRC32_POLY 1 = 0xFFFFFFFF)

/-- A section as its own length has it, with a CRC field. -/
structure SectionBuf where
  bytes : List Byte
  whole : section_total_length bytes = bytes.length
  crc : 4 ≤ bytes.length

namespace SectionBuf

/-- The section without its checksum. -/
def rest (s : SectionBuf) : List Byte := s.bytes.take (s.bytes.length - 4)

/-- The CRC field. -/
def stored (s : SectionBuf) : UInt32 :=
  .ofNat (LittleEndian.value (s.bytes.drop (s.bytes.length - 4)))

/-- What `fill_crc` writes into it. -/
def written (s : SectionBuf) : UInt32 := ~~~ CRC32 s.rest IEEE_8023_CRC32_POLY 1

end SectionBuf

/-! ### PDUs -/

/-- A PDU whose payload and padding are what is in front of the trailer. -/
structure Aal5Frame extends Aal5Pdu where
  whole : toAal5Pdu.payload_len + padding_len.toNat = trailer
  payload : 0 < toAal5Pdu.payload_len

namespace Aal5Frame

/-- The bytes of the frame up to the end of its trailer. -/
def bytes (p : Aal5Frame) : List Byte := read p.data (p.trailer + AAL5_TRAILER_LEN)

/-- The frame without its checksum. -/
def rest (p : Aal5Frame) : List Byte := read p.data (p.trailer + 4)

/-- What `_encapsulation_aal5` writes behind such bytes. -/
def written (p : Aal5Frame) : UInt32 := ~~~ CRC32 p.rest IEEE_8023_CRC32_POLY 1

/-- The receiver takes the payload out of the frame. -/
def Accepted (p : Aal5Frame) : Prop :=
  ∃ payload, RcsAtm._de_encapsulation_aal5 p.toAal5Pdu = .ok (some payload)

end Aal5Frame

/-! ### Cells -/

namespace AtmCell

/-- The five bytes of a cell header. -/
def headerBytes (c : AtmCell) : List Byte := [c.header0, c.header1, c.header2, c.header3, c.hec]

/-- What `_segmentation_atm` writes into `hec`. -/
def written (c : AtmCell) : Byte := ~~~ c.headerCrc

end AtmCell

/-! ### Errors -/

/-- Two blocks differ in one bit. -/
def OneBit (l l' : List Byte) : Prop :=
  ∃ pre b post, ∃ j : Fin 8, l = pre ++ b :: post ∧
    l' = pre ++ (b ^^^ ((0x80 : Byte) >>> UInt8.ofNat j)) :: post

/-- A word has all one bits of another one, and more. -/
def Exceeds {α : Type} [AndOp α] (stored written : α) : Prop :=
  stored &&& written = written ∧ stored ≠ written

instance {α : Type} [AndOp α] [DecidableEq α] (stored written : α) :
    Decidable (Exceeds stored written) :=
  inferInstanceAs (Decidable (_ ∧ _))

end Dvb
