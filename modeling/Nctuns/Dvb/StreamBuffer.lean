import Nctuns.Lib.Ring

/-!
# Stream buffers

`Dvb_s2::Stream_buffer` (`dvb_s2.cc`): a circular buffer of bytes, and the list that it holds.
-/

namespace Dvb

open Memory

/-- `Dvb_s2::Stream_buffer`. -/
structure StreamBuffer where
  _data : Nat → Byte
  _front : Nat
  _rear : Nat
  _size : Nat
  _free : Nat

namespace StreamBuffer

/-- `Stream_buffer::Stream_buffer`; the new bytes are not initialised. -/
def new (size : Nat) (junk : Nat → Byte) : StreamBuffer where
  _data := junk
  _front := 0
  _rear := 0
  _size := size
  _free := size

/-- The bytes in the buffer. -/
def content_len (b : StreamBuffer) : Nat := b._size - b._free

/-- `Stream_buffer::get`: the bytes read. -/
def get (b : StreamBuffer) (len : Nat) : List Byte × StreamBuffer :=
  let len := if len > b.content_len then b.content_len else len
  (Ring.readAt b._data b._size b._front len,
    { b with _front := (b._front + len) % b._size, _free := b._free + len })

/-- `Stream_buffer::put` of the bytes `data`. -/
def put (b : StreamBuffer) (data : List Byte) : StreamBuffer × Int :=
  let len := data.length
  if len > b._free then (b, -1)
  else
    ({ b with
      _data := Ring.writeAt b._data b._size b._rear (ofList data fun _ => 0) len
      _rear := (b._rear + len) % b._size
      _free := b._free - len }, 0)

/-- The buffer holds the bytes `l`. -/
structure Contains (b : StreamBuffer) (l : List Byte) : Prop where
  holds : Ring.Holds b._data b._size b._front l
  front : 0 < b._size → b._front < b._size
  rear : b._rear = (b._front + l.length) % b._size
  free : b._free + l.length = b._size

variable {b : StreamBuffer} {l d : List Byte} {n : Nat}

theorem new_contains (size : Nat) (junk : Nat → Byte) : (new size junk).Contains [] where
  holds := ⟨Nat.zero_le _, fun k hk => absurd hk (Nat.not_lt_zero k)⟩
  front := id
  rear := (Nat.zero_mod size).symm
  free := rfl

theorem Contains.content_len (h : b.Contains l) : b.content_len = l.length := by
  have := h.free
  unfold StreamBuffer.content_len; omega

theorem Contains.get (h : b.Contains l) (n : Nat) :
    (b.get n).1 = l.take n ∧ (b.get n).2.Contains (l.drop n) ∧ (b.get n).2._size = b._size := by
  have hfree := h.free
  have hlen : (if n > b.content_len then b.content_len else n) = min n l.length := by
    rw [h.content_len]; split_ifs <;> omega
  have hdrop : l.drop n = l.drop (min n l.length) := by
    rcases Nat.le_total n l.length with hn | hn
    · rw [Nat.min_eq_left hn]
    · rw [Nat.min_eq_right hn, List.drop_of_length_le hn, List.drop_length]
  refine ⟨?_, ⟨?_, ?_, ?_, ?_⟩, rfl⟩
  · show Ring.readAt _ _ _ _ = _
    rw [hlen, h.holds.read h.front (Nat.min_le_right _ _), ← List.take_eq_take_min]
  · show Ring.Holds b._data b._size ((b._front + _) % b._size) _
    rw [hlen, hdrop]; exact h.holds.drop _
  · exact Nat.mod_lt _
  · show b._rear = ((b._front + _) % b._size + _) % b._size
    rw [hlen, h.rear, Nat.mod_add_mod, hdrop, List.length_drop]
    congr 1; omega
  · show b._free + _ + _ = b._size
    rw [hlen, hdrop, List.length_drop]; omega

theorem Contains.put (h : b.Contains l) (hd : l.length + d.length ≤ b._size) :
    (b.put d).1.Contains (l ++ d) ∧ (b.put d).1._size = b._size := by
  have hfree := h.free
  have hle : ¬ d.length > b._free := by omega
  unfold StreamBuffer.put
  dsimp only
  rw [if_neg hle]
  refine ⟨⟨h.holds.write h.rear hd, h.front, ?_, ?_⟩, rfl⟩
  · show (b._rear + _) % b._size = _
    rw [h.rear, Nat.mod_add_mod, List.length_append, Nat.add_assoc]
  · show b._free - _ + _ = b._size
    rw [List.length_append]; omega

end StreamBuffer

end Dvb
