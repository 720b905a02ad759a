import Nctuns.Packet.HdrStack

/-!
# What the header stack answers

`pkt_pushproto` writes the entry at `sp` and moves on, so the top is below `sp`; `pkt_popproto` and
`pkt_curproto` read the entry at `sp`. The stack itself is right all the time, the answers are where
the entry that was read happens to be the same.
-/

namespace Packet

open Memory

namespace HdrHistory

variable {w w' : HdrHistory} {c : HdrCall} {cs : List HdrCall}

/-- The stack holds what was pushed and not popped. -/
structure Holds (w : HdrHistory) : Prop where
  sp : w.stack.sp = w.pushed.length
  room : w.pushed.length ≤ MAX_HDR_PROTO
  entry : ∀ i (h : i < w.pushed.reverse.length), w.stack.entry i = some w.pushed.reverse[i]

/-- The top of the stack is the entry below `sp`. -/
theorem Holds.top (h : w.Holds) {proto : Byte} (hp : proto ∈ w.pushed.head?) :
    w.stack.entry (w.stack.sp - 1) = some proto := by
  obtain ⟨rest, hrest⟩ := List.head?_eq_some_iff.1 hp
  have hentry := h.entry (w.stack.sp - 1) (by rw [h.sp, hrest]; simp)
  rw [hentry]
  simp [h.sp, hrest]

theorem Holds.pushed_ne_nil (h : w.Holds) : w.stack.sp ≠ 0 ↔ w.pushed ≠ [] := by
  rw [h.sp, ne_eq, List.length_eq_zero_iff]

theorem Holds.push (h : w.Holds) {proto : Byte} {len : UInt32}
    (hroom : w.pushed.length < MAX_HDR_PROTO) :
    Holds { w with stack := (w.stack.pkt_pushproto proto len).2, pushed := proto :: w.pushed } := by
  have hsp : ¬ w.stack.sp ≥ MAX_HDR_PROTO := by rw [h.sp]; omega
  constructor
  · rw [HdrStack.pkt_pushproto, if_neg hsp, List.length_cons, h.sp]
  · exact hroom
  · intro i hi
    simp only [HdrStack.pkt_pushproto, if_neg hsp, HdrStack.entry, List.reverse_cons] at hi ⊢
    rcases Nat.lt_or_ge i w.pushed.length with hlt | hge
    · have hold := h.entry i (by simpa using hlt)
      rw [Function.update_of_ne (by rw [h.sp]; omega), List.getElem_append_left (by simpa using hlt)]
      exact hold
    · obtain rfl : i = w.pushed.length := by simp at hi; omega
      rw [h.sp, Function.update_self, if_pos hroom]
      simp

theorem Holds.pop (h : w.Holds) (hne : w.pushed ≠ []) {answers : List (Option Byte × Byte)} :
    Holds ⟨w.stack.pkt_popproto.2, w.pushed.tail, answers⟩ := by
  have hsp : w.stack.sp ≠ 0 := h.pushed_ne_nil.2 hne
  obtain ⟨proto, rest, hrest⟩ := List.exists_cons_of_ne_nil hne
  have hroom := h.room
  have hlen := h.sp
  rw [hrest, List.length_cons] at hroom hlen
  constructor
  · simp [HdrStack.pkt_popproto, hlen, hrest]
  · simp only [hrest, List.tail_cons]
    omega
  · intro i hi
    simp only [hrest, List.tail_cons] at hi
    have hold := h.entry i (by simp [hrest] at hi ⊢; omega)
    simp only [HdrStack.pkt_popproto, if_neg hsp, hrest, List.tail_cons]
    simp only [hrest, List.reverse_cons, List.getElem_append_left hi] at hold
    exact hold

/-- A step keeps the stack. -/
theorem Holds.step (h : w.Holds) (hc : w.Balanced c) (hstep : w.step c = .ok w') : w'.Holds := by
  cases c with
  | pkt_pushproto proto len =>
    cases hstep
    exact h.push hc
  | pkt_popproto =>
    cases hstep
    exact h.pop hc
  | pkt_curproto =>
    cases hstep
    exact ⟨h.sp, h.room, h.entry⟩

/-- An answer that is read at `sp` is right if the entry there is the one below. -/
theorem note_exact_iff (h : w.Holds) (ha : ∀ a ∈ w.answers, a.1 = some a.2) :
    (∀ a ∈ w.note (w.stack.entry w.stack.sp), a.1 = some a.2) ↔
      (w.stack.sp ≠ 0 → w.stack.entry w.stack.sp = w.stack.entry (w.stack.sp - 1)) := by
  rw [h.pushed_ne_nil]
  cases hp : w.pushed with
  | nil => simpa [note, hp] using ha
  | cons proto rest =>
    have htop : w.stack.entry (w.stack.sp - 1) = some proto := h.top (by rw [hp]; rfl)
    rw [htop]
    constructor
    · intro hall _
      exact hall (w.stack.entry w.stack.sp, proto) (by simp [note, hp])
    · intro hsame a hmem
      simp only [note, hp, List.head?_cons, Option.toList_some, List.map_cons, List.map_nil,
        List.mem_append, List.mem_singleton] at hmem
      rcases hmem with hmem | rfl
      · exact ha a hmem
      · exact hsame (by simp)

/-- The answers of a pop or of a look at the top are read at `sp` if there is something. -/
theorem note_eq (h : w.Holds) {a : Option Byte} :
    w.note (if w.stack.sp = 0 then a else w.stack.entry w.stack.sp) =
      w.note (w.stack.entry w.stack.sp) := by
  by_cases hsp : w.stack.sp = 0
  · have hnil : w.pushed = [] := List.length_eq_zero_iff.1 (h.sp ▸ hsp)
    simp [note, hnil]
  · rw [if_neg hsp]

/-- The answers stay right exactly in a step that finds the protocol above the top. -/
theorem step_answers_iff (h : w.Holds) (ha : ∀ a ∈ w.answers, a.1 = some a.2)
    (hstep : w.step c = .ok w') : (∀ a ∈ w'.answers, a.1 = some a.2) ↔ w.Repeated c := by
  cases c with
  | pkt_pushproto proto len =>
    cases hstep
    exact ⟨fun _ => trivial, fun _ => ha⟩
  | pkt_popproto =>
    cases hstep
    have hanswer : w.stack.pkt_popproto.1 =
        if w.stack.sp = 0 then some 0 else w.stack.entry w.stack.sp := by
      unfold HdrStack.pkt_popproto
      split <;> rfl
    show (∀ a ∈ w.note w.stack.pkt_popproto.1, a.1 = some a.2) ↔ _
    rw [hanswer, note_eq h]
    exact note_exact_iff h ha
  | pkt_curproto =>
    cases hstep
    show (∀ a ∈ w.note w.stack.pkt_curproto, a.1 = some a.2) ↔ _
    rw [HdrStack.pkt_curproto, note_eq h]
    exact note_exact_iff h ha

/-- In every run of calls the stack is right, and all answers are exactly when each one finds the
    protocol on top in the entry above it as well. -/
theorem run_exact_iff (junk : Nat → HdrProto) (h : Run.Along step Balanced (init junk) cs) :
    Run.Always step Exact (init junk) cs ↔ Run.Along step Repeated (init junk) cs := by
  have hinit : Holds (init junk) ∧ ∀ a ∈ (init junk).answers, a.1 = some a.2 := by
    refine ⟨⟨rfl, Nat.zero_le _, fun i hi => ?_⟩, fun a ha => ?_⟩
    · exact absurd hi (Nat.not_lt_zero i)
    · exact absurd ha List.not_mem_nil
  refine Run.always_iff_along (I := fun w => w.Holds ∧ ∀ a ∈ w.answers, a.1 = some a.2)
    ?_ ?_ ?_ ?_ hinit h
  · rintro w ⟨hw, ha⟩
    exact ⟨hw.sp, hw.entry, ha⟩
  · rintro w c w' ⟨hw, ha⟩ hc hstep hrep
    exact ⟨hw.step hc hstep, (step_answers_iff hw ha hstep).2 hrep⟩
  · rintro w c w' ⟨hw, ha⟩ hc hstep hexact
    exact (step_answers_iff hw ha hstep).1 hexact.answers
  · rintro w c e hw hc hstep
    cases c <;> cases hstep

/-- A packet with TCP twice and UDP above it, whose other entries are zero. -/
theorem run_exact_tcp :
    Run.Always step Exact (init fun _ => ⟨6, 0⟩)
      [.pkt_pushproto 6 20, .pkt_curproto, .pkt_pushproto 6 8, .pkt_popproto, .pkt_popproto] :=
  (run_exact_iff (fun _ => ⟨6, 0⟩) (by decide)).2 (by decide)

/-- IP is pushed on TCP; the packet then says that there is nothing on top. -/
theorem ip_over_tcp_lost :
    ¬ Run.Always step Exact (init fun _ => ⟨0, 0⟩)
      [.pkt_pushproto 6 20, .pkt_pushproto 4 20, .pkt_popproto, .pkt_curproto] := by
  intro h
  obtain ⟨w, hw, hlast⟩ := h.exec_map
    (show (Run.exec step (init fun _ => ⟨0, 0⟩)
        [.pkt_pushproto 6 20, .pkt_pushproto 4 20, .pkt_popproto, .pkt_curproto]).map
          (fun w => w.answers) = .ok [(some 0, 4), (some 4, 6)] by decide +kernel)
  have hfirst := hw.answers (some 0, 4) (by rw [hlast]; exact List.mem_cons_self)
  exact absurd hfirst (by decide)

end HdrHistory

end Packet
