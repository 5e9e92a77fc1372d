import ThunderboltIbverbs.Apple.Split
import ThunderboltIbverbs.Sq.Wire
import Mathlib.Data.List.Forall2
import Mathlib.Data.List.Induction

/-! # The frames of the sender and the messages of the receiver

`tbv_apple_sq_transmit` cuts a message into frames and marks the last one; the receiver cuts what
arrives after every such mark.  What it cuts ends in the messages of the sender, in order, and is
them unless the sender broke a message off. -/
set_option autoImplicit false
namespace Tbv.AppleRx

open Sq (Handed Follows pieces appleFrameSize)

def txSof (mode offset nfrags : Nat) : Nat :=
  if mode = 1 then if offset = 0 then 1 else 0
  else if mode = 2 then if offset = 0 ∧ 1 < nfrags then 1 else 0
  else 1

/-- The part of a message that a frame carries: `tbv_apple_send_fill` copies it whole. -/
def piece (bytes : Nat → List UInt8) (frame : Handed) : List UInt8 :=
  ((bytes frame.send).drop (frame.index * appleFrameSize)).take appleFrameSize

/-- The frame that `tbv_apple_sq_transmit` posts. -/
def txFrame (bytes : Nat → List UInt8) (mode : Nat) (frame : Handed) : AppleFrame :=
  let length := (bytes frame.send).length
  let offset := frame.index * appleFrameSize
  let payloadLen := min (length - offset) appleFrameSize
  { payload := piece bytes frame
    sof := txSof mode offset (pieces length)
    eof := if offset + payloadLen = length then 3 else 2 }

/-- The messages as a receiver cuts them that sees only where each of them ends. -/
def assemble (bytes : Nat → List UInt8) (handed : List Handed) : List (List UInt8) × List UInt8 :=
  handed.foldl (fun cut frame =>
    if frame.index + 1 = pieces (bytes frame.send).length then
      (cut.1 ++ [cut.2 ++ piece bytes frame], [])
    else (cut.1, cut.2 ++ piece bytes frame)) ([], [])

/-- A message begins only where the one before it has ended. -/
def Unbroken (bytes : Nat → List UInt8) (handed : List Handed) : Prop :=
  ∀ before frame next after, handed = before ++ frame :: next :: after → next.index = 0 →
    frame.index + 1 = pieces (bytes frame.send).length

variable {bytes : Nat → List UInt8} {handed : List Handed} {frame : Handed}
  {due : Option (Nat × Nat)}

theorem assemble_snoc (handed : List Handed) (frame : Handed) :
    assemble bytes (handed ++ [frame]) =
      if frame.index + 1 = pieces (bytes frame.send).length then
        ((assemble bytes handed).1 ++ [(assemble bytes handed).2 ++ piece bytes frame], [])
      else ((assemble bytes handed).1, (assemble bytes handed).2 ++ piece bytes frame) := by
  simp [assemble]

theorem whole_snoc (count : Nat → Nat) (handed : List Handed) (frame : Handed) :
    Sq.whole count (handed ++ [frame]) = Sq.whole count handed ++
      if frame.index + 1 = count frame.send then [frame.send] else [] := by
  unfold Sq.whole
  rw [List.filter_append, List.map_append]
  congr 1
  by_cases last : frame.index + 1 = count frame.send <;> simp [last]

/-! ## Frames -/

/-- The last frame of a message is the one whose end is the message's. -/
theorem last_iff (inside : frame.index < pieces (bytes frame.send).length) :
    frame.index * appleFrameSize +
        min ((bytes frame.send).length - frame.index * appleFrameSize) appleFrameSize =
          (bytes frame.send).length ↔
      frame.index + 1 = pieces (bytes frame.send).length := by
  unfold pieces appleFrameSize at *
  omega

theorem txFrame_eof (mode : Nat) (inside : frame.index < pieces (bytes frame.send).length) :
    (txFrame bytes mode frame).eof = 3 ↔ frame.index + 1 = pieces (bytes frame.send).length := by
  rw [← last_iff inside]
  simp only [txFrame]
  split
  · simp [*]
  · simp [*]

theorem length_piece (frame : Handed) : (piece bytes frame).length =
    min appleFrameSize ((bytes frame.send).length - frame.index * appleFrameSize) := by
  rw [piece, List.length_take, List.length_drop]

/-- A frame is not empty and not longer than a ring frame. -/
theorem length_txFrame (mode : Nat) (inside : frame.index < pieces (bytes frame.send).length) :
    ¬ ((txFrame bytes mode frame).payload.length = 0 ∨
      frameSize < (txFrame bytes mode frame).payload.length) := by
  have length : (txFrame bytes mode frame).payload.length = _ := length_piece frame
  rw [length]
  unfold pieces appleFrameSize at *
  unfold frameSize
  omega

theorem txFrame_opens (mode : Nat) (inside : frame.index < pieces (bytes frame.send).length)
    (first : frame.index = 0) :
    (txFrame bytes mode frame).sof ≠ 0 ∨ (txFrame bytes mode frame).eof = 3 := by
  rw [txFrame_eof mode inside, first]
  by_cases one : 0 + 1 = pieces (bytes frame.send).length
  · exact .inr one
  · refine .inl ?_
    simp only [txFrame, first, Nat.zero_mul, txSof]
    have many : 1 < pieces (bytes frame.send).length := by omega
    simp only [many]
    split
    · simp
    · split <;> simp

/-! ## Messages -/

theorem due_of_snoc (count : Nat → Nat)
    (trace : Trans.Trace (Follows count) none (handed ++ [frame]) due) :
    ∃ before, Trans.Trace (Follows count) none handed before ∧ Follows count before frame due := by
  obtain ⟨before, front, last⟩ := Trans.trace_append_iff.mp trace
  obtain ⟨next, follows, nothing⟩ := Trans.trace_cons_iff.mp last
  cases Trans.trace_nil_iff.mp nothing
  exact ⟨before, front, follows⟩

/-- What is cut ends in the messages of the sender, and what is left over ends in what is handed
over of the next one. -/
theorem assemble_suffix (trace : Trans.Trace (Follows fun s => pieces (bytes s).length) none handed
    due) :
    List.Forall₂ (fun message s => bytes s <:+ message) (assemble bytes handed).1
      (Sq.whole (fun s => pieces (bytes s).length) handed) ∧
    ∀ s index, due = some (s, index) →
      (bytes s).take (index * appleFrameSize) <:+ (assemble bytes handed).2 := by
  induction handed using List.reverseRecOn generalizing due with
  | nil =>
      cases Trans.trace_nil_iff.mp trace
      exact ⟨.nil, fun s index is => by cases is⟩
  | append_singleton handed frame ih =>
      obtain ⟨before, trace, begins, inside, next⟩ := due_of_snoc _ trace
      obtain ⟨messages, partial_⟩ := ih trace
      -- up to and with this frame the message is there
      have grown : (bytes frame.send).take ((frame.index + 1) * appleFrameSize) <:+
          (assemble bytes handed).2 ++ piece bytes frame := by
        rw [Nat.add_mul, Nat.one_mul, List.take_add]
        rcases begins with first | follows
        · rw [piece, first, Nat.zero_mul, List.take_zero, List.nil_append]
          exact List.suffix_append _ _
        · obtain ⟨junk, same⟩ := partial_ _ _ follows
          refine ⟨junk, ?_⟩
          rw [← List.append_assoc, same]
          rfl
      rw [assemble_snoc, whole_snoc]
      by_cases last : frame.index + 1 = pieces (bytes frame.send).length
      · rw [if_pos last, if_pos last]
        rw [if_pos last] at next
        refine ⟨?_, fun s index is => by rw [next] at is; cases is⟩
        have all : (bytes frame.send).take ((frame.index + 1) * appleFrameSize) =
            bytes frame.send := by
          refine List.take_of_length_le ?_
          rw [last]
          unfold pieces appleFrameSize
          omega
        rw [all] at grown
        exact List.rel_append messages (.cons grown .nil)
      · rw [if_neg last, if_neg last, List.append_nil]
        rw [if_neg last] at next
        refine ⟨messages, fun s index is => ?_⟩
        rw [next] at is
        cases is
        exact grown

/-- A message that begins where none is broken off finds nothing due. -/
theorem Unbroken.due_none (unbroken : Unbroken bytes (handed ++ [frame]))
    (trace : Trans.Trace (Follows fun s => pieces (bytes s).length) none handed due)
    (first : frame.index = 0) : due = none := by
  rcases List.eq_nil_or_concat handed with rfl | ⟨front, last, rfl⟩
  · exact (Trans.trace_nil_iff.mp trace).symm
  · rw [List.concat_eq_append] at unbroken trace
    obtain ⟨before, -, -, -, next⟩ := due_of_snoc _ trace
    rw [next, if_pos (unbroken front last frame [] (by simp) first)]

/-- Where no message is broken off, what is cut is the messages of the sender. -/
theorem assemble_exact (trace : Trans.Trace (Follows fun s => pieces (bytes s).length) none handed
    due) (unbroken : Unbroken bytes handed) :
    (assemble bytes handed).1 =
        (Sq.whole (fun s => pieces (bytes s).length) handed).map bytes ∧
      (assemble bytes handed).2 =
        (due.map fun place => (bytes place.1).take (place.2 * appleFrameSize)).getD [] := by
  induction handed using List.reverseRecOn generalizing due with
  | nil =>
      cases Trans.trace_nil_iff.mp trace
      exact ⟨rfl, rfl⟩
  | append_singleton handed frame ih =>
      obtain ⟨before, trace, begins, inside, next⟩ := due_of_snoc _ trace
      obtain ⟨messages, left⟩ := ih trace fun front one two rest is first =>
        unbroken front one two (rest ++ [frame]) (by simp [is]) first
      -- a first frame finds nothing left over
      have grown : (assemble bytes handed).2 ++ piece bytes frame =
          (bytes frame.send).take ((frame.index + 1) * appleFrameSize) := by
        rw [left, Nat.add_mul, Nat.one_mul, List.take_add]
        by_cases follows : before = some (frame.send, frame.index)
        · rw [follows]
          rfl
        · have first := begins.resolve_right follows
          rw [unbroken.due_none trace first, piece, first, Nat.zero_mul, List.take_zero]
          rfl
      rw [assemble_snoc, whole_snoc, grown]
      by_cases last : frame.index + 1 = pieces (bytes frame.send).length
      · rw [if_pos last, if_pos last]
        rw [if_pos last] at next
        have all : (bytes frame.send).take ((frame.index + 1) * appleFrameSize) =
            bytes frame.send := by
          refine List.take_of_length_le ?_
          rw [last]
          unfold pieces appleFrameSize
          omega
        rw [next, messages, all, List.map_append]
        exact ⟨rfl, rfl⟩
      · rw [if_neg last, if_neg last, List.append_nil]
        rw [if_neg last] at next
        rw [next]
        exact ⟨messages, rfl⟩

/-- Every message that is handed over whole was begun, in the same order. -/
theorem whole_sublist_begun (count : Nat → Nat)
    (trace : Trans.Trace (Follows count) none handed due) :
    (Sq.whole count handed).Sublist (Sq.begun handed) ∧
      ∀ s index, due = some (s, index) → ∃ earlier, Sq.begun handed = earlier ++ [s] ∧
        (Sq.whole count handed).Sublist earlier := by
  induction handed using List.reverseRecOn generalizing due with
  | nil =>
      cases Trans.trace_nil_iff.mp trace
      exact ⟨List.Sublist.refl _, fun s index is => by cases is⟩
  | append_singleton handed frame ih =>
      obtain ⟨before, trace, begins, inside, next⟩ := due_of_snoc _ trace
      obtain ⟨among, earlier⟩ := ih trace
      -- the frame's own message is the last that was begun
      have own : ∃ others, Sq.begun (handed ++ [frame]) = others ++ [frame.send] ∧
          (Sq.whole count handed).Sublist others := by
        rw [Sq.begun_snoc]
        by_cases first : frame.index = 0
        · rw [if_pos first]
          exact ⟨_, rfl, among⟩
        · rw [if_neg first, List.append_nil]
          exact earlier _ _ (begins.resolve_left first)
      obtain ⟨others, is, inOthers⟩ := own
      rw [is, whole_snoc]
      by_cases last : frame.index + 1 = count frame.send
      · rw [if_pos last] at next ⊢
        refine ⟨inOthers.append (List.Sublist.refl _), fun s index due => ?_⟩
        rw [next] at due
        cases due
      · rw [if_neg last] at next ⊢
        rw [List.append_nil]
        refine ⟨inOthers.trans (List.sublist_append_left _ _), fun s index due => ?_⟩
        rw [next] at due
        cases due
        exact ⟨others, rfl, inOthers⟩

theorem split_assembles {arrived : List Arrival} {sent : List (Handed × Nat)}
    (frames : arrived.map Arrival.frame = sent.map fun one => txFrame bytes one.2 one.1)
    (inside : ∀ one ∈ sent, one.1.index < pieces (bytes one.1.send).length) :
    (split arrived).1.map payload = (assemble bytes (sent.map Prod.fst)).1 ∧
      payload (split arrived).2 = (assemble bytes (sent.map Prod.fst)).2 := by
  induction sent using List.reverseRecOn generalizing arrived with
  | nil =>
      rw [List.map_nil, List.map_eq_nil_iff] at frames
      subst frames
      exact ⟨rfl, rfl⟩
  | append_singleton sent one ih =>
      rcases List.eq_nil_or_concat arrived with rfl | ⟨front, last, rfl⟩
      · simp at frames
      rw [List.concat_eq_append] at frames ⊢
      rw [List.map_append, List.map_append] at frames
      obtain ⟨before, this⟩ := List.append_inj' frames rfl
      have here : last.frame = txFrame bytes one.2 one.1 := by simpa using this
      obtain ⟨messages, rest⟩ := ih before fun other among =>
        inside other (List.mem_append_left _ among)
      have ends := txFrame_eof one.2 (inside one (List.mem_append_right _ (List.mem_singleton_self _)))
      have carried : payload [last] = piece bytes one.1 := by
        simp [payload, here, txFrame]
      have joined : payload ((split front).2 ++ [last]) =
          (assemble bytes (sent.map Prod.fst)).2 ++ piece bytes one.1 := by
        rw [← rest, ← carried, payload, List.flatMap_append]
        rfl
      rw [split_snoc, List.map_append, List.map_singleton, assemble_snoc, cut, here]
      by_cases lastOne : one.1.index + 1 = pieces (bytes one.1.send).length
      · rw [if_pos (ends.mpr lastOne), if_pos lastOne]
        refine ⟨?_, rfl⟩
        rw [List.map_append, List.map_singleton, messages, joined]
      · rw [if_neg (fun is => lastOne (ends.mp is)), if_neg lastOne]
        exact ⟨messages, joined⟩

end Tbv.AppleRx
