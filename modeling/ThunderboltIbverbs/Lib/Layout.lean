import Mathlib.Tactic.Common
import Mathlib.Tactic.Ring
import Mathlib.Data.List.Basic

/-! # Fields laid out one after another

A buffer is a list; a message is written by storing its fields at their offsets
and read back by taking the same slices.  What both directions need: storing
consecutive fields leaves their concatenation, and cutting a concatenation at
the widths of its pieces gives the pieces back. -/
set_option autoImplicit false
namespace Layout

variable {α : Type}

def store (buf : List α) (offset : Nat) (bytes : List α) : List α :=
  buf.take offset ++ bytes ++ buf.drop (offset + bytes.length)

def slice (buf : List α) (offset count : Nat) : List α := (buf.drop offset).take count

/-- The fields written in turn, each at its offset. -/
def storeAll (buf : List α) (fields : List (Nat × List α)) : List α :=
  fields.foldl (fun image field => store image field.1 field.2) buf

def contents (fields : List (Nat × List α)) : List α := (fields.map Prod.snd).flatten

/-- Each field starts where the one before it ended. -/
def Consecutive : Nat → List (Nat × List α) → Prop
  | _, [] => True
  | offset, field :: rest => field.1 = offset ∧ Consecutive (offset + field.2.length) rest

/-- The buffer cut at consecutive widths. -/
def slices : List Nat → List α → List (List α)
  | [], _ => []
  | width :: widths, buf => buf.take width :: slices widths (buf.drop width)

@[simp] theorem contents_nil : contents ([] : List (Nat × List α)) = [] := rfl

@[simp] theorem contents_cons (field : Nat × List α) (rest : List (Nat × List α)) :
    contents (field :: rest) = field.2 ++ contents rest := rfl

theorem store_length (buf : List α) (offset : Nat) (bytes : List α)
    (room : offset + bytes.length ≤ buf.length) :
    (store buf offset bytes).length = buf.length := by
  simp only [store, List.length_append, List.length_take, List.length_drop]
  omega

theorem store_between (before old bytes after : List α) (same : old.length = bytes.length) :
    store (before ++ old ++ after) before.length bytes = before ++ bytes ++ after := by
  have head : (before ++ old ++ after).take before.length = before := by
    rw [List.append_assoc, List.take_left]
  have tail : (before ++ old ++ after).drop (before.length + bytes.length) = after := by
    rw [← same, ← List.length_append, List.drop_left]
  rw [store, head, tail]

theorem store_start (buf bytes : List α) : store buf 0 bytes = bytes ++ buf.drop bytes.length := by
  simp only [store, List.take_zero, List.nil_append, Nat.zero_add]

theorem storeAll_append (buf : List α) (first rest : List (Nat × List α)) :
    storeAll buf (first ++ rest) = storeAll (storeAll buf first) rest :=
  List.foldl_append

/-- Consecutive fields stored over the same number of entries leave their concatenation there. -/
theorem storeAll_consecutive (fields : List (Nat × List α)) :
    ∀ (offset : Nat) (before old after : List α), Consecutive offset fields →
      before.length = offset → old.length = (contents fields).length →
      storeAll (before ++ old ++ after) fields = before ++ contents fields ++ after := by
  induction fields with
  | nil =>
      intro offset before old after _ _ size
      obtain rfl : old = [] := List.length_eq_zero_iff.mp size
      rfl
  | cons field rest ih =>
      intro offset before old after consecutive start size
      obtain ⟨here, later⟩ := consecutive
      simp only [contents_cons, List.length_append] at size
      have split : before ++ old ++ after =
          before ++ old.take field.2.length ++ (old.drop field.2.length ++ after) := by
        rw [← List.append_assoc, List.append_assoc before (old.take _), List.take_append_drop]
      have taken : (old.take field.2.length).length = field.2.length := by
        rw [List.length_take]
        omega
      have one : storeAll (before ++ old ++ after) (field :: rest) =
          storeAll (before ++ field.2 ++ old.drop field.2.length ++ after) rest := by
        show storeAll (store (before ++ old ++ after) field.1 field.2) rest = _
        rw [split, here, ← start, store_between _ _ _ _ taken, ← List.append_assoc]
      rw [one, ih (offset + field.2.length) (before ++ field.2) _ after later
        (by rw [List.length_append, start]) (by rw [List.length_drop]; omega)]
      simp only [contents_cons, List.append_assoc]

@[simp] theorem length_slice (buf : List α) (offset count : Nat) :
    (slice buf offset count).length = min count (buf.length - offset) := by
  simp only [slice, List.length_take, List.length_drop]

theorem length_slice_of_le {buf : List α} {offset count : Nat}
    (room : offset + count ≤ buf.length) : (slice buf offset count).length = count := by
  rw [length_slice]
  omega

theorem slices_flatten (widths : List Nat) :
    ∀ buf : List α, (slices widths buf).flatten = buf.take widths.sum := by
  induction widths with
  | nil => intro buf; rfl
  | cons width widths ih =>
      intro buf
      rw [slices, List.flatten_cons, ih, List.sum_cons, List.take_add]

theorem slices_concat (pieces : List (List α)) (rest : List α) :
    slices (pieces.map List.length) (pieces.flatten ++ rest) = pieces := by
  induction pieces with
  | nil => rfl
  | cons piece pieces ih =>
      rw [List.map_cons, slices, List.flatten_cons, List.append_assoc, List.take_left,
        List.drop_left, ih]

/-! ## Reading back what was stored -/

/-- The fields stand in rising order from `offset` on, with gaps between them at most. -/
def Ascending : Nat → List (Nat × List α) → Prop
  | _, [] => True
  | offset, field :: rest => offset ≤ field.1 ∧ Ascending (field.1 + field.2.length) rest

theorem slice_store_same {buf bytes : List α} {offset : Nat}
    (room : offset + bytes.length ≤ buf.length) :
    slice (store buf offset bytes) offset bytes.length = bytes := by
  have front : (buf.take offset).length = offset := by
    rw [List.length_take]
    omega
  rw [slice, store, List.append_assoc, List.drop_left' front, List.take_left]

theorem slice_store_below {buf bytes : List α} {offset start count : Nat}
    (room : offset ≤ buf.length) (below : start + count ≤ offset) :
    slice (store buf offset bytes) start count = slice buf start count := by
  have front : (buf.take offset).length = offset := by
    rw [List.length_take]
    omega
  have clip (list : List α) : slice list start count = (list.take (start + count)).drop start := by
    rw [slice, List.take_drop, Nat.add_comm]
  rw [clip, clip, store, List.append_assoc, List.take_append_of_le_length (by omega),
    List.take_take, Nat.min_eq_left below]

theorem slice_storeAll_below {fields : List (Nat × List α)} {start count : Nat} :
    ∀ {offset : Nat} {buf : List α}, Ascending offset fields → start + count ≤ offset →
      (∀ field ∈ fields, field.1 + field.2.length ≤ buf.length) →
      slice (storeAll buf fields) start count = slice buf start count := by
  induction fields with
  | nil =>
      intro offset buf _ _ _
      rfl
  | cons field rest ih =>
      intro offset buf ascending below inside
      have here := inside field List.mem_cons_self
      have kept := store_length buf field.1 field.2 here
      show slice (storeAll (store buf field.1 field.2) rest) start count = _
      rw [ih ascending.2 (by have := ascending.1; omega)
          (fun other mem => by rw [kept]; exact inside other (List.mem_cons_of_mem _ mem)),
        slice_store_below (by omega) (by have := ascending.1; omega)]

/-- A field that was stored among others in rising order is read back. -/
theorem slice_storeAll {fields : List (Nat × List α)} {field : Nat × List α} :
    ∀ {offset : Nat} {buf : List α}, Ascending offset fields →
      (∀ other ∈ fields, other.1 + other.2.length ≤ buf.length) → field ∈ fields →
      slice (storeAll buf fields) field.1 field.2.length = field.2 := by
  induction fields with
  | nil =>
      intro offset buf _ _ mem
      cases mem
  | cons first rest ih =>
      intro offset buf ascending inside mem
      have here := inside first List.mem_cons_self
      have kept := store_length buf first.1 first.2 here
      have later : ∀ other ∈ rest,
          other.1 + other.2.length ≤ (store buf first.1 first.2).length := by
        intro other found
        rw [kept]
        exact inside other (List.mem_cons_of_mem _ found)
      show slice (storeAll (store buf first.1 first.2) rest) field.1 field.2.length = _
      rcases List.mem_cons.mp mem with rfl | found
      · rw [slice_storeAll_below ascending.2 (Nat.le_refl _) later, slice_store_same here]
      · exact ih ascending.2 later found

theorem storeAll_length {fields : List (Nat × List α)} :
    ∀ {buf : List α}, (∀ field ∈ fields, field.1 + field.2.length ≤ buf.length) →
      (storeAll buf fields).length = buf.length := by
  induction fields with
  | nil =>
      intro buf _
      rfl
  | cons field rest ih =>
      intro buf inside
      have kept := store_length buf field.1 field.2 (inside field List.mem_cons_self)
      show (storeAll (store buf field.1 field.2) rest).length = _
      rw [ih fun other mem => by rw [kept]; exact inside other (List.mem_cons_of_mem _ mem), kept]

/-- A slice of the first `size` entries does not see what follows them. -/
theorem slice_take_append {buf trailing : List α} {size start count : Nat}
    (room : size ≤ buf.length) (inside : start + count ≤ size) :
    slice (buf.take size ++ trailing) start count = slice buf start count := by
  have front : (buf.take size).length = size := by
    rw [List.length_take]
    omega
  have clip (list : List α) : slice list start count = (list.take (start + count)).drop start := by
    rw [slice, List.take_drop, Nat.add_comm]
  rw [clip, clip, List.take_append_of_le_length (by omega), List.take_take,
    Nat.min_eq_left inside]

theorem getElem?_store {buf bytes : List α} {offset j : Nat}
    (room : offset + bytes.length ≤ buf.length) :
    (store buf offset bytes)[j]? =
      if offset ≤ j ∧ j < offset + bytes.length then bytes[j - offset]? else buf[j]? := by
  have front : (buf.take offset).length = offset := by
    rw [List.length_take]
    omega
  unfold store
  split
  · rename_i inside
    rw [List.append_assoc, List.getElem?_append_right (by omega), front,
      List.getElem?_append_left (by omega)]
  · rename_i outside
    by_cases before : j < offset
    · rw [List.append_assoc, List.getElem?_append_left (by omega), List.getElem?_take_of_lt before]
    · rw [List.getElem?_append_right (by rw [List.length_append]; omega), List.length_append, front,
        List.getElem?_drop]
      congr 1
      omega

/-- Fields that agree with a buffer, stored wherever another one differs from it, make it that
buffer. -/
theorem storeAll_eq_of_agree {target : List α} {fields : List (Nat × List α)} :
    ∀ {buf : List α}, buf.length = target.length →
      (∀ field ∈ fields, field.1 + field.2.length ≤ target.length ∧
        slice target field.1 field.2.length = field.2) →
      (∀ j, buf[j]? = target[j]? ∨ ∃ field ∈ fields, field.1 ≤ j ∧ j < field.1 + field.2.length) →
      storeAll buf fields = target := by
  induction fields with
  | nil =>
      intro buf _ _ covered
      exact List.ext_getElem? fun j => (covered j).resolve_right (by simp)
  | cons field rest ih =>
      intro buf size agree covered
      obtain ⟨inside, same⟩ := agree field List.mem_cons_self
      have kept := store_length buf field.1 field.2 (size ▸ inside)
      refine ih (kept.trans size) (fun other among => agree other (List.mem_cons_of_mem _ among))
        fun j => ?_
      rw [getElem?_store (size ▸ inside)]
      by_cases here : field.1 ≤ j ∧ j < field.1 + field.2.length
      · rw [if_pos here, ← same, slice, List.getElem?_take_of_lt (by omega), List.getElem?_drop]
        left
        congr 1
        omega
      · rw [if_neg here]
        rcases covered j with done | ⟨other, among, place⟩
        · exact .inl done
        · rcases List.mem_cons.mp among with rfl | later
          · exact absurd place here
          · exact .inr ⟨other, later, place⟩

end Layout
