import Mathlib.Data.List.GetD
import ThunderboltIbverbs.Lib.Largest
import ThunderboltIbverbs.Trace.Percentiles

/-! # The worst records

The table of `tbv_txtrace_note_worst` is not sorted: a record goes where the search finds a
smallest total.  It has the slowest records of a trace, and of equal ones the newest. -/
set_option autoImplicit false
namespace Tbv.Trace

open Largest (Keeps largest keeps_nil)

/-! ## Records -/

def RecordCall.made (call : RecordCall) (seq : Nat) : TxTraceRec where
  t := call.st.t
  wrId := call.wrId
  seq := seq
  qpn := call.qpn
  psn := call.psn
  length := call.st.length
  frames := call.st.frames
  cpuPost := call.st.cpuPost
  cpuWorker := call.st.cpuWorker
  cpuReap := call.st.cpuReap
  cpuCq := call.st.cpuCq
  status := call.status

/-- The records that the calls make, with the number the next one gets. -/
def recorded (seq : Nat) : List RecordCall → List TxTraceRec
  | [] => []
  | call :: rest =>
      if call.st.active then call.made seq :: recorded ((seq + 1) % 2 ^ 64) rest
      else recorded seq rest

def TxTraceRec.measurable (rec : TxTraceRec) : Bool := (span rec.t .total).isSome

/-- The table has the slowest of the measurable records, and the newest of those that are not
faster than all it has. -/
structure HoldsSlowest (worst records : List TxTraceRec) : Prop where
  totals : (worst.map TxTraceRec.total).Perm
    (largest (min records.length traceWorst) (records.map TxTraceRec.total))
  newest : ∀ before rec after, records = before ++ rec :: after →
    (∃ kept ∈ worst, kept.total ≤ rec.total) →
    (∀ later ∈ after, ∀ kept ∈ worst, later.total < kept.total) → rec ∈ worst

/-! ## The search -/

section
variable {worst records : List TxTraceRec} {rec : TxTraceRec} {tr : TxTrace}

/-- The search finds a smallest total among the slots it goes through. -/
theorem smallest_least (slots : List Nat) (slot : Nat) :
    smallest worst slots slot ∈ slot :: slots ∧ ∀ i ∈ slot :: slots,
      (worst.getD (smallest worst slots slot) {}).total ≤ (worst.getD i {}).total := by
  induction slots generalizing slot with
  | nil =>
      refine ⟨List.mem_singleton_self slot, fun i among => ?_⟩
      rw [List.mem_singleton] at among
      subst among
      exact Nat.le_refl _
  | cons next rest ih =>
      unfold smallest
      split
      · rename_i smaller
        obtain ⟨among, least⟩ := ih next
        refine ⟨List.mem_cons_of_mem _ among, fun i member => ?_⟩
        rcases List.mem_cons.mp member with rfl | later
        · exact (least next List.mem_cons_self).trans smaller.le
        · exact least i later
      · rename_i notSmaller
        obtain ⟨among, least⟩ := ih slot
        have here := least slot List.mem_cons_self
        refine ⟨?_, fun i member => ?_⟩
        · rcases List.mem_cons.mp among with same | later
          · rw [same]
            exact List.mem_cons_self
          · exact List.mem_cons_of_mem _ (List.mem_cons_of_mem _ later)
        · rcases List.mem_cons.mp member with rfl | member
          · exact here
          rcases List.mem_cons.mp member with rfl | later
          · exact here.trans (Nat.le_of_not_lt notSmaller)
          · exact least i (List.mem_cons_of_mem _ later)

/-- The slot of a full table whose record may have to go. -/
theorem smallest_full (full : worst.length = traceWorst) :
    ∃ inside : smallest worst ((List.range traceWorst).drop 1) 0 < worst.length,
      ∀ kept ∈ worst, (worst.get ⟨_, inside⟩).total ≤ kept.total := by
  have slots : 0 :: (List.range traceWorst).drop 1 = List.range traceWorst := rfl
  obtain ⟨among, least⟩ := @smallest_least worst ((List.range traceWorst).drop 1) 0
  rw [slots] at among least
  have inside : smallest worst ((List.range traceWorst).drop 1) 0 < worst.length :=
    full.symm ▸ List.mem_range.mp among
  refine ⟨inside, fun kept member => ?_⟩
  obtain ⟨i, below, rfl⟩ := List.getElem_of_mem member
  have found := least i (List.mem_range.mpr (full ▸ below))
  rw [List.getD_eq_getElem _ _ inside, List.getD_eq_getElem _ _ below] at found
  exact found

theorem total_eq_of_span {ns : Nat} (measured : span rec.t .total = some ns) : rec.total = ns := by
  rw [TxTraceRec.total, measured]
  rfl

/-- `tbv_txtrace_note_worst` offers a measurable record to the table. -/
theorem keeps_noteWorst (keeps : Keeps TxTraceRec.total traceWorst worst records) :
    Keeps TxTraceRec.total traceWorst (noteWorst worst rec)
      (records ++ if rec.measurable then [rec] else []) := by
  unfold noteWorst TxTraceRec.measurable
  cases measured : span rec.t .total with
  | none =>
      rw [Option.isSome_none, if_neg Bool.false_ne_true, List.append_nil]
      exact keeps
  | some ns =>
      have total := total_eq_of_span measured
      rw [Option.isSome_some, if_pos rfl]
      dsimp only
      by_cases room : worst.length < traceWorst
      · rw [if_pos room]
        exact keeps.fill room
      have full : worst.length = traceWorst := by
        have size := keeps.size
        omega
      obtain ⟨inside, least⟩ := smallest_full full
      rw [if_neg room, List.getD_eq_getElem _ _ inside, ← total]
      split
      · rename_i reaches
        exact keeps.replace full inside least reaches
      · rename_i faster
        exact keeps.refuse full fun kept member =>
          (Nat.lt_of_not_le faster).trans_le (least kept member)

/-! ## Runs of calls -/

theorem measures_rest (ivals : List TxIval) (t : TxStage → Nat) :
    (ivals.foldl (fun tr ival => tr.measure t ival) tr).worst = tr.worst ∧
      (ivals.foldl (fun tr ival => tr.measure t ival) tr).seq = tr.seq := by
  induction ivals generalizing tr with
  | nil => exact ⟨rfl, rfl⟩
  | cons ival rest ih =>
      have one : (tr.measure t ival).worst = tr.worst ∧ (tr.measure t ival).seq = tr.seq := by
        unfold TxTrace.measure
        split <;> exact ⟨rfl, rfl⟩
      rw [List.foldl_cons, ← one.1, ← one.2]
      exact ih

/-- `tbv_txtrace_record` numbers its record and notes it. -/
theorem record_active {call : RecordCall} (active : call.st.active = true) :
    (tr.record call).worst = noteWorst tr.worst (call.made tr.seq) ∧
      (tr.record call).seq = (tr.seq + 1) % 2 ^ 64 := by
  obtain ⟨worst, seq⟩ := @measures_rest
    { tr with seq := (tr.seq + 1) % 2 ^ 64, count := (tr.count + 1) % 2 ^ 64 } TxIval.all call.st.t
  unfold TxTrace.record
  dsimp only
  rw [active, worst]
  split
  · rename_i inactive
    cases inactive
  · split <;> exact ⟨rfl, seq⟩

theorem keeps_run (calls : List RecordCall)
    (keeps : Keeps TxTraceRec.total traceWorst tr.worst records) :
    Keeps TxTraceRec.total traceWorst (calls.foldl TxTrace.record tr).worst
      (records ++ (recorded tr.seq calls).filter TxTraceRec.measurable) := by
  induction calls generalizing tr records with
  | nil =>
      rw [recorded, List.filter_nil, List.append_nil]
      exact keeps
  | cons call rest ih =>
      rw [List.foldl_cons, recorded]
      cases active : call.st.active with
      | false =>
          have same : tr.record call = tr := by
            unfold TxTrace.record
            dsimp only
            rw [active]
            rfl
          rw [if_neg Bool.false_ne_true, same]
          exact ih keeps
      | true =>
          obtain ⟨worst, seq⟩ := @record_active tr call active
          have noted := @keeps_noteWorst _ _ (call.made tr.seq) keeps
          rw [← worst] at noted
          have further := ih noted
          rw [seq, List.append_assoc] at further
          rw [if_pos rfl, List.filter_cons]
          cases measured : (call.made tr.seq).measurable with
          | false =>
              rw [measured] at further
              exact further
          | true =>
              rw [measured] at further
              exact further

/-- After any calls the table has the slowest records. -/
theorem worst_table_holds_slowest (calls : List RecordCall)
    (recs : Option (Nat → TxTraceRec)) :
    HoldsSlowest (calls.foldl TxTrace.record (fresh recs)).worst
      ((recorded 0 calls).filter TxTraceRec.measurable) := by
  have keeps := @keeps_run [] (fresh recs) calls keeps_nil
  rw [List.nil_append] at keeps
  exact ⟨keeps.largest, keeps.last⟩

end

end Tbv.Trace
