import Mathlib.Logic.Function.Basic
import Mathlib.Tactic.Ring

/-! # The stage trace of a send

`kernel/txtrace.c`: the stamps of a work request are copied into a record at its completion, and
every interval of the record is counted in a log-linear histogram. -/
set_option autoImplicit false
namespace Tbv.Trace

inductive TxStage where
  | postEntry | postHandoff | workerStart | firstPublish | lastPublish | firstCb | lastCb | cq
  deriving DecidableEq, Repr

inductive TxIval where
  | post | dispatch | admitted | publish | notify | reap | cq | total
  deriving DecidableEq, Repr

/-- `tbv_tx_ival_span`: where an interval starts and ends. -/
def TxIval.ends : TxIval → TxStage × TxStage
  | .post => (.postEntry, .postHandoff)
  | .dispatch => (.postHandoff, .workerStart)
  | .admitted => (.workerStart, .firstPublish)
  | .publish => (.firstPublish, .lastPublish)
  | .notify => (.lastPublish, .firstCb)
  | .reap => (.firstCb, .lastCb)
  | .cq => (.lastCb, .cq)
  | .total => (.postEntry, .cq)

def histLinear : Nat := 64
def histSubbits : Nat := 3
def histSub : Nat := 1 <<< histSubbits
def histBaseExp : Nat := 6
def histOctaves : Nat := 40
def histBuckets : Nat := histLinear + histOctaves * histSub
def traceRecs : Nat := 4096
def traceWorst : Nat := 32

/-- `struct tbv_tx_stamps`; a stage that was not reached has the stamp 0. -/
structure TxStamps where
  t : TxStage → Nat := fun _ => 0
  length : Nat := 0
  frames : Nat := 0
  cpuPost : Nat := 0
  cpuWorker : Nat := 0
  cpuReap : Nat := 0
  cpuCq : Nat := 0
  active : Bool := true

structure TxTraceRec where
  t : TxStage → Nat := fun _ => 0
  wrId : Nat := 0
  seq : Nat := 0
  qpn : Nat := 0
  psn : Nat := 0
  length : Nat := 0
  frames : Nat := 0
  cpuPost : Nat := 0
  cpuWorker : Nat := 0
  cpuReap : Nat := 0
  cpuCq : Nat := 0
  status : Int := 0

/-- `struct tbv_tx_trace`; `worst` holds the `worst_used` records in use, and `recs` is missing
when the ring could not be allocated. -/
structure TxTrace where
  recs : Option (Nat → TxTraceRec) := none
  head : Nat := 0
  filled : Nat := 0
  seq : Nat := 0
  count : Nat := 0
  hist : TxIval → Nat → Nat := fun _ _ => 0
  maxNs : TxIval → Nat := fun _ => 0
  sumNs : TxIval → Nat := fun _ => 0
  worst : List TxTraceRec := []

/-- `tbv_txtrace_span`: the nanoseconds of an interval, if both ends were reached in order. -/
def span (t : TxStage → Nat) (ival : TxIval) : Option Nat :=
  let a := t ival.ends.1
  let b := t ival.ends.2
  if a = 0 ∨ b = 0 ∨ b < a then none else some (b - a)

/-- `tbv_txtrace_bucket`; `fls64 (ns) - 1` is the exponent of the highest bit. -/
def bucket (ns : Nat) : Nat :=
  if ns < histLinear then ns
  else
    let exp := max (Nat.log2 ns) histBaseExp
    if histOctaves ≤ exp - histBaseExp then histBuckets - 1
    else
      let sub := (ns >>> (exp - histSubbits)) % histSub
      histLinear + (exp - histBaseExp) * histSub + sub

def bucketFloor (bucket : Nat) : Nat :=
  if bucket < histLinear then bucket
  else
    let off := bucket - histLinear
    let exp := histBaseExp + off / histSub
    let sub := off % histSub
    (1 <<< exp) + (sub <<< (exp - histSubbits))

structure TxTraceStats where
  samples : Nat := 0
  p50 : Nat := 0
  p90 : Nat := 0
  p99 : Nat := 0
  max : Nat := 0
  mean : Nat := 0
  deriving DecidableEq, Repr

/-- The rank a percentile looks for. -/
def want (percent total : Nat) : Nat := max 1 ((total * percent + 99) % 2 ^ 64 / 100)

/-- The second walk of `tbv_txtrace_stats`, over the buckets that are left. -/
def statsWalk (hist : Nat → Nat) (want50 want90 want99 : Nat) :
    List Nat → Nat → TxTraceStats → TxTraceStats
  | [], _, out => { out with p99 := bucketFloor (histBuckets - 1) }
  | i :: rest, seen, out =>
      let seen := (seen + hist i) % 2 ^ 64
      let out := if out.p50 = 0 ∧ want50 ≤ seen then { out with p50 := bucketFloor i } else out
      let out := if out.p90 = 0 ∧ want90 ≤ seen then { out with p90 := bucketFloor i } else out
      if want99 ≤ seen then { out with p99 := bucketFloor i }
      else statsWalk hist want50 want90 want99 rest seen out

def TxTrace.stats (tr : TxTrace) (ival : TxIval) : TxTraceStats :=
  let hist := tr.hist ival
  let total := (List.range histBuckets).foldl (fun total i => (total + hist i) % 2 ^ 64) 0
  let out : TxTraceStats := { samples := total, max := tr.maxNs ival }
  if total = 0 then out
  else statsWalk hist (want 50 total) (want 90 total) (want 99 total) (List.range histBuckets) 0
    { out with mean := tr.sumNs ival / total }

/-- A total that was not measured counts as 0. -/
def TxTraceRec.total (rec : TxTraceRec) : Nat := (span rec.t .total).getD 0

/-- The search of `tbv_txtrace_note_worst` for the first smallest total, from `slot` on. -/
def smallest (worst : List TxTraceRec) : List Nat → Nat → Nat
  | [], slot => slot
  | i :: rest, slot =>
      if (worst.getD i {}).total < (worst.getD slot {}).total then smallest worst rest i
      else smallest worst rest slot

def noteWorst (worst : List TxTraceRec) (rec : TxTraceRec) : List TxTraceRec :=
  match span rec.t .total with
  | none => worst
  | some total =>
      if worst.length < traceWorst then worst ++ [rec]
      else
        let slot := smallest worst ((List.range traceWorst).drop 1) 0
        if (worst.getD slot {}).total ≤ total then worst.set slot rec else worst

def TxTrace.measure (tr : TxTrace) (t : TxStage → Nat) (ival : TxIval) : TxTrace :=
  match span t ival with
  | none => tr
  | some ns => { tr with
      hist := Function.update tr.hist ival (Function.update (tr.hist ival) (bucket ns)
        ((tr.hist ival (bucket ns) + 1) % 2 ^ 64))
      sumNs := Function.update tr.sumNs ival ((tr.sumNs ival + ns) % 2 ^ 64)
      maxNs := if tr.maxNs ival < ns then Function.update tr.maxNs ival ns else tr.maxNs }

/-- The intervals in the order of the loop of `tbv_txtrace_record`. -/
def TxIval.all : List TxIval := [.post, .dispatch, .admitted, .publish, .notify, .reap, .cq, .total]

/-- A call of `tbv_txtrace_record`. -/
structure RecordCall where
  st : TxStamps
  wrId : Nat := 0
  qpn : Nat := 0
  psn : Nat := 0
  status : Int := 0

def TxTrace.record (tr : TxTrace) (call : RecordCall) : TxTrace :=
  let st := call.st
  if !st.active then tr
  else
    let rec' : TxTraceRec := {
      t := st.t, wrId := call.wrId, seq := tr.seq, qpn := call.qpn, psn := call.psn
      length := st.length, frames := st.frames, cpuPost := st.cpuPost, cpuWorker := st.cpuWorker
      cpuReap := st.cpuReap, cpuCq := st.cpuCq, status := call.status }
    let tr := { tr with seq := (tr.seq + 1) % 2 ^ 64, count := (tr.count + 1) % 2 ^ 64 }
    let tr := TxIval.all.foldl (fun tr ival => tr.measure st.t ival) tr
    let tr := { tr with worst := noteWorst tr.worst rec' }
    match tr.recs with
    | none => tr
    | some recs => { tr with
        recs := some (Function.update recs tr.head rec')
        head := (tr.head + 1) % traceRecs
        filled := if tr.filled < traceRecs then tr.filled + 1 else tr.filled }

end Tbv.Trace
