import ThunderboltIbverbs.Lib.Rank
import ThunderboltIbverbs.Trace.Model

/-! # The percentiles of a stage

The histogram of an interval counts its samples, so a percentile is the bucket of the sample of
its rank.  The walk of `tbv_txtrace_stats` takes 0 for "not found yet", but 0 is the floor of the
first bucket: a median of 0 is looked for again, and found in the next bucket. -/
set_option autoImplicit false
namespace Tbv.Trace

/-! ## Buckets -/

section
variable {ns ms exp : Nat}

theorem histBuckets_eq : histBuckets = 384 := rfl

theorem bucket_linear (small : ns < 64) : bucket ns = ns := by
  unfold bucket histLinear
  exact if_pos small

/-- The top four bits of a span: the one that is the exponent, and the three below it. -/
theorem sub_bounds (low : 2 ^ exp ≤ ns) (high : ns < 2 ^ (exp + 1)) (least : 6 ≤ exp) :
    8 ≤ ns / 2 ^ (exp - 3) ∧ ns / 2 ^ (exp - 3) < 16 := by
  have split : 2 ^ exp = 8 * 2 ^ (exp - 3) := by
    have whole := Nat.pow_add 2 3 (exp - 3)
    rw [Nat.add_sub_cancel' (by omega)] at whole
    exact whole
  rw [Nat.pow_succ, split] at high
  rw [split] at low
  have positive : 0 < 2 ^ (exp - 3) := Nat.two_pow_pos _
  exact ⟨(Nat.le_div_iff_mul_le positive).mpr low, (Nat.div_lt_iff_lt_mul positive).mpr (by omega)⟩

theorem bucket_octave (low : 2 ^ exp ≤ ns) (high : ns < 2 ^ (exp + 1)) (least : 6 ≤ exp) :
    bucket ns = if 46 ≤ exp then 383 else 64 + (exp - 6) * 8 + (ns / 2 ^ (exp - 3) - 8) := by
  have wide : 2 ^ 6 ≤ 2 ^ exp := Nat.pow_le_pow_right (by decide) least
  have large : 64 ≤ ns := Nat.le_trans wide low
  have log : Nat.log2 ns = exp := (Nat.log2_eq_iff (by omega)).mpr ⟨low, high⟩
  obtain ⟨least8, below16⟩ := sub_bounds low high least
  unfold bucket
  rw [show histLinear = 64 from rfl, show histBaseExp = 6 from rfl, show histOctaves = 40 from rfl,
    show histSub = 8 from rfl, show histSubbits = 3 from rfl, show histBuckets = 384 from rfl,
    if_neg (by omega)]
  dsimp only
  rw [log, Nat.max_eq_left least, Nat.shiftRight_eq_div_pow]
  split
  · rw [if_pos (by omega)]
  · rw [if_neg (by omega)]
    omega

theorem linear_or_octave (ns : Nat) :
    ns < 64 ∨ ∃ exp, 6 ≤ exp ∧ 2 ^ exp ≤ ns ∧ ns < 2 ^ (exp + 1) := by
  refine (Nat.lt_or_ge ns 64).imp id fun large => ⟨Nat.log2 ns, ?_, ?_, Nat.lt_log2_self⟩
  · exact (Nat.le_log2 (by omega)).mpr large
  · exact Nat.log2_self_le (by omega)

theorem bucket_lt (ns : Nat) : bucket ns < histBuckets := by
  rw [histBuckets_eq]
  obtain small | ⟨exp, least, low, high⟩ := linear_or_octave ns
  · rw [bucket_linear small]
    omega
  · have sub := sub_bounds low high least
    rw [bucket_octave low high least]
    split <;> omega

theorem bucket_mono (le : ns ≤ ms) : bucket ns ≤ bucket ms := by
  have last := bucket_lt ns
  rw [histBuckets_eq] at last
  obtain small | ⟨exp', least', low', high'⟩ := linear_or_octave ms
  · rw [bucket_linear small, bucket_linear (by omega)]
    exact le
  rw [bucket_octave low' high' least']
  obtain small | ⟨exp, least, low, high⟩ := linear_or_octave ns
  · rw [bucket_linear small]
    split <;> omega
  have order : exp ≤ exp' := by
    by_contra above
    have wide : 2 ^ (exp' + 1) ≤ 2 ^ exp := Nat.pow_le_pow_right (by decide) (by omega)
    omega
  have sub := sub_bounds low high least
  have sub' := sub_bounds low' high' least'
  split
  · omega
  · rw [bucket_octave low high least, if_neg (by omega)]
    obtain rfl | before := Nat.eq_or_lt_of_le order
    · have digits : ns / 2 ^ (exp - 3) ≤ ms / 2 ^ (exp - 3) := Nat.div_le_div_right le
      omega
    · omega

theorem bucketFloor_linear {b : Nat} (small : b < 64) : bucketFloor b = b := by
  unfold bucketFloor histLinear
  exact if_pos small

theorem bucketFloor_octave {b sub : Nat} (below : sub < 8) (least : 6 ≤ exp)
    (place : b = 64 + (exp - 6) * 8 + sub) : bucketFloor b = (8 + sub) * 2 ^ (exp - 3) := by
  unfold bucketFloor
  rw [show histLinear = 64 from rfl, show histBaseExp = 6 from rfl, show histSub = 8 from rfl,
    show histSubbits = 3 from rfl, if_neg (by omega)]
  dsimp only
  rw [show 6 + (b - 64) / 8 = exp by omega, show (b - 64) % 8 = sub by omega,
    Nat.shiftLeft_eq, Nat.shiftLeft_eq, Nat.one_mul, Nat.add_mul]
  have split : 2 ^ exp = 8 * 2 ^ (exp - 3) := by
    have whole := Nat.pow_add 2 3 (exp - 3)
    rw [Nat.add_sub_cancel' (by omega)] at whole
    exact whole
  rw [split]

/-- A percentile is reported at the lower bound of its bucket. -/
theorem bucketFloor_le (ns : Nat) : bucketFloor (bucket ns) ≤ ns := by
  obtain small | ⟨exp, least, low, high⟩ := linear_or_octave ns
  · have floor : bucketFloor (bucket ns) = ns := by rw [bucket_linear small, bucketFloor_linear small]
    exact Nat.le_of_eq floor
  · obtain ⟨least8, below16⟩ := sub_bounds low high least
    rw [bucket_octave low high least]
    split
    · rename_i saturated
      -- the last bucket begins below 2^46
      rw [@bucketFloor_octave 45 383 7 (by decide) (by decide) rfl]
      exact Nat.le_trans (by decide : (8 + 7) * 2 ^ (45 - 3) ≤ 2 ^ 46)
        (Nat.le_trans (Nat.pow_le_pow_right (by decide) saturated) low)
    · rw [bucketFloor_octave (by omega) least rfl,
        show 8 + (ns / 2 ^ (exp - 3) - 8) = ns / 2 ^ (exp - 3) by omega]
      exact Nat.div_mul_le_self ..

theorem bucketFloor_eq_zero_iff {b : Nat} : bucketFloor b = 0 ↔ b = 0 := by
  obtain small | large := Nat.lt_or_ge b 64
  · rw [bucketFloor_linear small]
  · rw [@bucketFloor_octave (6 + (b - 64) / 8) b ((b - 64) % 8) (by omega) (by omega) (by omega)]
    have positive : 0 < 2 ^ (6 + (b - 64) / 8 - 3) := Nat.two_pow_pos _
    exact iff_of_false (Nat.ne_of_gt (Nat.mul_pos (by omega) positive)) (by omega)

theorem bucket_eq_zero_iff : bucket ns = 0 ↔ ns = 0 := by
  refine ⟨fun zero => ?_, fun zero => by rw [zero]; rfl⟩
  have least := bucketFloor_le ns
  obtain small | large := Nat.lt_or_ge ns 64
  · rwa [bucket_linear small] at zero
  · have above := bucket_mono large
    rw [zero] at above
    cases above

end

/-! ## The histogram counts the samples -/

def RecordCall.sample (ival : TxIval) (call : RecordCall) : Option Nat :=
  if call.st.active then span call.st.t ival else none

def samples (ival : TxIval) (calls : List RecordCall) : List Nat :=
  calls.filterMap (RecordCall.sample ival)

/-- The histogram and the maximum of one interval are those of the samples. -/
structure Counts (tr : TxTrace) (ival : TxIval) (xs : List Nat) : Prop where
  hist : ∀ b, tr.hist ival b = xs.countP (bucket · == b)
  max : tr.maxNs ival = xs.foldl Nat.max 0

section
variable {tr : TxTrace} {ival : TxIval} {xs : List Nat}

theorem Counts.measure_other (counts : Counts tr ival xs) {other : TxIval} (apart : other ≠ ival)
    (t : TxStage → Nat) : Counts (tr.measure t other) ival xs := by
  obtain ⟨hist, max⟩ := counts
  unfold TxTrace.measure
  split
  · exact ⟨hist, max⟩
  · refine ⟨fun b => ?_, ?_⟩
    · dsimp only
      rw [Function.update_of_ne (Ne.symm apart)]
      exact hist b
    · dsimp only
      split
      · rw [Function.update_of_ne (Ne.symm apart)]
        exact max
      · exact max

theorem Counts.measure (counts : Counts tr ival xs) (few : xs.length + 1 < 2 ^ 64)
    (t : TxStage → Nat) : Counts (tr.measure t ival) ival (xs ++ (span t ival).toList) := by
  obtain ⟨hist, max⟩ := counts
  unfold TxTrace.measure
  cases span t ival with
  | none =>
      rw [Option.toList_none, List.append_nil]
      exact ⟨hist, max⟩
  | some ns =>
      refine ⟨fun b => ?_, ?_⟩
      · dsimp only
        rw [Function.update_self, Option.toList_some, List.countP_append, List.countP_singleton]
        by_cases here : b = bucket ns
        · subst here
          have most := @List.countP_le_length _ (bucket · == bucket ns) xs
          rw [Function.update_self, hist, if_pos (beq_self_eq_true _), Nat.mod_eq_of_lt (by omega)]
        · rw [Function.update_of_ne here, hist, if_neg (by simpa using Ne.symm here), Nat.add_zero]
      · dsimp only
        rw [Option.toList_some, List.foldl_append, List.foldl_cons, List.foldl_nil, ← max]
        split
        · rename_i larger
          rw [Function.update_self]
          exact (Nat.max_eq_right (Nat.le_of_lt larger)).symm
        · rename_i smaller
          exact (Nat.max_eq_left (Nat.le_of_not_lt smaller)).symm

/-- The loop measures every interval once. -/
theorem Counts.measures {ivals : List TxIval} (distinct : ivals.Nodup) (here : ival ∈ ivals)
    (counts : Counts tr ival xs) (few : xs.length + 1 < 2 ^ 64) (t : TxStage → Nat) :
    Counts (ivals.foldl (fun tr ival => tr.measure t ival) tr) ival
      (xs ++ (span t ival).toList) := by
  have others : ∀ {ivals : List TxIval} {tr : TxTrace} {ys : List Nat}, ival ∉ ivals →
      Counts tr ival ys → Counts (ivals.foldl (fun tr ival => tr.measure t ival) tr) ival ys := by
    intro ivals
    induction ivals with
    | nil => exact fun _ counts => counts
    | cons first rest ih =>
        intro tr ys absent counts
        obtain ⟨apart, absent⟩ := not_or.mp (mt List.mem_cons.mpr absent)
        exact ih absent (counts.measure_other (Ne.symm apart) t)
  induction ivals generalizing tr with
  | nil => cases here
  | cons first rest ih =>
      obtain ⟨absent, distinct⟩ := List.nodup_cons.mp distinct
      rcases List.mem_cons.mp here with same | later
      · subst same
        rw [List.foldl_cons]
        exact others absent (counts.measure few t)
      · have apart : first ≠ ival := by
          rintro rfl
          exact absent later
        exact ih distinct later (counts.measure_other apart t)

theorem TxIval.mem_all (ival : TxIval) : ival ∈ TxIval.all := by
  cases ival <;> decide

theorem Counts.record (counts : Counts tr ival xs) (few : xs.length + 1 < 2 ^ 64)
    (call : RecordCall) : Counts (tr.record call) ival (xs ++ (call.sample ival).toList) := by
  unfold TxTrace.record RecordCall.sample
  dsimp only
  cases call.st.active with
  | false =>
      rw [if_neg Bool.false_ne_true, Option.toList_none, List.append_nil]
      exact counts
  | true =>
      have begun : Counts { tr with seq := (tr.seq + 1) % 2 ^ 64, count := (tr.count + 1) % 2 ^ 64 }
          ival xs := ⟨counts.hist, counts.max⟩
      obtain ⟨hist, max⟩ := begun.measures (by decide) ival.mem_all few call.st.t
      rw [if_pos rfl]
      split
      · rename_i active
        cases active
      · split <;> exact ⟨hist, max⟩

theorem Counts.run (counts : Counts tr ival xs) (calls : List RecordCall)
    (few : xs.length + calls.length < 2 ^ 64) :
    Counts (calls.foldl TxTrace.record tr) ival (xs ++ samples ival calls) := by
  induction calls generalizing tr xs with
  | nil =>
      rw [samples, List.filterMap_nil, List.append_nil]
      exact counts
  | cons call rest ih =>
      rw [List.length_cons] at few
      have next := counts.record (by omega) call
      have short : (call.sample ival).toList.length ≤ 1 := by
        cases call.sample ival <;> simp
      have more : samples ival (call :: rest) = (call.sample ival).toList ++ samples ival rest := by
        unfold samples
        cases found : call.sample ival with
        | none => rw [List.filterMap_cons_none found]; rfl
        | some ns => rw [List.filterMap_cons_some found]; rfl
      rw [more, ← List.append_assoc]
      exact ih next (by rw [List.length_append]; omega)

end

def fresh (recs : Option (Nat → TxTraceRec)) : TxTrace := { recs }

theorem counts_run {calls : List RecordCall} (few : calls.length < 2 ^ 64) (ival : TxIval)
    (recs : Option (Nat → TxTraceRec)) :
    Counts (calls.foldl TxTrace.record (fresh recs)) ival (samples ival calls) := by
  have begun : Counts (fresh recs) ival [] := ⟨fun _ => rfl, rfl⟩
  exact begun.run calls (by rw [List.length_nil]; omega)

/-! ## The walk -/

def rank (percent n : Nat) : Nat := (n * percent + 99) / 100

def percentile (xs : List Nat) (percent : Nat) : Option Nat := Rank.nth xs (rank percent xs.length)

theorem percentile_nil (percent : Nat) : percentile [] percent = none := by
  simp [percentile, Rank.nth]

theorem rank_bounds {percent n : Nat} (least : 1 ≤ percent) (most : percent ≤ 100) (nonempty : 0 < n) :
    0 < rank percent n ∧ rank percent n ≤ n := by
  have low : n ≤ n * percent := Nat.le_mul_of_pos_right n least
  have high : n * percent ≤ n * 100 := Nat.mul_le_mul_left n most
  unfold rank
  omega

theorem want_eq_rank {percent n : Nat} (least : 1 ≤ percent) (most : percent ≤ 100) (nonempty : 0 < n)
    (few : n < 2 ^ 50) : want percent n = rank percent n := by
  have bounds := rank_bounds least most nonempty
  have high : n * percent ≤ n * 100 := Nat.mul_le_mul_left n most
  unfold want
  rw [Nat.mod_eq_of_lt (by omega)]
  exact Nat.max_eq_right bounds.1

def below (xs : List Nat) (i : Nat) : Nat := xs.countP (fun x => bucket x < i)

theorem below_length (xs : List Nat) : below xs histBuckets = xs.length :=
  List.countP_eq_length.mpr fun x _ => decide_eq_true (bucket_lt x)

/-- The walk has seen a percentile when it has passed the bucket of its sample. -/
theorem rank_le_below_iff {xs : List Nat} {percent x : Nat} (first : 0 < rank percent xs.length)
    (here : percentile xs percent = some x) (i : Nat) :
    rank percent xs.length ≤ below xs (i + 1) ↔ bucket x ≤ i := by
  refine (Rank.le_countP_iff (fun a b le inside => ?_) first here).trans ?_
  · have mono := bucket_mono le
    have upper := of_decide_eq_true inside
    exact decide_eq_true (by omega)
  · rw [decide_eq_true_iff]
    omega

/-- What stands for the percentile with sample bucket `b` before bucket `i`: a floor of 0 is
found once more, in the bucket after it. -/
def marked (b i : Nat) : Nat :=
  if i ≤ b then 0 else if b = 0 ∧ 2 ≤ i then 1 else bucketFloor b

theorem marked_succ (b i : Nat) :
    (if marked b i = 0 ∧ b ≤ i then bucketFloor i else marked b i) = marked b (i + 1) := by
  have zero : bucketFloor 0 = 0 := rfl
  have one : bucketFloor 1 = 1 := rfl
  unfold marked
  obtain above | rfl | later := Nat.lt_trichotomy i b
  · rw [if_neg (by omega), if_pos (by omega), if_pos (by omega)]
  · rw [if_pos (by simp), if_neg (by omega)]
    split
    · rename_i both
      omega
    · rfl
  · by_cases first : b = 0
    · subst first
      rw [if_neg (by omega : ¬ i ≤ 0), if_neg (by omega : ¬ i + 1 ≤ 0), if_pos (by omega : 0 = 0 ∧ 2 ≤ i + 1)]
      by_cases next : i = 1
      · subst next
        rfl
      · rw [if_pos (by omega : 0 = 0 ∧ 2 ≤ i), if_neg (by omega)]
    · have floor := mt bucketFloor_eq_zero_iff.mp first
      rw [if_neg (by omega : ¬ i ≤ b), if_neg (by omega : ¬ i + 1 ≤ b),
        if_neg (by omega : ¬ (b = 0 ∧ 2 ≤ i)), if_neg (by omega : ¬ (b = 0 ∧ 2 ≤ i + 1)),
        if_neg fun both => floor both.1]

theorem statsWalk_eq {xs : List Nat} {hist : Nat → Nat} {x50 x90 x99 : Nat}
    (counts : ∀ b, hist b = xs.countP (bucket · == b)) (few : xs.length < 2 ^ 64)
    (seen50 : ∀ i, rank 50 xs.length ≤ below xs (i + 1) ↔ bucket x50 ≤ i)
    (seen90 : ∀ i, rank 90 xs.length ≤ below xs (i + 1) ↔ bucket x90 ≤ i)
    (seen99 : ∀ i, rank 99 xs.length ≤ below xs (i + 1) ↔ bucket x99 ≤ i)
    {left i : Nat} (size : i + left = histBuckets) (before : i ≤ bucket x99) {out : TxTraceStats}
    (out50 : out.p50 = marked (bucket x50) i) (out90 : out.p90 = marked (bucket x90) i) :
    statsWalk hist (rank 50 xs.length) (rank 90 xs.length) (rank 99 xs.length)
      (List.range' i left) (below xs i) out =
      { out with
        p50 := marked (bucket x50) (bucket x99 + 1)
        p90 := marked (bucket x90) (bucket x99 + 1)
        p99 := bucketFloor (bucket x99) } := by
  induction left generalizing i out with
  | zero =>
      have last := bucket_lt x99
      omega
  | succ left ih =>
      have step : (below xs i + hist i) % 2 ^ 64 = below xs (i + 1) := by
        have most := @List.countP_le_length _ (fun x => decide (bucket x < i + 1)) xs
        rw [counts, below, below, ← Rank.countP_lt_succ xs bucket i, Nat.mod_eq_of_lt (by omega)]
      have found50 := marked_succ (bucket x50) i
      have found90 := marked_succ (bucket x90) i
      rw [List.range'_succ, statsWalk, step]
      simp only [seen50, seen90, seen99]
      obtain last | more := Nat.eq_or_lt_of_le before
      · rw [if_pos (by omega), ← last, ← found50, ← found90, ← out50, ← out90]
        split <;> split <;> simp_all
      · rw [if_neg (by omega)]
        rw [ih (by omega) (by omega)]
        · split <;> split <;> rfl
        · rw [← found50, ← out50]
          split <;> split <;> simp_all
        · rw [← found90, ← out90]
          split <;> split <;> simp_all

theorem total_eq {xs : List Nat} {hist : Nat → Nat}
    (counts : ∀ b, hist b = xs.countP (bucket · == b)) (few : xs.length < 2 ^ 64) (n : Nat) :
    (List.range n).foldl (fun total i => (total + hist i) % 2 ^ 64) 0 = below xs n := by
  induction n with
  | zero => exact (List.countP_eq_zero.mpr fun x _ => by simp).symm
  | succ n ih =>
      have most := @List.countP_le_length _ (fun x => decide (bucket x < n + 1)) xs
      rw [List.range_succ, List.foldl_append, List.foldl_cons, List.foldl_nil, ih, counts, below,
        below, ← Rank.countP_lt_succ xs bucket n, Nat.mod_eq_of_lt (by omega)]

/-- What the statistics say, with the samples of the three ranks. -/
theorem stats_eq {tr : TxTrace} {ival : TxIval} {xs : List Nat} (counts : Counts tr ival xs)
    (few : xs.length < 2 ^ 50) {x50 x90 x99 : Nat} (at50 : percentile xs 50 = some x50)
    (at90 : percentile xs 90 = some x90) (at99 : percentile xs 99 = some x99) :
    ∃ mean, tr.stats ival = {
      samples := xs.length, max := xs.foldl Nat.max 0, mean
      p50 := marked (bucket x50) (bucket x99 + 1)
      p90 := marked (bucket x90) (bucket x99 + 1)
      p99 := bucketFloor (bucket x99) } := by
  have nonempty : 0 < xs.length := by
    by_contra empty
    have nil : xs = [] := List.length_eq_zero_iff.mp (by omega)
    rw [nil, percentile_nil] at at50
    cases at50
  have total := total_eq counts.hist (by omega) histBuckets
  rw [below_length] at total
  have bounds50 := rank_bounds (by decide : 1 ≤ 50) (by decide) nonempty
  have bounds90 := rank_bounds (by decide : 1 ≤ 90) (by decide) nonempty
  have bounds99 := rank_bounds (by decide : 1 ≤ 99) (by decide) nonempty
  have walk := @statsWalk_eq xs (tr.hist ival) x50 x90 x99 counts.hist (by omega)
    (rank_le_below_iff bounds50.1 at50) (rank_le_below_iff bounds90.1 at90)
    (rank_le_below_iff bounds99.1 at99) histBuckets 0 (Nat.zero_add _) (Nat.zero_le _)
    { samples := xs.length, max := xs.foldl Nat.max 0, mean := tr.sumNs ival / xs.length } rfl rfl
  have nothing : below xs 0 = 0 := List.countP_eq_zero.mpr fun x _ => by simp
  unfold TxTrace.stats
  dsimp only
  rw [total, if_neg (by omega), want_eq_rank (by decide) (by decide) nonempty few,
    want_eq_rank (by decide) (by decide) nonempty few, want_eq_rank (by decide) (by decide) nonempty few,
    List.range_eq_range', counts.max]
  rw [nothing] at walk
  exact ⟨_, walk⟩

theorem stats_empty {tr : TxTrace} {ival : TxIval} (counts : Counts tr ival []) :
    tr.stats ival = {} := by
  have total := total_eq counts.hist (by decide) histBuckets
  rw [below_length] at total
  unfold TxTrace.stats
  dsimp only
  rw [total, if_pos List.length_nil, counts.max]
  rfl

/-- A percentile whose bucket the walk has passed. -/
theorem marked_passed {b last : Nat} (le : b ≤ last) :
    marked b (last + 1) = bucketFloor b ↔ b ≠ 0 ∨ last = 0 := by
  have zero : bucketFloor 0 = 0 := rfl
  unfold marked
  rw [if_neg (by omega)]
  split
  · rename_i both
    obtain ⟨rfl, passed⟩ := both
    rw [zero]
    exact iff_of_false (by decide) (by omega)
  · rename_i found
    exact iff_of_true rfl (by omega)

/-- The statistics of an interval are those of its samples. -/
structure Reports (xs : List Nat) (out : TxTraceStats) : Prop where
  samples : out.samples = xs.length
  max : out.max = xs.foldl Nat.max 0
  p50 : ∀ x, percentile xs 50 = some x → out.p50 = bucketFloor (bucket x)
  p90 : ∀ x, percentile xs 90 = some x → out.p90 = bucketFloor (bucket x)
  p99 : ∀ x, percentile xs 99 = some x → out.p99 = bucketFloor (bucket x)

theorem reports_iff {tr : TxTrace} {ival : TxIval} {xs : List Nat} (counts : Counts tr ival xs)
    (few : xs.length < 2 ^ 50) : Reports xs (tr.stats ival) ↔
      (percentile xs 50 = some 0 → percentile xs 99 = some 0) := by
  obtain empty | nonempty := Nat.eq_zero_or_pos xs.length
  · obtain rfl := List.length_eq_zero_iff.mp empty
    rw [stats_empty counts]
    refine iff_of_true ⟨rfl, rfl, ?_, ?_, ?_⟩ ?_ <;> simp [percentile_nil]
  have bounds50 := rank_bounds (by decide : 1 ≤ 50) (by decide) nonempty
  have bounds90 := rank_bounds (by decide : 1 ≤ 90) (by decide) nonempty
  have bounds99 := rank_bounds (by decide : 1 ≤ 99) (by decide) nonempty
  obtain ⟨x50, at50⟩ := Rank.nth_isSome bounds50.1 bounds50.2
  obtain ⟨x90, at90⟩ := Rank.nth_isSome bounds90.1 bounds90.2
  obtain ⟨x99, at99⟩ := Rank.nth_isSome bounds99.1 bounds99.2
  have le5090 : x50 ≤ x90 := Rank.nth_mono (by unfold rank; omega) at50 at90
  have le9099 : x90 ≤ x99 := Rank.nth_mono (by unfold rank; omega) at90 at99
  have zero50 := @bucket_eq_zero_iff x50
  have zero90 := @bucket_eq_zero_iff x90
  have zero99 := @bucket_eq_zero_iff x99
  have passed50 := marked_passed (bucket_mono (Nat.le_trans le5090 le9099))
  have passed90 := marked_passed (bucket_mono le9099)
  obtain ⟨mean, told⟩ := stats_eq counts few at50 at90 at99
  rw [told]
  unfold percentile at *
  simp only [at50, at99, Option.some.injEq]
  constructor
  · intro reports median
    have right := passed50.mp (reports.p50 x50 at50)
    omega
  · intro median
    refine ⟨rfl, rfl, fun x found => ?_, fun x found => ?_, fun x found => ?_⟩
    · obtain rfl := Option.some.inj (at50.symm.trans found)
      exact passed50.mpr (by omega)
    · obtain rfl := Option.some.inj (at90.symm.trans found)
      exact passed90.mpr (by omega)
    · obtain rfl := Option.some.inj (at99.symm.trans found)
      rfl

/-- Every bucket is in the table, larger spans have no smaller bucket, and a floor is no larger
than the span; the statistics are those of the samples unless the median is 0 and the 99th
percentile is not. -/
theorem stats_percentiles_iff {calls : List RecordCall} (few : calls.length < 2 ^ 50)
    (ival : TxIval) (recs : Option (Nat → TxTraceRec)) :
    (∀ ns, bucket ns < histBuckets ∧ bucketFloor (bucket ns) ≤ ns ∧
      ∀ ms, ns ≤ ms → bucket ns ≤ bucket ms) ∧
    (Reports (samples ival calls) ((calls.foldl TxTrace.record (fresh recs)).stats ival) ↔
      (percentile (samples ival calls) 50 = some 0 → percentile (samples ival calls) 99 = some 0)) := by
  have fewer : (samples ival calls).length ≤ calls.length := List.length_filterMap_le ..
  exact ⟨fun ns => ⟨bucket_lt ns, bucketFloor_le ns, fun _ => bucket_mono⟩,
    reports_iff (counts_run (by omega) ival recs) (by omega)⟩

def postCall (ns : Nat) : RecordCall where
  st := { t := fun stage =>
    if stage = .postEntry then 1000 else if stage = .postHandoff then 1000 + ns else 0 }

theorem samples_postCall (spans : List Nat) : samples .post (spans.map postCall) = spans := by
  induction spans with
  | nil => rfl
  | cons ns rest ih =>
      have sample : (postCall ns).sample .post = some ns := by
        simp [RecordCall.sample, postCall, span, TxIval.ends]
      rw [List.map_cons, samples, List.filterMap_cons_some sample]
      exact congrArg _ ih

/-- One post of four within a tick of the clock, and three posts that all are. -/
theorem stats_percentiles_iff_posts :
    Reports [70, 0, 12000, 5]
      (([70, 0, 12000, 5].map postCall).foldl TxTrace.record (fresh none) |>.stats .post) ∧
    Reports [0, 0, 0]
      (([0, 0, 0].map postCall).foldl TxTrace.record (fresh none) |>.stats .post) := by
  have mixed := (@stats_percentiles_iff ([70, 0, 12000, 5].map postCall) (by decide) .post none).2
  have zeros := (@stats_percentiles_iff ([0, 0, 0].map postCall) (by decide) .post none).2
  rw [samples_postCall] at mixed zeros
  exact ⟨mixed.mpr (by simp [percentile, Rank.nth, rank, List.mergeSort]),
    zeros.mpr (by simp [percentile, Rank.nth, rank, List.mergeSort])⟩

/-- Two posts within one tick of the clock and one of 100 ns: the median is reported as 1. -/
theorem median_zero_reported_as_one : ¬ ∀ (calls : List RecordCall) (ival : TxIval)
    (recs : Option (Nat → TxTraceRec)), calls.length < 2 ^ 50 →
      Reports (samples ival calls) ((calls.foldl TxTrace.record (fresh recs)).stats ival) := by
  intro always
  have reports := always ([0, 0, 100].map postCall) .post none (by decide)
  have counts := @counts_run ([0, 0, 100].map postCall) (by decide) .post none
  rw [samples_postCall] at reports counts
  have sorted : [0, 0, 100].mergeSort (fun a b => a ≤ b) = [0, 0, 100] :=
    List.mergeSort_of_pairwise (by decide)
  have median : percentile [0, 0, 100] 50 = some 0 := by
    rw [percentile, Rank.nth, sorted]
    rfl
  have tail : percentile [0, 0, 100] 99 = some 100 := by
    rw [percentile, Rank.nth, sorted]
    rfl
  have equal := (reports_iff counts (by decide)).mp reports median
  cases tail.symm.trans equal

end Tbv.Trace
