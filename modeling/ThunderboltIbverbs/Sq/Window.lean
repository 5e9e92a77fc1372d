import ThunderboltIbverbs.Sq.Spec

/-! # The Apple TX window as a ledger

The counters always are what was acquired and not released.  Whether everything is released
in the end depends on one thing: a send must not be completed, mark and all, between the
acquisition by its worker and the mark that tells `tbv_send_complete` to release it. -/
set_option autoImplicit false
namespace Tbv.Sq

open Threads Trans

def isWr : Charge → Bool
  | .wr _ => true
  | .frames _ _ => false

def framesOf : Charge → Nat
  | .wr _ => 0
  | .frames _ count => count

/-- The work requests and the frames that were acquired and not released. -/
def Qp.heldWrs (q : Qp) : Nat := q.ledger.countP isWr
def Qp.heldFrames (q : Qp) : Nat := (q.ledger.map framesOf).sum

/-- The counters are what the ledger holds. -/
def Counted (q : Qp) : Prop := q.txInflight = q.heldWrs ∧ q.txInflightFrames = q.heldFrames

/-- What the mark of a context says it holds. -/
def SendCtx.holds (c : SendCtx) (s : Nat) : List Charge :=
  if c.windowAcquired then charges s c.windowWrAcquired c.windowFrames else []

def entries (st : St) (s : Nat) : Nat := st.shared.appleSq.count s + st.total (entryWeight s)

structure Places (st : St) : Prop where
  once : ∀ s, entries st s ≤ 1
  marked : ∀ s, (st.shared.sends s).windowAcquired = true → entries st s = 0
  fresh : ∀ s, st.shared.posted ≤ s → entries st s = 0 ∧ (st.shared.sends s).windowAcquired = false

structure Ledger (st : St) : Prop where
  places : Places st
  balance : ∀ x, Balanced (fun q => q.ledger.count x)
    (fun q => ((q.sends x.send).holds x.send).count x) (chargeWeight x) st
  counted : Counted st.shared

/-! ## Charges -/

theorem send_of_mem_charges {s frames : Nat} {wr : Bool} {x : Charge}
    (among : x ∈ charges s wr frames) : x.send = s := by
  unfold charges at among
  rcases List.mem_append.mp among with first | second
  · split at first
    · cases List.mem_singleton.mp first
      rfl
    · cases first
  · split at second
    · cases List.mem_singleton.mp second
      rfl
    · cases second

theorem count_charges_other {s frames : Nat} {wr : Bool} {x : Charge} (other : x.send ≠ s) :
    (charges s wr frames).count x = 0 :=
  List.count_eq_zero.mpr fun among => other (send_of_mem_charges among)

theorem charges_split (s frames : Nat) (wr : Bool) :
    charges s wr frames = charges s wr 0 ++ charges s false frames := by
  simp [charges]

theorem countP_acquire (q : Qp) (s frames : Nat) (wr : Bool) :
    (q.acquire s wr frames).heldWrs = q.heldWrs + (if wr then 1 else 0) ∧
      (q.acquire s wr frames).heldFrames = q.heldFrames + frames := by
  simp only [Qp.heldWrs, Qp.heldFrames, Qp.acquire, charges, List.countP_append, List.map_append,
    List.sum_append]
  constructor
  · split <;> split <;> simp [isWr]
  · split <;> split <;> simp_all [framesOf]

/-- One unit less in the ledger. -/
theorem held_erase {ledger : List Charge} {x : Charge} (among : x ∈ ledger) :
    ledger.countP isWr = (ledger.erase x).countP isWr + (if isWr x then 1 else 0) ∧
      (ledger.map framesOf).sum = ((ledger.erase x).map framesOf).sum + framesOf x := by
  have perm := List.perm_cons_erase among
  have counts := perm.countP_eq isWr
  have sums := (perm.map framesOf).sum_eq
  rw [List.countP_cons] at counts
  rw [List.map_cons, List.sum_cons] at sums
  exact ⟨counts, by omega⟩

theorem Counted.releaseWr {q : Qp} {s : Nat} {wr : Bool} (counted : Counted q)
    (among : wr = true → .wr s ∈ q.ledger) : Counted (q.releaseWr s wr) := by
  unfold Qp.releaseWr
  split
  · rename_i is
    obtain ⟨wrs, frames⟩ := counted
    obtain ⟨counts, sums⟩ := held_erase (among is)
    simp only [isWr, framesOf, if_true] at counts sums
    unfold Qp.heldWrs at wrs
    unfold Qp.heldFrames at frames
    constructor
    · simp only [Qp.heldWrs]
      omega
    · simp only [Qp.heldFrames]
      omega
  · exact counted

theorem Counted.releaseFrames {q : Qp} {s frames : Nat} (counted : Counted q)
    (among : frames ≠ 0 → .frames s frames ∈ q.ledger) : Counted (q.releaseFrames s frames) := by
  unfold Qp.releaseFrames
  split
  · rename_i some_
    obtain ⟨wrs, total⟩ := counted
    obtain ⟨counts, sums⟩ := held_erase (among some_)
    simp only [isWr, framesOf, Bool.false_eq_true, if_false] at counts sums
    unfold Qp.heldWrs at wrs
    unfold Qp.heldFrames at total
    constructor
    · simp only [Qp.heldWrs]
      omega
    · simp only [Qp.heldFrames]
      omega
  · exact counted

theorem Counted.acquire {q : Qp} (counted : Counted q) (s frames : Nat) (wr : Bool) :
    Counted (q.acquire s wr frames) := by
  obtain ⟨wrs, total⟩ := counted
  obtain ⟨counts, sums⟩ := countP_acquire q s frames wr
  constructor
  · rw [counts]
    simp only [Qp.acquire]
    split <;> omega
  · rw [sums]
    simp only [Qp.acquire]
    omega

theorem mem_charges_wr {s frames : Nat} : Charge.wr s ∈ charges s true frames := by
  simp [charges]

theorem mem_charges_frames {s frames : Nat} {wr : Bool} (some_ : frames ≠ 0) :
    Charge.frames s frames ∈ charges s wr frames := by
  simp [charges, some_]

/-- How many units a release takes out of the ledger. -/
theorem count_releaseWr {q : Qp} {s : Nat} {wr : Bool} {x : Charge}
    (among : wr = true → .wr s ∈ q.ledger) :
    (q.releaseWr s wr).ledger.count x + (charges s wr 0).count x = q.ledger.count x := by
  unfold Qp.releaseWr
  cases wr with
  | false => simp [charges]
  | true =>
      have counts := (List.perm_cons_erase (among rfl)).count_eq x
      rw [List.count_cons] at counts
      simp only [charges, if_true, ne_eq, not_true_eq_false, if_false, List.append_nil,
        List.count_singleton]
      omega

theorem count_releaseFrames {q : Qp} {s frames : Nat} {x : Charge}
    (among : frames ≠ 0 → .frames s frames ∈ q.ledger) :
    (q.releaseFrames s frames).ledger.count x + (charges s false frames).count x =
      q.ledger.count x := by
  unfold Qp.releaseFrames
  split
  · rename_i some_
    have counts := (List.perm_cons_erase (among some_)).count_eq x
    rw [List.count_cons] at counts
    simp only [charges, Bool.false_eq_true, if_false, some_, ne_eq, not_false_eq_true, if_true,
      List.nil_append, List.count_singleton]
    omega
  · rename_i none
    simp [charges, none]

/-! ## One step -/

section Run
variable {st : St} {thread : Nat} {frame : Frame} {rest pushed : List Frame} {q : Qp}

theorem entries_run (found : st.threads[thread]? = some (frame :: rest)) (s : Nat) :
    entries ⟨q, st.threads.set thread (pushed ++ rest)⟩ s + st.shared.appleSq.count s +
      entryWeight s frame =
      entries st s + q.appleSq.count s + weigh (entryWeight s) pushed := by
  have total := @State.total_run _ _ st (entryWeight s) _ _ _ pushed q found
  unfold entries
  dsimp only
  omega

theorem Places.run (places : Places st) (found : st.threads[thread]? = some (frame :: rest))
    (hands : ∀ s, q.appleSq.count s + weigh (entryWeight s) pushed ≤
      st.shared.appleSq.count s + entryWeight s frame)
    (kept : ∀ s, (q.sends s).windowAcquired = true → (st.shared.sends s).windowAcquired = true ∨
      entries ⟨q, st.threads.set thread (pushed ++ rest)⟩ s = 0 ∧ s < st.shared.posted)
    (posted : q.posted = st.shared.posted) :
    Places ⟨q, st.threads.set thread (pushed ++ rest)⟩ := by
  have fewer : ∀ s, entries ⟨q, st.threads.set thread (pushed ++ rest)⟩ s ≤ entries st s := by
    intro s
    have moved := @entries_run _ _ _ _ pushed q found s
    have below := hands s
    omega
  refine ⟨fun s => ?_, fun s acquired => ?_, fun s beyond => ?_⟩
  · exact (fewer s).trans (places.once s)
  · rcases kept s acquired with before | ⟨none, -⟩
    · have := places.marked s before
      have := fewer s
      omega
    · exact none
  · dsimp only at beyond
    rw [posted] at beyond
    obtain ⟨none, free⟩ := places.fresh s beyond
    have := fewer s
    refine ⟨by omega, ?_⟩
    by_contra acquired
    rcases kept s (by simpa using acquired) with before | ⟨-, inside⟩
    · rw [free] at before
      cases before
    · omega

theorem Places.unmarked (places : Places st) (found : st.threads[thread]? = some (frame :: rest))
    {s : Nat} (is : entryOf frame = some s) :
    (st.shared.sends s).windowAcquired = false ∧ entries st s = 1 ∧ s < st.shared.posted := by
  have one : entryWeight s frame = 1 := by simp [entryWeight, is]
  have below := State.weight_le_total (entryWeight s) (State.has_of_top found)
  have once := places.once s
  have here : entries st s = 1 := by
    unfold entries at once ⊢
    omega
  refine ⟨?_, here, ?_⟩
  · by_contra acquired
    have none := places.marked s (by simpa using acquired)
    omega
  · by_contra beyond
    have none := (places.fresh s (by omega)).1
    omega

theorem Places.admits (places : Places st) {length : Nat} {signaled : Bool}
    (found : st.threads[thread]? = some (.reserveSlot length signaled :: rest))
    (entered : q.appleSq = st.shared.appleSq) (posted : q.posted = st.shared.posted + 1)
    (new : (q.sends st.shared.posted).windowAcquired = false)
    (old : ∀ s, s ≠ st.shared.posted → q.sends s = st.shared.sends s) :
    Places ⟨q, st.threads.set thread ([.takePsn st.shared.posted] ++ rest)⟩ := by
  have moved : ∀ s, entries ⟨q, st.threads.set thread ([.takePsn st.shared.posted] ++ rest)⟩ s =
      entries st s + if s = st.shared.posted then 1 else 0 := by
    intro s
    have moved := @entries_run _ _ _ _ [.takePsn st.shared.posted] q found s
    rw [entered] at moved
    have frame : entryWeight s (.reserveSlot length signaled) = 0 := rfl
    have next : weigh (entryWeight s) [.takePsn st.shared.posted] =
        if s = st.shared.posted then 1 else 0 := by
      simp [entryWeight, entryOf, eq_comm]
    omega
  have none := (places.fresh st.shared.posted (Nat.le_refl _)).1
  refine ⟨fun s => ?_, fun s acquired => ?_, fun s beyond => ?_⟩
  · rw [moved]
    split
    · rename_i this
      subst this
      omega
    · exact places.once s
  · rw [moved]
    split
    · rename_i this
      subst this
      rw [new] at acquired
      cases acquired
    · rename_i other
      dsimp only at acquired
      rw [old s other] at acquired
      exact places.marked s acquired
  · dsimp only at beyond
    rw [moved]
    rw [if_neg (by omega), old s (by omega)]
    exact places.fresh s (by omega)

theorem Ledger.mem_of_frame (ledger : Ledger st) (has : st.Has frame) {x : Charge}
    (among : x ∈ chargesOf frame) : x ∈ st.shared.ledger := by
  have balance : st.shared.ledger.count x = _ + st.total (chargeWeight x) := ledger.balance x
  have below := State.weight_le_total (chargeWeight x) has
  have one : 0 < chargeWeight x frame := List.count_pos_iff.mpr among
  exact List.count_pos_iff.mp (by omega)

theorem Ledger.mem_of_mark (ledger : Ledger st) {s : Nat} {x : Charge}
    (among : x ∈ (st.shared.sends s).holds s) : x ∈ st.shared.ledger := by
  have owner : x.send = s := by
    unfold SendCtx.holds at among
    split at among
    · exact send_of_mem_charges among
    · cases among
  have balance : st.shared.ledger.count x =
    ((st.shared.sends x.send).holds x.send).count x + _ := ledger.balance x
  rw [owner] at balance
  have one : 0 < ((st.shared.sends s).holds s).count x := List.count_pos_iff.mpr among
  exact List.count_pos_iff.mp (by omega)

theorem holds_of_sameWindow {c c' : SendCtx} (same : c.SameWindow c') (s : Nat) :
    c'.holds s = c.holds s := by
  unfold SendCtx.holds
  rw [same.acquired, same.wr, same.frames]

theorem holds_free {c : SendCtx} (free : c.windowAcquired = false) (s : Nat) : c.holds s = [] := by
  simp [SendCtx.holds, free]

theorem Counted.of_calm {q q' : Qp} (counted : Counted q) (same : Calm q q') : Counted q' := by
  obtain ⟨wrs, frames⟩ := counted
  constructor
  · rw [same.inflight, wrs, Qp.heldWrs, Qp.heldWrs, same.ledger]
  · rw [same.frames, frames, Qp.heldFrames, Qp.heldFrames, same.ledger]

theorem modCtx_other {q : Qp} {s other : Nat} {change : SendCtx → SendCtx} (different : other ≠ s) :
    (q.modCtx s change).sends other = q.sends other := by
  simp [Qp.modCtx, different]

theorem modCtx_self {q : Qp} {s : Nat} {change : SendCtx → SendCtx} :
    (q.modCtx s change).sends s = change (q.sends s) := by
  simp [Qp.modCtx]

theorem holds_markHolder (q : Qp) (s frames : Nat) (wr : Bool) :
    ((q.markHolder s wr frames).sends s).holds s = charges s wr frames := by
  simp only [Qp.markHolder, modCtx_self, SendCtx.holds, charges]
  cases wr <;> by_cases none : frames = 0 <;> simp [none]

theorem Ledger.run (ledger : Ledger st) (found : st.threads[thread]? = some (frame :: rest))
    (windowing : Windowing st.shared frame q pushed) :
    Ledger ⟨q, st.threads.set thread (pushed ++ rest)⟩ := by
  have has := State.has_of_top found
  cases windowing with
  | calm same entries carries quiet =>
      refine ⟨ledger.places.run found entries (fun s acquired => .inl ?_) same.posted,
        fun x => (ledger.balance x).run found ?_, ledger.counted.of_calm same⟩
      · rw [← (same.sends s).acquired]
        exact acquired
      · rw [same.ledger, holds_of_sameWindow (same.sends x.send), carries x]
  | admits length signaled =>
      have other : ∀ s, s ≠ st.shared.posted → Function.update st.shared.sends st.shared.posted
          { length, signaled, slotCounted := true } s = st.shared.sends s :=
        fun s different => Function.update_of_ne different _ _
      refine ⟨ledger.places.admits found rfl rfl (by simp) other,
        fun x => (ledger.balance x).run found ?_, ledger.counted⟩
      have free := (ledger.places.fresh st.shared.posted (Nat.le_refl _)).2
      have same : (Function.update st.shared.sends st.shared.posted
          { length, signaled, slotCounted := true } x.send).holds x.send =
          (st.shared.sends x.send).holds x.send := by
        by_cases this : x.send = st.shared.posted
        · rw [this, Function.update_self, holds_free free, holds_free rfl]
        · rw [other _ this]
      dsimp only
      rw [same]
      simp [chargeWeight, chargesOf]
  | acquires s wr frames =>
      refine ⟨ledger.places.run found (fun other => ?_) (fun other acquired => .inl acquired) rfl,
        fun x => (ledger.balance x).run found ?_, ledger.counted.acquire s frames wr⟩
      · simp [Qp.acquire, entryWeight, entryOf]
      · simp only [Qp.acquire, List.count_append, chargeWeight, chargesOf, weigh_cons, weigh_nil,
          List.count_nil]
        omega
  | givesBack s wr frames ret =>
      have among : wr = true → .wr s ∈ st.shared.ledger := by
        rintro rfl
        exact ledger.mem_of_frame has mem_charges_wr
      refine ⟨ledger.places.run found (fun other => ?_) (fun other acquired => .inl ?_)
        (releaseWr_posted ..), fun x => (ledger.balance x).run found ?_,
        ledger.counted.releaseWr among⟩
      · simp [entryWeight, entryOf]
      · simpa using acquired
      · have counts := @count_releaseWr _ _ _ x among
        have split := congrArg (List.count x) (charges_split s frames wr)
        rw [List.count_append] at split
        simp only [releaseWr_sends, chargeWeight, chargesOf, weigh_cons, weigh_nil]
        omega
  | givesBackFrames s frames ret next =>
      have among : frames ≠ 0 → .frames s frames ∈ st.shared.ledger :=
        fun some_ => ledger.mem_of_frame has (mem_charges_frames some_)
      refine ⟨ledger.places.run found (fun other => ?_) (fun other acquired => .inl ?_)
        (releaseFrames_posted ..), fun x => (ledger.balance x).run found ?_,
        ledger.counted.releaseFrames among⟩
      · rcases next with rfl | rfl <;> simp [entryWeight, entryOf]
      · simpa using acquired
      · have counts := @count_releaseFrames _ _ _ x among
        have none : weigh (chargeWeight x) pushed = 0 := by
          rcases next with rfl | rfl <;> simp [chargeWeight, chargesOf]
        simp only [releaseFrames_sends, chargeWeight, chargesOf] at none ⊢
        omega
  | marks s wr frames chunks =>
      obtain ⟨free, one, inside⟩ := @Places.unmarked _ _ _ _ ledger.places found s rfl
      have moved := @entries_run _ _ _ _ [.arm s, .nextChunk s chunks 0 0]
        (st.shared.markHolder s wr frames) found s
      have gone : weigh (entryWeight s) [.arm s, .nextChunk s chunks 0 0] = 0 := by
        simp [entryWeight, entryOf]
      have here : entryWeight s (.mark s wr frames) = 1 := by simp [entryWeight, entryOf]
      have queue : (st.shared.markHolder s wr frames).appleSq = st.shared.appleSq := rfl
      rw [gone, here, queue] at moved
      refine ⟨ledger.places.run found (fun other => ?_) (fun other acquired => ?_) rfl,
        fun x => (ledger.balance x).run found ?_, ledger.counted⟩
      · simp [queue, entryWeight, entryOf]
      · by_cases this : other = s
        · subst this
          exact .inr ⟨by omega, inside⟩
        · refine .inl ?_
          rw [← modCtx_other this]
          exact acquired
      · have same : (st.shared.markHolder s wr frames).ledger = st.shared.ledger := rfl
        rw [same]
        by_cases this : x.send = s
        · rw [this, holds_markHolder, holds_free free]
          simp only [chargeWeight, chargesOf, weigh_cons, weigh_nil, List.count_nil]
          omega
        · rw [Qp.markHolder, modCtx_other this]
          simp only [chargeWeight, chargesOf, weigh_cons, weigh_nil, List.count_nil,
            count_charges_other this]
  | completes s status =>
      have same : ∀ other, ((st.shared.modCtx s fun c => { c with completed := true }).sends
          other).windowAcquired = (st.shared.sends other).windowAcquired ∧
          ((st.shared.modCtx s fun c => { c with completed := true }).sends other).holds other =
          (st.shared.sends other).holds other := by
        intro other
        by_cases this : other = s
        · rw [this, modCtx_self]
          exact ⟨rfl, rfl⟩
        · rw [modCtx_other this]
          exact ⟨rfl, rfl⟩
      refine ⟨ledger.places.run found (fun other => ?_) (fun other acquired => .inl ?_) rfl,
        fun x => (ledger.balance x).run found ?_, ledger.counted⟩
      · simp [Qp.modCtx, entryWeight, entryOf]
      · rw [← (same other).1]
        exact acquired
      · rw [(same x.send).2]
        simp [Qp.modCtx, chargeWeight, chargesOf]
  | releases s holds =>
      have whole : (st.shared.sends s).holds s = charges s (st.shared.sends s).windowWrAcquired
          (st.shared.sends s).windowFrames := by
        simp [SendCtx.holds, holds]
      have among : (st.shared.sends s).windowWrAcquired = true → .wr s ∈ st.shared.ledger := by
        intro wr
        refine ledger.mem_of_mark (s := s) ?_
        rw [whole, wr]
        exact mem_charges_wr
      refine ⟨ledger.places.run found (fun other => ?_) (fun other acquired => .inl ?_)
        (releaseWr_posted ..), fun x => (ledger.balance x).run found ?_,
        ledger.counted.releaseWr among⟩
      · simp [Qp.modCtx, entryWeight, entryOf]
      · by_cases this : other = s
        · rw [this]
          exact holds
        · rw [modCtx_other this] at acquired
          simpa using acquired
      · have counts := @count_releaseWr _ _ _ x among
        have split := congrArg (List.count x) (charges_split s (st.shared.sends s).windowFrames
          (st.shared.sends s).windowWrAcquired)
        rw [List.count_append] at split
        have same : ((st.shared.releaseWr s (st.shared.sends s).windowWrAcquired).modCtx s
            fun c => { c with windowAcquired := false }).ledger =
            (st.shared.releaseWr s (st.shared.sends s).windowWrAcquired).ledger := rfl
        rw [same]
        by_cases this : x.send = s
        · rw [this, whole, modCtx_self, holds_free rfl]
          simp only [chargeWeight, chargesOf, weigh_cons, weigh_nil, List.count_nil]
          omega
        · rw [modCtx_other this, releaseWr_sends]
          simp only [chargeWeight, chargesOf, weigh_cons, weigh_nil, List.count_nil,
            count_charges_other this] at counts ⊢
          omega
  | holdsNothing s free =>
      refine ⟨ledger.places.run found (fun other => ?_) (fun other acquired => .inl acquired) rfl,
        fun x => (ledger.balance x).run found ?_, ledger.counted⟩
      · simp
      · simp [chargeWeight, chargesOf]
  | releasesFrames s frames =>
      have among : frames ≠ 0 → .frames s frames ∈ st.shared.ledger :=
        fun some_ => ledger.mem_of_frame has (mem_charges_frames some_)
      refine ⟨ledger.places.run found (fun other => ?_) (fun other acquired => .inl ?_)
        (releaseFrames_posted ..), fun x => (ledger.balance x).run found ?_,
        ledger.counted.releaseFrames among⟩
      · simp
      · simpa using acquired
      · have counts := @count_releaseFrames _ _ _ x among
        simp only [releaseFrames_sends, chargeWeight, chargesOf, weigh_nil]
        omega

end Run

/-- An event takes nothing and gives nothing back. -/
theorem Ledger.event {st : St} (ledger : Ledger st) {event : Event} {q : Qp} {code : List Frame}
    (reacted : react st.shared event = some (q, code)) : Ledger ⟨q, st.threads ++ [code]⟩ := by
  obtain ⟨same, queue, light⟩ := react_light reacted
  have placed : ∀ s, entries ⟨q, st.threads ++ [code]⟩ s = entries st s := by
    intro s
    have none : weigh (entryWeight s) code = 0 :=
      weigh_eq_zero fun frame among => by simp [entryWeight, (light frame among).1]
    simp only [entries, State.total_event, none, queue]
    omega
  have acquired : ∀ s, (q.sends s).windowAcquired = (st.shared.sends s).windowAcquired :=
    fun s => (same.sends s).acquired
  refine ⟨⟨fun s => ?_, fun s is => ?_, fun s beyond => ?_⟩,
    fun x => (ledger.balance x).event ?_, ledger.counted.of_calm same⟩
  · rw [placed]
    exact ledger.places.once s
  · rw [placed]
    exact ledger.places.marked s (acquired s ▸ is)
  · rw [placed, acquired]
    exact ledger.places.fresh s (same.posted ▸ beyond)
  · have none : weigh (chargeWeight x) code = 0 :=
      weigh_eq_zero fun frame among => by simp [chargeWeight, (light frame among).2]
    rw [same.ledger, holds_of_sameWindow (same.sends x.send), none]
    rfl

/-! ## Marks in time -/

/-- The worker marks a send as the holder of what it acquired only while the completion of that
send has still to look for the mark. -/
def MarkedInTime (st : St) : Lbl → Prop
  | .run thread _ =>
      match st.top thread with
      | some (.mark s wr frames) => (wr || frames != 0) = true →
          (st.shared.sends s).completed = false ∨
            ∃ frame, st.Has frame ∧ frame = .releaseWindow s
      | _ => True
  | .event _ => True

instance (st : St) (label : Lbl) : Decidable (MarkedInTime st label) := by
  unfold MarkedInTime
  cases label with
  | event event => exact .isTrue trivial
  | run thread choice => dsimp only; split <;> infer_instance

def Owed (st : St) : Prop :=
  ∀ s, (st.shared.sends s).windowAcquired = true → (st.shared.sends s).completed = false ∨
    st.Has (.releaseWindow s)

theorem Owed.event {st : St} (owed : Owed st) {event : Event} {q : Qp} {code : List Frame}
    (reacted : react st.shared event = some (q, code)) : Owed ⟨q, st.threads ++ [code]⟩ := by
  intro s acquired
  have same := (react_light reacted).1.sends s
  rcases owed s (same.acquired ▸ acquired) with open_ | ⟨stack, among, inside⟩
  · exact .inl (same.completed.trans open_)
  · exact .inr ⟨stack, List.mem_append_left _ among, inside⟩

section Run
variable {st : St} {thread : Nat} {frame : Frame} {rest pushed : List Frame} {q : Qp}

/-- A completion that was to come is still to come unless it is the one that ran. -/
theorem owed_after (found : st.threads[thread]? = some (frame :: rest)) {s : Nat}
    (other : frame ≠ .releaseWindow s)
    (was : (st.shared.sends s).completed = false ∨ st.Has (.releaseWindow s))
    (same : (q.sends s).completed = (st.shared.sends s).completed) :
    (q.sends s).completed = false ∨
      State.Has ⟨q, st.threads.set thread (pushed ++ rest)⟩ (.releaseWindow s) := by
  rcases was with open_ | has
  · exact .inl (same.trans open_)
  · rcases State.has_after_run found has with this | still
    · exact absurd this.symm other
    · exact .inr still

theorem Owed.run (owed : Owed st)
    (found : st.threads[thread]? = some (frame :: rest))
    (inTime : ∀ s wr frames, frame = .mark s wr frames → (wr || frames != 0) = true →
      (st.shared.sends s).completed = false ∨ st.Has (.releaseWindow s))
    (windowing : Windowing st.shared frame q pushed) :
    Owed ⟨q, st.threads.set thread (pushed ++ rest)⟩ := by
  intro s acquired
  dsimp only at acquired ⊢
  cases windowing with
  | calm same entries carries quiet =>
      refine owed_after found (quiet s) (owed s ?_) (same.sends s).completed
      rw [← (same.sends s).acquired]
      exact acquired
  | admits length signaled =>
      dsimp only at acquired
      by_cases this : s = st.shared.posted
      · rw [this, Function.update_self] at acquired
        cases acquired
      · rw [Function.update_of_ne this] at acquired
        refine owed_after found (by rintro ⟨⟩) (owed s acquired) ?_
        dsimp only
        rw [Function.update_of_ne this]
  | acquires s' wr frames => exact owed_after found (by rintro ⟨⟩) (owed s acquired) rfl
  | givesBack s' wr frames ret =>
      rw [releaseWr_sends] at acquired
      exact owed_after found (by rintro ⟨⟩) (owed s acquired) (by rw [releaseWr_sends])
  | givesBackFrames s' frames ret next =>
      rw [releaseFrames_sends] at acquired
      exact owed_after found (by rintro ⟨⟩) (owed s acquired) (by rw [releaseFrames_sends])
  | marks s' wr frames chunks =>
      by_cases this : s = s'
      · subst this
        have holds : (wr || frames != 0) = true := by
          simpa [Qp.markHolder, modCtx_self] using acquired
        refine owed_after found (by rintro ⟨⟩) (inTime s wr frames rfl holds) ?_
        simp [Qp.markHolder, modCtx_self]
      · rw [Qp.markHolder, modCtx_other this] at acquired
        exact owed_after found (by rintro ⟨⟩) (owed s acquired)
          (by rw [Qp.markHolder, modCtx_other this])
  | completes s' status =>
      by_cases this : s = s'
      · subst this
        exact .inr (State.has_of_pushed found (by simp))
      · rw [modCtx_other this] at acquired
        exact owed_after found (by rintro ⟨⟩) (owed s acquired) (by rw [modCtx_other this])
  | releases s' holds =>
      by_cases this : s = s'
      · subst this
        rw [modCtx_self] at acquired
        cases acquired
      · rw [modCtx_other this, releaseWr_sends] at acquired
        refine owed_after found ?_ (owed s acquired) (by rw [modCtx_other this, releaseWr_sends])
        rintro ⟨⟩
        exact this rfl
  | holdsNothing s' free =>
      by_cases this : s = s'
      · subst this
        rw [free] at acquired
        cases acquired
      · refine owed_after found ?_ (owed s acquired) rfl
        rintro ⟨⟩
        exact this rfl
  | releasesFrames s' frames =>
      rw [releaseFrames_sends] at acquired
      exact owed_after found (by rintro ⟨⟩) (owed s acquired) (by rw [releaseFrames_sends])

end Run

/-! ## Every run -/

def atWork : Frame → Bool
  | .pop | .transmit _ | .lookup _ | .findPath _ | .tryAcquire _ | .reserve _ _ _
  | .giveBack _ _ _ _ | .giveBackFrames _ _ _ | .mark _ _ _ | .arm _ | .nextChunk _ _ _ _
  | .post _ _ _ _ _ | .waitGroup _ _ _ | .transmitFailed _ _ => true
  | _ => false

/-- A completion has not given everything back yet. -/
def completing : Frame → Bool
  | .releaseSlot _ | .releaseWindow _ | .releaseFrames _ _ | .pushWc _ _ => true
  | _ => false

/-- No accepted SEND is outstanding and no step of the worker is in progress. -/
structure Idle (st : St) : Prop where
  done : ∀ s < st.shared.posted, (st.shared.sends s).completed = true
  quiet : ∀ frame, st.Has frame → atWork frame = false ∧ completing frame = false

theorem Ledger.idle {st : St} (ledger : Ledger st) (owed : Owed st) (idle : Idle st) :
    st.shared.ledger = [] := by
  by_contra some_
  obtain ⟨x, among⟩ := List.exists_mem_of_ne_nil _ some_
  have balance : st.shared.ledger.count x = ((st.shared.sends x.send).holds x.send).count x +
    st.total (chargeWeight x) := ledger.balance x
  have none : st.total (chargeWeight x) = 0 := by
    refine State.total_eq_zero.mpr fun frame has => ?_
    obtain ⟨rested, given⟩ := idle.quiet frame has
    cases frame <;> first
      | rfl
      | (cases rested; done)
      | cases given
  have free : (st.shared.sends x.send).windowAcquired = false := by
    by_contra acquired
    have holds : (st.shared.sends x.send).windowAcquired = true := by simpa using acquired
    have inside : x.send < st.shared.posted := by
      by_contra beyond
      have free := (ledger.places.fresh x.send (by omega)).2
      rw [free] at holds
      cases holds
    rcases owed x.send holds with open_ | has
    · rw [idle.done x.send inside] at open_
      cases open_
    · cases (idle.quiet _ has).2
  have one := List.count_pos_iff.mpr among
  rw [holds_free free, none] at balance
  simp at balance
  omega

theorem ledger_start (knobs : Knobs) (maxSendWr : Nat) : Ledger (start knobs maxSendWr) where
  places := ⟨fun s => Nat.zero_le 1, (fun s is => by cases is), fun s _ => ⟨rfl, rfl⟩⟩
  balance := fun x => rfl
  counted := ⟨rfl, rfl⟩

theorem ledger_step {st st' : St} {label : Lbl} (ledger : Ledger st) (owed : Owed st)
    (inTime : MarkedInTime st label) (stepped : step st label = some st') :
    Ledger st' ∧ Owed st' := by
  cases label with
  | event event =>
      obtain ⟨q, code, reacted, rfl⟩ := step_event stepped
      exact ⟨ledger.event reacted, owed.event reacted⟩
  | run thread choice =>
      obtain ⟨frame, rest, q, pushed, found, executed, rfl⟩ := step_run stepped
      have windowing := exec_windowing executed
      refine ⟨ledger.run found windowing, owed.run found ?_ windowing⟩
      rintro s wr frames rfl holds
      simp only [MarkedInTime, State.top_of_getElem? found] at inTime
      rcases inTime holds with open_ | ⟨_, has, rfl⟩
      · exact .inl open_
      · exact .inr has

/-- While every mark is in time, the counters are what was acquired and not released, and they
are 0 whenever no accepted SEND is outstanding and the worker rests. -/
theorem tx_window_is_ledger (knobs : Knobs) (maxSendWr : Nat) (st : St)
    (reached : Reaches step MarkedInTime (start knobs maxSendWr) st) :
    st.shared.txInflight = st.shared.heldWrs ∧ st.shared.txInflightFrames = st.shared.heldFrames ∧
      (Idle st → st.shared.txInflight = 0 ∧ st.shared.txInflightFrames = 0) := by
  obtain ⟨ledger, owed⟩ : Ledger st ∧ Owed st := by
    refine @Reaches.invariant _ _ _ _ _ (fun st => Ledger st ∧ Owed st)
      ⟨ledger_start knobs maxSendWr, (fun s is => by cases is)⟩ ?_ _ reached
    rintro state next label ⟨ledger, owed⟩ inTime stepped
    exact ledger_step ledger owed inTime stepped
  obtain ⟨wrs, frames⟩ := ledger.counted
  refine ⟨wrs, frames, fun idle => ?_⟩
  have empty := ledger.idle owed idle
  rw [wrs, frames, Qp.heldWrs, Qp.heldFrames, empty]
  exact ⟨rfl, rfl⟩

/-- A QP is brought to RTS. -/
def toRts : List Lbl :=
  [.event (.modify .init none), .event (.modify .rtr none), .event (.modify .rts none)]

def oneSend : List Lbl :=
  toRts ++ [(.event (.postSend 100 true) : Lbl), .run 3 0, .run 3 0, .run 3 0, .run 3 0,
    .event .sqWork, .run 4 0, .run 4 0, .run 4 0, .run 4 0, .run 4 0, .run 4 0, .run 4 0, .run 4 0,
    .run 4 0, .run 4 0, .run 4 0, .run 4 0,
    .event (.appleTxDone 0 0), .run 5 0, .run 5 0, .run 5 0, .run 5 0, .run 5 0, .run 5 0, .run 5 0,
    .run 5 0, .run 5 0]

def isIdle (st : St) : Bool :=
  (List.range st.shared.posted).all (fun s => (st.shared.sends s).completed) &&
    st.threads.all fun stack => stack.all fun frame => !atWork frame && !completing frame

theorem idle_of_isIdle {st : St} (is : isIdle st = true) : Idle st := by
  simp only [isIdle, Bool.and_eq_true, List.all_eq_true, List.mem_range, Bool.not_eq_true'] at is
  refine ⟨is.1, ?_⟩
  rintro frame ⟨stack, among, inside⟩
  exact is.2 stack among frame inside

theorem tx_window_is_ledger_oneSend : ∃ st, Reaches step MarkedInTime (start {} 4) st ∧ Idle st ∧
    st.shared.completions = [(0, 0)] ∧
    st.shared.txInflight = 0 ∧ st.shared.txInflightFrames = 0 := by
  obtain ⟨st, reached, is⟩ := @exists_reaches_of_guarded _ _ step MarkedInTime _ oneSend
    (start {} 4) (fun st => isIdle st && (st.shared.completions == [(0, 0)])) (by decide +kernel)
  simp only [Bool.and_eq_true, beq_iff_eq] at is
  have idle := idle_of_isIdle is.1
  exact ⟨st, reached, idle, is.2, (tx_window_is_ledger {} 4 st reached).2.2 idle⟩

/-- The QP fails between the acquisition of the window and the mark, and is brought to RTS
again. -/
def failedBeforeMark : List Lbl :=
  toRts ++ [(.event (.postSend 100 true) : Lbl), .run 3 0, .run 3 0, .run 3 0, .run 3 0,
    .event .sqWork, .run 4 0, .run 4 0, .run 4 0, .run 4 0, .run 4 0, .run 4 0,
    .event (.modify .err none), .run 5 0, .run 5 0, .run 5 0, .run 5 0, .run 5 0, .run 5 0, .run 5 0,
    .run 4 0, .run 4 0, .run 4 0, .run 4 0, .run 4 0, .event (.modify .reset none)] ++ toRts

/-- The flush completes the send and finds no mark; the worker then marks it, and nobody
releases the window any more. -/
theorem completion_before_mark_leaks_window : ¬ ∀ (knobs : Knobs) (maxSendWr : Nat) (st : St),
    Reaches step (fun _ _ => True) (start knobs maxSendWr) st →
      st.shared.txInflight = st.shared.heldWrs ∧
        st.shared.txInflightFrames = st.shared.heldFrames ∧
        (Idle st → st.shared.txInflight = 0 ∧ st.shared.txInflightFrames = 0) := by
  intro claim
  obtain ⟨st, reached, is⟩ := @exists_reaches_of_guarded _ _ step (fun _ _ => True)
    (fun _ _ => .isTrue trivial) failedBeforeMark (start {} 4)
    (fun st => isIdle st && (st.shared.txInflight == 1)) (by decide +kernel)
  simp only [Bool.and_eq_true, beq_iff_eq] at is
  have zero := ((claim {} 4 st reached).2.2 (idle_of_isIdle is.1)).1
  rw [is.2] at zero
  cases zero

end Tbv.Sq
