import ThunderboltIbverbs.Sq.Worker
import Mathlib.Data.List.Nodup

/-! # What the queue puts on the wire

The frames the worker hands to the path are the frames of the queued messages, in the order of the
queue: each message is handed over from its first frame on, up to its last one or up to where the
worker gives it up. -/
set_option autoImplicit false
namespace Tbv.Sq

open Threads Trans

/-- A frame on the wire: its send and its place in the message. -/
structure Handed where
  send : Nat
  index : Nat
  deriving DecidableEq, Repr

/-- The send that a step puts on `apple_sq`. -/
def enteredBy (st : St) : Lbl → Option Nat
  | .event _ => none
  | .run thread _ =>
      match st.top thread with
      | some (.queueEntry s) => some s
      | _ => none

def handedBy (st : St) : Lbl → Option Handed
  | .event _ => none
  | .run thread choice =>
      match st.top thread with
      | some (.post s _ _ posted _) => if choice = 0 then some ⟨s, posted⟩ else none
      | _ => none

/-- What is expected next: a first frame of any message, or the frame after the last one. -/
def Follows (count : Nat → Nat) (due : Option (Nat × Nat)) (frame : Handed)
    (next : Option (Nat × Nat)) : Prop :=
  (frame.index = 0 ∨ due = some (frame.send, frame.index)) ∧ frame.index < count frame.send ∧
    next = if frame.index + 1 = count frame.send then none else some (frame.send, frame.index + 1)

inductive Work where
  | rests
  | before (s : Nat)
  | amid (s chunks posted : Nat)

/-- The sections of the worker: none, or its loop, or its loop and a send. -/
inductive Worker : List Frame → Work → Prop
  | idle : Worker [] .rests
  | loops : Worker [.pop] .rests
  | before {frame : Frame} {s : Nat} (is : frame.before = some s) : Worker [frame, .pop] (.before s)
  | amid {frame : Frame} {s chunks posted : Nat} (is : frame.amid = some (s, chunks, posted)) :
      Worker [frame, .pop] (.amid s chunks posted)

/-- The send that the worker has taken off the queue and not begun. -/
def Work.waiting : Work → List Nat
  | .before s | .amid s _ 0 => [s]
  | _ => []

def Work.Stands (count : Nat → Nat) (due : Option (Nat × Nat)) : Work → Prop
  | .amid s chunks posted =>
      chunks + posted = count s ∧ (posted ≠ 0 → chunks ≠ 0 → due = some (s, posted))
  | _ => True

def begun (handed : List Handed) : List Nat :=
  (handed.filter fun frame => frame.index = 0).map Handed.send

def whole (count : Nat → Nat) (handed : List Handed) : List Nat :=
  (handed.filter fun frame => frame.index + 1 = count frame.send).map Handed.send

/-- The post of a send, up to its queue entry. -/
def postWeight (s : Nat) (frame : Frame) : Nat := if frame.entering = some s then 1 else 0

/-- What every run of the queue keeps; `length s` is the length of the message of `s`. -/
structure Wired (length : Nat → Nat) (entered : List Nat) (handed : List Handed) (st : St) :
    Prop where
  ledger : Ledger st
  streams : st.shared.knobs.rawMode = false
  lengths : ∀ s < st.shared.posted, (st.shared.sends s).length = length s
  once : ∀ s, entered.count s + st.total (postWeight s) ≤ 1
  fresh : ∀ s, st.shared.posted ≤ s → entered.count s + st.total (postWeight s) = 0
  worker : ∃ part work due, st.Solo Frame.works part ∧ Worker part work ∧
    Trace (Follows fun s => pieces (length s)) none handed due ∧
    work.Stands (fun s => pieces (length s)) due ∧
    (begun handed ++ (work.waiting ++ st.shared.appleSq)).Sublist entered

def Frame.Admits (length : Nat) : Frame → Prop
  | .reserveSlot l _ => l = length
  | _ => True

instance (length : Nat) : DecidablePred (Frame.Admits length)
  | .reserveSlot l _ => inferInstanceAs (Decidable (l = length))
  | .takePsn _ | .queueSend _ | .queueEntry _ | .pop | .transmit _ | .lookup _ | .findPath _
  | .tryAcquire _ | .reserve _ _ _ | .giveBack _ _ _ _ | .giveBackFrames _ _ _ | .mark _ _ _
  | .arm _ | .nextChunk _ _ _ _ | .post _ _ _ _ _ | .waitGroup _ _ _ | .transmitFailed _ _
  | .complete _ _ | .releaseSlot _ | .releaseWindow _ | .releaseFrames _ _ | .pushWc _ _
  | .appleTxDone _ _ | .completeOrdered _ _ _ | .completeSends _ | .sendTxDone _ _ | .reap _
  | .retry _ _ _ | .retryPosted _ _ _ _ | .completeStatus _ | .markError | .flushSq
  | .flushEntry _ | .flushSends => .isTrue trivial

/-- A work item does not run beside itself, and a send has the length of its message. -/
def Serial (length : Nat → Nat) (st : St) : Lbl → Prop
  | .event event => event = .sqWork →
      ∀ code ∈ st.threads, ∀ frame ∈ code, Frame.works frame = false
  | .run thread _ => ∀ frame ∈ st.top thread, frame.Admits (length st.shared.posted)

instance (length : Nat → Nat) (st : St) : (label : Lbl) → Decidable (Serial length st label)
  | .event event => inferInstanceAs (Decidable (event = .sqWork →
      ∀ code ∈ st.threads, ∀ frame ∈ code, Frame.works frame = false))
  | .run thread _ => inferInstanceAs (Decidable (∀ frame ∈ st.top thread,
      frame.Admits (length st.shared.posted)))

/-! ## Steps -/

/-- An event leaves the messages and the queue alone; only the work item starts a worker. -/
theorem react_wire {q q' : Qp} {event : Event} {code : List Frame}
    (reacted : react q event = some (q', code)) :
    q'.sends = q.sends ∧ q'.posted = q.posted ∧ q'.appleSq = q.appleSq ∧
      (∀ next ∈ code, next.entering = none) ∧
      (code.filter Frame.works = [] ∨ event = .sqWork ∧ code = [.pop]) := by
  cases event with
  | sqWork =>
      cases reacted
      exact ⟨rfl, rfl, rfl, by simp [Frame.entering], .inr ⟨rfl, rfl⟩⟩
  | modify next sqPsn =>
      cases reacted
      refine ⟨rfl, rfl, rfl, ?_, .inl ?_⟩ <;> split <;>
        simp [flush, Frame.entering, Frame.works]
  | _ =>
      simp only [react] at reacted
      repeat' split at reacted
      all_goals cases reacted
      all_goals refine ⟨rfl, rfl, rfl, ?_, .inl ?_⟩
      all_goals simp [flush, Frame.entering, Frame.works]

theorem weigh_postWeight (s : Nat) (code : List Frame) :
    weigh (postWeight s) code = (code.filterMap Frame.entering).count s := by
  induction code with
  | nil => rfl
  | cons frame rest ih =>
      rw [weigh_cons, ih, List.filterMap_cons]
      cases is : frame.entering with
      | none => simp [postWeight, is]
      | some other =>
          rw [List.count_cons]
          simp only [postWeight, is, Option.some.injEq, beq_iff_eq]
          omega

section Step
variable {length : Nat → Nat} {entered : List Nat} {handed : List Handed} {st : St}

theorem Worker.proper {part : List Frame} {work : Work} (worker : Worker part work) {frame : Frame}
    (among : frame ∈ part) : frame.Proper := by
  have ofAmid : ∀ {frame : Frame} {place : Nat × Nat × Nat}, frame.amid = some place →
      frame.Proper := by
    intro frame place is
    unfold Frame.amid at is
    split at is
    · exact trivial
    · exact trivial
    · exact ⟨rfl, Nat.succ_ne_zero _⟩
    · cases is
  have ofBefore : ∀ {frame : Frame} {s : Nat}, frame.before = some s → frame.Proper := by
    intro frame s is
    unfold Frame.before at is
    split at is <;> first | exact trivial | cases is
  have ofPop : Frame.Proper .pop := trivial
  cases worker with
  | idle => cases among
  | loops =>
      cases List.mem_singleton.mp among
      exact ofPop
  | before is =>
      rcases List.mem_cons.mp among with rfl | later
      · exact ofBefore is
      · cases List.mem_singleton.mp later
        exact ofPop
  | amid is =>
      rcases List.mem_cons.mp among with rfl | later
      · exact ofAmid is
      · cases List.mem_singleton.mp later
        exact ofPop

/-- A section of the worker runs as the worker's; any other one is proper on its own. -/
theorem Wired.proper (wired : Wired length entered handed st) {frame : Frame}
    (has : st.Has frame) : frame.Proper := by
  by_cases works : frame.works = true
  · obtain ⟨part, work, due, solo, worker, -⟩ := wired.worker
    exact worker.proper (solo.mem has works)
  · cases frame <;> first | exact trivial | exact absurd rfl works

theorem Wired.event (wired : Wired length entered handed st) {event : Event} {q : Qp}
    {code : List Frame} (serial : Serial length st (.event event))
    (reacted : react st.shared event = some (q, code)) :
    Wired length entered handed ⟨q, st.threads ++ [code]⟩ := by
  obtain ⟨sends, posted, queue, entering, quiet⟩ := react_wire reacted
  have total : ∀ s, State.total (postWeight s) ⟨q, st.threads ++ [code]⟩ =
      st.total (postWeight s) := by
    intro s
    rw [State.total_event, weigh_postWeight, List.filterMap_eq_nil_iff.mpr entering]
    simp
  refine
    { ledger := wired.ledger.event reacted
      streams := (react_knobs reacted).1 ▸ wired.streams
      lengths := fun s below => ?_
      once := fun s => ?_
      fresh := fun s above => ?_
      worker := ?_ }
  · dsimp only at below ⊢
    rw [sends]
    exact wired.lengths s (posted ▸ below)
  · rw [total]
    exact wired.once s
  · rw [total]
    exact wired.fresh s (posted ▸ above)
  · obtain ⟨part, work, due, solo, worker, trace, stands, order⟩ := wired.worker
    rcases quiet with quiet | ⟨rfl, rfl⟩
    · exact ⟨part, work, due, solo.event quiet, worker, trace, stands, queue ▸ order⟩
    · have none : part = [] := by
        refine List.eq_nil_iff_forall_not_mem.mpr fun frame among => ?_
        obtain ⟨⟨code, inside, standing⟩, works⟩ := solo.has among
        rw [serial rfl code inside frame standing] at works
        cases works
      subst none
      have begin_ := @State.Solo.begin _ _ _ _ solo q [.pop]
      cases worker
      exact ⟨_, _, due, begin_, .loops, trace, stands, queue ▸ order⟩

theorem Frame.works_of_before {frame : Frame} {s : Nat} (is : frame.before = some s) :
    frame.works = true := by
  unfold Frame.before at is
  split at is <;> first | rfl | cases is

theorem Frame.works_of_amid {frame : Frame} {place : Nat × Nat × Nat} (is : frame.amid = some place) :
    frame.works = true := by
  unfold Frame.amid at is
  split at is <;> first | rfl | cases is

theorem Worker.of_before {frame : Frame} {tail : List Frame} {work : Work} {s : Nat}
    (worker : Worker (frame :: tail) work) (is : frame.before = some s) :
    tail = [.pop] ∧ work = .before s := by
  cases worker with
  | loops => cases is
  | before also =>
      cases is.symm.trans also
      exact ⟨rfl, rfl⟩
  | amid also =>
      unfold Frame.before at is
      split at is <;> first | cases also | cases is

theorem Worker.of_amid {frame : Frame} {tail : List Frame} {work : Work} {s chunks posted : Nat}
    (worker : Worker (frame :: tail) work) (is : frame.amid = some (s, chunks, posted)) :
    tail = [.pop] ∧ work = .amid s chunks posted := by
  cases worker with
  | loops => cases is
  | before also =>
      unfold Frame.before at also
      split at also <;> first | cases is | cases also
  | amid also =>
      cases is.symm.trans also
      exact ⟨rfl, rfl⟩

theorem Worker.of_pop {tail : List Frame} {work : Work} (worker : Worker (.pop :: tail) work) :
    tail = [] ∧ work = .rests := by
  cases worker with
  | loops => exact ⟨rfl, rfl⟩
  | before is => cases is
  | amid is => cases is

theorem Frame.entering_of_works {frame : Frame} (works : frame.works = true) :
    frame.entering = none := by
  cases frame <;> first | rfl | cases works

theorem filter_works_one {frame : Frame} (works : frame.works = true) (tail : List Frame) :
    ([frame].filter Frame.works) ++ tail = frame :: tail := by
  rw [List.filter_cons, if_pos works]
  rfl

theorem begun_snoc (frame : Handed) : begun (handed ++ [frame]) =
    begun handed ++ if frame.index = 0 then [frame.send] else [] := by
  unfold begun
  rw [List.filter_append, List.map_append]
  congr 1
  by_cases first : frame.index = 0 <;> simp [first]

section Run
variable {thread : Nat} {frame : Frame} {rest pushed : List Frame} {q : Qp} {choice : Choice}

/-- What the books of the posts come to when a section moves an entry on, or adds one. -/
theorem posts_moved (entered : List Nat) (found : st.threads[thread]? = some (frame :: rest))
    (new : List Nat) (s : Nat) {added : Nat}
    (moved : new.count s + (pushed.filterMap Frame.entering).count s = postWeight s frame + added) :
    (entered ++ new).count s +
      State.total (postWeight s) ⟨q, st.threads.set thread (pushed ++ rest)⟩ =
        entered.count s + st.total (postWeight s) + added := by
  have total := @State.total_run _ _ st (postWeight s) _ _ _ pushed q found
  rw [weigh_postWeight] at total
  rw [List.count_append]
  omega

/-- A section after which the messages are the same and the entries have moved on. -/
theorem Wired.settle (wired : Wired length entered handed st)
    (found : st.threads[thread]? = some (frame :: rest))
    (ran : exec st.shared frame choice = some (q, pushed)) (posted : q.posted = st.shared.posted)
    (lengths : SameLengths st.shared q) (new : List Nat) {nowHanded : List Handed}
    (moved : ∀ s, new.count s + (pushed.filterMap Frame.entering).count s = postWeight s frame)
    (worker : ∃ part work due,
      State.Solo Frame.works part ⟨q, st.threads.set thread (pushed ++ rest)⟩ ∧ Worker part work ∧
      Trace (Follows fun s => pieces (length s)) none nowHanded due ∧
      work.Stands (fun s => pieces (length s)) due ∧
      (begun nowHanded ++ (work.waiting ++ q.appleSq)).Sublist (entered ++ new)) :
    Wired length (entered ++ new) nowHanded ⟨q, st.threads.set thread (pushed ++ rest)⟩ where
  ledger := wired.ledger.run found (exec_windowing ran)
  streams := (exec_knobs ran).symm ▸ wired.streams
  lengths s below := (lengths s).trans (wired.lengths s (posted ▸ below))
  once s := by
    rw [posts_moved entered found new s ((moved s).trans (Nat.add_zero _).symm), Nat.add_zero]
    exact wired.once s
  fresh s above := by
    rw [posts_moved entered found new s ((moved s).trans (Nat.add_zero _).symm), Nat.add_zero]
    exact wired.fresh s (posted ▸ above)
  worker := worker

/-- A section that enters nothing on the queue, after which the worker stands where the wire does. -/
theorem Wired.settleLight (wired : Wired length entered handed st)
    (found : st.threads[thread]? = some (frame :: rest))
    (ran : exec st.shared frame choice = some (q, pushed)) (posted : q.posted = st.shared.posted)
    (lengths : SameLengths st.shared q) {nowHanded : List Handed} (noEntry : frame.entering = none)
    (light : ∀ next ∈ pushed, next.entering = none)
    (worker : ∃ part work due,
      State.Solo Frame.works part ⟨q, st.threads.set thread (pushed ++ rest)⟩ ∧ Worker part work ∧
      Trace (Follows fun s => pieces (length s)) none nowHanded due ∧
      work.Stands (fun s => pieces (length s)) due ∧
      (begun nowHanded ++ (work.waiting ++ q.appleSq)).Sublist entered) :
    Wired length entered nowHanded ⟨q, st.threads.set thread (pushed ++ rest)⟩ := by
  rw [← List.append_nil entered] at worker ⊢
  refine wired.settle found ran posted lengths [] (fun s => ?_) worker
  rw [List.filterMap_eq_nil_iff.mpr light]
  simp [postWeight, noEntry]

/-- A send of the worker that never begins leaves the books of the queue. -/
theorem begun_drop {waiting queue : List Nat}
    (order : (begun handed ++ (waiting ++ queue)).Sublist entered) :
    (begun handed ++ ([] ++ queue)).Sublist entered :=
  ((List.sublist_append_right _ _).append_left _).trans order

theorem handedBy_eq_none (found : st.threads[thread]? = some (frame :: rest))
    (other : ∀ s pieces chunks posted group, frame = .post s pieces chunks posted group →
      choice ≠ 0) : handedBy st (.run thread choice) = none := by
  simp only [handedBy, State.top_of_getElem? found]
  split
  · rename_i is
    rw [if_neg (other _ _ _ _ _ (Option.some.inj is))]
  · rfl

theorem enteredBy_eq_none (found : st.threads[thread]? = some (frame :: rest))
    (other : ∀ s, frame ≠ .queueEntry s) : enteredBy st (.run thread choice) = none := by
  simp only [enteredBy, State.top_of_getElem? found]
  split
  · rename_i is
    exact absurd (Option.some.inj is) (other _)
  · rfl

/-! One lemma for each case of `Working`. -/

theorem Wired.run_apart (wired : Wired length entered handed st)
    (found : st.threads[thread]? = some (frame :: rest))
    (ran : exec st.shared frame choice = some (q, pushed)) (outside : frame.works = false)
    (quiet : ∀ next ∈ pushed, next.works = false) (posted : q.posted = st.shared.posted)
    (queue : q.appleSq = st.shared.appleSq ∨ q.appleSq = [])
    (lengths : SameLengths st.shared q)
    (entries : pushed.filterMap Frame.entering = frame.entering.toList) :
    Wired length entered handed ⟨q, st.threads.set thread (pushed ++ rest)⟩ := by
  obtain ⟨part, work, due, solo, worker, trace, stands, order⟩ := wired.worker
  have moved : ∀ s, ([] : List Nat).count s + (pushed.filterMap Frame.entering).count s =
      postWeight s frame := by
    intro s
    rw [entries]
    cases is : frame.entering with
    | none => simp [postWeight, is]
    | some other => simp [postWeight, is, List.count_singleton]
  have noWork : pushed.filter Frame.works = [] :=
    List.filter_eq_nil_iff.mpr fun next among => by simp [quiet next among]
  have settled : Wired length (entered ++ []) handed _ := wired.settle found ran posted lengths []
    moved ⟨part, work, due, solo.run found outside noWork, worker, trace, stands, ?_⟩
  · rwa [List.append_nil] at settled
  · rw [List.append_nil]
    refine List.Sublist.trans ?_ order
    refine (List.Sublist.append_left ?_ _).append_left _
    rcases queue with same | empty
    · rw [same]
    · rw [empty]
      exact List.nil_sublist _

theorem Wired.run_admits (wired : Wired length entered handed st) {l : Nat} {signaled : Bool}
    (found : st.threads[thread]? = some (.reserveSlot l signaled :: rest))
    (ran : exec st.shared (.reserveSlot l signaled) choice = some
      ({ st.shared with
          posted := st.shared.posted + 1
          slots := st.shared.slots + 1
          sends := Function.update st.shared.sends st.shared.posted
            { length := l, signaled, slotCounted := true } }, [.takePsn st.shared.posted]))
    (same : l = length st.shared.posted) :
    Wired length entered handed
      ⟨{ st.shared with
          posted := st.shared.posted + 1
          slots := st.shared.slots + 1
          sends := Function.update st.shared.sends st.shared.posted
            { length := l, signaled, slotCounted := true } },
        st.threads.set thread ([.takePsn st.shared.posted] ++ rest)⟩ := by
  obtain ⟨part, work, due, solo, worker, trace, stands, order⟩ := wired.worker
  have moved : ∀ s, ([] : List Nat).count s +
      (List.filterMap Frame.entering [.takePsn st.shared.posted]).count s =
        postWeight s (.reserveSlot l signaled) + if st.shared.posted = s then 1 else 0 := by
    intro s
    simp [postWeight, Frame.entering, List.count_singleton]
  refine
    { ledger := wired.ledger.run found (exec_windowing ran)
      streams := wired.streams
      lengths := fun s below => ?_
      once := fun s => ?_
      fresh := fun s above => ?_
      worker := ⟨part, work, due, solo.run found rfl rfl, worker, trace, stands, order⟩ }
  · by_cases new : s = st.shared.posted
    · subst new
      simp [same]
    · have old : s < st.shared.posted := by
        dsimp only at below
        omega
      simpa [new] using wired.lengths s old
  · rw [← List.append_nil entered, posts_moved entered found [] s (moved s)]
    split
    · rename_i this
      rw [wired.fresh s (Nat.le_of_eq this)]
    · exact wired.once s
  · dsimp only at above
    rw [← List.append_nil entered, posts_moved entered found [] s (moved s),
      if_neg (by omega), wired.fresh s (by omega)]

theorem Wired.run_enters (wired : Wired length entered handed st) {s : Nat}
    (found : st.threads[thread]? = some (.queueEntry s :: rest))
    (ran : exec st.shared (.queueEntry s) choice =
      some ({ st.shared with appleSq := st.shared.appleSq ++ [s] }, [])) :
    Wired length (entered ++ [s]) handed
      ⟨{ st.shared with appleSq := st.shared.appleSq ++ [s] },
        st.threads.set thread ([] ++ rest)⟩ := by
  obtain ⟨part, work, due, solo, worker, trace, stands, order⟩ := wired.worker
  refine wired.settle found ran rfl (.refl _) [s] (fun other => ?_)
    ⟨part, work, due, solo.run found rfl rfl, worker, trace, stands, ?_⟩
  · simp [postWeight, Frame.entering, List.count_singleton]
  · rw [← List.append_assoc work.waiting, ← List.append_assoc (begun handed)]
    exact order.append (List.Sublist.refl _)

theorem Wired.run_rests (wired : Wired length entered handed st)
    (found : st.threads[thread]? = some (.pop :: rest))
    (ran : exec st.shared .pop choice = some (st.shared, [])) :
    Wired length entered handed ⟨st.shared, st.threads.set thread ([] ++ rest)⟩ := by
  obtain ⟨part, work, due, solo, worker, trace, -, order⟩ := wired.worker
  obtain ⟨tail, rfl, next⟩ := solo.run_mine found rfl
  obtain ⟨rfl, rfl⟩ := worker.of_pop
  exact wired.settleLight found ran rfl (.refl _) rfl (by simp)
    ⟨_, .rests, due, next _ _, .idle, trace, trivial, order⟩

theorem Wired.run_pops (wired : Wired length entered handed st) {s : Nat} {left : List Nat}
    (found : st.threads[thread]? = some (.pop :: rest)) (queue : st.shared.appleSq = s :: left)
    (ran : exec st.shared .pop choice =
      some ({ st.shared with appleSq := left }, [.transmit s, .pop])) :
    Wired length entered handed
      ⟨{ st.shared with appleSq := left },
        st.threads.set thread ([.transmit s, .pop] ++ rest)⟩ := by
  obtain ⟨part, work, due, solo, worker, trace, -, order⟩ := wired.worker
  obtain ⟨tail, rfl, next⟩ := solo.run_mine found rfl
  obtain ⟨rfl, rfl⟩ := worker.of_pop
  refine wired.settleLight found ran rfl (.refl _) rfl (by simp [Frame.entering])
    ⟨_, .before s, due, next _ _, .before rfl, trace, trivial, ?_⟩
  rw [queue] at order
  simpa [Work.waiting] using order

theorem Wired.run_goesOn (wired : Wired length entered handed st) {next : Frame} {s : Nat}
    (found : st.threads[thread]? = some (frame :: rest))
    (ran : exec st.shared frame choice = some (q, [next])) (same : Plain st.shared q)
    (one : frame.before = some s) (two : next.before = some s) :
    Wired length entered handed ⟨q, st.threads.set thread ([next] ++ rest)⟩ := by
  obtain ⟨part, work, due, solo, worker, trace, -, order⟩ := wired.worker
  have works := Frame.works_of_before one
  have nextWorks := Frame.works_of_before two
  obtain ⟨tail, rfl, runs⟩ := solo.run_mine found works
  obtain ⟨rfl, rfl⟩ := worker.of_before one
  refine wired.settleLight found ran same.posted same.lengths (Frame.entering_of_works works)
    (by simp [Frame.entering_of_works nextWorks])
    ⟨_, .before s, due, filter_works_one nextWorks [.pop] ▸ runs _ _, .before two, trace,
      trivial, ?_⟩
  rw [same.queue]
  exact order

theorem Wired.run_fails (wired : Wired length entered handed st) {s : Nat} {ret : Int}
    (found : st.threads[thread]? = some (frame :: rest))
    (ran : exec st.shared frame choice = some (q, [.transmitFailed s ret]))
    (same : Plain st.shared q)
    (sends : frame.before = some s ∨ ∃ chunks posted, frame.amid = some (s, chunks, posted)) :
    Wired length entered handed
      ⟨q, st.threads.set thread ([.transmitFailed s ret] ++ rest)⟩ := by
  obtain ⟨part, work, due, solo, worker, trace, -, order⟩ := wired.worker
  have works : frame.works = true := by
    rcases sends with is | ⟨chunks, posted, is⟩
    · exact Frame.works_of_before is
    · exact Frame.works_of_amid is
  obtain ⟨tail, rfl, runs⟩ := solo.run_mine found works
  have tailIs : tail = [.pop] := by
    rcases sends with is | ⟨chunks, posted, is⟩
    · exact (worker.of_before is).1
    · exact (worker.of_amid is).1
  subst tailIs
  refine wired.settleLight found ran same.posted same.lengths (Frame.entering_of_works works)
    (by simp [Frame.entering]) ⟨_, .rests, due, runs _ _, .loops, trace, trivial, ?_⟩
  rw [same.queue]
  exact begun_drop order

theorem Wired.run_begins (wired : Wired length entered handed st) {s frames : Nat} {wr : Bool}
    (found : st.threads[thread]? = some (.mark s wr frames :: rest))
    (ran : exec st.shared (.mark s wr frames) choice = some (st.shared.markHolder s wr frames,
      [.arm s, .nextChunk s (pieces (st.shared.sends s).length) 0 0])) :
    Wired length entered handed ⟨st.shared.markHolder s wr frames, st.threads.set thread
      ([.arm s, .nextChunk s (pieces (st.shared.sends s).length) 0 0] ++ rest)⟩ := by
  obtain ⟨part, work, due, solo, worker, trace, -, order⟩ := wired.worker
  obtain ⟨tail, rfl, next⟩ := solo.run_mine found rfl
  obtain ⟨rfl, rfl⟩ := worker.of_before rfl
  obtain ⟨-, -, below⟩ := wired.ledger.places.unmarked found rfl
  have lengths : SameLengths st.shared (st.shared.markHolder s wr frames) := by
    refine sameLengths_modCtx ?_
    exact fun c => rfl
  refine wired.settleLight found ran rfl lengths rfl (by simp [Frame.entering])
    ⟨_, .amid s _ 0, due, next _ _, .amid rfl, trace, ⟨?_, fun more => absurd rfl more⟩, order⟩
  rw [Nat.add_zero, wired.lengths s below]

theorem Wired.run_ends (wired : Wired length entered handed st) {s posted group : Nat}
    (found : st.threads[thread]? = some (.nextChunk s 0 posted group :: rest))
    (ran : exec st.shared (.nextChunk s 0 posted group) choice = some (st.shared, [])) :
    Wired length entered handed ⟨st.shared, st.threads.set thread ([] ++ rest)⟩ := by
  obtain ⟨part, work, due, solo, worker, trace, -, order⟩ := wired.worker
  obtain ⟨tail, rfl, next⟩ := solo.run_mine found rfl
  obtain ⟨rfl, rfl⟩ := worker.of_amid rfl
  exact wired.settleLight found ran rfl (.refl _) rfl (by simp)
    ⟨_, .rests, due, next _ _, .loops, trace, trivial, begun_drop order⟩

theorem Wired.run_moves (wired : Wired length entered handed st) {next : Frame}
    {s chunks posted : Nat} (found : st.threads[thread]? = some (frame :: rest))
    (ran : exec st.shared frame choice = some (st.shared, [next]))
    (one : frame.amid = some (s, chunks, posted)) (two : next.amid = some (s, chunks, posted)) :
    Wired length entered handed ⟨st.shared, st.threads.set thread ([next] ++ rest)⟩ := by
  obtain ⟨part, work, due, solo, worker, trace, stands, order⟩ := wired.worker
  have works := Frame.works_of_amid one
  have nextWorks := Frame.works_of_amid two
  obtain ⟨tail, rfl, runs⟩ := solo.run_mine found works
  obtain ⟨rfl, rfl⟩ := worker.of_amid one
  exact wired.settleLight found ran rfl (.refl _) (Frame.entering_of_works works)
    (by simp [Frame.entering_of_works nextWorks])
    ⟨_, _, due, filter_works_one nextWorks [.pop] ▸ runs _ _, .amid two, trace, stands, order⟩

theorem Wired.run_hands (wired : Wired length entered handed st) {next : Frame}
    {s chunks posted group : Nat}
    (found : st.threads[thread]? = some (.post s 1 (chunks + 1) posted group :: rest))
    (ran : exec st.shared (.post s 1 (chunks + 1) posted group) choice = some (q, [next]))
    (same : Plain st.shared q) (after : next.amid = some (s, chunks, posted + 1)) :
    Wired length entered (handed ++ [⟨s, posted⟩])
      ⟨q, st.threads.set thread ([next] ++ rest)⟩ := by
  obtain ⟨part, work, due, solo, worker, trace, stands, order⟩ := wired.worker
  have nextWorks := Frame.works_of_amid after
  obtain ⟨tail, rfl, runs⟩ := solo.run_mine found rfl
  obtain ⟨rfl, rfl⟩ := worker.of_amid rfl
  dsimp only [Work.Stands] at stands
  obtain ⟨count, follows⟩ := stands
  have trace' := trace.snoc (⟨?_, ?_, rfl⟩ : Follows (fun s => pieces (length s)) due ⟨s, posted⟩ _)
  · refine wired.settleLight found ran same.posted same.lengths rfl
      (by simp [Frame.entering_of_works nextWorks])
      ⟨_, .amid s chunks (posted + 1), _, filter_works_one nextWorks [.pop] ▸ runs _ _,
        .amid after, trace', ⟨?_, fun _ left => ?_⟩, ?_⟩
    · dsimp only
      omega
    · dsimp only
      rw [if_neg (by omega)]
    · rw [same.queue, begun_snoc]
      cases posted with
      | zero => simpa [Work.waiting] using order
      | succ posted => simpa [Work.waiting] using order
  · dsimp only
    by_cases first : posted = 0
    · exact .inl first
    · exact .inr (follows first (Nat.succ_ne_zero _))
  · dsimp only
    omega

theorem Wired.run (wired : Wired length entered handed st)
    (serial : Serial length st (.run thread choice))
    (found : st.threads[thread]? = some (frame :: rest))
    (ran : exec st.shared frame choice = some (q, pushed)) :
    Wired length (entered ++ (enteredBy st (.run thread choice)).toList)
      (handed ++ (handedBy st (.run thread choice)).toList)
      ⟨q, st.threads.set thread (pushed ++ rest)⟩ := by
  have top := State.top_of_getElem? found
  -- a section that is no queue entry and hands nothing over leaves both histories as they are
  have silent : (∀ s, frame ≠ .queueEntry s) →
      (∀ s pieces chunks posted group, frame = .post s pieces chunks posted group → choice ≠ 0) →
      Wired length entered handed ⟨q, st.threads.set thread (pushed ++ rest)⟩ →
      Wired length (entered ++ (enteredBy st (.run thread choice)).toList)
        (handed ++ (handedBy st (.run thread choice)).toList)
        ⟨q, st.threads.set thread (pushed ++ rest)⟩ := by
    intro noEntry noPost after
    rw [enteredBy_eq_none found noEntry, handedBy_eq_none found noPost]
    simpa using after
  cases exec_working wired.streams (wired.proper (State.has_of_top found)) ran with
  | apart outside noEntry quiet posted queue lengths entries =>
      exact silent noEntry (by rintro s pieces chunks posted group rfl; cases outside)
        (wired.run_apart found ran outside quiet posted queue lengths entries)
  | admits l signaled =>
      have same : l = length st.shared.posted :=
        serial (.reserveSlot l signaled) (by rw [top]; rfl)
      exact silent (by simp) (by simp) (wired.run_admits found ran same)
  | enters s =>
      have is : enteredBy st (.run thread choice) = some s := by simp [enteredBy, top]
      rw [is, handedBy_eq_none found (by simp), Option.toList_some, Option.toList_none,
        List.append_nil]
      exact wired.run_enters found ran
  | rests => exact silent (by simp) (by simp) (wired.run_rests found ran)
  | pops queue => exact silent (by simp) (by simp) (wired.run_pops found queue ran)
  | goesOn same one two =>
      exact silent (by rintro s rfl; cases one)
        (by rintro s pieces chunks posted group rfl; cases one)
        (wired.run_goesOn found ran same one two)
  | fails ret same sends refused =>
      refine silent ?_ refused (wired.run_fails found ran same sends)
      rintro s rfl
      rcases sends with is | ⟨chunks, posted, is⟩ <;> cases is
  | begins s wr frames => exact silent (by simp) (by simp) (wired.run_begins found ran)
  | ends s posted group => exact silent (by simp) (by simp) (wired.run_ends found ran)
  | moves one two notPost =>
      exact silent (by rintro s rfl; cases one)
        (fun s pieces chunks posted group is => absurd is (notPost s pieces chunks posted group))
        (wired.run_moves found ran one two)
  | @hands s chunks posted group next _ same onPath after =>
      have is : handedBy st (.run thread 0) = some ⟨s, posted⟩ := by simp [handedBy, top]
      rw [is, enteredBy_eq_none found (by simp), Option.toList_some, Option.toList_none,
        List.append_nil]
      exact wired.run_hands found ran same after

end Run

theorem Wired.step (wired : Wired length entered handed st) {next : St} {label : Lbl}
    (serial : Serial length st label) (taken : step st label = some next) :
    Wired length (entered ++ (enteredBy st label).toList) (handed ++ (handedBy st label).toList)
      next := by
  cases label with
  | event event =>
      obtain ⟨q, code, reacted, rfl⟩ := step_event taken
      simp only [enteredBy, handedBy, Option.toList_none, List.append_nil]
      exact wired.event serial reacted
  | run thread choice =>
      obtain ⟨frame, rest, q, pushed, found, executed, rfl⟩ := step_run taken
      exact wired.run serial found executed

end Step

/-! ## Frames that are canceled -/

/-- Without the frames of one send behind some point, every frame still follows the one before. -/
theorem trace_without {count : Nat → Nat} {s : Nat} {back : List Handed}
    {due due' last : Option (Nat × Nat)} (trace : Trace (Follows count) due back last)
    (inStep : due' = due ∨ due = none ∨ ∃ i, due = some (s, i)) :
    ∃ last', Trace (Follows count) due' (back.filter fun frame => frame.send ≠ s) last' ∧
      ∀ t i, last = some (t, i) → t ≠ s → last' = last := by
  induction back generalizing due due' with
  | nil =>
      obtain rfl := trace_nil_iff.mp trace
      refine ⟨due', trace_nil_iff.mpr rfl, ?_⟩
      rintro t i rfl other
      rcases inStep with same | none | ⟨j, its⟩
      · exact same
      · cases none
      · cases its
        exact absurd rfl other
  | cons frame rest ih =>
      obtain ⟨middle, follows, later⟩ := trace_cons_iff.mp trace
      obtain ⟨begins, inside, next⟩ := follows
      by_cases gone : frame.send = s
      · rw [List.filter_cons_of_neg (by simpa using gone)]
        refine ih later (.inr ?_)
        rw [next, gone]
        split
        · exact .inl rfl
        · exact .inr ⟨_, rfl⟩
      · rw [List.filter_cons_of_pos (by simpa using gone)]
        obtain ⟨last', trace', same⟩ := ih later (.inl rfl)
        refine ⟨last', trace_cons_iff.mpr ⟨middle, ⟨?_, inside, next⟩, trace'⟩, same⟩
        refine begins.imp_right fun follows => ?_
        rcases inStep with same | none | ⟨i, its⟩
        · exact same.trans follows
        · rw [none] at follows
          cases follows
        · rw [its] at follows
          cases follows
          exact absurd rfl gone

/-- The worker has handed over a frame of the send, and has another one to hand over. -/
def Frame.between (s : Nat) (frame : Frame) : Bool :=
  frame.amid.any fun place => place.1 == s && place.2.1 != 0 && place.2.2 != 0

/-- The frames of a send that are still queued may go when the worker is not between two of
them. -/
theorem Wired.cancel {length : Nat → Nat} {entered : List Nat} {front back : List Handed} {st : St}
    (wired : Wired length entered (front ++ back) st) {s : Nat}
    (apart : ∀ code ∈ st.threads, ∀ frame ∈ code, frame.between s = false) :
    Wired length entered (front ++ back.filter fun frame => frame.send ≠ s) st where
  ledger := wired.ledger
  streams := wired.streams
  lengths := wired.lengths
  once := wired.once
  fresh := wired.fresh
  worker := by
    obtain ⟨part, work, due, solo, worker, trace, stands, order⟩ := wired.worker
    obtain ⟨middle, before, behind⟩ := trace_append_iff.mp trace
    obtain ⟨due', behind', same⟩ := @trace_without _ s _ _ middle _ behind (.inl rfl)
    refine ⟨part, work, due', solo, worker, trace_append_iff.mpr ⟨middle, before, behind'⟩, ?_, ?_⟩
    · cases worker with
      | @amid frame t chunks posted is =>
          refine ⟨stands.1, fun begun more => ?_⟩
          have here := stands.2 begun more
          refine (same t posted here ?_).trans here
          rintro rfl
          obtain ⟨⟨code, inside, standing⟩, -⟩ := solo.has (List.mem_cons_self ..)
          have between := apart code inside frame standing
          simp [Frame.between, is, begun, more] at between
      | _ => trivial
    · refine List.Sublist.trans (List.Sublist.append_right ?_ _) order
      unfold begun
      exact ((List.filter_sublist.append_left front).filter _).map _

theorem wired_start {knobs : Knobs} (streams : knobs.rawMode = false) (maxSendWr : Nat)
    (length : Nat → Nat) : Wired length [] [] (start knobs maxSendWr) where
  ledger := ledger_start knobs maxSendWr
  streams := streams
  lengths s below := absurd below (Nat.not_lt_zero s)
  once _ := Nat.zero_le 1
  fresh _ _ := rfl
  worker := ⟨[], .rests, none, State.solo_nil_iff.mpr fun _ => rfl, .idle, .nil _, trivial,
    List.nil_sublist _⟩

/-- No send enters the queue twice. -/
theorem Wired.nodup {length : Nat → Nat} {entered : List Nat} {handed : List Handed} {st : St}
    (wired : Wired length entered handed st) : entered.Nodup := by
  refine List.nodup_iff_count_le_one.mpr fun s => ?_
  have := wired.once s
  omega

end Tbv.Sq
