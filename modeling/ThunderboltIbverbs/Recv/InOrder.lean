import ThunderboltIbverbs.Recv.Delivery

/-! # The fragments of a peer, in any order

The receive handlers on the fragments of one peer.  The active message, the active write and the
reorder list hold parts of different operations or, for a write with a gap, of the expected one;
whichever store a fragment goes to, the ledger of the peer stays true. -/
set_option autoImplicit false
namespace Tbv.RecvQueue

open Tbv.NativeData
open Tbv.SendQueue (SendOp)

/-- The receives popped for what is assembled. -/
def Rx.held (q : Rx) : List RecvWqe :=
  (q.rxMsg.map RxMessage.wqe).toList ++ (q.rxWrite.bind RxWrite.immWqe).toList

/-- The ledger between two handlers: what is assembled is the expected operation. -/
structure Steady (p : Peer) (clean : Prop) (q : Rx) : Prop where
  ledger : Ledger p clean 0 q.held q
  message : ∀ m, q.rxMsg = some m → q.rxWrite = none ∧ (clean → m.status = .success) ∧
    ∃ seen, p.Assembling q.consumed seen m ∧ p.Counts q.cfg.striping q.consumed seen m ∧
      seen.length < p.count q.consumed
  write : ∀ w, q.rxWrite = some w → q.rxMsg = none ∧ p.Writing q.consumed w ∧
    ∃ n < p.count q.consumed, w.received = Peer.offset n

/-- The fragment is of an operation whose PSN is not that of another one in the window. -/
structure Near (p : Peer) (k i : Nat) (q : Rx) : Prop where
  inside : i < p.count k
  behind : q.consumed + reorderMaxMessages ≤ k + psnMod
  ahead : k < q.consumed + reorderMaxMessages

/-- What a fragment needs that is not to be refused. -/
structure Room (p : Peer) (env : Env) (k i : Nat) (q : Rx) : Prop where
  fair : p.Fair env
  recent : p.op k ≠ .rdmaWriteImm → q.consumed ≤ k + 2 ^ 23
  sound : q.Sound
  bytes : q.reorderBytes + p.length k i ≤ reorderMaxBytes

section
variable {p : Peer} {clean : Prop} {q next : Rx} {env : Env} {k i : Nat}

/-- The distance to the expected PSN; an operation that is far behind seems to be ahead. -/
theorem Near.psnDelta (near : Near p k i q) (expected : q.expectedPsn = p.psn q.consumed) :
    ∃ delta : Int, psnDelta (p.psn k) q.expectedPsn = delta ∧ (delta = (k : Int) - q.consumed ∨
      k + 2 ^ 23 < q.consumed ∧ 1024 ≤ delta) := by
  have limit : reorderMaxMessages = 1024 := rfl
  have size : psnMod = 2 ^ 24 := rfl
  have ahead := near.ahead
  have behind := near.behind
  refine ⟨_, rfl, ?_⟩
  rw [expected]
  by_cases far : k + 2 ^ 23 < q.consumed
  · refine .inr ⟨far, ?_⟩
    unfold RecvQueue.psnDelta Peer.psn psnMod
    dsimp only
    split <;> omega
  · exact .inl (p.psnDelta_psn (by omega) (by omega))

theorem Near.psn_eq (near : Near p k i q) (expected : q.expectedPsn = p.psn q.consumed) :
    p.psn k = q.expectedPsn ↔ k = q.consumed := by
  have limit : reorderMaxMessages = 1024 := rfl
  have size : psnMod = 2 ^ 24 := rfl
  have ahead := near.ahead
  have behind := near.behind
  rw [expected]
  exact ⟨p.psn_inj (by omega) (by omega), congrArg p.psn⟩

theorem Act.consumed_le {apart : Prop} {owed : Option Nat} {out : Option Passed}
    (act : Act env apart owed q out next) : q.consumed ≤ next.consumed := by
  cases act with
  | aside | note | reack | notReady | refuse | fail | setRnr | assemble | activate | endWrite
  | unlink | flush | add | store => exact Nat.le_refl _
  | prune =>
      obtain ⟨reorder, reorderCount, reorderBytes, log, pruned⟩ := @pruneStaleReorder_same q
      rw [pruned]
  | pass passes =>
      obtain ⟨log, rxMsg, ackHistory, rfl⟩ := passes.same
      exact Nat.le_succ _
  | read | expire => exact Nat.le_succ _

theorem Does.consumed_le {apart : Prop} {owed : Option Nat} (does : Does env apart owed q next) :
    q.consumed ≤ next.consumed := by
  refine does.keeps (R := fun q next => q.consumed ≤ next.consumed) (fun _ => Nat.le_refl _)
    Nat.le_trans Act.consumed_le (fun passes => ?_)
    fun _ _ _ => Nat.le_refl _
  obtain ⟨log, rxMsg, ackHistory, rfl⟩ := passes.same
  exact Nat.le_succ _

namespace Steady

theorem of_idle (ledger : Ledger p clean 0 [] q) (idle : q.rxMsg = none ∧ q.rxWrite = none) :
    Steady p clean q where
  ledger := by
    rw [Rx.held, idle.1, idle.2]
    exact ledger
  message m active := by
    rw [idle.1] at active
    cases active
  write w active := by
    rw [idle.2] at active
    cases active

/-- The ledger changes, and what is assembled does not. -/
theorem of_ledger (steady : Steady p clean q) (ledger : Ledger p clean 0 q.held next)
    (rxMsg : next.rxMsg = q.rxMsg) (rxWrite : next.rxWrite = q.rxWrite)
    (consumed : next.consumed = q.consumed) (cfg : next.cfg = q.cfg) : Steady p clean next where
  ledger := by
    rw [Rx.held, rxMsg, rxWrite]
    exact ledger
  message m active := by
    rw [rxMsg] at active
    rw [rxWrite, consumed, cfg]
    exact steady.message m active
  write w active := by
    rw [rxWrite] at active
    rw [rxMsg, consumed]
    exact steady.write w active

theorem held_nil (idle : q.rxMsg = none ∧ q.rxWrite = none) : q.held = [] := by
  rw [Rx.held, idle.1, idle.2]
  rfl

theorem drainReorder (steady : Steady p clean q) (notFull : env.cqFull = false)
    (fair : clean → p.Fair env) : Steady p clean (q.drainReorder env) := by
  by_cases idle : q.rxMsg = none ∧ q.rxWrite = none
  · have ledger := steady.ledger
    rw [held_nil idle] at ledger
    obtain ⟨drained, after⟩ := ledger.drainReorder (Nat.zero_le 1) idle notFull fair
    exact .of_idle drained after
  · rw [drainReorder_busy idle]
    exact steady

theorem reack (steady : Steady p clean q) (passed : k < q.consumed) :
    Steady p clean (q.reack (p.psn k)) :=
  steady.of_ledger (steady.ledger.reack passed) rfl rfl rfl rfl

theorem refuse (steady : Steady p clean q) (psn : Nat) {status : SendAckStatus}
    (refused : status ≠ .ok) (error : clean → status ≠ .error) :
    Steady p clean (q.sendAck psn status) :=
  steady.of_ledger (steady.ledger.refuse psn refused error) rfl rfl rfl rfl

theorem unlink (steady : Steady p clean q) (m : ReorderMsg) :
    Steady p clean (q.reorderUnlink m) :=
  steady.of_ledger (steady.ledger.unlink m) rfl rfl rfl rfl

theorem setRnr (steady : Steady p clean q) (rnr : Option RnrMark) :
    Steady p clean { q with rnr } :=
  steady.of_ledger (steady.ledger.aside q.rxMsg q.rxWrite rnr q.advertised) rfl rfl rfl rfl

/-! ## The active message -/

theorem finishSend {m : RxMessage} {seen : List Nat} (ledger : Ledger p clean 0 [m.wqe] q)
    (alone : q.rxWrite = none) (assembling : p.Assembling q.consumed seen m)
    (full : seen.length = p.count q.consumed) (success : clean → m.status = .success)
    (notFull : env.cqFull = false) (fair : clean → p.Fair env) :
    Steady p clean ((q.finishSend env m).drainReorder env) := by
  have cleared : Ledger p clean 0 [m.wqe] { q with rxMsg := none } :=
    ledger.aside none q.rxWrite q.rnr q.advertised
  have all := mem_of_full assembling.distinct assembling.inside full
  have sent : m.status = .success → p.total q.consumed ≤ m.wqe.length ∧
      immOf m.withImm m.immData = p.sendImm q.consumed ∧ Fills m.writes (p.data q.consumed) := by
    intro is
    obtain ⟨fits, writes⟩ := assembling.placed is
    rw [assembling.withImm, assembling.immData, Ledger.immOf_eq, writes]
    exact ⟨fits, rfl, fills assembling.inside all⟩
  have completed := cleared.completeSend notFull assembling.send sent success
  have rest := @Ledger.completeSend_rest { q with rxMsg := none } env m.psn m.wqe m.status
    (immOf m.withImm m.immData) m.writes
  have idle : (q.finishSend env m).rxMsg = none ∧ (q.finishSend env m).rxWrite = none :=
    ⟨rest.1, rest.2.trans alone⟩
  have finished : Ledger p clean 1 [] (q.finishSend env m) := by
    unfold Rx.finishSend
    rw [assembling.psn]
    exact completed
  obtain ⟨drained, after⟩ := finished.drainReorder (Nat.le_refl 1) idle notFull fair
  exact .of_idle drained after

theorem assemble {m : RxMessage} {seen : List Nat} (ledger : Ledger p clean 0 [m.wqe] q)
    (alone : q.rxWrite = none) (assembling : p.Assembling q.consumed seen m)
    (counts : p.Counts q.cfg.striping q.consumed seen m)
    (more : seen.length < p.count q.consumed) (success : clean → m.status = .success) :
    Steady p clean { q with rxMsg := some m } where
  ledger := by
    have held : Rx.held { q with rxMsg := some m } = [m.wqe] := by
      rw [Rx.held, alone]
      rfl
    rw [held]
    exact ledger.aside (some m) q.rxWrite q.rnr q.advertised
  message other active := by
    cases active
    exact ⟨alone, success, seen, assembling, counts, more⟩
  write w active := by
    rw [alone] at active
    cases active

end Steady

end

/-! ## The reorder list -/

section Buffer
variable {p : Peer} {clean : Prop} {q : Rx} {env : Env} {k i held : Nat} {m : ReorderMsg}

namespace Peer

theorem fresh_blank (k : Nat) : (p.fresh k).empty = p.fresh k ∧ (p.fresh k).psn = p.psn k ∧
    (p.fresh k).fragCount = p.count k ∧ (p.fresh k).fragSeen = [] ∧
    (p.fresh k).fragsReceived = 0 ∧ (p.fresh k).complete = false ∧ (p.fresh k).frags = [] := by
  unfold fresh
  split <;> exact ⟨rfl, rfl, rfl, rfl, rfl, rfl, rfl⟩

/-- A new entry holds nothing of its operation. -/
theorem holds_fresh (bufferable : p.op k ≠ .rdmaWriteImm) : p.Holds k (p.fresh k) := by
  obtain ⟨same, -, -, seen, received, complete, frags⟩ := p.fresh_blank k
  have some := count_pos (p := p) (k := k)
  refine ⟨same, bufferable, seen ▸ List.nodup_nil, ?_, ?_, ?_, ?_⟩
  · rw [seen]
    exact fun _ among => by cases among
  · rw [received, seen, List.length_nil]
  · rw [complete, seen, List.length_nil, eq_comm, decide_eq_false_iff_not]
    omega
  · rw [frags, seen, List.flatMap_nil]

theorem Holds.fragCount (holds : p.Holds k m) : m.fragCount = p.count k :=
  (congrArg ReorderMsg.fragCount holds.same).trans (p.fresh_blank k).2.2.1

theorem Holds.incomplete (holds : p.Holds k m) (inside : i < p.count k) (new : i ∉ m.fragSeen) :
    m.complete = false := by
  rw [holds.complete, decide_eq_false_iff_not]
  exact fun full => new (mem_of_full holds.distinct holds.inside full i inside)

theorem Holds.mark {stored : ReorderMsg} {more : Nat} (holds : p.Holds k m)
    (inside : i < p.count k) (new : i ∉ m.fragSeen)
    (fits : storeFragment env held m (offset i) (p.payload k i) = .ok (stored, more)) :
    p.Holds k (stored.mark i) := by
  have before := holds.incomplete inside new
  have count := holds.fragCount
  have added : stored = { m with
      frags := m.frags ++ p.fragOf k i, bufferedBytes := stored.bufferedBytes } := by
    unfold storeFragment at fits
    unfold fragOf
    split at fits
    · rename_i empty
      cases fits
      rw [if_pos empty, List.append_nil]
    · rename_i filled
      rw [if_neg filled]
      split at fits
      · cases fits
      split at fits
      · cases fits
      · cases fits
        rfl
  rw [added]
  refine ⟨holds.same, holds.bufferable, ?_, ?_, ?_, ?_, ?_⟩
  · exact List.nodup_append.mpr ⟨holds.distinct, List.nodup_singleton i, fun a among b one => by
      rw [List.mem_singleton] at one
      exact fun same => new (one ▸ same ▸ among)⟩
  · intro j among
    rcases List.mem_append.mp among with old | last
    · exact holds.inside j old
    · exact List.mem_singleton.mp last ▸ inside
  · change m.fragsReceived + 1 = (m.fragSeen ++ [i]).length
    rw [holds.received, List.length_append, List.length_singleton]
  · change (m.complete || m.fragsReceived + 1 == m.fragCount) =
      decide ((m.fragSeen ++ [i]).length = p.count k)
    rw [before, Bool.false_or, holds.received, count, List.length_append, List.length_singleton]
    rfl
  · change m.frags ++ p.fragOf k i = (m.fragSeen ++ [i]).flatMap (p.fragOf k)
    rw [holds.frags, List.flatMap_append, List.flatMap_singleton]

/-- A fragment that an entry has is there with the same bytes. -/
theorem Holds.matches (holds : p.Holds k m) (seen : i ∈ m.fragSeen) :
    m.fragmentMatches (offset i) (p.payload k i) = true := by
  unfold ReorderMsg.fragmentMatches
  split
  · rfl
  rename_i filled
  have among : ⟨offset i, p.payload k i⟩ ∈ m.frags := by
    rw [holds.frags]
    refine List.mem_flatMap.mpr ⟨i, seen, ?_⟩
    rw [fragOf, if_neg filled]
    exact List.mem_singleton_self _
  cases found : m.frags.find? (·.offset == offset i) with
  | none =>
      have missing := List.find?_eq_none.mp found _ among
      simp at missing
  | some frag =>
      have place := List.find?_some found
      have member := List.mem_of_find?_eq_some found
      rw [holds.frags] at member
      obtain ⟨j, -, one⟩ := List.mem_flatMap.mp member
      unfold fragOf at one
      split at one
      · cases one
      · cases List.mem_singleton.mp one
        have same : j = i := offset_inj (by simpa using place)
        simp [same]

end Peer

/-- The list has room for an operation inside the window that is not on it. -/
theorem Ledger.reorderCount_lt {wqes : List RecvWqe} (ledger : Ledger p clean 0 wqes q)
    (sound : q.Sound) (missing : q.reorderFind (p.psn k) = none) (behind : q.consumed ≤ k)
    (ahead : k < q.consumed + reorderMaxMessages) : q.reorderCount < reorderMaxMessages := by
  have away := away_of_reorderFind missing
  have distinct : (p.psn k :: q.reorder.map ReorderMsg.psn).Nodup := by
    refine List.nodup_cons.mpr ⟨fun among => ?_, sound.2.distinct⟩
    obtain ⟨m, member, same⟩ := List.mem_map.mp among
    exact away m member same
  have window : ∀ {j : Nat}, q.consumed ≤ j → j < q.consumed + reorderMaxMessages →
      p.psn j ∈ (List.range reorderMaxMessages).map fun n => p.psn (q.consumed + n) := by
    intro j low high
    refine List.mem_map.mpr ⟨j - q.consumed, List.mem_range.mpr (by omega), ?_⟩
    rw [Nat.add_sub_cancel' low]
  have size := (List.subperm_of_subset distinct fun psn among => by
    rcases List.mem_cons.mp among with rfl | listed
    · exact window behind ahead
    · obtain ⟨m, member, rfl⟩ := List.mem_map.mp listed
      obtain ⟨j, low, high, holds⟩ := ledger.entries m member
      rw [holds.psn]
      exact window low high).length_le
  rw [List.length_cons, List.length_map, List.length_map, List.length_range,
    ← sound.2.count] at size
  exact size

theorem storeFragment_ok {offset : Nat} {payload : List UInt8} (allocFrag : env.allocFrag = true)
    (bytes : held + payload.length ≤ reorderMaxBytes) :
    ∃ out, storeFragment env held m offset payload = .ok out := by
  have size : reorderMaxBytes = 67108864 := rfl
  unfold storeFragment
  split
  · exact ⟨_, rfl⟩
  rw [if_neg (by omega), if_neg (by rw [allocFrag]; decide)]
  exact ⟨_, rfl⟩

namespace Steady

/-- A new fragment of an operation inside the window goes to its entry. -/
theorem storeInto (steady : Steady p clean q) (near : Near p k i q) (current : q.consumed ≤ k)
    (holds : p.Holds k m) (new : i ∉ m.fragSeen) (notFull : env.cqFull = false)
    (fair : clean → p.Fair env)
    (bytes : clean → q.reorderBytes + p.length k i ≤ reorderMaxBytes)
    {onError : Rx → StoreError → Rx}
    (failed : ∀ err, (clean → False) → Steady p clean (onError q err)) :
    Steady p clean (q.storeInto env m i (Peer.offset i) (p.payload k i) onError) := by
  unfold Rx.storeInto
  cases stored : storeFragment env q.reorderBytes m (Peer.offset i) (p.payload k i) with
  | error err =>
      refine failed err fun isClean => ?_
      obtain ⟨out, ok⟩ := @storeFragment_ok env q.reorderBytes m (Peer.offset i) (p.payload k i)
        (fair isClean).allocFrag (by rw [Peer.length_payload]; exact bytes isClean)
      rw [ok] at stored
      cases stored
  | ok out =>
      obtain ⟨message, total⟩ := out
      have marked := holds.mark near.inside new stored
      have set : Steady p clean ({ q with reorderBytes := total }.reorderSet (message.mark i)) :=
        steady.of_ledger (steady.ledger.set marked current near.ahead total) rfl rfl rfl rfl
      dsimp only
      split
      · exact set.drainReorder notFull fair
      · exact set

/-- A fragment of an operation inside the window is buffered, or is there already. -/
theorem bufferInto (steady : Steady p clean q) (near : Near p k i q) (current : q.consumed ≤ k)
    (bufferable : p.op k ≠ .rdmaWriteImm) (notFull : env.cqFull = false)
    (room : clean → Room p env k i q) {onError : Rx → StoreError → Rx}
    (failed : ∀ q err, (clean → False) → Steady p clean q → Steady p clean (onError q err)) :
    Steady p clean
      (q.bufferInto env (p.fresh k) i (Peer.offset i) (p.payload k i) onError) := by
  obtain ⟨blank, psn, -, seen, -⟩ := p.fresh_blank k
  unfold Rx.bufferInto
  rw [psn]
  cases found : q.reorderFind (p.psn k) with
  | none =>
      dsimp only
      split
      · rename_i full
        refine steady.refuse _ (by decide) fun isClean => absurd full ?_
        exact Nat.not_le.mpr
          (steady.ledger.reorderCount_lt (room isClean).sound found current near.ahead)
      split
      · rename_i none
        refine steady.refuse _ (by decide) fun isClean => ?_
        rw [(room isClean).fair.allocMsg] at none
        cases none
      have holds := Peer.holds_fresh (p := p) bufferable
      have added : Steady p clean (q.reorderAdd (p.fresh k)) :=
        steady.of_ledger (steady.ledger.add holds current near.ahead) rfl rfl rfl rfl
      exact added.storeInto ⟨near.inside, near.behind, near.ahead⟩ current holds
        (by rw [seen]; exact List.not_mem_nil) notFull (fun isClean => (room isClean).fair)
        (fun isClean => (room isClean).bytes) fun err unclean => failed _ err unclean added
  | some m =>
      have holds := steady.ledger.found (Nat.zero_le 1) found near.behind near.ahead
      have same : m.sameMessage (p.fresh k) = true := by
        unfold ReorderMsg.sameMessage
        rw [holds.same, blank, beq_self_eq_true]
      dsimp only
      rw [same, if_neg (by decide)]
      split
      · rename_i among
        rw [holds.matches among, if_neg (by decide)]
        split
        · exact steady.drainReorder notFull fun isClean => (room isClean).fair
        · exact steady
      · rename_i new
        exact steady.storeInto near current holds new notFull (fun isClean => (room isClean).fair)
          (fun isClean => (room isClean).bytes) fun err unclean => failed _ err unclean steady

/-- `tbv_rx_buffer_fragment_locked`. -/
theorem bufferFragment (steady : Steady p clean q) (near : Near p k i q)
    (send : (p.op k).isSend = true) (notFull : env.cqFull = false)
    (room : clean → Room p env k i q) :
    Steady p clean (q.bufferFragment env (p.header k i) (p.psn k) (p.total k) (Peer.offset i)
      (p.last k i) (p.payload k i)) := by
  have bufferable : p.op k ≠ .rdmaWriteImm := fun is => by
    rw [is] at send
    cases send
  have limit : reorderMaxMessages = 1024 := rfl
  obtain ⟨delta, is, place⟩ := near.psnDelta steady.ledger.expected
  have ahead := near.ahead
  unfold Rx.bufferFragment
  dsimp only
  rw [is, Peer.header_length, Peer.shape near.inside]
  split
  · exact steady.reack (by omega)
  split
  · refine steady.refuse _ (by decide) fun isClean => ?_
    have recent := (room isClean).recent bufferable
    omega
  have fresh : (ReorderMsg.mk .send (p.header k i).srcQp (p.psn k) (p.total k)
      ((p.header k i).opcode == .sendImm)
      (if (p.header k i).opcode == .sendImm then (p.header k i).rkey else 0)
      0 0 (p.count k) [] 0 false [] 0) = p.fresh k := by
    obtain ⟨-, -, rkey⟩ := Peer.header_send (i := i) send
    unfold Peer.fresh Peer.sendImm
    rw [send, if_pos rfl, rkey, Peer.header_opcode]
    cases is : p.op k with
    | send | sendImm => simp [SendOp.opcode]
    | rdmaWrite | rdmaWriteImm =>
        rw [is] at send
        cases send
  dsimp only
  rw [fresh]
  refine steady.bufferInto near (by omega) bufferable notFull room fun q err unclean steady => ?_
  split
  · exact steady
  split
  · exact steady.unlink _
  · exact (steady.refuse _ (by decide) fun isClean => (unclean isClean).elim).unlink _

/-- `tbv_rx_buffer_write_fragment_locked`. -/
theorem bufferWriteFragment (steady : Steady p clean q) (near : Near p k i q)
    (plain : p.op k = .rdmaWrite) (notFull : env.cqFull = false)
    (room : clean → Room p env k i q) :
    Steady p clean (q.bufferWriteFragment env (p.header k i) (p.psn k) (p.total k) (Peer.offset i)
      (p.last k i) false (p.payload k i)) := by
  have write : (p.op k).isSend = false := by
    rw [plain]
    rfl
  have bufferable : p.op k ≠ .rdmaWriteImm := by
    rw [plain]
    decide
  have limit : reorderMaxMessages = 1024 := rfl
  obtain ⟨delta, is, place⟩ := near.psnDelta steady.ledger.expected
  have ahead := near.ahead
  unfold Rx.bufferWriteFragment
  dsimp only
  rw [is, Peer.header_length, Peer.writeShape near.inside]
  split
  · exact steady.reack (by omega)
  split
  · refine steady.refuse _ (by decide) fun isClean => ?_
    have recent := (room isClean).recent bufferable
    omega
  have fresh : (ReorderMsg.mk .write (p.header k i).srcQp (p.psn k) (p.total k) false
      (if false = true then (p.header k i).immData else 0) (p.header k i).remoteAddr
      (p.header k i).rkey (p.count k) [] 0 false [] 0) = p.fresh k := by
    obtain ⟨-, addr, rkey⟩ := Peer.header_write (i := i) write
    unfold Peer.fresh
    rw [write, addr, rkey]
    rfl
  dsimp only
  rw [fresh]
  refine steady.bufferInto near (by omega) bufferable notFull room
    fun q err unclean steady => ?_
  split
  · exact steady
  · exact (steady.unlink _).refuse _ (by decide) fun isClean => (unclean isClean).elim

end Steady

end Buffer

end Tbv.RecvQueue
