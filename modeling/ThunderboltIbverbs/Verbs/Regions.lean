import ThunderboltIbverbs.Lib.Run
import ThunderboltIbverbs.Lib.Objects

/-! # Memory regions and who holds them

A region is reached through its key (`tbv_mr_get`), held while its pages are read or written, and
given back (`tbv_mr_put`).  The reference of the registration goes with `tbv_dereg_mr`; the put
that drops the last one queues the work that frees the region. -/
set_option autoImplicit false
namespace Tbv.Regions

open Threads Trans

/-- The pages of a region: a DMA region has none of its own. -/
inductive Umem where
  | none | pinned | released
  deriving DecidableEq, Repr

def Umem.release : Umem → Umem
  | .pinned => .released
  | other => other

/-- `struct tbv_mr`; `handed` while the RDMA core has it from a registration and has not
deregistered it. -/
structure Mr where
  umem : Umem := .none
  lkey : Nat := 0
  refs : Nat := 0
  closing : Bool := false
  handed : Bool := false
  deriving DecidableEq, Repr

/-- The part of `struct tbv_state` that regions live in; `kept` counts the references in work
requests and read responses. -/
structure Verbs where
  mrKey : Nat := 1
  born : Nat := 0
  mrs : Nat → Mr := fun _ => {}
  xa : Nat → Option Nat := fun _ => none
  verbsMrs : Int := 0
  kept : Nat → Nat := fun _ => 0
  freeWork : List Nat := []
  freed : List Nat := []

def Verbs.modMr (v : Verbs) (m : Nat) (change : Mr → Mr) : Verbs :=
  { v with mrs := Function.update v.mrs m (change (v.mrs m)) }

section ModMr
variable (v : Verbs) (m : Nat) (change : Mr → Mr)

@[simp] theorem modMr_self : (v.modMr m change).mrs m = change (v.mrs m) := by simp [Verbs.modMr]

@[simp] theorem modMr_other {n : Nat} (other : n ≠ m) : (v.modMr m change).mrs n = v.mrs n := by
  simp [Verbs.modMr, other]

@[simp] theorem modMr_born : (v.modMr m change).born = v.born := rfl
@[simp] theorem modMr_xa : (v.modMr m change).xa = v.xa := rfl
@[simp] theorem modMr_kept : (v.modMr m change).kept = v.kept := rfl
@[simp] theorem modMr_freed : (v.modMr m change).freed = v.freed := rfl
@[simp] theorem modMr_freeWork : (v.modMr m change).freeWork = v.freeWork := rfl
@[simp] theorem modMr_verbsMrs : (v.modMr m change).verbsMrs = v.verbsMrs := rfl

end ModMr

inductive Frame where
  | publish (m : Nat)
  | insert (m : Nat)
  | count (m : Nat)
  | undo (m : Nat)
  | lookup (key : Nat)
  | hold (m : Nat)
  | put (m : Nat)
  | release (m : Nat)
  | discount (m : Nat)
  | kfree (m : Nat)
  deriving DecidableEq, Repr

/-- What a thread with a reference does next, and whether an allocation fails. -/
inductive Choice where
  | use | keep | copy | drop | fail
  deriving DecidableEq, Repr

inductive Event where
  | regMr (umem : Umem)
  | get (key : Nat)
  | take (m : Nat)
  | dereg (m : Nat)
  | work (m : Nat)
  deriving DecidableEq, Repr

/-- `tbv_reg_user_mr` and `tbv_get_dma_mr` up to `tbv_mr_publish`, the start of a `tbv_mr_get`, a
work request that is done with a region, `tbv_dereg_mr`, and the start of a queued free work. -/
def react (v : Verbs) : Event → Option (Verbs × List Frame)
  | .regMr umem =>
      if umem = .released then none
      else some ({ v with born := v.born + 1, mrs := Function.update v.mrs v.born { umem } },
        [.publish v.born])
  | .get key => some (v, [.lookup key])
  | .take m =>
      if v.kept m = 0 then none
      else some ({ v with kept := Function.update v.kept m (v.kept m - 1) }, [.hold m])
  | .dereg m =>
      if (v.mrs m).handed then
        some ({ v with xa := Function.update v.xa (v.mrs m).lkey none }.modMr m fun r =>
          { r with closing := true, handed := false }, [.put m])
      else none
  | .work m =>
      if m ∈ v.freeWork then some ({ v with freeWork := v.freeWork.erase m }, [.release m]) else none

/-- `__xa_insert` fails where the key is taken or no node can be allocated. -/
def execInsert (v : Verbs) (m : Nat) (choice : Choice) : Verbs × List Frame :=
  if choice = .fail ∨ (v.xa (v.mrs m).lkey).isSome then (v, [.undo m])
  else ({ v with xa := Function.update v.xa (v.mrs m).lkey (some m) }, [.count m])

def execLookup (v : Verbs) (key : Nat) : Verbs × List Frame :=
  match v.xa key with
  | some m =>
      if (v.mrs m).closing = false ∧ (v.mrs m).refs ≠ 0 then
        (v.modMr m fun r => { r with refs := r.refs + 1 }, [.hold m])
      else (v, [])
  | none => (v, [])

def execHold (v : Verbs) (m : Nat) : Choice → Verbs × List Frame
  | .use => (v, [.hold m])
  | .keep => ({ v with kept := Function.update v.kept m (v.kept m + 1) }, [])
  | .copy => (v.modMr m fun r => { r with refs := r.refs + 1 }, [.hold m, .hold m])
  | .drop | .fail => (v, [.put m])

def Verbs.queueFree (v : Verbs) (m : Nat) : Verbs :=
  if m ∈ v.freeWork then v else { v with freeWork := v.freeWork ++ [m] }

def execPut (v : Verbs) (m : Nat) : Verbs × List Frame :=
  let w := v.modMr m fun r => { r with refs := r.refs - 1 }
  (if (w.mrs m).refs = 0 then w.queueFree m else w, [])

def exec (v : Verbs) (frame : Frame) (choice : Choice) : Option (Verbs × List Frame) :=
  match frame with
  | .publish m =>
      let key := (v.mrKey + 1) % 2 ^ 32
      some ({ v with mrKey := key }.modMr m fun r => { r with lkey := key, refs := 1 }, [.insert m])
  | .insert m => some (execInsert v m choice)
  | .count m =>
      some ({ v with verbsMrs := v.verbsMrs + 1 }.modMr m fun r => { r with handed := true }, [])
  | .undo m =>
      some ({ v with freed := v.freed ++ [m] }.modMr m fun r => { r with umem := r.umem.release }, [])
  | .lookup key => some (execLookup v key)
  | .hold m => some (execHold v m choice)
  | .put m => some (execPut v m)
  | .release m => some (v.modMr m fun r => { r with umem := r.umem.release }, [.discount m])
  | .discount m => some ({ v with verbsMrs := v.verbsMrs - 1 }, [.kfree m])
  | .kfree m => some ({ v with freed := v.freed ++ [m] }, [])

abbrev System := State Verbs Frame

def start : System := ⟨{}, []⟩

def step : System → Label Event Choice → Option System := Threads.step react exec

/-! ## What is kept -/

def holds (m : Nat) : Frame → Nat
  | .count n | .hold n | .put n => if n = m then 1 else 0
  | _ => 0

/-- The first reference, of a region that nobody can find. -/
def hides (m : Nat) : Frame → Nat
  | .insert n | .undo n => if n = m then 1 else 0
  | _ => 0

/-- A region that is not reference counted yet, or not any more. -/
def settles (m : Nat) : Frame → Nat
  | .publish n | .release n | .discount n | .kfree n => if n = m then 1 else 0
  | _ => 0

def registers (m : Nat) : Frame → Nat
  | .publish n | .insert n | .count n | .undo n => if n = m then 1 else 0
  | _ => 0

/-- Under its key, and not yet with the RDMA core. -/
def counts (m : Nat) : Frame → Nat
  | .count n => if n = m then 1 else 0
  | _ => 0

/-- The pages are gone and the region is not yet. -/
def frees (m : Nat) : Frame → Nat
  | .discount n | .kfree n => if n = m then 1 else 0
  | _ => 0

/-- A region that `verbs_mrs` does not count. -/
def uncounted : Frame → Nat
  | .publish _ | .insert _ | .count _ | .undo _ | .kfree _ => 1
  | _ => 0

/-- The references of a region that is there. -/
def Verbs.live (v : Verbs) (m : Nat) : Nat := if v.freed.count m = 0 then (v.mrs m).refs else 0

theorem live_congr {v w : Verbs} {m : Nat} (freed : w.freed = v.freed) (mrs : w.mrs = v.mrs) :
    w.live m = v.live m := by
  rw [Verbs.live, Verbs.live, freed, mrs]

structure Sound (m : Nat) (st : System) : Prop where
  refs : st.shared.live m =
    st.shared.kept m + (st.shared.mrs m).handed.toNat + st.total (holds m) + st.total (hides m)
  alone : st.total (hides m) ≠ 0 →
    st.shared.kept m + (st.shared.mrs m).handed.toNat + st.total (holds m) = 0
  life : (if m < st.shared.born then 1 else 0) =
    st.shared.freed.count m + st.shared.freeWork.count m +
      (if st.shared.live m = 0 then 0 else 1) + st.total (settles m)
  owner : (st.shared.mrs m).handed.toNat + (st.shared.mrs m).closing.toNat +
    st.total (registers m) ≤ if m < st.shared.born then 1 else 0
  pages : (st.shared.mrs m).umem = .released →
    st.shared.freed.count m + st.total (frees m) ≠ 0

/-- The books of all regions, of the keys and of `verbs_mrs`. -/
structure Kept (st : System) : Prop where
  sound : ∀ m, Sound m st
  named : ∀ key m, st.shared.xa key = some m ↔ (st.shared.mrs m).lkey = key ∧
    (st.shared.mrs m).handed.toNat + st.total (counts m) ≠ 0
  books : (st.shared.born : Int) =
    st.shared.verbsMrs + st.shared.freed.length + st.total uncounted

/-! ## Sections -/

inductive Section (v : Verbs) : Frame → Verbs → List Frame → Prop
  | publishes (m : Nat) :
      Section v (.publish m)
        ({ v with mrKey := (v.mrKey + 1) % 2 ^ 32 }.modMr m fun r =>
          { r with lkey := (v.mrKey + 1) % 2 ^ 32, refs := 1 }) [.insert m]
  | refuses (m : Nat) : Section v (.insert m) v [.undo m]
  | inserts {m : Nat} (empty : v.xa (v.mrs m).lkey = none) :
      Section v (.insert m) { v with xa := Function.update v.xa (v.mrs m).lkey (some m) } [.count m]
  | counts (m : Nat) :
      Section v (.count m)
        ({ v with verbsMrs := v.verbsMrs + 1 }.modMr m fun r => { r with handed := true }) []
  | undoes (m : Nat) :
      Section v (.undo m)
        ({ v with freed := v.freed ++ [m] }.modMr m fun r => { r with umem := r.umem.release }) []
  | finds {key m : Nat} (known : v.xa key = some m) (referenced : (v.mrs m).refs ≠ 0) :
      Section v (.lookup key) (v.modMr m fun r => { r with refs := r.refs + 1 }) [.hold m]
  | misses (key : Nat) : Section v (.lookup key) v []
  | uses (m : Nat) : Section v (.hold m) v [.hold m]
  | keeps (m : Nat) :
      Section v (.hold m) { v with kept := Function.update v.kept m (v.kept m + 1) } []
  | copies (m : Nat) :
      Section v (.hold m) (v.modMr m fun r => { r with refs := r.refs + 1 }) [.hold m, .hold m]
  | drops (m : Nat) : Section v (.hold m) v [.put m]
  | puts {m : Nat} (others : (v.mrs m).refs - 1 ≠ 0) :
      Section v (.put m) (v.modMr m fun r => { r with refs := r.refs - 1 }) []
  | lasts {m : Nat} (last : (v.mrs m).refs - 1 = 0) :
      Section v (.put m) ((v.modMr m fun r => { r with refs := r.refs - 1 }).queueFree m) []
  | releases (m : Nat) :
      Section v (.release m) (v.modMr m fun r => { r with umem := r.umem.release }) [.discount m]
  | discounts (m : Nat) : Section v (.discount m) { v with verbsMrs := v.verbsMrs - 1 } [.kfree m]
  | kfrees (m : Nat) : Section v (.kfree m) { v with freed := v.freed ++ [m] } []

theorem exec_section {v v' : Verbs} {frame : Frame} {choice : Choice} {pushed : List Frame}
    (ran : exec v frame choice = some (v', pushed)) : Section v frame v' pushed := by
  cases frame with
  | publish m =>
      cases ran
      exact .publishes m
  | insert m =>
      simp only [exec, execInsert] at ran
      split at ran <;> cases ran
      · exact .refuses m
      · rename_i passes
        rw [not_or, Option.not_isSome_iff_eq_none] at passes
        exact .inserts passes.2
  | count m =>
      cases ran
      exact .counts m
  | undo m =>
      cases ran
      exact .undoes m
  | lookup key =>
      simp only [exec, execLookup] at ran
      repeat' split at ran
      all_goals cases ran
      · rename_i m known live
        exact .finds known live.2
      · exact .misses key
      · exact .misses key
  | hold m =>
      cases choice <;> cases ran
      · exact .uses m
      · exact .keeps m
      · exact .copies m
      · exact .drops m
      · exact .drops m
  | put m =>
      simp only [exec, execPut] at ran
      cases ran
      split
      · rename_i last
        refine .lasts ?_
        simpa [Verbs.modMr] using last
      · rename_i others
        refine .puts ?_
        simpa [Verbs.modMr] using others
  | release m =>
      cases ran
      exact .releases m
  | discount m =>
      cases ran
      exact .discounts m
  | kfree m =>
      cases ran
      exact .kfrees m

/-! ## One section at a time -/

structure Same (m : Nat) (v w : Verbs) : Prop where
  mr : w.mrs m = v.mrs m
  kept : w.kept m = v.kept m
  freed : w.freed.count m = v.freed.count m
  freeWork : w.freeWork.count m = v.freeWork.count m
  born : m < w.born ↔ m < v.born

def Frame.region : Frame → Option Nat
  | .publish m | .insert m | .count m | .undo m | .hold m | .put m | .release m | .discount m
  | .kfree m => some m
  | .lookup _ => none

section QueueFree
variable (v : Verbs) (m : Nat)

@[simp] theorem queueFree_mrs : (v.queueFree m).mrs = v.mrs := by
  unfold Verbs.queueFree
  split <;> rfl

@[simp] theorem queueFree_born : (v.queueFree m).born = v.born := by
  unfold Verbs.queueFree
  split <;> rfl

@[simp] theorem queueFree_kept : (v.queueFree m).kept = v.kept := by
  unfold Verbs.queueFree
  split <;> rfl

@[simp] theorem queueFree_xa : (v.queueFree m).xa = v.xa := by
  unfold Verbs.queueFree
  split <;> rfl

@[simp] theorem queueFree_freed : (v.queueFree m).freed = v.freed := by
  unfold Verbs.queueFree
  split <;> rfl

@[simp] theorem queueFree_verbsMrs : (v.queueFree m).verbsMrs = v.verbsMrs := by
  unfold Verbs.queueFree
  split <;> rfl

theorem queueFree_other {n : Nat} (other : n ≠ m) :
    (v.queueFree m).freeWork.count n = v.freeWork.count n := by
  unfold Verbs.queueFree
  split
  · rfl
  · simp [Ne.symm other]

theorem queueFree_self (idle : v.freeWork.count m = 0) :
    (v.queueFree m).freeWork.count m = 1 := by
  unfold Verbs.queueFree
  rw [if_neg (List.count_eq_zero.mp idle), List.count_append, idle]
  simp

end QueueFree

section Steps
variable {st : System} {thread m : Nat} {frame : Frame} {rest pushed : List Frame} {v : Verbs}

theorem holds_about : About Frame.region holds := by
  intro m frame apart
  cases frame <;> simp_all [Frame.region, holds]

theorem hides_about : About Frame.region hides := by
  intro m frame apart
  cases frame <;> simp_all [Frame.region, hides]

theorem settles_about : About Frame.region settles := by
  intro m frame apart
  cases frame <;> simp_all [Frame.region, settles]

theorem registers_about : About Frame.region registers := by
  intro m frame apart
  cases frame <;> simp_all [Frame.region, registers]

theorem frees_about : About Frame.region frees := by
  intro m frame apart
  cases frame <;> simp_all [Frame.region, frees]

theorem Same.refl (m : Nat) (v : Verbs) : Same m v v := ⟨rfl, rfl, rfl, rfl, .rfl⟩

theorem Same.modMr {n : Nat} (other : m ≠ n) (change : Mr → Mr) : Same m v (v.modMr n change) :=
  ⟨modMr_other v n change other, rfl, rfl, rfl, .rfl⟩

/-- A section changes nothing for a region that is not its own. -/
theorem Section.same {v w : Verbs} (ran : Section v frame w pushed)
    (apart : ∀ f ∈ frame :: pushed, f.region ≠ some m) : Same m v w := by
  cases ran with
  | publishes n | counts n =>
      have other : m ≠ n := by simpa [Frame.region, eq_comm] using apart
      exact ⟨modMr_other _ _ _ other, rfl, rfl, rfl, .rfl⟩
  | refuses n | uses n | drops n | misses n => exact .refl m v
  | inserts empty => exact ⟨rfl, rfl, rfl, rfl, .rfl⟩
  | undoes n =>
      have other : m ≠ n := by simpa [Frame.region, eq_comm] using apart
      refine ⟨modMr_other _ _ _ other, rfl, ?_, rfl, .rfl⟩
      simp [Ne.symm other]
  | @finds key n known referenced =>
      have other : m ≠ n := by simpa [Frame.region, eq_comm] using apart
      exact .modMr other _
  | keeps n =>
      have other : m ≠ n := by simpa [Frame.region, eq_comm] using apart
      exact ⟨rfl, Function.update_of_ne other _ _, rfl, rfl, .rfl⟩
  | copies n | releases n =>
      have other : m ≠ n := by simpa [Frame.region, eq_comm] using apart
      exact .modMr other _
  | @puts n others =>
      have other : m ≠ n := by simpa [Frame.region, eq_comm] using apart
      exact .modMr other _
  | @lasts n last =>
      have other : m ≠ n := by simpa [Frame.region, eq_comm] using apart
      refine ⟨?_, ?_, ?_, queueFree_other _ _ other, ?_⟩ <;> simp [other]
  | discounts n => exact ⟨rfl, rfl, rfl, rfl, .rfl⟩
  | kfrees n =>
      have other : m ≠ n := by simpa [Frame.region, eq_comm] using apart
      refine ⟨rfl, rfl, ?_, rfl, .rfl⟩
      simp [Ne.symm other]

theorem Same.live {v w : Verbs} (same : Same m v w) : w.live m = v.live m := by
  rw [Verbs.live, Verbs.live, same.freed, same.mr]

/-- Books that nothing happened to. -/
theorem Sound.of_same {st' : System} (sound : Sound m st) (same : Same m st.shared st'.shared)
    (totals : ∀ weight, About Frame.region weight → st'.total (weight m) = st.total (weight m)) :
    Sound m st' := by
  obtain ⟨refs, alone, life, owner, pages⟩ := sound
  constructor
  · rwa [totals _ holds_about, totals _ hides_about, same.live, same.kept, same.mr]
  · rwa [totals _ holds_about, totals _ hides_about, same.kept, same.mr]
  · rw [totals _ settles_about]
    simpa only [same.live, same.freed, same.freeWork, same.born] using life
  · rw [totals _ registers_about]
    simpa only [same.mr, same.born] using owner
  · rwa [totals _ frees_about, same.mr, same.freed]

/-- A region with references is there and is not being freed. -/
theorem Sound.counted (sound : Sound m st) (counted : st.shared.live m ≠ 0) :
    st.shared.freed.count m = 0 ∧ st.shared.freeWork.count m = 0 ∧
      st.shared.live m = (st.shared.mrs m).refs ∧ st.total (settles m) = 0 ∧
      m < st.shared.born := by
  have life := sound.life
  rw [if_neg counted] at life
  have here : m < st.shared.born := by
    by_contra beyond
    rw [if_neg beyond] at life
    omega
  rw [if_pos here] at life
  have unfreed : st.shared.freed.count m = 0 := by omega
  exact ⟨unfreed, by omega, if_pos unfreed, by omega, here⟩

theorem Sound.held (sound : Sound m st)
    (holding : 0 < st.total (holds m) + st.total (hides m)) : st.shared.live m ≠ 0 := by
  have := sound.refs
  omega

/-- A region on its way in or out is not counted. -/
theorem Sound.settling (sound : Sound m st) (settling : 0 < st.total (settles m)) :
    st.shared.freed.count m = 0 ∧ st.shared.freeWork.count m = 0 ∧ st.shared.live m = 0 ∧
      st.total (settles m) = 1 ∧ m < st.shared.born := by
  have life := sound.life
  have here : m < st.shared.born := by
    by_contra beyond
    rw [if_neg beyond] at life
    omega
  rw [if_pos here] at life
  by_cases counted : st.shared.live m = 0
  · rw [if_pos counted] at life
    exact ⟨by omega, by omega, counted, by omega, here⟩
  · rw [if_neg counted] at life
    omega

theorem hides_le_registers (m : Nat) (frame : Frame) : hides m frame ≤ registers m frame := by
  cases frame <;> simp [hides, registers]

theorem counts_le_registers (m : Nat) (frame : Frame) : counts m frame ≤ registers m frame := by
  cases frame <;> simp [counts, registers]

/-- A hidden region has one reference, that of its registration. -/
theorem Sound.hidden (sound : Sound m st) : st.total (hides m) ≤ 1 := by
  have below : st.total (hides m) ≤ st.total (registers m) :=
    State.total_le_total (hides_le_registers m)
  have owner := sound.owner
  split at owner <;> omega

theorem Sound.moves {n h i s r f : Nat} (sound : Sound n st) (has : st.Has frame)
    (ran : Section st.shared frame v pushed)
    (target : ∃ f ∈ frame :: pushed, f.region = some n)
    (listed : ∀ key, st.shared.xa key = some n →
      (st.shared.mrs n).handed.toNat + st.total (holds n) ≠ 0)
    (holding : h + holds n frame = st.total (holds n) + weigh (holds n) pushed)
    (concealing : i + hides n frame = st.total (hides n) + weigh (hides n) pushed)
    (settling : s + settles n frame = st.total (settles n) + weigh (settles n) pushed)
    (registering : r + registers n frame = st.total (registers n) + weigh (registers n) pushed)
    (freeing : f + frees n frame = st.total (frees n) + weigh (frees n) pushed) :
    (v.live n = v.kept n + (v.mrs n).handed.toNat + h + i ∧
      (i ≠ 0 → v.kept n + (v.mrs n).handed.toNat + h = 0)) ∧
      (if n < v.born then 1 else 0) =
        v.freed.count n + v.freeWork.count n + (if v.live n = 0 then 0 else 1) + s ∧
      (v.mrs n).handed.toNat + (v.mrs n).closing.toNat + r ≤ (if n < v.born then 1 else 0) ∧
      ((v.mrs n).umem = .released → v.freed.count n + f ≠ 0) := by
  have holder := State.weight_le_total (holds n) has
  have hider := State.weight_le_total (hides n) has
  have settler := State.weight_le_total (settles n) has
  have hidden := sound.hidden
  have counted := sound.counted
  have held := sound.held
  have settled := sound.settling
  obtain ⟨refs, alone, life, owner, pages⟩ := sound
  cases ran with
  | publishes m =>
      obtain rfl : m = n := by simpa [Frame.region] using target
      simp only [holds, hides, settles, registers, frees, weigh_cons, weigh_nil, if_true] at *
      obtain ⟨unfreed, idle, uncounted, one, here⟩ := settled (by omega)
      simp only [Verbs.live, modMr_self, modMr_freed, modMr_kept, modMr_born, modMr_freeWork,
        unfreed, idle, here, if_true] at *
      refine ⟨⟨by omega, by omega⟩, by simp; omega, by omega, fun released => ?_⟩
      have := pages released
      omega
  | refuses m | uses m | drops m =>
      obtain rfl : m = n := by simpa [Frame.region] using target
      simp only [holds, hides, settles, registers, frees, weigh_cons, weigh_nil, if_true] at *
      refine ⟨⟨by omega, by omega⟩, by omega, by omega, fun released => ?_⟩
      have := pages released
      omega
  | @inserts m empty =>
      obtain rfl : m = n := by simpa [Frame.region] using target
      simp only [holds, hides, settles, registers, frees, weigh_cons, weigh_nil, if_true] at *
      obtain ⟨unfreed, idle, live, settled, here⟩ := counted (held (by omega))
      have same := live_congr (m := m) (v := st.shared)
        (w := { st.shared with xa := Function.update st.shared.xa (st.shared.mrs m).lkey (some m) })
        rfl rfl
      rw [same]
      refine ⟨⟨by omega, by omega⟩, by omega, by omega, fun released => ?_⟩
      have := pages released
      omega
  | counts m =>
      obtain rfl : m = n := by simpa [Frame.region] using target
      simp only [holds, hides, settles, registers, frees, weigh_nil, if_true] at *
      obtain ⟨unfreed, idle, live, settled, here⟩ := counted (held (by omega))
      simp only [Verbs.live, modMr_self, modMr_freed, modMr_kept, modMr_born, modMr_freeWork,
        unfreed, idle, here, if_true] at *
      have unhanded : (st.shared.mrs m).handed.toNat = 0 := by omega
      simp only [unhanded, Bool.toNat_true] at *
      refine ⟨⟨by omega, by omega⟩, by omega, by omega, fun released => ?_⟩
      have := pages released
      omega
  | undoes m =>
      obtain rfl : m = n := by simpa [Frame.region] using target
      simp only [holds, hides, settles, registers, frees, weigh_nil, if_true] at *
      obtain ⟨unfreed, idle, live, settled, here⟩ := counted (held (by omega))
      simp only [Verbs.live, modMr_self, modMr_freed, modMr_kept, modMr_born, modMr_freeWork,
        unfreed, idle, here, if_true, List.count_append, List.count_singleton_self] at *
      refine ⟨⟨by simp; omega, by omega⟩, by simp; omega, by omega, fun released => by omega⟩
  | @finds key m known referenced =>
      obtain rfl : m = n := by simpa [Frame.region] using target
      simp only [holds, hides, settles, registers, frees, weigh_cons, weigh_nil, if_true] at *
      have here := listed key known
      obtain ⟨unfreed, idle, live, settled, here⟩ := counted (by omega)
      simp only [Verbs.live, modMr_self, modMr_freed, modMr_kept, modMr_born, modMr_freeWork,
        unfreed, idle, here, if_true] at *
      refine ⟨⟨by omega, by omega⟩, by simp; omega, by omega, fun released => ?_⟩
      have := pages released
      omega
  | misses key => simp [Frame.region] at target
  | keeps m =>
      obtain rfl : m = n := by simpa [Frame.region] using target
      simp only [holds, hides, settles, registers, frees, weigh_nil, if_true] at *
      obtain ⟨unfreed, idle, live, settled, here⟩ := counted (held (by omega))
      have same := live_congr (m := m) (v := st.shared)
        (w := { st.shared with kept := Function.update st.shared.kept m (st.shared.kept m + 1) })
        rfl rfl
      rw [same]
      simp only [Function.update_self]
      refine ⟨⟨by omega, by omega⟩, by omega, by omega, fun released => ?_⟩
      have := pages released
      omega
  | copies m =>
      obtain rfl : m = n := by simpa [Frame.region] using target
      simp only [holds, hides, settles, registers, frees, weigh_cons, weigh_nil, if_true] at *
      obtain ⟨unfreed, idle, live, settled, here⟩ := counted (held (by omega))
      simp only [Verbs.live, modMr_self, modMr_freed, modMr_kept, modMr_born, modMr_freeWork,
        unfreed, idle, here, if_true] at *
      refine ⟨⟨by omega, by omega⟩, by simp; omega, by omega, fun released => ?_⟩
      have := pages released
      omega
  | @puts m others =>
      obtain rfl : m = n := by simpa [Frame.region] using target
      simp only [holds, hides, settles, registers, frees, weigh_nil, if_true] at *
      obtain ⟨unfreed, idle, live, settled, here⟩ := counted (held (by omega))
      simp only [Verbs.live, modMr_self, modMr_freed, modMr_kept, modMr_born, modMr_freeWork,
        unfreed, idle, here, if_true] at *
      refine ⟨⟨by omega, by omega⟩, by rw [if_neg others]; omega, by omega, fun released => ?_⟩
      have := pages released
      omega
  | @lasts m last =>
      obtain rfl : m = n := by simpa [Frame.region] using target
      simp only [holds, hides, settles, registers, frees, weigh_nil, if_true] at *
      obtain ⟨unfreed, idle, live, settled, here⟩ := counted (held (by omega))
      have queued := queueFree_self (st.shared.modMr m fun r => { r with refs := r.refs - 1 }) m idle
      simp only [Verbs.live, queueFree_freed, queueFree_mrs, queueFree_kept, queueFree_born,
        queued, modMr_self, modMr_freed, modMr_kept, modMr_born, unfreed, idle, here, if_true] at *
      refine ⟨⟨by omega, by omega⟩, by rw [if_pos last]; omega, by omega, fun released => ?_⟩
      have := pages released
      omega
  | releases m =>
      obtain rfl : m = n := by simpa [Frame.region] using target
      simp only [holds, hides, settles, registers, frees, weigh_cons, weigh_nil, if_true] at *
      obtain ⟨unfreed, idle, uncounted, one, here⟩ := settled (by omega)
      simp only [Verbs.live, modMr_self, modMr_freed, modMr_kept, modMr_born, modMr_freeWork,
        unfreed, idle, here, if_true] at *
      exact ⟨⟨by omega, by omega⟩, by omega, by omega, fun released => by omega⟩
  | discounts m =>
      obtain rfl : m = n := by simpa [Frame.region] using target
      simp only [holds, hides, settles, registers, frees, weigh_cons, weigh_nil, if_true] at *
      obtain ⟨unfreed, idle, uncounted, one, here⟩ := settled (by omega)
      have same := live_congr (m := m) (v := st.shared)
        (w := { st.shared with verbsMrs := st.shared.verbsMrs - 1 }) rfl rfl
      rw [same]
      refine ⟨⟨by omega, by omega⟩, by omega, by omega, fun released => ?_⟩
      have := pages released
      omega
  | kfrees m =>
      obtain rfl : m = n := by simpa [Frame.region] using target
      simp only [holds, hides, settles, registers, frees, weigh_nil, if_true] at *
      obtain ⟨unfreed, idle, uncounted, one, here⟩ := settled (by omega)
      simp only [Verbs.live, List.count_append, List.count_singleton_self, unfreed, idle, here,
        if_true] at *
      exact ⟨⟨by simp; omega, by omega⟩, by simp; omega, by omega, fun released => by omega⟩

theorem counts_le_holds (m : Nat) (frame : Frame) : counts m frame ≤ holds m frame := by
  cases frame <;> simp [holds, counts]

/-- What is found under a key has a reference of its registration. -/
theorem Kept.listed (kept : Kept st) {key : Nat} (known : st.shared.xa key = some m) :
    (st.shared.mrs m).handed.toNat + st.total (holds m) ≠ 0 := by
  have below : st.total (counts m) ≤ st.total (holds m) := State.total_le_total (counts_le_holds m)
  have registered := ((kept.named key m).mp known).2
  omega

theorem Kept.run_sound (kept : Kept st) (found : st.threads[thread]? = some (frame :: rest))
    (ran : Section st.shared frame v pushed) (m : Nat) :
    Sound m ⟨v, st.threads.set thread (pushed ++ rest)⟩ := by
  by_cases target : ∃ f ∈ frame :: pushed, f.region = some m
  · have total := fun weight => @State.total_run _ _ st weight _ _ _ pushed v found
    obtain ⟨⟨refs, alone⟩, life, owner, pages⟩ := (kept.sound m).moves (State.has_of_top found) ran
      target (fun key => kept.listed) (total _) (total _) (total _) (total _) (total _)
    exact ⟨refs, alone, life, owner, pages⟩
  · have apart : ∀ f ∈ frame :: pushed, f.region ≠ some m := by
      intro f among is
      exact target ⟨f, among, is⟩
    exact (kept.sound m).of_same (ran.same apart) fun weight about => about.total_run found apart

/-- A region on its way in is under no key. -/
theorem Sound.unlisted (sound : Sound m st)
    (here : 0 < st.total (settles m) ∨ 0 < st.total (hides m)) :
    (st.shared.mrs m).handed.toNat + st.total (counts m) = 0 := by
  have below : st.total (counts m) ≤ st.total (holds m) := State.total_le_total (counts_le_holds m)
  have refs := sound.refs
  rcases here with settling | hidden
  · obtain ⟨-, -, none, -, -⟩ := sound.settling settling
    omega
  · have := sound.alone (by omega)
    omega

/-- A region's name and whether it is listed under it are as before. -/
def Still (v w : Verbs) : Prop :=
  w.xa = v.xa ∧ ∀ m, (w.mrs m).lkey = (v.mrs m).lkey ∧ (w.mrs m).handed = (v.mrs m).handed

theorem Still.refl (v : Verbs) : Still v v := ⟨rfl, fun _ => ⟨rfl, rfl⟩⟩

theorem still_modMr (v : Verbs) (n : Nat) {change : Mr → Mr} (lkey : ∀ r, (change r).lkey = r.lkey)
    (handed : ∀ r, (change r).handed = r.handed) : Still v (v.modMr n change) := by
  refine ⟨rfl, fun m => ?_⟩
  by_cases same : m = n
  · subst same
    simp [lkey, handed]
  · simp [same]

theorem lkey_release (r : Mr) : { r with umem := r.umem.release }.lkey = r.lkey := rfl

theorem handed_release (r : Mr) : { r with umem := r.umem.release }.handed = r.handed := rfl

theorem lkey_refs (change : Nat → Nat) (r : Mr) : { r with refs := change r.refs }.lkey = r.lkey := rfl

theorem handed_refs (change : Nat → Nat) (r : Mr) :
    { r with refs := change r.refs }.handed = r.handed := rfl

theorem Kept.named_still (kept : Kept st) (found : st.threads[thread]? = some (frame :: rest))
    (still : Still st.shared v) (same : ∀ m, counts m frame = weigh (counts m) pushed) (key m : Nat) :
    v.xa key = some m ↔ (v.mrs m).lkey = key ∧ (v.mrs m).handed.toNat +
      State.total (counts m) (⟨v, st.threads.set thread (pushed ++ rest)⟩ : System) ≠ 0 := by
  have total := @State.total_run _ _ st (counts m) _ _ _ pushed v found
  have now : State.total (counts m) (⟨v, st.threads.set thread (pushed ++ rest)⟩ : System) =
      st.total (counts m) := by
    have := same m
    omega
  rw [now, still.1, (still.2 m).1, (still.2 m).2]
  exact kept.named key m

theorem Kept.run_named (kept : Kept st) (found : st.threads[thread]? = some (frame :: rest))
    (ran : Section st.shared frame v pushed) (key m : Nat) :
    v.xa key = some m ↔ (v.mrs m).lkey = key ∧ (v.mrs m).handed.toNat +
      State.total (counts m) (⟨v, st.threads.set thread (pushed ++ rest)⟩ : System) ≠ 0 := by
  have has := State.has_of_top found
  have named := kept.named key m
  have total := @State.total_run _ _ st (counts m) _ _ _ pushed v found
  cases ran with
  | publishes n =>
      have unlisted := (kept.sound n).unlisted (.inl (Nat.lt_of_lt_of_le (by simp [settles])
        (State.weight_le_total (settles n) has)))
      generalize State.total (counts m) _ = now at total ⊢
      have still : now = st.total (counts m) := by simpa [counts] using total
      rw [still]
      by_cases same : m = n
      · subst same
        refine ⟨fun known => absurd unlisted (named.mp known).2, fun there => ?_⟩
        rw [modMr_self] at there
        exact absurd unlisted there.2
      · simpa [same] using named
  | @inserts n empty =>
      have unlisted := (kept.sound n).unlisted (.inr (Nat.lt_of_lt_of_le (by simp [hides])
        (State.weight_le_total (hides n) has)))
      generalize State.total (counts m) _ = now at total ⊢
      simp only [counts, weigh_cons, weigh_nil, Nat.add_zero] at total
      by_cases same : m = n
      · subst same
        rw [if_pos rfl] at total
        have listed : (st.shared.mrs m).handed.toNat + now ≠ 0 := by omega
        by_cases here : (st.shared.mrs m).lkey = key
        · simpa [here] using listed
        · have other : ¬ st.shared.xa key = some m := fun known => here (named.mp known).1
          simp [here, Ne.symm here, other]
      · rw [if_neg (Ne.symm same)] at total
        rw [show now = st.total (counts m) from total]
        by_cases here : (st.shared.mrs n).lkey = key
        · subst here
          simp only [Function.update_self, Option.some.injEq, Ne.symm same, false_iff]
          intro there
          rw [named.mpr there] at empty
          cases empty
        · simpa [Ne.symm here] using named
  | counts n =>
      have counting := State.weight_le_total (counts n) has
      generalize State.total (counts m) _ = now at total ⊢
      simp only [counts, weigh_nil, Nat.add_zero] at total
      by_cases same : m = n
      · subst same
        rw [if_pos rfl] at total
        have there : st.total (counts m) ≠ 0 := by omega
        simp [named, there]
      · rw [if_neg (Ne.symm same)] at total
        simpa [same, show now = st.total (counts m) from total] using named
  | refuses n | uses n | drops n | misses n =>
      exact kept.named_still found (.refl _) (fun m => by simp [counts]) key m
  | keeps n | discounts n | kfrees n =>
      exact kept.named_still found ⟨rfl, fun _ => ⟨rfl, rfl⟩⟩ (fun m => by simp [counts]) key m
  | undoes n =>
      have still := still_modMr { st.shared with freed := st.shared.freed ++ [n] } n lkey_release
        handed_release
      exact kept.named_still found still (fun m => by simp [counts]) key m
  | releases n =>
      have still := still_modMr st.shared n lkey_release handed_release
      exact kept.named_still found still (fun m => by simp [counts]) key m
  | copies n =>
      have still := still_modMr st.shared n (lkey_refs (· + 1)) (handed_refs (· + 1))
      exact kept.named_still found still (fun m => by simp [counts]) key m
  | @finds known n _ _ =>
      have still := still_modMr st.shared n (lkey_refs (· + 1)) (handed_refs (· + 1))
      exact kept.named_still found still (fun m => by simp [counts]) key m
  | @puts n others =>
      have still := still_modMr st.shared n (lkey_refs (· - 1)) (handed_refs (· - 1))
      exact kept.named_still found still (fun m => by simp [counts]) key m
  | @lasts n last =>
      have still := still_modMr st.shared n (lkey_refs (· - 1)) (handed_refs (· - 1))
      refine kept.named_still found ⟨?_, fun m => ?_⟩ (fun m => by simp [counts]) key m
      · rw [queueFree_xa]
        exact still.1
      · rw [queueFree_mrs]
        exact still.2 m

theorem Kept.run_books (kept : Kept st) (found : st.threads[thread]? = some (frame :: rest))
    (ran : Section st.shared frame v pushed) :
    (v.born : Int) = v.verbsMrs + v.freed.length +
      State.total uncounted (⟨v, st.threads.set thread (pushed ++ rest)⟩ : System) := by
  have books := kept.books
  have total := @State.total_run _ _ st uncounted _ _ _ pushed v found
  generalize State.total uncounted _ = now at total ⊢
  cases ran with
  | refuses n | misses n | uses n | drops n =>
      simp only [uncounted, weigh_cons, weigh_nil] at total
      omega
  | publishes n | inserts | counts n | undoes n | finds | keeps n | copies n | puts | lasts
  | releases n | discounts n | kfrees n =>
      simp only [uncounted, weigh_cons, weigh_nil] at total
      simp
      omega

theorem Kept.run (kept : Kept st) (found : st.threads[thread]? = some (frame :: rest))
    (ran : Section st.shared frame v pushed) :
    Kept ⟨v, st.threads.set thread (pushed ++ rest)⟩ :=
  ⟨kept.run_sound found ran, kept.run_named found ran, kept.run_books found ran⟩

end Steps

/-! ## Events -/

section Events
variable {st : System} {m : Nat} {v : Verbs} {code : List Frame}

/-- No region has been allocated under a number yet to come. -/
theorem Sound.unborn (sound : Sound m st) (beyond : st.shared.born ≤ m) :
    st.shared.freed.count m = 0 ∧ st.shared.freeWork.count m = 0 ∧ st.shared.live m = 0 ∧
      st.total (settles m) = 0 ∧ (st.shared.mrs m).handed = false ∧
      (st.shared.mrs m).closing = false ∧ st.total (registers m) = 0 := by
  have life := sound.life
  have owner := sound.owner
  rw [if_neg (Nat.not_lt.mpr beyond)] at life owner
  have counted : st.shared.live m = 0 := by
    by_contra some
    rw [if_neg some] at life
    omega
  have handed : (st.shared.mrs m).handed.toNat = 0 := by omega
  have closing : (st.shared.mrs m).closing.toNat = 0 := by omega
  simp only [Bool.toNat_eq_zero] at handed closing
  exact ⟨by omega, by omega, counted, by omega, handed, closing, by omega⟩

theorem Kept.regMr (kept : Kept st) (umem : Umem) (intact : umem ≠ .released) :
    Kept ⟨{ st.shared with
      born := st.shared.born + 1
      mrs := Function.update st.shared.mrs st.shared.born { umem } },
      st.threads ++ [[.publish st.shared.born]]⟩ := by
  obtain ⟨unfreed, idle, counted, settled, handed, closing, unregistered⟩ :=
    (kept.sound st.shared.born).unborn (Nat.le_refl _)
  have refs := (kept.sound st.shared.born).refs
  have countsBelow : st.total (counts st.shared.born) ≤ st.total (holds st.shared.born) :=
    State.total_le_total (counts_le_holds st.shared.born)
  have books := kept.books
  refine ⟨fun m => ?_, fun key m => ?_, ?_⟩
  · by_cases same : m = st.shared.born
    · subst same
      constructor <;> simp only [State.total_event, Verbs.live, Function.update_self, unfreed, idle,
        settled, unregistered] <;> simp [holds, hides, settles, registers, frees, intact] <;> omega
    · refine (kept.sound m).of_same ⟨?_, rfl, rfl, rfl, ?_⟩ fun weight about => about.total_event ?_
      · simp [same]
      · simp only
        omega
      · simp [Frame.region, Ne.symm same]
  · rw [State.total_event]
    have named := kept.named key m
    by_cases same : m = st.shared.born
    · subst same
      have other : st.shared.xa key ≠ some st.shared.born := by
        intro known
        have := (named.mp known).2
        simp only [handed, Bool.toNat_false] at this
        omega
      have none : st.total (counts st.shared.born) = 0 := by omega
      simp [counts, other, none]
    · simpa [same, counts] using named
  · rw [State.total_event]
    simp [uncounted]
    omega

theorem Kept.take (kept : Kept st) {n : Nat} (some : st.shared.kept n ≠ 0) :
    Kept ⟨{ st.shared with kept := Function.update st.shared.kept n (st.shared.kept n - 1) },
      st.threads ++ [[.hold n]]⟩ := by
  have books := kept.books
  refine ⟨fun m => ?_, fun key m => ?_, ?_⟩
  · by_cases same : m = n
    · subst same
      obtain ⟨refs, alone, life, owner, pages⟩ := kept.sound m
      have same := live_congr (m := m) (v := st.shared)
        (w := { st.shared with kept := Function.update st.shared.kept m (st.shared.kept m - 1) })
        rfl rfl
      constructor <;> simp only [State.total_event, same, Function.update_self] <;>
        simp only [holds, hides, settles, registers, frees, weigh_cons, weigh_nil, if_true,
          Nat.add_zero]
      · omega
      · omega
      · exact life
      · exact owner
      · exact pages
    · refine (kept.sound m).of_same ⟨rfl, ?_, rfl, rfl, .rfl⟩ fun weight about => about.total_event ?_
      · simp [same]
      · simp [Frame.region, Ne.symm same]
  · rw [State.total_event]
    simpa [counts] using kept.named key m
  · rw [State.total_event]
    simpa [uncounted] using books

theorem Sound.handed (sound : Sound m st) (handed : (st.shared.mrs m).handed = true) :
    (st.shared.mrs m).closing = false ∧ st.total (registers m) = 0 ∧ st.total (hides m) = 0 ∧
      st.shared.live m ≠ 0 := by
  have owner := sound.owner
  have refs := sound.refs
  have below : st.total (hides m) ≤ st.total (registers m) :=
    State.total_le_total (hides_le_registers m)
  have one : (if m < st.shared.born then 1 else 0) ≤ 1 := by split <;> omega
  simp only [handed, Bool.toNat_true] at owner refs
  refine ⟨?_, by omega, by omega, by omega⟩
  rw [← Bool.toNat_eq_zero]
  omega

theorem Kept.dereg (kept : Kept st) {n : Nat} (handed : (st.shared.mrs n).handed = true) :
    Kept ⟨{ st.shared with xa := Function.update st.shared.xa (st.shared.mrs n).lkey none }.modMr n
      fun r => { r with closing := true, handed := false }, st.threads ++ [[.put n]]⟩ := by
  have books := kept.books
  refine ⟨fun m => ?_, fun key m => ?_, ?_⟩
  · by_cases same : m = n
    · subst same
      obtain ⟨unclosed, unregistered, shown, counted⟩ := (kept.sound m).handed handed
      obtain ⟨unfreed, idle, live, settled, here⟩ := (kept.sound m).counted counted
      obtain ⟨refs, alone, life, owner, pages⟩ := kept.sound m
      simp only [Verbs.live, unfreed, idle, here, settled, unregistered, handed, shown, if_true,
        Bool.toNat_true] at refs alone life owner pages
      constructor <;> simp only [State.total_event, Verbs.live, modMr_self, modMr_freed, modMr_kept,
        modMr_born, modMr_freeWork, unfreed, idle, here, if_true, holds, hides, settles, registers,
        frees, weigh_cons, weigh_nil, Bool.toNat_true, Bool.toNat_false, Nat.add_zero, shown, settled,
        unregistered]
      · omega
      · omega
      · exact life
      · omega
      · exact pages
    · refine (kept.sound m).of_same ⟨?_, rfl, rfl, rfl, .rfl⟩ fun weight about => about.total_event ?_
      · simp [same]
      · simp [Frame.region, Ne.symm same]
  · rw [State.total_event]
    have named := kept.named key m
    have theirs := kept.named (st.shared.mrs n).lkey n
    by_cases same : m = n
    · subst same
      have none : st.total (counts m) = 0 := by
        have below : st.total (counts m) ≤ st.total (registers m) :=
          State.total_le_total (counts_le_registers m)
        have := ((kept.sound m).handed handed).2.1
        omega
      by_cases here : key = (st.shared.mrs m).lkey
      · simp [here, counts, none]
      · simp [here, counts, none, named, Ne.symm here]
    · by_cases here : key = (st.shared.mrs n).lkey
      · subst here
        have known : st.shared.xa (st.shared.mrs n).lkey = some n := by
          rw [theirs]
          simp [handed]
        have other : ¬ st.shared.xa (st.shared.mrs n).lkey = some m := by
          rw [known]
          simpa [eq_comm] using same
        simp only [modMr_xa, Function.update_self, modMr_other _ _ _ same, counts, weigh_cons,
          weigh_nil, Nat.add_zero, ← named, other]
        simp
      · simpa [same, here, counts] using named
  · rw [State.total_event]
    simpa [uncounted] using books

theorem Kept.work (kept : Kept st) {n : Nat} (queued : n ∈ st.shared.freeWork) :
    Kept ⟨{ st.shared with freeWork := st.shared.freeWork.erase n },
      st.threads ++ [[.release n]]⟩ := by
  refine ⟨fun m => ?_, fun key m => ?_, ?_⟩
  · by_cases same : m = n
    · subst same
      have one := List.count_pos_iff.mpr queued
      obtain ⟨refs, alone, life, owner, pages⟩ := kept.sound m
      have same := live_congr (m := m) (v := st.shared)
        (w := { st.shared with freeWork := st.shared.freeWork.erase m }) rfl rfl
      constructor <;> simp only [State.total_event, same, List.count_erase_self] <;>
        simp only [holds, hides, settles, registers, frees, weigh_cons, weigh_nil, if_true,
          Nat.add_zero]
      · exact refs
      · exact alone
      · omega
      · exact owner
      · exact pages
    · refine (kept.sound m).of_same ⟨rfl, rfl, rfl, ?_, .rfl⟩ fun weight about => about.total_event ?_
      · exact List.count_erase_of_ne same
      · simp [Frame.region, Ne.symm same]
  · rw [State.total_event]
    simpa [counts] using kept.named key m
  · rw [State.total_event]
    simpa [uncounted] using kept.books

theorem Kept.event (kept : Kept st) {event : Event}
    (reacted : react st.shared event = some (v, code)) : Kept ⟨v, st.threads ++ [code]⟩ := by
  cases event with
  | regMr umem =>
      simp only [react] at reacted
      split at reacted <;> cases reacted
      rename_i intact
      exact kept.regMr umem intact
  | get key =>
      cases reacted
      refine ⟨fun m => (kept.sound m).of_same (.refl m _) fun weight about => about.total_event ?_,
        fun key m => ?_, ?_⟩
      · simp [Frame.region]
      · rw [State.total_event]
        simpa [counts] using kept.named key m
      · rw [State.total_event]
        simpa [uncounted] using kept.books
  | take n =>
      simp only [react] at reacted
      split at reacted <;> cases reacted
      rename_i some
      exact kept.take some
  | dereg n =>
      simp only [react] at reacted
      split at reacted <;> cases reacted
      rename_i handed
      exact kept.dereg handed
  | work n =>
      simp only [react] at reacted
      split at reacted <;> cases reacted
      rename_i queued
      exact kept.work queued

end Events

/-! ## Runs -/

theorem kept_start : Kept start := by
  refine ⟨fun m => ⟨rfl, ?_, rfl, Nat.le_refl 0, ?_⟩, fun key m => ?_, rfl⟩
  · intro hidden
    exact absurd rfl hidden
  · rintro ⟨⟩
  · simp [start, State.total]

theorem Kept.step {st st' : System} {label : Label Event Choice} (kept : Kept st)
    (stepped : step st label = some st') : Kept st' := by
  cases label with
  | event event =>
      obtain ⟨v, code, reacted, rfl⟩ := step_event stepped
      exact kept.event reacted
  | run thread choice =>
      obtain ⟨frame, rest, v, pushed, found, ran, rfl⟩ := step_run stepped
      exact kept.run found (exec_section ran)

theorem kept_of_reaches {st : System} (reached : Reaches step (fun _ _ => True) start st) :
    Kept st := by
  refine reached.invariant kept_start ?_
  intro st label st' kept _ stepped
  exact kept.step stepped

/-- A region whose pages may be read and written. -/
structure Verbs.Usable (v : Verbs) (m : Nat) : Prop where
  allocated : m ∉ v.freed
  pages : (v.mrs m).umem ≠ .released
  referenced : (v.mrs m).refs ≠ 0

section Runs
variable {st : System} {m : Nat}

theorem frees_le_settles (m : Nat) (frame : Frame) : frees m frame ≤ settles m frame := by
  cases frame <;> simp [frees, settles]

theorem Sound.usable (sound : Sound m st) (counted : st.shared.live m ≠ 0) :
    st.shared.Usable m := by
  obtain ⟨unfreed, -, live, settled, -⟩ := sound.counted counted
  have below : st.total (frees m) ≤ st.total (settles m) :=
    State.total_le_total (frees_le_settles m)
  refine ⟨List.count_eq_zero.mp unfreed, ?_, by omega⟩
  intro released
  have := sound.pages released
  omega

theorem Sound.in_hand (sound : Sound m st) {frame : Frame} (has : st.Has frame)
    (region : frame.region = some m) : m ∉ st.shared.freed := by
  have total := fun weight => State.weight_le_total weight has
  have some : 0 < st.total (holds m) + st.total (hides m) ∨ 0 < st.total (settles m) := by
    have held := total (holds m)
    have hidden := total (hides m)
    have settled := total (settles m)
    cases frame <;> simp_all [Frame.region, holds, hides, settles] <;> omega
  rcases some with held | settling
  · exact List.count_eq_zero.mp (sound.counted (sound.held held)).1
  · exact List.count_eq_zero.mp (sound.settling settling).1

end Runs

/-- A region outlives everybody who uses it, and goes once. -/
theorem regions_outlive_their_users {st : System}
    (reached : Reaches step (fun _ _ => True) start st) :
    (∀ frame m, st.Has frame → frame.region = some m → m ∉ st.shared.freed) ∧
      (∀ m, st.Has (.hold m) ∨ st.shared.kept m ≠ 0 → st.shared.Usable m) ∧
      (∀ key m, st.shared.xa key = some m →
        st.shared.Usable m ∧ (st.shared.mrs m).closing = false) ∧
      (∀ m, (st.shared.mrs m).handed = true → st.shared.xa (st.shared.mrs m).lkey = some m) ∧
      st.shared.freed.Nodup ∧
      ((∀ code ∈ st.threads, code = []) → (∀ m, st.shared.kept m = 0) → st.shared.freeWork = [] →
        st.shared.verbsMrs = st.shared.born - st.shared.freed.length ∧
          ∀ m < st.shared.born, m ∈ st.shared.freed ↔ (st.shared.mrs m).handed = false) := by
  have kept := kept_of_reaches reached
  refine ⟨fun frame m has region => (kept.sound m).in_hand has region, fun m user => ?_,
    fun key m known => ?_, fun m handed => ?_, ?_, fun quiet idle drained => ⟨?_, fun m here => ?_⟩⟩
  · refine (kept.sound m).usable ?_
    have refs := (kept.sound m).refs
    rcases user with has | some
    · have := State.weight_le_total (holds m) has
      simp only [holds, if_true] at this
      omega
    · omega
  · have listed := kept.listed known
    have refs := (kept.sound m).refs
    refine ⟨(kept.sound m).usable (by omega), ?_⟩
    have owner := (kept.sound m).owner
    have below : st.total (counts m) ≤ st.total (registers m) :=
      State.total_le_total (counts_le_registers m)
    have registered := ((kept.named key m).mp known).2
    rw [← Bool.toNat_eq_zero]
    split at owner <;> omega
  · rw [kept.named]
    simp [handed]
  · rw [List.nodup_iff_count]
    intro m
    have life := (kept.sound m).life
    have one : (if m < st.shared.born then 1 else 0) ≤ 1 := by split <;> omega
    omega
  · have books := kept.books
    rw [State.total_quiet uncounted quiet] at books
    omega
  · have refs := (kept.sound m).refs
    have life := (kept.sound m).life
    rw [State.total_quiet _ quiet, State.total_quiet _ quiet, idle m] at refs
    rw [State.total_quiet _ quiet, drained, if_pos here] at life
    rw [← List.count_pos_iff]
    cases handed : (st.shared.mrs m).handed with
    | true =>
        rw [handed, Bool.toNat_true] at refs
        rw [if_neg (by omega), List.count_nil] at life
        simp only [Bool.true_eq_false, iff_false]
        omega
    | false =>
        rw [handed, Bool.toNat_false] at refs
        rw [if_pos refs, List.count_nil] at life
        simp only [iff_true]
        omega

/-- A region deregistered while a work request still holds it. -/
def lateRelease : List (Label Event Choice) :=
  [.event (.regMr .pinned), .run 0 .use, .run 0 .use, .run 0 .use, .event (.get 2), .run 1 .use,
    .run 1 .keep, .event (.dereg 0), .run 2 .use, .event (.take 0), .run 3 .drop, .run 3 .use,
    .event (.work 0), .run 4 .use, .run 4 .use, .run 4 .use]

theorem regions_outlive_their_users_late : ∃ st,
    run step lateRelease start = some st ∧ 0 ∈ st.shared.freed ∧ st.shared.freed.Nodup := by
  have ran : (run step lateRelease start).isSome := by decide
  obtain ⟨st, is⟩ := Option.isSome_iff_exists.mp ran
  have freed : (run step lateRelease start).map (fun st => st.shared.freed) = some [0] := by decide
  rw [is] at freed
  have only : st.shared.freed = [0] := Option.some.inj freed
  exact ⟨st, is, only ▸ List.mem_singleton_self 0,
    (regions_outlive_their_users (reaches_of_run_free is)).2.2.2.2.1⟩

end Tbv.Regions
