import ThunderboltIbverbs.Lib.Run
import ThunderboltIbverbs.Lib.Objects

/-! # Queue pairs and who holds them

A queue pair is found by its number or as the GSI queue pair, held while a frame or a call works
on it, and given back (`tbv_qp_put`).  `tbv_destroy_qp` closes it, waits, takes it out of the table,
drops the reference of the creation and waits for the last one to go. -/
set_option autoImplicit false
namespace Tbv.QueuePairs

open Threads Trans

/-- `struct tbv_qp`; `idle` while the RDMA core has it and no destroy is running. -/
structure Qp where
  number : Nat := 0
  gsi : Bool := false
  apple : Bool := false
  refs : Nat := 0
  closing : Bool := false
  refsZero : Bool := false
  idle : Bool := false
  deriving DecidableEq, Repr

/-- The part of `struct tbv_state` that queue pairs live in; `kept` counts the references of send,
read and response contexts. -/
structure Verbs where
  born : Nat := 0
  qps : Nat → Qp := fun _ => {}
  xa : Nat → Option Nat := fun _ => none
  xaLock : Bool := false
  gsiQp : Option Nat := none
  kept : Nat → Nat := fun _ => 0
  freed : List Nat := []

def Verbs.modQp (v : Verbs) (q : Nat) (change : Qp → Qp) : Verbs :=
  { v with qps := Function.update v.qps q (change (v.qps q)) }

section ModQp
variable (v : Verbs) (q : Nat) (change : Qp → Qp)

@[simp] theorem modQp_self : (v.modQp q change).qps q = change (v.qps q) := by simp [Verbs.modQp]

@[simp] theorem modQp_other {n : Nat} (other : n ≠ q) : (v.modQp q change).qps n = v.qps n := by
  simp [Verbs.modQp, other]

@[simp] theorem modQp_born : (v.modQp q change).born = v.born := rfl
@[simp] theorem modQp_xa : (v.modQp q change).xa = v.xa := rfl
@[simp] theorem modQp_xaLock : (v.modQp q change).xaLock = v.xaLock := rfl
@[simp] theorem modQp_gsiQp : (v.modQp q change).gsiQp = v.gsiQp := rfl
@[simp] theorem modQp_kept : (v.modQp q change).kept = v.kept := rfl
@[simp] theorem modQp_freed : (v.modQp q change).freed = v.freed := rfl

end ModQp

inductive Frame where
  | insert (q : Nat)
  | discard (q : Nat)
  | lookup (number : Nat)
  | check (q : Nat)
  | hold (q : Nat)
  | put (q : Nat)
  | wake (q : Nat)
  | clear (q : Nat)
  | waitRefs (q : Nat)
  | erase (q : Nat)
  | waitZero (q : Nat)
  | free (q : Nat)
  deriving DecidableEq, Repr

inductive Choice where
  | use | keep | getLive | drop | fail
  deriving DecidableEq, Repr

inductive Event where
  | create (number : Nat) (gsi apple : Bool)
  | frame (number : Nat)
  | mad
  | post (q : Nat)
  | take (q : Nat)
  | destroy (q : Nat)
  deriving DecidableEq, Repr

/-- `tbv_qp_get_live`: the check and the reference are one section of `tqp->lock`. -/
def Verbs.getLive (v : Verbs) (q : Nat) : Verbs × List Frame :=
  if (v.qps q).closing = false ∧ (v.qps q).refs ≠ 0 then
    (v.modQp q fun t => { t with refs := t.refs + 1 }, [.hold q])
  else (v, [])

/-- `tbv_create_qp` up to the table, the arrival of a frame for a number or of a management
datagram (`tbv_path_get_gsi_qp`), a post of the application, a context that is done with a queue
pair, and `tbv_destroy_qp`. -/
def react (v : Verbs) : Event → Option (Verbs × List Frame)
  | .create number gsi apple =>
      some ({ v with
        born := v.born + 1
        qps := Function.update v.qps v.born { number, gsi, apple, refs := 1 } }, [.insert v.born])
  | .frame number => some (v, [.lookup number])
  | .mad => some (match v.gsiQp with
      | some q => v.getLive q
      | none => (v, []))
  | .post q => if (v.qps q).idle then some (v.getLive q) else none
  | .take q =>
      if v.kept q = 0 then none
      else some ({ v with kept := Function.update v.kept q (v.kept q - 1) }, [.hold q])
  | .destroy q =>
      if (v.qps q).idle then
        some (v.modQp q fun t => { t with closing := true, idle := false }, [.clear q])
      else none

def execInsert (v : Verbs) (q : Nat) (choice : Choice) : Option (Verbs × List Frame) :=
  if (v.qps q).gsi then
    if v.gsiQp.isSome then some (v, [.discard q])
    else some ({ v with gsiQp := some q }.modQp q fun t => { t with idle := true }, [])
  else if v.xaLock then none
  else if choice = .fail ∨ (v.xa (v.qps q).number).isSome then some (v, [.discard q])
  else some ({ v with xa := Function.update v.xa (v.qps q).number (some q) }.modQp q fun t =>
    { t with idle := true }, [])

/-- `tbv_qp_get_by_num` up to its look at `closing`, which another lock protects. -/
def execLookup (v : Verbs) (number : Nat) : Option (Verbs × List Frame) :=
  if v.xaLock then none
  else match v.xa number with
    | some q =>
        if (v.qps q).closing then some (v, []) else some ({ v with xaLock := true }, [.check q])
    | none => some (v, [])

/-- `refcount_inc_not_zero` and the end of the section. -/
def execCheck (v : Verbs) (q : Nat) : Verbs × List Frame :=
  if (v.qps q).refs = 0 then ({ v with xaLock := false }, [])
  else ({ v with xaLock := false }.modQp q fun t => { t with refs := t.refs + 1 }, [.hold q])

def execHold (v : Verbs) (q : Nat) : Choice → Verbs × List Frame
  | .use => (v, [.hold q])
  | .keep => ({ v with kept := Function.update v.kept q (v.kept q + 1) }, [])
  | .getLive => ((v.getLive q).1, (v.getLive q).2 ++ [.hold q])
  | .drop | .fail => (v, [.put q])

/-- `tbv_qp_put`: the last reference completes `refs_zero`, every other put wakes `refs_wait`. -/
def execPut (v : Verbs) (q : Nat) : Verbs × List Frame :=
  if (v.qps q).refs - 1 = 0 then
    (v.modQp q fun t => { t with refs := t.refs - 1, refsZero := true }, [])
  else (v.modQp q fun t => { t with refs := t.refs - 1 }, [.wake q])

/-- `tbv_qp_wait_refs` of a native queue pair; the retirement of an Apple one ends as it may. -/
def execWaitRefs (v : Verbs) (q : Nat) (choice : Choice) : Option (Verbs × List Frame) :=
  if (v.qps q).apple = true ∧ choice ≠ .fail ∨ (v.qps q).apple = false ∧ (v.qps q).refs ≤ 1 then
    some (v, [.erase q])
  else if choice = .fail then some (v.modQp q fun t => { t with idle := true }, [])
  else none

def exec (v : Verbs) (frame : Frame) (choice : Choice) : Option (Verbs × List Frame) :=
  match frame with
  | .insert q => execInsert v q choice
  | .discard q => some ({ v with freed := v.freed ++ [q] }, [])
  | .lookup number => execLookup v number
  | .check q => some (execCheck v q)
  | .hold q => some (execHold v q choice)
  | .put q => some (execPut v q)
  | .wake _ => some (v, [])
  | .clear q =>
      some (if (v.qps q).gsi ∧ v.gsiQp = some q then { v with gsiQp := none } else v, [.waitRefs q])
  | .waitRefs q => execWaitRefs v q choice
  | .erase q =>
      if (v.qps q).gsi then some (v, [.put q, .waitZero q])
      else if v.xaLock then none
      else some ({ v with xa := Function.update v.xa (v.qps q).number none }, [.put q, .waitZero q])
  | .waitZero q => if (v.qps q).refsZero then some (v, [.free q]) else none
  | .free q => some ({ v with freed := v.freed ++ [q] }, [])

abbrev System := State Verbs Frame

def start : System := ⟨{}, []⟩

def step : System → Label Event Choice → Option System := Threads.step react exec

/-! ## Sections -/

inductive Section (v : Verbs) : Frame → Verbs → List Frame → Prop
  | refuses (q : Nat) : Section v (.insert q) v [.discard q]
  | becomesGsi {q : Nat} (gsi : (v.qps q).gsi = true) (none : v.gsiQp = none) :
      Section v (.insert q) ({ v with gsiQp := some q }.modQp q fun t => { t with idle := true }) []
  | inserts {q : Nat} (plain : (v.qps q).gsi = false) (unlocked : v.xaLock = false)
      (empty : v.xa (v.qps q).number = none) :
      Section v (.insert q)
        ({ v with xa := Function.update v.xa (v.qps q).number (some q) }.modQp q fun t =>
          { t with idle := true }) []
  | discards (q : Nat) : Section v (.discard q) { v with freed := v.freed ++ [q] } []
  | misses (number : Nat) : Section v (.lookup number) v []
  | finds {number q : Nat} (unlocked : v.xaLock = false) (known : v.xa number = some q)
      (live : (v.qps q).closing = false) :
      Section v (.lookup number) { v with xaLock := true } [.check q]
  | passes {q : Nat} (some : (v.qps q).refs ≠ 0) :
      Section v (.check q)
        ({ v with xaLock := false }.modQp q fun t => { t with refs := t.refs + 1 }) [.hold q]
  | fails {q : Nat} (none : (v.qps q).refs = 0) :
      Section v (.check q) { v with xaLock := false } []
  | uses (q : Nat) : Section v (.hold q) v [.hold q]
  | keeps (q : Nat) :
      Section v (.hold q) { v with kept := Function.update v.kept q (v.kept q + 1) } []
  | copies {q : Nat} (live : (v.qps q).closing = false) :
      Section v (.hold q) (v.modQp q fun t => { t with refs := t.refs + 1 }) [.hold q, .hold q]
  | drops (q : Nat) : Section v (.hold q) v [.put q]
  | lasts {q : Nat} (last : (v.qps q).refs - 1 = 0) :
      Section v (.put q) (v.modQp q fun t => { t with refs := t.refs - 1, refsZero := true }) []
  | puts {q : Nat} (others : (v.qps q).refs - 1 ≠ 0) :
      Section v (.put q) (v.modQp q fun t => { t with refs := t.refs - 1 }) [.wake q]
  | wakes (q : Nat) : Section v (.wake q) v []
  | clears {q : Nat} (gsi : v.gsiQp = some q) :
      Section v (.clear q) { v with gsiQp := none } [.waitRefs q]
  | passesBy {q : Nat} (other : (v.qps q).gsi = true → v.gsiQp ≠ some q) :
      Section v (.clear q) v [.waitRefs q]
  | settles (q : Nat) : Section v (.waitRefs q) v [.erase q]
  | givesUp (q : Nat) :
      Section v (.waitRefs q) (v.modQp q fun t => { t with idle := true }) []
  | leaves {q : Nat} (gsi : (v.qps q).gsi = true) : Section v (.erase q) v [.put q, .waitZero q]
  | erases {q : Nat} (plain : (v.qps q).gsi = false) (unlocked : v.xaLock = false) :
      Section v (.erase q) { v with xa := Function.update v.xa (v.qps q).number none }
        [.put q, .waitZero q]
  | completes {q : Nat} (zero : (v.qps q).refsZero = true) : Section v (.waitZero q) v [.free q]
  | frees (q : Nat) : Section v (.free q) { v with freed := v.freed ++ [q] } []

theorem exec_section {v w : Verbs} {frame : Frame} {choice : Choice} {pushed : List Frame}
    (ran : exec v frame choice = some (w, pushed)) : Section v frame w pushed := by
  cases frame with
  | insert q =>
      simp only [exec, execInsert] at ran
      split at ran
      · rename_i gsi
        split at ran <;> cases ran
        · exact .refuses q
        · rename_i vacant
          exact .becomesGsi gsi (Option.not_isSome_iff_eq_none.mp vacant)
      · rename_i plain
        split at ran
        · cases ran
        · rename_i unlocked
          split at ran <;> cases ran
          · exact .refuses q
          · rename_i vacant
            rw [not_or, Option.not_isSome_iff_eq_none] at vacant
            exact .inserts (by simpa using plain) (by simpa using unlocked) vacant.2
  | discard q =>
      cases ran
      exact .discards q
  | lookup number =>
      simp only [exec, execLookup] at ran
      split at ran
      · cases ran
      · rename_i unlocked
        split at ran
        · rename_i q known
          split at ran <;> cases ran
          · exact .misses number
          · rename_i live
            exact .finds (by simpa using unlocked) known (by simpa using live)
        · cases ran
          exact .misses number
  | check q =>
      simp only [exec, execCheck] at ran
      split at ran <;> cases ran
      · rename_i none
        exact .fails none
      · rename_i some
        exact .passes some
  | hold q =>
      cases choice
      case getLive =>
        simp only [exec, execHold, Verbs.getLive] at ran
        cases ran
        split
        · rename_i live
          exact .copies live.1
        · exact .uses q
      all_goals cases ran
      · exact .uses q
      · exact .keeps q
      · exact .drops q
      · exact .drops q
  | put q =>
      simp only [exec, execPut] at ran
      split at ran <;> cases ran
      · rename_i last
        exact .lasts last
      · rename_i others
        exact .puts others
  | wake q =>
      cases ran
      exact .wakes q
  | clear q =>
      simp only [exec] at ran
      cases ran
      split
      · rename_i here
        exact .clears here.2
      · rename_i other
        exact .passesBy fun gsi here => other ⟨gsi, here⟩
  | waitRefs q =>
      simp only [exec, execWaitRefs] at ran
      repeat' split at ran
      all_goals cases ran
      · exact .settles q
      · exact .givesUp q
  | erase q =>
      simp only [exec] at ran
      split at ran
      · rename_i gsi
        cases ran
        exact .leaves gsi
      · rename_i plain
        split at ran <;> cases ran
        rename_i unlocked
        exact .erases (by simpa using plain) (by simpa using unlocked)
  | waitZero q =>
      simp only [exec] at ran
      split at ran <;> cases ran
      rename_i zero
      exact .completes zero
  | free q =>
      cases ran
      exact .frees q

/-! ## What is kept -/

def holds (q : Nat) : Frame → Nat
  | .hold p | .put p | .clear p | .waitRefs p | .erase p => if p = q then 1 else 0
  | _ => 0

/-- The first reference, of a queue pair that nobody can find. -/
def hides (q : Nat) : Frame → Nat
  | .insert p | .discard p => if p = q then 1 else 0
  | _ => 0

/-- The creating or destroying thread. -/
def manages (q : Nat) : Frame → Nat
  | .insert p | .discard p | .clear p | .waitRefs p | .erase p | .waitZero p | .free p =>
      if p = q then 1 else 0
  | _ => 0

/-- A destroying thread that has not taken the queue pair out of the table. -/
def listed (q : Nat) : Frame → Nat
  | .clear p | .waitRefs p | .erase p => if p = q then 1 else 0
  | _ => 0

def clears (q : Nat) : Frame → Nat
  | .clear p => if p = q then 1 else 0
  | _ => 0

def freesQp (q : Nat) : Frame → Nat
  | .free p => if p = q then 1 else 0
  | _ => 0

/-- A thread inside `tbv_qp_get_by_num`. -/
def checks : Frame → Nat
  | .check _ => 1
  | _ => 0

/-- The references of a queue pair that is there. -/
def Verbs.live (v : Verbs) (q : Nat) : Nat := if v.freed.count q = 0 then (v.qps q).refs else 0

structure Sound (q : Nat) (st : System) : Prop where
  refs : st.shared.live q =
    st.shared.kept q + (st.shared.qps q).idle.toNat + st.total (holds q) + st.total (hides q)
  alone : st.total (hides q) ≠ 0 →
    st.shared.kept q + (st.shared.qps q).idle.toNat + st.total (holds q) = 0
  life : (if q < st.shared.born then 1 else 0) =
    st.shared.freed.count q + (st.shared.qps q).idle.toNat + st.total (manages q)
  fresh : st.shared.live q ≠ 0 → q < st.shared.born
  zero : (st.shared.qps q).refsZero = true → st.shared.live q = 0
  done : st.total (freesQp q) ≠ 0 → (st.shared.qps q).refsZero = true

/-- The books of all queue pairs and of the tables they are found in. -/
structure Kept (st : System) : Prop where
  sound : ∀ q, Sound q st
  named : ∀ number q, st.shared.xa number = some q → (st.shared.qps q).number = number ∧
    (st.shared.qps q).gsi = false ∧ (st.shared.qps q).idle.toNat + st.total (listed q) ≠ 0
  gsi : ∀ q, st.shared.gsiQp = some q → (st.shared.qps q).gsi = true ∧
    (st.shared.qps q).idle.toNat + st.total (clears q) ≠ 0
  lock : st.shared.xaLock.toNat = st.total checks
  checked : ∀ q, st.Has (.check q) → ∃ number, st.shared.xa number = some q

def Frame.qp : Frame → Option Nat
  | .insert q | .discard q | .check q | .hold q | .put q | .wake q | .clear q | .waitRefs q
  | .erase q | .waitZero q | .free q => some q
  | .lookup _ => none

structure Same (q : Nat) (v w : Verbs) : Prop where
  qp : w.qps q = v.qps q
  kept : w.kept q = v.kept q
  freed : w.freed.count q = v.freed.count q
  born : q < w.born ↔ q < v.born

theorem holds_about : About Frame.qp holds := by
  intro q frame apart
  cases frame <;> simp_all [Frame.qp, holds]

theorem hides_about : About Frame.qp hides := by
  intro q frame apart
  cases frame <;> simp_all [Frame.qp, hides]

theorem manages_about : About Frame.qp manages := by
  intro q frame apart
  cases frame <;> simp_all [Frame.qp, manages]

theorem freesQp_about : About Frame.qp freesQp := by
  intro q frame apart
  cases frame <;> simp_all [Frame.qp, freesQp]

theorem listed_le_holds (q : Nat) (frame : Frame) : listed q frame ≤ holds q frame := by
  cases frame <;> simp [listed, holds]

theorem clears_le_listed (q : Nat) (frame : Frame) : clears q frame ≤ listed q frame := by
  cases frame <;> simp [clears, listed]

theorem hides_le_manages (q : Nat) (frame : Frame) : hides q frame ≤ manages q frame := by
  cases frame <;> simp [hides, manages]

theorem freesQp_le_manages (q : Nat) (frame : Frame) : freesQp q frame ≤ manages q frame := by
  cases frame <;> simp [freesQp, manages]

section Books
variable {st : System} {q : Nat} {v w : Verbs} {frame : Frame} {pushed : List Frame}

theorem Same.refl (q : Nat) (v : Verbs) : Same q v v := ⟨rfl, rfl, rfl, .rfl⟩

theorem Same.modQp {p : Nat} (other : q ≠ p) (change : Qp → Qp) : Same q v (v.modQp p change) :=
  ⟨modQp_other v p change other, rfl, rfl, .rfl⟩

theorem Same.live (same : Same q v w) : w.live q = v.live q := by
  rw [Verbs.live, Verbs.live, same.freed, same.qp]

theorem live_congr (freed : w.freed = v.freed) (qps : w.qps = v.qps) : w.live q = v.live q := by
  rw [Verbs.live, Verbs.live, freed, qps]

theorem Section.born (ran : Section v frame w pushed) : w.born = v.born := by
  cases ran <;> rfl

/-- A section changes nothing for a queue pair that is not its own. -/
theorem Section.same (ran : Section v frame w pushed)
    (apart : ∀ f ∈ frame :: pushed, f.qp ≠ some q) : Same q v w := by
  cases ran with
  | refuses p | misses p | uses p | drops p | wakes p | passesBy p | settles p | leaves p
  | completes p => exact .refl q v
  | finds | fails | clears | erases => exact ⟨rfl, rfl, rfl, .rfl⟩
  | @becomesGsi p gsi none =>
      have other : q ≠ p := by simpa [Frame.qp, eq_comm] using apart
      exact ⟨modQp_other _ _ _ other, rfl, rfl, .rfl⟩
  | @inserts p plain unlocked empty =>
      have other : q ≠ p := by simpa [Frame.qp, eq_comm] using apart
      exact ⟨modQp_other _ _ _ other, rfl, rfl, .rfl⟩
  | discards p | frees p =>
      have other : q ≠ p := by simpa [Frame.qp, eq_comm] using apart
      refine ⟨rfl, rfl, ?_, .rfl⟩
      simp [Ne.symm other]
  | @passes p some =>
      have other : q ≠ p := by simpa [Frame.qp, eq_comm] using apart
      exact ⟨modQp_other _ _ _ other, rfl, rfl, .rfl⟩
  | keeps p =>
      have other : q ≠ p := by simpa [Frame.qp, eq_comm] using apart
      exact ⟨rfl, Function.update_of_ne other _ _, rfl, .rfl⟩
  | @copies p live =>
      have other : q ≠ p := by simpa [Frame.qp, eq_comm] using apart
      exact .modQp other _
  | @lasts p last =>
      have other : q ≠ p := by simpa [Frame.qp, eq_comm] using apart
      exact .modQp other _
  | @puts p others =>
      have other : q ≠ p := by simpa [Frame.qp, eq_comm] using apart
      exact .modQp other _
  | givesUp p =>
      have other : q ≠ p := by simpa [Frame.qp, eq_comm] using apart
      exact .modQp other _

/-- Books that nothing happened to. -/
theorem Sound.of_same {st' : System} (sound : Sound q st) (same : Same q st.shared st'.shared)
    (totals : ∀ weight, About Frame.qp weight → st'.total (weight q) = st.total (weight q)) :
    Sound q st' := by
  obtain ⟨refs, alone, life, fresh, zero, done⟩ := sound
  constructor
  · rwa [totals _ holds_about, totals _ hides_about, same.live, same.kept, same.qp]
  · rwa [totals _ holds_about, totals _ hides_about, same.kept, same.qp]
  · rw [totals _ manages_about]
    simpa only [same.freed, same.qp, same.born] using life
  · rwa [same.live, same.born]
  · rwa [same.qp, same.live]
  · rwa [totals _ freesQp_about, same.qp]

/-- A queue pair with references is not freed. -/
theorem Sound.counted (counted : st.shared.live q ≠ 0) :
    st.shared.freed.count q = 0 ∧ st.shared.live q = (st.shared.qps q).refs := by
  unfold Verbs.live at counted ⊢
  split
  · rename_i unfreed
    exact ⟨unfreed, rfl⟩
  · rename_i freed
    rw [if_neg freed] at counted
    exact absurd rfl counted

theorem Sound.managed (sound : Sound q st) (managing : 0 < st.total (manages q)) :
    st.shared.freed.count q = 0 ∧ (st.shared.qps q).idle = false ∧ st.total (manages q) = 1 ∧
      q < st.shared.born := by
  have life := sound.life
  have here : q < st.shared.born := by
    by_contra beyond
    rw [if_neg beyond] at life
    omega
  rw [if_pos here] at life
  have busy : (st.shared.qps q).idle.toNat = 0 := by omega
  exact ⟨by omega, by simpa using busy, by omega, here⟩

/-- What the tables lead to has a reference that is not hidden. -/
theorem Kept.reachable (kept : Kept st) {number : Nat}
    (known : st.shared.xa number = some q ∨ st.shared.gsiQp = some q) :
    (st.shared.qps q).idle.toNat + st.total (holds q) ≠ 0 := by
  have one : st.total (listed q) ≤ st.total (holds q) := State.total_le_total (listed_le_holds q)
  have two : st.total (clears q) ≤ st.total (listed q) := State.total_le_total (clears_le_listed q)
  rcases known with known | known
  · have := (kept.named number q known).2.2
    omega
  · have := (kept.gsi q known).2
    omega

/-- The books of the queue pair a section is about. -/
theorem Sound.moves {h i m f : Nat} (sound : Sound q st) (has : st.Has frame)
    (ran : Section st.shared frame v pushed)
    (target : ∃ f ∈ frame :: pushed, f.qp = some q)
    (checked : frame = .check q → (st.shared.qps q).idle.toNat + st.total (holds q) ≠ 0)
    (holding : h + holds q frame = st.total (holds q) + weigh (holds q) pushed)
    (concealing : i + hides q frame = st.total (hides q) + weigh (hides q) pushed)
    (managing : m + manages q frame = st.total (manages q) + weigh (manages q) pushed)
    (freeing : f + freesQp q frame = st.total (freesQp q) + weigh (freesQp q) pushed) :
    (v.live q = v.kept q + (v.qps q).idle.toNat + h + i ∧
      (i ≠ 0 → v.kept q + (v.qps q).idle.toNat + h = 0)) ∧
      (if q < st.shared.born then 1 else 0) = v.freed.count q + (v.qps q).idle.toNat + m ∧
      (v.live q ≠ 0 → q < st.shared.born) ∧
      ((v.qps q).refsZero = true → v.live q = 0) ∧ (f ≠ 0 → (v.qps q).refsZero = true) := by
  have holder := State.weight_le_total (holds q) has
  have hider := State.weight_le_total (hides q) has
  have manager := State.weight_le_total (manages q) has
  have managed := sound.managed
  have counted := @Sound.counted st q
  obtain ⟨refs, alone, life, fresh, zero, done⟩ := sound
  have below : st.total (hides q) ≤ st.total (manages q) :=
    State.total_le_total (hides_le_manages q)
  cases ran with
  | refuses p | uses p | drops p | wakes p | settles p =>
      obtain rfl : p = q := by simpa [Frame.qp] using target
      simp only [holds, hides, manages, freesQp, weigh_cons, weigh_nil, if_true] at *
      exact ⟨⟨by omega, by omega⟩, by omega, fresh, zero, fun freeing => done (by omega)⟩
  | @passesBy p other =>
      obtain rfl : p = q := by simpa [Frame.qp] using target
      simp only [holds, hides, manages, freesQp, weigh_cons, weigh_nil, if_true] at *
      exact ⟨⟨by omega, by omega⟩, by omega, fresh, zero, fun freeing => done (by omega)⟩
  | @leaves p gsi =>
      obtain rfl : p = q := by simpa [Frame.qp] using target
      simp only [holds, hides, manages, freesQp, weigh_cons, weigh_nil, if_true] at *
      exact ⟨⟨by omega, by omega⟩, by omega, fresh, zero, fun freeing => done (by omega)⟩
  | @completes p zeroed =>
      obtain rfl : p = q := by simpa [Frame.qp] using target
      simp only [holds, hides, manages, freesQp, weigh_cons, weigh_nil, if_true] at *
      exact ⟨⟨by omega, by omega⟩, by omega, fresh, zero, fun _ => zeroed⟩
  | misses number => simp [Frame.qp] at target
  | @finds number p unlocked known live =>
      obtain rfl : p = q := by simpa [Frame.qp] using target
      simp only [holds, hides, manages, freesQp, weigh_cons, weigh_nil] at *
      have same := live_congr (q := p) (v := st.shared) (w := { st.shared with xaLock := true }) rfl rfl
      rw [same]
      exact ⟨⟨by omega, by omega⟩, by omega, fresh, zero, fun freeing => done (by omega)⟩
  | @fails p none =>
      obtain rfl : p = q := by simpa [Frame.qp] using target
      simp only [holds, hides, manages, freesQp, weigh_nil] at *
      have same := live_congr (q := p) (v := st.shared) (w := { st.shared with xaLock := false }) rfl rfl
      rw [same]
      exact ⟨⟨by omega, by omega⟩, by omega, fresh, zero, fun freeing => done (by omega)⟩
  | @clears p gsi =>
      obtain rfl : p = q := by simpa [Frame.qp] using target
      simp only [holds, hides, manages, freesQp, weigh_cons, weigh_nil, if_true] at *
      have same := live_congr (q := p) (v := st.shared) (w := { st.shared with gsiQp := none }) rfl rfl
      rw [same]
      exact ⟨⟨by omega, by omega⟩, by omega, fresh, zero, fun freeing => done (by omega)⟩
  | @erases p plain unlocked =>
      obtain rfl : p = q := by simpa [Frame.qp] using target
      simp only [holds, hides, manages, freesQp, weigh_cons, weigh_nil, if_true] at *
      have same := live_congr (q := p) (v := st.shared)
        (w := { st.shared with xa := Function.update st.shared.xa (st.shared.qps p).number none })
        rfl rfl
      rw [same]
      exact ⟨⟨by omega, by omega⟩, by omega, fresh, zero, fun freeing => done (by omega)⟩
  | keeps p =>
      obtain rfl : p = q := by simpa [Frame.qp] using target
      simp only [holds, hides, manages, freesQp, weigh_nil, if_true] at *
      have same := live_congr (q := p) (v := st.shared)
        (w := { st.shared with kept := Function.update st.shared.kept p (st.shared.kept p + 1) })
        rfl rfl
      rw [same]
      simp only [Function.update_self]
      exact ⟨⟨by omega, by omega⟩, by omega, fresh, zero, fun freeing => done (by omega)⟩
  | @becomesGsi p gsi none =>
      obtain rfl : p = q := by simpa [Frame.qp] using target
      simp only [holds, hides, manages, freesQp, weigh_nil, if_true] at *
      obtain ⟨unfreed, busy, one, here⟩ := managed (by omega)
      obtain ⟨unfreed, live⟩ := counted (by omega)
      simp only [Verbs.live, modQp_self, modQp_freed, modQp_kept, unfreed, busy, here,
        if_true, Bool.toNat_true, Bool.toNat_false] at *
      refine ⟨⟨by omega, by omega⟩, by omega, fun _ => here, fun zeroed => ?_, fun freeing => done (by omega)⟩
      have := zero zeroed
      omega
  | @inserts p plain unlocked empty =>
      obtain rfl : p = q := by simpa [Frame.qp] using target
      simp only [holds, hides, manages, freesQp, weigh_nil, if_true] at *
      obtain ⟨unfreed, busy, one, here⟩ := managed (by omega)
      obtain ⟨unfreed, live⟩ := counted (by omega)
      simp only [Verbs.live, modQp_self, modQp_freed, modQp_kept, unfreed, busy, here,
        if_true, Bool.toNat_true, Bool.toNat_false] at *
      refine ⟨⟨by omega, by omega⟩, by omega, fun _ => here, fun zeroed => ?_, fun freeing => done (by omega)⟩
      have := zero zeroed
      omega
  | discards p =>
      obtain rfl : p = q := by simpa [Frame.qp] using target
      simp only [holds, hides, manages, freesQp, weigh_nil, if_true] at *
      obtain ⟨unfreed, busy, one, here⟩ := managed (by omega)
      simp only [Verbs.live, List.count_append, List.count_singleton_self, unfreed, busy, here,
        if_true, Bool.toNat_false] at *
      exact ⟨⟨by simp; omega, by omega⟩, by omega, fun _ => here, fun _ => by simp,
        fun freeing => done (by omega)⟩
  | frees p =>
      obtain rfl : p = q := by simpa [Frame.qp] using target
      simp only [holds, hides, manages, freesQp, weigh_nil, if_true] at *
      obtain ⟨unfreed, busy, one, here⟩ := managed (by omega)
      have zeroed := zero (done (by omega))
      simp only [Verbs.live, List.count_append, List.count_singleton_self, unfreed, busy, here,
        if_true, Bool.toNat_false] at *
      exact ⟨⟨by simp; omega, by omega⟩, by omega, fun _ => here, fun _ => by simp,
        fun freeing => done (by omega)⟩
  | @passes p some =>
      obtain rfl : p = q := by simpa [Frame.qp] using target
      have reachable := checked rfl
      simp only [holds, hides, manages, freesQp, weigh_cons, weigh_nil, if_true] at *
      obtain ⟨unfreed, live⟩ := counted (by omega)
      have here := fresh (by omega)
      simp only [Verbs.live, modQp_self, modQp_freed, modQp_kept, unfreed, if_true] at *
      refine ⟨⟨by omega, by omega⟩, by omega, fun _ => here, fun zeroed => ?_, fun freeing => done (by omega)⟩
      have := zero zeroed
      omega
  | @copies p live =>
      obtain rfl : p = q := by simpa [Frame.qp] using target
      simp only [holds, hides, manages, freesQp, weigh_cons, weigh_nil, if_true] at *
      obtain ⟨unfreed, live⟩ := counted (by omega)
      have here := fresh (by omega)
      simp only [Verbs.live, modQp_self, modQp_freed, modQp_kept, unfreed, if_true] at *
      refine ⟨⟨by omega, by omega⟩, by omega, fun _ => here, fun zeroed => ?_, fun freeing => done (by omega)⟩
      have := zero zeroed
      omega
  | @lasts p last =>
      obtain rfl : p = q := by simpa [Frame.qp] using target
      simp only [holds, hides, manages, freesQp, weigh_nil, if_true] at *
      obtain ⟨unfreed, live⟩ := counted (by omega)
      have here := fresh (by omega)
      simp only [Verbs.live, modQp_self, modQp_freed, modQp_kept, unfreed, if_true] at *
      exact ⟨⟨by omega, by omega⟩, by omega, fun _ => here, fun _ => by omega, fun _ => trivial⟩
  | @puts p others =>
      obtain rfl : p = q := by simpa [Frame.qp] using target
      simp only [holds, hides, manages, freesQp, weigh_cons, weigh_nil, if_true] at *
      obtain ⟨unfreed, live⟩ := counted (by omega)
      have here := fresh (by omega)
      simp only [Verbs.live, modQp_self, modQp_freed, modQp_kept, unfreed, if_true] at *
      refine ⟨⟨by omega, by omega⟩, by omega, fun _ => here, fun zeroed => ?_, fun freeing => done (by omega)⟩
      have := zero zeroed
      omega
  | givesUp p =>
      obtain rfl : p = q := by simpa [Frame.qp] using target
      simp only [holds, hides, manages, freesQp, weigh_nil, if_true] at *
      obtain ⟨unfreed, busy, one, here⟩ := managed (by omega)
      have same : (st.shared.modQp p fun t => { t with idle := true }).live p = st.shared.live p := by
        simp [Verbs.live]
      rw [same]
      simp only [modQp_self, modQp_kept, modQp_freed, busy, Bool.toNat_true,
        Bool.toNat_false] at *
      exact ⟨⟨by omega, by omega⟩, by omega, fresh, zero, fun freeing => done (by omega)⟩

end Books

/-! ## The tables -/

section Tables
variable {st : System} {thread q : Nat} {frame : Frame} {rest pushed : List Frame} {v w : Verbs}

theorem names_modQp {p : Nat} {change : Qp → Qp} (number : (change (v.qps p)).number = (v.qps p).number)
    (gsi : (change (v.qps p)).gsi = (v.qps p).gsi) :
    ((v.modQp p change).qps q).number = (v.qps q).number ∧
      ((v.modQp p change).qps q).gsi = (v.qps q).gsi := by
  by_cases same : q = p
  · subst same
    simp [number, gsi]
  · simp [same]

theorem idle_modQp {p : Nat} {change : Qp → Qp} (idle : (change (v.qps p)).idle = (v.qps p).idle) :
    ((v.modQp p change).qps q).idle = (v.qps q).idle := by
  by_cases same : q = p
  · subst same
    simp [idle]
  · simp [same]

theorem Section.names (ran : Section v frame w pushed) :
    (w.qps q).number = (v.qps q).number ∧ (w.qps q).gsi = (v.qps q).gsi := by
  cases ran with
  | refuses | discards | misses | finds | fails | uses | keeps | drops | wakes | clears | passesBy
  | settles | leaves | erases | completes | frees => exact ⟨rfl, rfl⟩
  | @becomesGsi p gsi none =>
      exact names_modQp (v := { v with gsiQp := some p }) rfl rfl
  | @inserts p plain unlocked empty =>
      exact names_modQp (v := { v with xa := Function.update v.xa (v.qps p).number (some p) }) rfl rfl
  | passes => exact names_modQp (v := { v with xaLock := false }) rfl rfl
  | copies | lasts | puts | givesUp => exact names_modQp rfl rfl

theorem Kept.run_named (kept : Kept st) (found : st.threads[thread]? = some (frame :: rest))
    (ran : Section st.shared frame v pushed) {number : Nat} (known : v.xa number = some q) :
    (v.qps q).number = number ∧ (v.qps q).gsi = false ∧ (v.qps q).idle.toNat +
      State.total (listed q) (⟨v, st.threads.set thread (pushed ++ rest)⟩ : System) ≠ 0 := by
  have total := @State.total_run _ _ st (listed q) _ _ _ pushed v found
  generalize State.total (listed q) (⟨v, _⟩ : System) = now at total ⊢
  rw [ran.names.1, ran.names.2]
  have named := kept.named number q
  cases ran with
  | refuses | discards | misses | finds | fails | uses | keeps | drops | wakes | completes | frees =>
      obtain ⟨same, plain, on⟩ := named known
      simp only [listed, weigh_cons, weigh_nil] at total
      exact ⟨same, plain, show (st.shared.qps q).idle.toNat + now ≠ 0 by omega⟩
  | clears | passesBy | settles =>
      obtain ⟨same, plain, on⟩ := named known
      simp only [listed, weigh_cons, weigh_nil, Nat.add_zero] at total
      exact ⟨same, plain, show (st.shared.qps q).idle.toNat + now ≠ 0 by omega⟩
  | @leaves p gsi =>
      obtain ⟨same, plain, on⟩ := named known
      have other : p ≠ q := by
        rintro rfl
        rw [gsi] at plain
        cases plain
      simp only [listed, weigh_cons, weigh_nil, if_neg other] at total
      exact ⟨same, plain, show (st.shared.qps q).idle.toNat + now ≠ 0 by omega⟩
  | @erases p vacant unlocked =>
      by_cases here : number = (st.shared.qps p).number
      · simp [here] at known
      · obtain ⟨same, plain, on⟩ := named (by simpa [here] using known)
        have other : p ≠ q := by
          rintro rfl
          exact here same.symm
        simp only [listed, weigh_cons, weigh_nil, if_neg other] at total
        exact ⟨same, plain, show (st.shared.qps q).idle.toNat + now ≠ 0 by omega⟩
  | @becomesGsi p gsi none =>
      obtain ⟨same, plain, on⟩ := named known
      have other : q ≠ p := by
        rintro rfl
        rw [gsi] at plain
        cases plain
      simp only [listed, weigh_nil] at total
      refine ⟨same, plain, ?_⟩
      rw [modQp_other _ _ _ other]
      dsimp only
      omega
  | @inserts p vacant unlocked empty =>
      simp only [listed, weigh_nil] at total
      by_cases same : q = p
      · subst same
        by_cases here : number = (st.shared.qps q).number
        · refine ⟨here.symm, vacant, ?_⟩
          simp
        · obtain ⟨same, -, -⟩ := named (by simpa [here] using known)
          exact absurd same.symm here
      · by_cases here : number = (st.shared.qps p).number
        · simp only [modQp_xa, here, Function.update_self, Option.some.injEq] at known
          exact absurd known.symm same
        · obtain ⟨named, plain, on⟩ := named (by simpa [here] using known)
          refine ⟨named, plain, ?_⟩
          rw [modQp_other _ _ _ same]
          dsimp only
          omega
  | @passes p some =>
      obtain ⟨same, plain, on⟩ := named known
      simp only [listed, weigh_cons, weigh_nil] at total
      have idle : (({ st.shared with xaLock := false }.modQp p fun t =>
          { t with refs := t.refs + 1 }).qps q).idle = (st.shared.qps q).idle :=
        idle_modQp (v := { st.shared with xaLock := false }) rfl
      rw [idle]
      exact ⟨same, plain, by omega⟩
  | @copies p live =>
      obtain ⟨same, plain, on⟩ := named known
      simp only [listed, weigh_cons, weigh_nil] at total
      rw [idle_modQp rfl]
      exact ⟨same, plain, by omega⟩
  | @lasts p last =>
      obtain ⟨same, plain, on⟩ := named known
      simp only [listed, weigh_nil] at total
      rw [idle_modQp rfl]
      exact ⟨same, plain, by omega⟩
  | @puts p others =>
      obtain ⟨same, plain, on⟩ := named known
      simp only [listed, weigh_cons, weigh_nil] at total
      rw [idle_modQp rfl]
      exact ⟨same, plain, by omega⟩
  | givesUp p =>
      obtain ⟨same, plain, on⟩ := named known
      refine ⟨same, plain, ?_⟩
      simp only [listed, weigh_nil] at total
      by_cases own : q = p
      · subst own
        simp
      · rw [if_neg (Ne.symm own)] at total
        rw [modQp_other _ _ _ own]
        omega

theorem Kept.run_gsi (kept : Kept st) (found : st.threads[thread]? = some (frame :: rest))
    (ran : Section st.shared frame v pushed) (known : v.gsiQp = some q) :
    (v.qps q).gsi = true ∧ (v.qps q).idle.toNat +
      State.total (clears q) (⟨v, st.threads.set thread (pushed ++ rest)⟩ : System) ≠ 0 := by
  have total := @State.total_run _ _ st (clears q) _ _ _ pushed v found
  generalize State.total (clears q) (⟨v, _⟩ : System) = now at total ⊢
  rw [ran.names.2]
  have gsi := kept.gsi q
  cases ran with
  | refuses | discards | misses | finds | fails | uses | keeps | drops | wakes | completes | frees
  | settles | leaves | erases =>
      obtain ⟨kind, on⟩ := gsi known
      simp only [clears, weigh_cons, weigh_nil] at total
      exact ⟨kind, show (st.shared.qps q).idle.toNat + now ≠ 0 by omega⟩
  | clears => cases known
  | @passesBy p other =>
      obtain ⟨kind, on⟩ := gsi known
      have apart : p ≠ q := by
        rintro rfl
        exact other kind known
      simp only [clears, weigh_cons, weigh_nil, if_neg apart] at total
      exact ⟨kind, by omega⟩
  | @becomesGsi p kind none =>
      obtain rfl : p = q := Option.some.inj known
      exact ⟨kind, by simp⟩
  | @inserts p plain unlocked empty =>
      obtain ⟨kind, on⟩ := gsi known
      have other : q ≠ p := by
        rintro rfl
        rw [kind] at plain
        cases plain
      simp only [clears, weigh_nil] at total
      refine ⟨kind, ?_⟩
      rw [modQp_other _ _ _ other]
      dsimp only
      omega
  | @passes p some =>
      obtain ⟨kind, on⟩ := gsi known
      simp only [clears, weigh_cons, weigh_nil] at total
      have idle : (({ st.shared with xaLock := false }.modQp p fun t =>
          { t with refs := t.refs + 1 }).qps q).idle = (st.shared.qps q).idle :=
        idle_modQp (v := { st.shared with xaLock := false }) rfl
      rw [idle]
      exact ⟨kind, by omega⟩
  | @copies p live =>
      obtain ⟨kind, on⟩ := gsi known
      simp only [clears, weigh_cons, weigh_nil] at total
      rw [idle_modQp rfl]
      exact ⟨kind, by omega⟩
  | @lasts p last =>
      obtain ⟨kind, on⟩ := gsi known
      simp only [clears, weigh_nil] at total
      rw [idle_modQp rfl]
      exact ⟨kind, by omega⟩
  | @puts p others =>
      obtain ⟨kind, on⟩ := gsi known
      simp only [clears, weigh_cons, weigh_nil] at total
      rw [idle_modQp rfl]
      exact ⟨kind, by omega⟩
  | givesUp p =>
      obtain ⟨kind, on⟩ := gsi known
      refine ⟨kind, ?_⟩
      simp only [clears, weigh_nil] at total
      by_cases own : q = p
      · subst own
        simp
      · rw [modQp_other _ _ _ own]
        omega

theorem Kept.run_lock (kept : Kept st) (found : st.threads[thread]? = some (frame :: rest))
    (ran : Section st.shared frame v pushed) :
    v.xaLock.toNat =
      State.total checks (⟨v, st.threads.set thread (pushed ++ rest)⟩ : System) := by
  have total := @State.total_run _ _ st checks _ _ _ pushed v found
  have below := State.weight_le_total checks (State.has_of_top found)
  have lock := kept.lock
  have one : st.shared.xaLock.toNat ≤ 1 := Bool.toNat_le _
  generalize State.total checks (⟨v, _⟩ : System) = now at total ⊢
  cases ran with
  | finds unlocked known live =>
      rw [unlocked, Bool.toNat_false] at lock
      simp only [checks, weigh_cons, weigh_nil] at total
      rw [Bool.toNat_true]
      omega
  | passes | fails =>
      simp only [checks, weigh_cons, weigh_nil] at total below
      simp
      omega
  | refuses | becomesGsi | inserts | discards | misses | uses | keeps | copies | drops | lasts | puts
  | wakes | clears | passesBy | settles | givesUp | leaves | erases | completes | frees =>
      simp only [checks, weigh_cons, weigh_nil] at total
      exact show st.shared.xaLock.toNat = now by omega

theorem total_checks_pos (has : st.Has (.check q)) : 0 < st.total checks :=
  Nat.lt_of_lt_of_le Nat.one_pos (State.weight_le_total checks has)

/-- While a thread is between its look and its reference, the table holds what it found. -/
theorem Kept.run_checked (kept : Kept st) (found : st.threads[thread]? = some (frame :: rest))
    (ran : Section st.shared frame v pushed)
    (has : State.Has (⟨v, st.threads.set thread (pushed ++ rest)⟩ : System) (.check q)) :
    ∃ number, v.xa number = some q := by
  have old : ∀ {q}, st.Has (.check q) → ∃ number, st.shared.xa number = some q := kept.checked _
  have locked : st.Has (.check q) → st.shared.xaLock = true := by
    intro before
    have := total_checks_pos before
    have lock := kept.lock
    rw [← Bool.toNat_eq_one]
    have := Bool.toNat_le st.shared.xaLock
    omega
  rcases State.has_of_run found has with pushed | before
  · cases ran with
    | @finds number p unlocked known live =>
        obtain rfl : q = p := by simpa using pushed
        exact ⟨number, known⟩
    | _ => simp at pushed
  · have known := old before
    cases ran with
    | inserts plain unlocked empty | erases plain unlocked =>
        rw [locked before] at unlocked
        cases unlocked
    | _ => exact known

theorem Kept.run_sound (kept : Kept st) (found : st.threads[thread]? = some (frame :: rest))
    (ran : Section st.shared frame v pushed) (q : Nat) :
    Sound q ⟨v, st.threads.set thread (pushed ++ rest)⟩ := by
  have has := State.has_of_top found
  by_cases target : ∃ f ∈ frame :: pushed, f.qp = some q
  · have total := fun weight => @State.total_run _ _ st weight _ _ _ pushed v found
    have checked : frame = .check q → (st.shared.qps q).idle.toNat + st.total (holds q) ≠ 0 := by
      rintro rfl
      obtain ⟨number, known⟩ := kept.checked q has
      exact kept.reachable (.inl known)
    obtain ⟨⟨refs, alone⟩, life, fresh, zero, done⟩ :=
      (kept.sound q).moves has ran target checked (total _) (total _) (total _) (total _)
    refine ⟨refs, alone, ?_, ?_, zero, done⟩
    · rw [ran.born]
      exact life
    · rw [ran.born]
      exact fresh
  · have apart : ∀ f ∈ frame :: pushed, f.qp ≠ some q := by
      intro f among is
      exact target ⟨f, among, is⟩
    exact (kept.sound q).of_same (ran.same apart) fun weight about => about.total_run found apart

theorem Kept.run (kept : Kept st) (found : st.threads[thread]? = some (frame :: rest))
    (ran : Section st.shared frame v pushed) :
    Kept ⟨v, st.threads.set thread (pushed ++ rest)⟩ :=
  ⟨kept.run_sound found ran, fun _ _ => kept.run_named found ran, fun _ => kept.run_gsi found ran,
    kept.run_lock found ran, fun _ => kept.run_checked found ran⟩

end Tables

/-! ## Events -/

section Events
variable {st : System} {q : Nat} {v : Verbs} {code : List Frame}

/-- No queue pair has been created under a number yet to come. -/
theorem Sound.unborn (sound : Sound q st) (beyond : st.shared.born ≤ q) :
    st.shared.freed.count q = 0 ∧ (st.shared.qps q).idle = false ∧ st.total (manages q) = 0 := by
  have life := sound.life
  rw [if_neg (Nat.not_lt.mpr beyond)] at life
  have idle : (st.shared.qps q).idle.toNat = 0 := by omega
  exact ⟨by omega, by simpa using idle, by omega⟩

/-- An event leaves the tables as they are and takes nothing out of the RDMA core's hands that the
new thread does not have. -/
theorem Kept.of_event (kept : Kept st) (sound : ∀ q, Sound q ⟨v, st.threads ++ [code]⟩)
    (xa : v.xa = st.shared.xa) (lock : v.xaLock = st.shared.xaLock)
    (gsiQp : v.gsiQp = st.shared.gsiQp) (quiet : ∀ f ∈ code, checks f = 0)
    (known : ∀ q, (st.shared.qps q).idle.toNat + st.total (holds q) ≠ 0 →
      ((v.qps q).number = (st.shared.qps q).number ∧ (v.qps q).gsi = (st.shared.qps q).gsi) ∧
        (st.shared.qps q).idle.toNat ≤ (v.qps q).idle.toNat + weigh (clears q) code) :
    Kept ⟨v, st.threads ++ [code]⟩ := by
  refine ⟨sound, fun number q there => ?_, fun q there => ?_, ?_, fun q has => ?_⟩
  · dsimp only at there ⊢
    rw [xa] at there
    obtain ⟨⟨same, kind⟩, stays⟩ := known q (kept.reachable (.inl there))
    obtain ⟨named, plain, on⟩ := kept.named number q there
    have below : weigh (clears q) code ≤ weigh (listed q) code :=
      weigh_le_weigh (clears_le_listed q)
    rw [same, kind, State.total_event]
    exact ⟨named, plain, by omega⟩
  · dsimp only at there ⊢
    rw [gsiQp] at there
    obtain ⟨⟨same, kind⟩, stays⟩ := known q (@Kept.reachable _ _ kept 0 (.inr there))
    obtain ⟨isGsi, on⟩ := kept.gsi q there
    rw [kind, State.total_event]
    exact ⟨isGsi, by omega⟩
  · rw [State.total_event, weigh_eq_zero quiet, Nat.add_zero]
    dsimp only
    rw [lock]
    exact kept.lock
  · dsimp only
    rw [xa]
    rcases State.has_of_event has with new | old
    · have := quiet _ new
      cases this
    · exact kept.checked q old

theorem Kept.create (kept : Kept st) (number : Nat) (gsi apple : Bool) :
    Kept ⟨{ st.shared with
      born := st.shared.born + 1
      qps := Function.update st.shared.qps st.shared.born { number, gsi, apple, refs := 1 } },
      st.threads ++ [[.insert st.shared.born]]⟩ := by
  have sound := kept.sound st.shared.born
  obtain ⟨unfreed, idle, unmanaged⟩ := sound.unborn (Nat.le_refl _)
  have freeing : st.total (freesQp st.shared.born) ≤ st.total (manages st.shared.born) :=
    State.total_le_total (freesQp_le_manages st.shared.born)
  have uncounted : st.shared.live st.shared.born = 0 := by
    by_contra counted
    exact Nat.lt_irrefl _ (sound.fresh counted)
  have refs := sound.refs
  rw [uncounted] at refs
  refine kept.of_event (fun q => ?_) rfl rfl rfl (by simp [checks]) fun q there => ?_
  · by_cases same : q = st.shared.born
    · subst same
      constructor <;> simp only [State.total_event, Verbs.live, Function.update_self, unfreed,
        unmanaged] <;> simp [holds, hides, manages, freesQp] <;> omega
    · refine (kept.sound q).of_same ⟨?_, rfl, rfl, ?_⟩ fun weight about => about.total_event ?_
      · simp [same]
      · simp only
        omega
      · simp [Frame.qp, Ne.symm same]
  · have other : q ≠ st.shared.born := by
      rintro rfl
      omega
    simp [other]

theorem Kept.getLive (kept : Kept st) {q : Nat}
    (there : (st.shared.qps q).idle.toNat + st.total (holds q) ≠ 0)
    (referenced : (st.shared.qps q).refs ≠ 0) :
    Kept ⟨st.shared.modQp q fun t => { t with refs := t.refs + 1 }, st.threads ++ [[.hold q]]⟩ := by
  refine kept.of_event (fun p => ?_) rfl rfl rfl (by simp [checks]) fun p _ => ?_
  · by_cases same : p = q
    · subst same
      obtain ⟨refs, alone, life, fresh, zero, done⟩ := kept.sound p
      obtain ⟨unfreed, live⟩ := @Sound.counted st p (by omega)
      have here := fresh (by omega)
      constructor <;> simp only [State.total_event, modQp_self, modQp_kept, modQp_born,
        modQp_freed, Verbs.live, unfreed, holds, hides, manages, freesQp, weigh_cons, weigh_nil, if_true,
        Nat.add_zero] at *
      · omega
      · omega
      · simpa [here] using life
      · exact fun _ => here
      · exact fun zeroed => absurd (zero zeroed) referenced
      · exact done
    · refine (kept.sound p).of_same ?_ fun weight about => about.total_event ?_
      · exact ⟨by simp [same], rfl, rfl, .rfl⟩
      · simp [Frame.qp, Ne.symm same]
  · refine ⟨names_modQp rfl rfl, ?_⟩
    rw [idle_modQp rfl]
    omega

theorem Kept.unchanged (kept : Kept st) (quiet : ∀ f ∈ code, f.qp = none) :
    Kept ⟨st.shared, st.threads ++ [code]⟩ := by
  refine kept.of_event (fun q => ?_) rfl rfl rfl (fun f among => ?_) fun q _ => ⟨⟨rfl, rfl⟩, by omega⟩
  · refine (kept.sound q).of_same (.refl q _) fun weight about => about.total_event ?_
    intro f among
    rw [quiet f among]
    simp
  · have := quiet f among
    cases f <;> first | rfl | cases this

theorem Kept.getLive_or_not (kept : Kept st) {q : Nat}
    (there : (st.shared.qps q).idle.toNat + st.total (holds q) ≠ 0) :
    Kept ⟨(st.shared.getLive q).1, st.threads ++ [(st.shared.getLive q).2]⟩ := by
  unfold Verbs.getLive
  split
  · rename_i live
    exact kept.getLive there live.2
  · exact kept.unchanged (by simp)

theorem Kept.take (kept : Kept st) {q : Nat} (some : st.shared.kept q ≠ 0) :
    Kept ⟨{ st.shared with kept := Function.update st.shared.kept q (st.shared.kept q - 1) },
      st.threads ++ [[.hold q]]⟩ := by
  refine kept.of_event (fun p => ?_) rfl rfl rfl (by simp [checks]) fun p _ => ?_
  · by_cases same : p = q
    · subst same
      obtain ⟨refs, alone, life, fresh, zero, done⟩ := kept.sound p
      have same := live_congr (q := p) (v := st.shared)
        (w := { st.shared with kept := Function.update st.shared.kept p (st.shared.kept p - 1) })
        rfl rfl
      constructor <;> simp only [State.total_event, same, Function.update_self, holds,
        hides, manages, freesQp, weigh_cons, weigh_nil, if_true, Nat.add_zero]
      · omega
      · omega
      · exact life
      · exact fresh
      · exact zero
      · exact done
    · refine (kept.sound p).of_same ⟨rfl, ?_, rfl, .rfl⟩ fun weight about => about.total_event ?_
      · simp [same]
      · simp [Frame.qp, Ne.symm same]
  · exact ⟨⟨rfl, rfl⟩, by dsimp only; omega⟩

theorem Kept.destroy (kept : Kept st) {q : Nat} (idle : (st.shared.qps q).idle = true) :
    Kept ⟨st.shared.modQp q fun t => { t with closing := true, idle := false },
      st.threads ++ [[.clear q]]⟩ := by
  refine kept.of_event (fun p => ?_) rfl rfl rfl (by simp [checks]) fun p _ => ?_
  · by_cases same : p = q
    · subst same
      obtain ⟨refs, alone, life, fresh, zero, done⟩ := kept.sound p
      rw [idle, Bool.toNat_true] at refs alone life
      have same : (st.shared.modQp p fun t => { t with closing := true, idle := false }).live p =
          st.shared.live p := by
        simp [Verbs.live]
      constructor <;> simp only [State.total_event, same, modQp_self, modQp_kept, modQp_freed,
        Bool.toNat_false, holds, hides, manages, freesQp, weigh_cons, weigh_nil, if_true, Nat.add_zero]
      · omega
      · omega
      · rw [modQp_born]
        omega
      · exact fresh
      · exact zero
      · exact done
    · refine (kept.sound p).of_same ?_ fun weight about => about.total_event ?_
      · exact ⟨by simp [same], rfl, rfl, .rfl⟩
      · simp [Frame.qp, Ne.symm same]
  · refine ⟨names_modQp rfl rfl, ?_⟩
    by_cases same : p = q
    · subst same
      simp [clears, idle]
    · simp [same, clears]

theorem Kept.event (kept : Kept st) {event : Event}
    (reacted : react st.shared event = some (v, code)) : Kept ⟨v, st.threads ++ [code]⟩ := by
  cases event with
  | create number gsi apple =>
      cases reacted
      exact kept.create number gsi apple
  | frame number =>
      cases reacted
      exact kept.unchanged (by simp [Frame.qp])
  | mad =>
      simp only [react] at reacted
      split at reacted
      · rename_i q known
        have same := Option.some.inj reacted
        have there := kept.getLive_or_not (@Kept.reachable _ _ kept 0 (.inr known))
        rwa [same] at there
      · cases reacted
        exact kept.unchanged (by simp)
  | post q =>
      simp only [react] at reacted
      split at reacted
      · rename_i idle
        have same := Option.some.inj reacted
        have there : Kept ⟨(st.shared.getLive q).1, st.threads ++ [(st.shared.getLive q).2]⟩ := by
          refine kept.getLive_or_not ?_
          rw [idle, Bool.toNat_true]
          omega
        rwa [same] at there
      · cases reacted
  | take q =>
      simp only [react] at reacted
      split at reacted <;> cases reacted
      rename_i some
      exact kept.take some
  | destroy q =>
      simp only [react] at reacted
      split at reacted <;> cases reacted
      rename_i idle
      exact kept.destroy idle

end Events

/-! ## Runs -/

theorem kept_start : Kept start := by
  refine ⟨fun q => ⟨rfl, ?_, rfl, ?_, ?_, ?_⟩, ?_, ?_, rfl, ?_⟩
  · intro hidden
    exact absurd rfl hidden
  · intro counted
    exact absurd rfl counted
  · rintro ⟨⟩
  · intro freeing
    exact absurd rfl freeing
  · rintro number q ⟨⟩
  · rintro q ⟨⟩
  · rintro q ⟨code, among, -⟩
    cases among

theorem Kept.step {st st' : System} {label : Label Event Choice} (kept : Kept st)
    (stepped : step st label = some st') : Kept st' := by
  cases label with
  | event event =>
      obtain ⟨v, code, reacted, rfl⟩ := step_event stepped
      exact kept.event reacted
  | run thread choice =>
      obtain ⟨frame, rest, v, pushed, found, ran, rfl⟩ := step_run stepped
      exact kept.run found (exec_section ran)

theorem kept_of_reaches {st : System} (reached : Reaches step (fun _ _ => True) start st) :
    Kept st := by
  refine reached.invariant kept_start ?_
  intro st label st' kept _ stepped
  exact kept.step stepped

section Closing
variable {st : System} {q count : Nat} {v w : Verbs} {frame : Frame} {pushed code : List Frame}

/-- No new reference on a queue pair that is closing. -/
def Falls (q : Nat) (v w : Verbs) : Prop :=
  (w.qps q).closing = true ∧ (w.qps q).refs ≤ (v.qps q).refs

theorem Falls.of_same (closing : (v.qps q).closing = true) (same : w.qps q = v.qps q) :
    Falls q v w := by
  rw [Falls, same]
  exact ⟨closing, Nat.le_refl _⟩

theorem Falls.modQp {p : Nat} {change : Qp → Qp} (closing : (v.qps q).closing = true)
    (changed : p = q → (change (v.qps p)).closing = true ∧ (change (v.qps p)).refs ≤ (v.qps p).refs) :
    Falls q v (v.modQp p change) := by
  by_cases own : q = p
  · subst own
    rw [Falls, modQp_self]
    exact changed rfl
  · exact .of_same closing (modQp_other _ _ _ own)

theorem Section.falls (ran : Section v frame w pushed) (closing : (v.qps q).closing = true)
    (unseen : frame ≠ .check q) : Falls q v w := by
  cases ran with
  | refuses | discards | misses | finds | fails | uses | keeps | drops | wakes | clears | passesBy
  | settles | leaves | erases | completes | frees => exact .of_same closing rfl
  | @becomesGsi p gsi none =>
      refine Falls.modQp (v := { v with gsiQp := some p }) closing ?_
      rintro rfl
      exact ⟨closing, Nat.le_refl _⟩
  | @inserts p plain unlocked empty =>
      refine Falls.modQp
        (v := { v with xa := Function.update v.xa (v.qps p).number (some p) }) closing ?_
      rintro rfl
      exact ⟨closing, Nat.le_refl _⟩
  | @passes p some =>
      have other : q ≠ p := by
        rintro rfl
        exact unseen rfl
      exact .of_same closing (modQp_other _ _ _ other)
  | @copies p live =>
      have other : q ≠ p := by
        rintro rfl
        rw [closing] at live
        cases live
      exact .of_same closing (modQp_other _ _ _ other)
  | @lasts p last =>
      refine Falls.modQp closing ?_
      rintro rfl
      exact ⟨closing, Nat.sub_le _ _⟩
  | @puts p others =>
      refine Falls.modQp closing ?_
      rintro rfl
      exact ⟨closing, Nat.sub_le _ _⟩
  | givesUp p =>
      refine Falls.modQp closing ?_
      rintro rfl
      exact ⟨closing, Nat.le_refl _⟩

theorem born_getLive (v : Verbs) (p : Nat) : (v.getLive p).1.born = v.born := by
  unfold Verbs.getLive
  split <;> rfl

theorem getLive_checks (v : Verbs) (p : Nat) : Frame.check q ∉ (v.getLive p).2 := by
  unfold Verbs.getLive
  split <;> simp

theorem react_checks {event : Event} (reacted : react v event = some (w, code)) :
    Frame.check q ∉ code := by
  cases event with
  | create number gsi apple =>
      cases reacted
      simp
  | frame number =>
      cases reacted
      simp
  | mad =>
      simp only [react, Option.some.injEq] at reacted
      split at reacted
      · rename_i p known
        have none := getLive_checks (q := q) v p
        rwa [reacted] at none
      · cases reacted
        simp
  | post p =>
      simp only [react] at reacted
      split at reacted
      · have none := getLive_checks (q := q) v p
        rwa [Option.some.inj reacted] at none
      · cases reacted
  | take p | destroy p =>
      simp only [react] at reacted
      split at reacted <;> cases reacted
      simp

theorem Falls.getLive (closing : (v.qps q).closing = true) (p : Nat) : Falls q v (v.getLive p).1 := by
  unfold Verbs.getLive
  split
  · rename_i live
    have other : q ≠ p := by
      rintro rfl
      rw [closing] at live
      cases live.1
    refine .of_same closing ?_
    simp [other]
  · exact .of_same closing rfl

theorem react_falls {event : Event} (reacted : react v event = some (w, code)) (born : q < v.born)
    (closing : (v.qps q).closing = true) : Falls q v w ∧ q < w.born := by
  cases event with
  | create number gsi apple =>
      cases reacted
      refine ⟨.of_same closing ?_, Nat.lt_succ_of_lt born⟩
      exact Function.update_of_ne (Nat.ne_of_lt born) _ _
  | frame number =>
      cases reacted
      exact ⟨.of_same closing rfl, born⟩
  | mad =>
      simp only [react, Option.some.injEq] at reacted
      split at reacted
      · rename_i p known
        obtain rfl : (v.getLive p).1 = w := by rw [reacted]
        refine ⟨.getLive closing p, ?_⟩
        rwa [born_getLive]
      · cases reacted
        exact ⟨.of_same closing rfl, born⟩
  | post p =>
      simp only [react] at reacted
      split at reacted
      · obtain rfl : (v.getLive p).1 = w := by rw [Option.some.inj reacted]
        refine ⟨.getLive closing p, ?_⟩
        rwa [born_getLive]
      · cases reacted
  | take p =>
      simp only [react] at reacted
      split at reacted <;> cases reacted
      exact ⟨.of_same closing rfl, born⟩
  | destroy p =>
      simp only [react] at reacted
      split at reacted <;> cases reacted
      refine ⟨.modQp closing ?_, born⟩
      rintro rfl
      exact ⟨rfl, Nat.le_refl _⟩

/-- A queue pair that is being closed and that no lookup is about to take. -/
structure Closed (q count : Nat) (st : System) : Prop where
  born : q < st.shared.born
  closing : (st.shared.qps q).closing = true
  refs : (st.shared.qps q).refs ≤ count
  unseen : ¬ st.Has (.check q)

theorem Closed.step {st' : System} {label : Label Event Choice} (closed : Closed q count st)
    (stepped : step st label = some st') : Closed q count st' := by
  obtain ⟨born, closing, refs, unseen⟩ := closed
  cases label with
  | event event =>
      obtain ⟨v, code, reacted, rfl⟩ := step_event stepped
      obtain ⟨⟨stays, falls⟩, later⟩ := react_falls reacted born closing
      refine ⟨later, stays, Nat.le_trans falls refs, fun has => ?_⟩
      rcases State.has_of_event has with new | old
      · exact react_checks reacted new
      · exact unseen old
  | run thread choice =>
      obtain ⟨frame, rest, v, pushed, found, ran, rfl⟩ := step_run stepped
      have sect := exec_section ran
      have other : frame ≠ .check q := by
        rintro rfl
        exact unseen (State.has_of_top found)
      obtain ⟨stays, falls⟩ := sect.falls closing other
      refine ⟨?_, stays, Nat.le_trans falls refs, fun has => ?_⟩
      · dsimp only
        rwa [sect.born]
      rcases State.has_of_run found has with new | old
      · cases sect with
        | @finds number p unlocked known live =>
            obtain rfl : q = p := by simpa using new
            rw [closing] at live
            cases live
        | _ => simp at new
      · exact unseen old

end Closing

section Runs
variable {st : System} {q : Nat}

theorem Sound.in_hand (sound : Sound q st) {frame : Frame} (has : st.Has frame)
    (own : frame.qp = some q) (awake : frame ≠ .wake q) (looked : frame ≠ .check q) :
    q ∉ st.shared.freed := by
  have holding := State.weight_le_total (holds q) has
  have managing := State.weight_le_total (manages q) has
  have some : 0 < st.total (holds q) ∨ 0 < st.total (manages q) := by
    cases frame <;> simp_all [Frame.qp, holds, manages] <;> omega
  rw [← List.count_eq_zero]
  rcases some with held | managed
  · have refs := sound.refs
    exact (@Sound.counted st q (by omega)).1
  · exact (sound.managed managed).1

theorem Sound.referenced (sound : Sound q st)
    (user : st.shared.kept q + (st.shared.qps q).idle.toNat + st.total (holds q) ≠ 0) :
    q ∉ st.shared.freed ∧ (st.shared.qps q).refs ≠ 0 := by
  have refs := sound.refs
  have counted : st.shared.live q ≠ 0 := by omega
  obtain ⟨unfreed, live⟩ := @Sound.counted st q counted
  refine ⟨List.count_eq_zero.mp unfreed, ?_⟩
  rwa [live] at counted

end Runs

/-- A queue pair outlives everybody who works on it and goes once.  What may come late is the
`wake_up_all` of a put that was not the last: the destroying thread sees the count before it. -/
theorem queue_pairs_outlive_their_users {st : System}
    (reached : Reaches step (fun _ _ => True) start st) :
    (∀ frame q, st.Has frame → frame.qp = some q → frame ≠ .wake q → q ∉ st.shared.freed) ∧
      (∀ q, st.Has (.hold q) ∨ st.shared.kept q ≠ 0 ∨ (∃ number, st.shared.xa number = some q) ∨
          st.shared.gsiQp = some q →
        q ∉ st.shared.freed ∧ (st.shared.qps q).refs ≠ 0) ∧
      st.shared.freed.Nodup ∧
      (∀ q < st.shared.born, (st.shared.qps q).closing = true → ¬ st.Has (.check q) →
        ∀ later, Reaches step (fun _ _ => True) st later →
          (later.shared.qps q).closing = true ∧
            (later.shared.qps q).refs ≤ (st.shared.qps q).refs) ∧
      ((∀ code ∈ st.threads, code = []) → ∀ q < st.shared.born,
        q ∈ st.shared.freed ↔ (st.shared.qps q).idle = false) := by
  have kept := kept_of_reaches reached
  refine ⟨fun frame q has own awake => ?_, fun q user => ?_, ?_, ?_, fun quiet q born => ?_⟩
  · by_cases looking : frame = .check q
    · subst looking
      obtain ⟨number, known⟩ := kept.checked q has
      have there := kept.reachable (.inl known)
      exact ((kept.sound q).referenced (by omega)).1
    · exact (kept.sound q).in_hand has own awake looking
  · refine (kept.sound q).referenced ?_
    rcases user with has | some | ⟨number, known⟩ | known
    · have := State.weight_le_total (holds q) has
      simp only [holds, if_true] at this
      omega
    · omega
    · have there := kept.reachable (.inl known)
      omega
    · have there := @Kept.reachable _ _ kept 0 (.inr known)
      omega
  · rw [List.nodup_iff_count]
    intro q
    have life := (kept.sound q).life
    have one : (if q < st.shared.born then 1 else 0) ≤ 1 := by split <;> omega
    omega
  · intro q born closing unseen later further
    have closed : Closed q (st.shared.qps q).refs later := by
      refine further.invariant ⟨born, closing, Nat.le_refl _, unseen⟩ ?_
      intro st label st' closed _ stepped
      exact closed.step stepped
    exact ⟨closed.closing, closed.refs⟩
  · have life := (kept.sound q).life
    rw [State.total_quiet _ quiet, if_pos born] at life
    rw [← List.count_pos_iff]
    cases idle : (st.shared.qps q).idle with
    | true =>
        rw [idle, Bool.toNat_true] at life
        simp only [Bool.true_eq_false, iff_false]
        omega
    | false =>
        rw [idle, Bool.toNat_false] at life
        simp only [iff_true]
        omega

/-- A queue pair destroyed while a frame for it is on its way. -/
def lateFrame : List (Label Event Choice) :=
  [.event (.create 7 false false), .run 0 .use, .event (.frame 7), .run 1 .use, .run 1 .use,
    .event (.destroy 0), .run 2 .use, .run 1 .drop, .run 1 .use, .run 2 .use, .run 2 .use, .run 2 .use,
    .run 2 .use, .run 2 .use]

theorem queue_pairs_outlive_their_users_late : ∃ st,
    run step lateFrame start = some st ∧ 0 ∈ st.shared.freed ∧ st.shared.freed.Nodup := by
  have ran : (run step lateFrame start).isSome := by decide
  obtain ⟨st, is⟩ := Option.isSome_iff_exists.mp ran
  have freed : (run step lateFrame start).map (fun st => st.shared.freed) = some [0] := by decide
  rw [is] at freed
  have only : st.shared.freed = [0] := Option.some.inj freed
  exact ⟨st, is, only ▸ List.mem_singleton_self 0,
    (queue_pairs_outlive_their_users (reaches_of_run_free is)).2.2.1⟩

/-- The late wake-up: the first thread has freed nothing and still has to wake the queue. -/
example : (run step lateFrame start).map (fun st => (st.shared.freed, st.threads[1]?)) =
    some ([0], some [.wake 0]) := by
  decide

end Tbv.QueuePairs
