import Mathlib.Data.List.Induction
import ThunderboltIbverbs.Memory.Segments
import ThunderboltIbverbs.Recv.Model

/-! # What the wire can do to memory

The copies of RDMA WRITEs, READ snapshots, receives, sends and READ responses while regions come
and go and the programs use their own memory.  A lookup by key takes a reference and drops the
lock, so the copies go to the region that was registered then.  Seen through the page tables they
touch the registered bytes of one process and nothing else. -/
set_option autoImplicit false
namespace Tbv.Umem

open Scatter
open Tbv.RecvQueue (RecvWqe)

/-- A receive that `tbv_validate_recv_sge` has let pass. -/
structure PostedWqe extends RecvWqe where
  fits : length ≠ 0 → addr + length < 2 ^ 64

/-- What a handler of the wire looks up one region for. -/
inductive Request where
  /-- The copy of `tbv_rx_handle_rdma_write_fragment`. -/
  | rdmaWrite (rkey remoteAddr copyOffset : Nat) (payload : List UInt8)
  /-- The copies of a buffered WRITE that is delivered whole. -/
  | rdmaWriteMsg (rkey remoteAddr : Nat) (frags : List (Nat × List UInt8))
  /-- `tbv_read_req_workfn`, up to the snapshot of `tbv_read_resp_ctx_alloc`. -/
  | rdmaRead (alloc : Bool) (rkey remoteAddr len : Nat)
  /-- `tbv_rx_copy_to_wqe`. -/
  | recv (wqe : PostedWqe) (offset : Nat) (payload : List UInt8)

def Request.key : Request → Nat
  | .rdmaWrite rkey _ _ _ | .rdmaWriteMsg rkey _ _ | .rdmaRead _ rkey _ _ => rkey
  | .recv wqe _ _ => wqe.lkey

/-- What holds regions: a handler behind its `tbv_mr_get`, a post in the loop of
`tbv_prepare_send_segments`, a posted send, a posted READ. -/
inductive Job (spaces : Spaces) where
  | wire (request : Request) (mr : Option (Region spaces))
  | preparing (segs : List (Segment spaces))
  | sending (segs : List (Segment spaces))
  | reading (segs : List (ReadSegment spaces))

/-- The keys in `verbs_mrs_xa`, memory, and who holds regions. -/
structure World (spaces : Spaces) where
  mrs : Nat → Option (Region spaces)
  mem : Nat → UInt8
  jobs : Nat → Option (Job spaces)

/-- Nobody holds a region yet. -/
def World.fresh {spaces : Spaces} (mrs : Nat → Option (Region spaces)) (mem : Nat → UInt8) :
    World spaces :=
  ⟨mrs, mem, fun _ => none⟩

inductive Access (spaces : Spaces) where
  /-- `tbv_mr_publish`. -/
  | publish (key : Nat) (region : Region spaces)
  /-- `tbv_dereg_mr`. -/
  | dereg (key : Nat)
  /-- `tbv_mr_get` of a handler, and what it does with the region. -/
  | lookup (job : Nat) (request : Request)
  | copy (job : Nat)
  /-- `tbv_prepare_send_segments`, one SGE after the other. -/
  | post (job : Nat)
  | sge (job maxMsgSize : Nat) (sge : Sge)
  | postSend (job : Nat)
  | postRead (job : Nat)
  /-- `tbv_copy_send_range` for a frame of a send. -/
  | gather (job offset len : Nat)
  /-- `tbv_copy_to_read_segments` for a fragment of a READ response. -/
  | scatter (job offset : Nat) (payload : List UInt8)
  /-- The last `tbv_mr_put` of a job. -/
  | release (job : Nat)
  /-- A program stores a byte in its own memory. -/
  | own (process addr : Nat) (byte : UInt8)

section Machine
variable {spaces : Spaces}

/-! ## The handlers, behind the lookup -/

/-- How much of a fragment a receive buffer takes. -/
def copyLen (wqe : RecvWqe) (offset : Nat) (payload : List UInt8) : Nat :=
  if offset < wqe.length then min payload.length (wqe.length - offset) else 0

/-- The copy at the end of `tbv_rx_handle_rdma_write_fragment`. -/
def writeFragment (copies : Copies spaces) (mr : Option (Region spaces))
    (remoteAddr copyOffset : Nat) (payload : List UInt8) : Except Errno (List Store) :=
  if payload.length = 0 then .ok []
  else if 2 ^ 64 ≤ remoteAddr + copyOffset then .error .einval
  else
    match mr with
    | none => .error .einval
    | some region =>
        if region.mr.remoteWrite = false then .error .eacces
        else copies.copyToIova region (remoteAddr + copyOffset) payload

/-- The loop over the fragments of a WRITE that is delivered whole. -/
def writeFrags (copies : Copies spaces) (region : Region spaces) (remoteAddr : Nat) :
    List (Nat × List UInt8) → Outcome
  | [] => ([], .ok [])
  | (offset, data) :: rest =>
      if 2 ^ 64 ≤ remoteAddr + offset then ([], .error .einval)
      else
        match copies.copyToIova region (remoteAddr + offset) data with
        | .error err => ([], .error err)
        | .ok stores =>
            let later := writeFrags copies region remoteAddr rest
            (stores ++ later.1, later.2)

def writeMsg (copies : Copies spaces) (mr : Option (Region spaces)) (remoteAddr : Nat)
    (frags : List (Nat × List UInt8)) : Outcome :=
  match mr with
  | none => ([], .error .einval)
  | some region =>
      if region.mr.remoteWrite = false then ([], .error .eacces)
      else writeFrags copies region remoteAddr frags

def copyToWqe (copies : Copies spaces) (mr : Option (Region spaces)) (wqe : RecvWqe)
    (offset : Nat) (payload : List UInt8) : Except Errno (List Store) :=
  let len := copyLen wqe offset payload
  if len = 0 then .ok []
  else
    match mr with
    | none => .error .einval
    | some region => copies.copyTo region ((wqe.addr + offset) % 2 ^ 64) (payload.take len)

def snapshot (copies : Copies spaces) (memory : Nat → UInt8) (mr : Option (Region spaces))
    (alloc : Bool) (remoteAddr len : Nat) : Except Errno (List UInt8) :=
  match mr with
  | none => .error .eacces
  | some region =>
      if region.mr.remoteRead = false then .error .eacces
      else if NativeData.maxMsgSize < len then .error .emsgsize
      else
        (umemIovaToAddr region.mr remoteAddr len).bind fun _ =>
          if len = 0 then .ok []
          else if alloc = false then .error .enomem
          else copies.copyFromIova memory region remoteAddr len

/-- What a handler does with the region it has found. -/
def Request.serve (copies : Copies spaces) (memory : Nat → UInt8) (mr : Option (Region spaces)) :
    Request → Outcome
  | .rdmaWrite _ remoteAddr copyOffset payload =>
      .of (writeFragment copies mr remoteAddr copyOffset payload)
  | .rdmaWriteMsg _ remoteAddr frags => writeMsg copies mr remoteAddr frags
  | .rdmaRead alloc _ remoteAddr len => ([], snapshot copies memory mr alloc remoteAddr len)
  | .recv wqe offset payload => .of (copyToWqe copies mr wqe.toRecvWqe offset payload)

/-! ## The steps -/

/-- What an access stores and answers; without the job that it names it does nothing. -/
def World.outcome (copies : Copies spaces) (world : World spaces) : Access spaces → Outcome
  | .publish key _ => ([], if (world.mrs key).isSome then .error .ebusy else .ok [])
  | .copy job =>
      match world.jobs job with
      | some (.wire request mr) => request.serve copies world.mem mr
      | _ => ([], .ok [])
  | .sge job maxMsgSize sge =>
      match world.jobs job with
      | some (.preparing segs) =>
          ([], (prepareSendSegment maxMsgSize segs sge (world.mrs sge.lkey)).map fun _ => [])
      | _ => ([], .ok [])
  | .postRead job =>
      match world.jobs job with
      | some (.preparing segs) => ([], (readSegments segs).map fun _ => [])
      | _ => ([], .ok [])
  | .gather job offset len =>
      match world.jobs job with
      | some (.sending segs) => ([], copySendRange copies world.mem segs offset len)
      | _ => ([], .ok [])
  | .scatter job offset payload =>
      match world.jobs job with
      | some (.reading segs) => copyToReadSegments copies segs offset payload
      | _ => ([], .ok [])
  | .own process addr byte => ([(spaces.place process addr, byte)], .ok [])
  | .dereg _ | .lookup .. | .post _ | .postSend _ | .release _ => ([], .ok [])

def World.keys (world : World spaces) : Access spaces → Nat → Option (Region spaces)
  | .publish key region =>
      if (world.mrs key).isSome then world.mrs else Function.update world.mrs key (some region)
  | .dereg key => Function.update world.mrs key none
  | _ => world.mrs

def World.job (world : World spaces) : Access spaces → Option (Nat × Option (Job spaces))
  | .lookup job request => some (job, some (.wire request (world.mrs request.key)))
  | .copy job | .release job => some (job, none)
  | .post job => some (job, some (.preparing []))
  | .sge job maxMsgSize sge =>
      match world.jobs job with
      | some (.preparing segs) => some (job,
          (prepareSendSegment maxMsgSize segs sge (world.mrs sge.lkey)).toOption.map .preparing)
      | _ => none
  | .postSend job =>
      match world.jobs job with
      | some (.preparing segs) => some (job, some (.sending segs))
      | _ => none
  | .postRead job =>
      match world.jobs job with
      | some (.preparing segs) => some (job, (readSegments segs).toOption.map .reading)
      | _ => none
  | .publish .. | .dereg _ | .gather .. | .scatter .. | .own .. => none

def World.step (copies : Copies spaces) (world : World spaces) (access : Access spaces) :
    World spaces where
  mrs := world.keys access
  mem := put world.mem (world.outcome copies access).1
  jobs :=
    match world.job access with
    | some (job, after) => Function.update world.jobs job after
    | none => world.jobs

/-- The answers to a sequence of accesses, and the world it leaves. -/
def World.run (copies : Copies spaces) :
    World spaces → List (Access spaces) → List (Except Errno (List UInt8)) × World spaces
  | world, [] => ([], world)
  | world, access :: rest =>
      let later := (world.step copies access).run copies rest
      ((world.outcome copies access).2 :: later.1, later.2)

/-! ## Where an access may store -/

/-- The byte is in the region, and in the part of it that the WRITE addresses. -/
def Region.AtIova (region : Region spaces) (iova len place : Nat) : Prop :=
  region.mr.remoteWrite = true ∧
    ∃ at', iova ≤ at' ∧ at' < iova + len ∧ region.mr.virtAddr ≤ at' ∧
      at' < region.mr.virtAddr + region.mr.length ∧
      place = spaces.place region.process (region.mr.start + (at' - region.mr.virtAddr))

def Request.Covers (region : Region spaces) (place : Nat) : Request → Prop
  | .rdmaWrite _ remoteAddr copyOffset payload =>
      region.AtIova (remoteAddr + copyOffset) payload.length place
  | .rdmaWriteMsg _ remoteAddr frags =>
      ∃ frag ∈ frags, region.AtIova (remoteAddr + frag.1) frag.2.length place
  | .rdmaRead .. => False
  | .recv wqe _ _ =>
      ∃ addr, wqe.addr ≤ addr ∧ addr < wqe.addr + wqe.length ∧ region.mr.start ≤ addr ∧
        addr < region.mr.start + region.mr.length ∧ place = spaces.place region.process addr

def World.MayStore (world : World spaces) (key : Nat) (region : Region spaces) (place : Nat) :
    Access spaces → Prop
  | .copy job => ∃ request, world.jobs job = some (.wire request (some region)) ∧
      request.key = key ∧ request.Covers region place
  | .scatter job _ _ => ∃ segs seg, world.jobs job = some (.reading segs) ∧ seg ∈ segs ∧
      seg.lkey = key ∧ seg.region = region ∧ seg.Covers place
  | _ => False

def Job.Holds (key : Nat) (region : Region spaces) : Job spaces → Prop
  | .wire request mr => request.key = key ∧ mr = some region
  | .preparing segs | .sending segs => ∃ seg ∈ segs, seg.lkey = key ∧ seg.region = region
  | .reading segs => ∃ seg ∈ segs, seg.lkey = key ∧ seg.region = region

/-! ## One access -/

section Step
variable {world : World spaces} {key place : Nat} {region : Region spaces} {store : Store}

theorem mem_of {done : Except Errno (List Store)} (among : store ∈ (Outcome.of done).1) :
    ∃ stores, done = .ok stores ∧ store ∈ stores := by
  cases done with
  | error err => cases among
  | ok stores => exact ⟨stores, rfl, among⟩

theorem copyToIova_inside {iova : Nat} {bytes : List UInt8} {stores : List Store}
    (writable : region.mr.remoteWrite = true)
    (done : paged.copyToIova region iova bytes = .ok stores) (among : store ∈ stores) :
    region.AtIova iova bytes.length store.1 := by
  simp only [paged] at done
  split at done
  · cases done
    cases among
  · cases here : umemIovaToAddr region.mr iova bytes.length with
    | error err =>
        rw [here] at done
        cases done
    | ok addr =>
        rw [here] at done
        cases done
        obtain ⟨-, above, below, rfl⟩ := Region.iovaToAddr here
        obtain ⟨byte, low, high, place⟩ := mem_zip_places among
        refine ⟨writable, region.mr.virtAddr + (byte - region.mr.start), by omega, by omega,
          by omega, by omega, ?_⟩
        rw [← place]
        congr 1
        omega

theorem writeFrags_inside {remoteAddr : Nat} {frags : List (Nat × List UInt8)}
    (writable : region.mr.remoteWrite = true)
    (among : store ∈ (writeFrags paged region remoteAddr frags).1) :
    ∃ frag ∈ frags, region.AtIova (remoteAddr + frag.1) frag.2.length store.1 := by
  induction frags with
  | nil => cases among
  | cons frag rest ih =>
      unfold writeFrags at among
      split at among
      · cases among
      cases done : paged.copyToIova region (remoteAddr + frag.1) frag.2 with
      | error err =>
          rw [done] at among
          cases among
      | ok stores =>
          rw [done] at among
          rcases List.mem_append.mp among with mine | theirs
          · exact ⟨frag, List.mem_cons_self .., copyToIova_inside writable done mine⟩
          · obtain ⟨later, inside, at'⟩ := ih theirs
            exact ⟨later, List.mem_cons_of_mem _ inside, at'⟩

theorem copyLen_le (wqe : RecvWqe) (offset : Nat) (payload : List UInt8) :
    copyLen wqe offset payload ≤ payload.length ∧
      (copyLen wqe offset payload ≠ 0 → offset + copyLen wqe offset payload ≤ wqe.length) := by
  unfold copyLen
  split <;> omega

theorem copyToWqe_inside {wqe : PostedWqe} {offset : Nat} {payload : List UInt8}
    {mr : Option (Region spaces)} {stores : List Store}
    (done : copyToWqe paged mr wqe.toRecvWqe offset payload = .ok stores)
    (among : store ∈ stores) :
    ∃ region, mr = some region ∧ Request.Covers region store.1 (.recv wqe offset payload) := by
  obtain ⟨short, within⟩ := copyLen_le wqe.toRecvWqe offset payload
  unfold copyToWqe at done
  dsimp only at done
  split at done
  · cases done
    cases among
  rename_i nonempty
  have within := within nonempty
  have fits := wqe.fits (by omega)
  rw [Nat.mod_eq_of_lt (by omega)] at done
  cases mr with
  | none => cases done
  | some region =>
      obtain ⟨byte, low, high, above, below, place⟩ := copyTo_inside done among
      rw [List.length_take] at high
      exact ⟨region, rfl, byte, by omega, by omega, above, below, place.symm⟩

theorem serve_inside {request : Request} {memory : Nat → UInt8} {mr : Option (Region spaces)}
    (among : store ∈ (request.serve paged memory mr).1) :
    ∃ region, mr = some region ∧ request.Covers region store.1 := by
  cases request with
  | rdmaWrite rkey remoteAddr copyOffset payload =>
      obtain ⟨stores, done, inside⟩ := mem_of among
      unfold writeFragment at done
      split at done
      · cases done
        cases inside
      split at done
      · cases done
      cases mr with
      | none => cases done
      | some region =>
          dsimp only at done
          split at done
          · cases done
          rename_i writable
          exact ⟨region, rfl, copyToIova_inside (by simpa using writable) done inside⟩
  | rdmaWriteMsg rkey remoteAddr frags =>
      unfold Request.serve writeMsg at among
      cases mr with
      | none => cases among
      | some region =>
          dsimp only at among
          split at among
          · cases among
          rename_i writable
          exact ⟨region, rfl, writeFrags_inside (by simpa using writable) among⟩
  | rdmaRead alloc rkey remoteAddr len => cases among
  | recv wqe offset payload =>
      obtain ⟨stores, done, inside⟩ := mem_of among
      exact copyToWqe_inside done inside

/-- Memory changes only where the program of the byte stores, or where a job may. -/
theorem step_inside (access : Access spaces)
    (changed : (world.step paged access).mem place ≠ world.mem place) :
    (∃ process addr byte, access = .own process addr byte ∧ place = spaces.place process addr) ∨
      ∃ key region, world.MayStore key region place access := by
  by_contra never
  apply changed
  apply put_other
  rintro store among rfl
  apply never
  cases access with
  | own process addr byte =>
      rw [List.mem_singleton.mp among]
      exact .inl ⟨process, addr, byte, rfl, rfl⟩
  | copy job =>
      unfold World.outcome at among
      dsimp only at among
      split at among
      · rename_i request mr found
        obtain ⟨region, rfl, covers⟩ := serve_inside among
        exact .inr ⟨request.key, region, request, found, rfl, covers⟩
      · cases among
  | scatter job offset payload =>
      unfold World.outcome at among
      dsimp only at among
      split at among
      · rename_i segs found
        obtain ⟨seg, inside, covers⟩ := copyToReadSegments_inside among
        exact .inr ⟨seg.lkey, seg.region, segs, seg, found, inside, rfl, rfl, covers⟩
      · cases among
  | sge job maxMsgSize sge | postRead job | gather job offset len =>
      unfold World.outcome at among
      dsimp only at among
      split at among <;> cases among
  | _ => cases among

/-- The job that an access leaves holds what the job before held, or what the lookup has found. -/
theorem job_holds {access : Access spaces} {id : Nat} {job : Job spaces}
    (named : world.job access = some (id, some job)) (holds : job.Holds key region) :
    (∃ job, world.jobs id = some job ∧ job.Holds key region) ∨ world.mrs key = some region := by
  cases access with
  | lookup other request =>
      cases named
      obtain ⟨rfl, found⟩ := holds
      exact .inr found
  | post other =>
      cases named
      obtain ⟨seg, among, -⟩ := holds
      cases among
  | sge other maxMsgSize sge =>
      unfold World.job at named
      dsimp only at named
      split at named
      swap
      · cases named
      rename_i segs found
      cases prepared : prepareSendSegment maxMsgSize segs sge (world.mrs sge.lkey) with
      | error err =>
          rw [prepared] at named
          cases named
      | ok segs' =>
          rw [prepared] at named
          cases named
          obtain ⟨seg, among, rfl, rfl⟩ := holds
          rcases mem_prepareSendSegment prepared among with old | ⟨same, here⟩
          · exact .inl ⟨_, found, seg, old, rfl, rfl⟩
          · rw [same]
            exact .inr here
  | postSend other =>
      unfold World.job at named
      dsimp only at named
      split at named
      swap
      · cases named
      rename_i segs found
      cases named
      exact .inl ⟨_, found, holds⟩
  | postRead other =>
      unfold World.job at named
      dsimp only at named
      split at named
      swap
      · cases named
      rename_i segs found
      cases prepared : readSegments segs with
      | error err =>
          rw [prepared] at named
          cases named
      | ok reads =>
          rw [prepared] at named
          cases named
          obtain ⟨seg, among, rfl, rfl⟩ := holds
          exact .inl ⟨_, found, seg.toSegment, mem_readSegments prepared among, rfl, rfl⟩
  | _ => cases named

/-- A job holds what it held, or what its lookup has found just now. -/
theorem step_holds {copies : Copies spaces} {access : Access spaces} {id : Nat} {job : Job spaces}
    (found : (world.step copies access).jobs id = some job) (holds : job.Holds key region) :
    (∃ job, world.jobs id = some job ∧ job.Holds key region) ∨ world.mrs key = some region := by
  unfold World.step at found
  dsimp only at found
  cases named : world.job access with
  | none =>
      rw [named] at found
      exact .inl ⟨job, found, holds⟩
  | some change =>
      obtain ⟨other, after⟩ := change
      rw [named] at found
      dsimp only at found
      by_cases same : id = other
      · subst same
        rw [Function.update_self] at found
        subst found
        exact job_holds named holds
      · rw [Function.update_of_ne same] at found
        exact .inl ⟨job, found, holds⟩

theorem mayStore_holds {access : Access spaces} (may : world.MayStore key region place access) :
    ∃ id job, world.jobs id = some job ∧ job.Holds key region := by
  cases access with
  | copy id =>
      obtain ⟨request, found, same, -⟩ := may
      exact ⟨id, _, found, same, rfl⟩
  | scatter id offset payload =>
      obtain ⟨segs, seg, found, among, same, here, -⟩ := may
      exact ⟨id, _, found, seg, among, same, here⟩
  | _ => cases may

end Step

/-! ## Runs -/

section Runs
variable {copies : Copies spaces} {world : World spaces}

theorem run_concat (accesses : List (Access spaces)) (access : Access spaces) :
    (world.run copies (accesses ++ [access])).2 =
      (world.run copies accesses).2.step copies access := by
  induction accesses generalizing world with
  | nil => rfl
  | cons first rest ih => exact ih

/-- A region that a job holds was registered under the key when the job looked it up. -/
theorem held_was_registered {key : Nat} {region : Region spaces} (none : ∀ id, world.jobs id = .none)
    (accesses : List (Access spaces)) {id : Nat} {job : Job spaces}
    (found : (world.run copies accesses).2.jobs id = some job) (holds : job.Holds key region) :
    ∃ earlier later, accesses = earlier ++ later ∧
      (world.run copies earlier).2.mrs key = some region := by
  induction accesses using List.reverseRecOn generalizing id job with
  | nil =>
      have found : world.jobs id = some job := found
      rw [none] at found
      cases found
  | append_singleton before access ih =>
      rw [run_concat] at found
      rcases step_holds found holds with ⟨job, was, holds⟩ | here
      · obtain ⟨earlier, later, rfl, registered⟩ := ih was holds
        exact ⟨earlier, later ++ [access], List.append_assoc .., registered⟩
      · exact ⟨before, [access], rfl, here⟩

theorem changed_by {place : Nat} (accesses : List (Access spaces))
    (changed : (world.run copies accesses).2.mem place ≠ world.mem place) :
    ∃ before access after, accesses = before ++ access :: after ∧
      ((world.run copies before).2.step copies access).mem place ≠
        (world.run copies before).2.mem place := by
  induction accesses using List.reverseRecOn with
  | nil => exact absurd rfl changed
  | append_singleton before access ih =>
      rw [run_concat] at changed
      by_cases same : (world.run copies before).2.mem place = world.mem place
      · rw [← same] at changed
        exact ⟨before, access, [], rfl, changed⟩
      · obtain ⟨earlier, first, later, rfl, here⟩ := ih same
        exact ⟨earlier, first, later ++ [access], List.append_assoc .., here⟩

end Runs

end Machine

/-- Page 0 of every process is in frame 5, the others are in frame 3. -/
def twoFrames : Spaces := ⟨fun _ page => if page = 0 then 5 else 3⟩

/-- Ten bytes on both sides of the end of page 0. -/
def acrossPages : Region twoFrames :=
  .regUserMr twoFrames 0 4090 10 0 true true true (by decide)

/-- A WRITE of two bytes has found the region when it is deregistered. -/
def lateWrite : List (Access twoFrames) :=
  [.publish 1 acrossPages, .lookup 0 (.rdmaWrite 1 0 5 [7, 8]), .dereg 1, .copy 0]

end Tbv.Umem
