import Mathlib.Data.List.GetD
import Mathlib.Data.List.Perm.Basic
import ThunderboltIbverbs.Config.Identity

/-! # The GID table in any order

Both selections of `proto/identity.c` walk the table with the best GID so far.  They come to the
unique endpoint of the GIDs that match, and to a preferred GID on it when there is one; the
order of the table only decides which of several equal GIDs it is. -/
set_option autoImplicit false
namespace Tbv.Config

def Gid.endpoint (gid : Gid) : UInt32 × UInt8 := (gid.deviceId, gid.port)

theorem sameEndpoint_iff {a b : Gid} : a.sameEndpoint b = true ↔ a.endpoint = b.endpoint := by
  simp [Gid.sameEndpoint, Gid.endpoint]

def Gid.llamaMatches (route : Route) (gid : Gid) : Bool :=
  gid.isRoce && gid.addr == route.localSrcAddr

def Gid.isV2 (gid : Gid) : Bool := gid.gidType == gidRoceV2

/-- Both loops: a preferred GID takes the place of one on its endpoint that is not. -/
def selectLoop (matching preferred : Gid → Bool) : List Gid → Option Gid → Except Int (Option Gid)
  | [], best => .ok best
  | gid :: rest, best =>
      if !matching gid then selectLoop matching preferred rest best
      else
        match best with
        | none => selectLoop matching preferred rest (some gid)
        | some best =>
            if best.sameEndpoint gid then
              selectLoop matching preferred rest
                (some (if !preferred best && preferred gid then gid else best))
            else .error eexist

theorem selectLlamaLoop_eq (route : Route) (gids : List Gid) (best : Option Gid) :
    selectLlamaLoop route gids best = selectLoop (Gid.llamaMatches route) Gid.isV2 gids best := by
  induction gids generalizing best with
  | nil => rfl
  | cons gid rest ih =>
      have skips : (!Gid.llamaMatches route gid) = (!gid.isRoce || gid.addr != route.localSrcAddr) :=
        Bool.not_and ..
      rw [selectLlamaLoop.eq_def, selectLoop.eq_def]
      dsimp only
      rw [skips]
      cases best with
      | none => simp only [ih]
      | some best =>
          have better : (!best.isV2 && gid.isV2) = true ↔
              best.gidType ≠ gidRoceV2 ∧ gid.gidType = gidRoceV2 := by
            simp [Gid.isV2]
          simp only [ih, better]
          split
          · rfl
          · split
            · split <;> rfl
            · rfl

theorem selectNcclLoop_eq (policy : NcclPolicy) (gids : List Gid) (best : Option Gid) :
    selectNcclLoop policy gids best =
      selectLoop (Gid.ncclEligible · policy) (fun _ => true) gids best := by
  induction gids generalizing best with
  | nil => rfl
  | cons gid rest ih =>
      rw [selectNcclLoop.eq_def, selectLoop.eq_def]
      cases best with
      | none => simp only [ih]
      | some best => simp only [ih, Bool.not_true, Bool.false_and, Bool.false_eq_true, if_false]

/-! ## The loop -/

/-- What the loop comes to, given the GIDs that match. -/
def Chosen (preferred : Gid → Bool) (matches' : List Gid) : Except Int (Option Gid) → Prop
  | .ok none => matches' = []
  | .ok (some gid) => gid ∈ matches' ∧ (∀ other ∈ matches', other.endpoint = gid.endpoint) ∧
      ∀ other ∈ matches', preferred other = true → preferred gid = true
  | .error ret => ret = eexist ∧ ∃ a ∈ matches', ∃ b ∈ matches', a.endpoint ≠ b.endpoint

section
variable {matching preferred : Gid → Bool} {gids gids' : List Gid} {out out' : Except Int (Option Gid)}

/-- The next GID that matches, on the endpoint of the best one. -/
theorem Chosen.better {seen : List Gid} {best gid : Gid}
    (chosen : Chosen preferred seen (.ok (some best))) (same : best.endpoint = gid.endpoint) :
    Chosen preferred (seen ++ [gid])
      (.ok (some (if !preferred best && preferred gid then gid else best))) := by
  obtain ⟨among, one, first⟩ := chosen
  have all : ∀ other ∈ seen ++ [gid], other.endpoint = gid.endpoint := by
    intro other mem
    rcases List.mem_append.mp mem with old | new
    · exact (one other old).trans same
    · rw [List.mem_singleton.mp new]
  split
  · rename_i better
    have now := (Bool.and_eq_true_iff.mp better).2
    exact ⟨List.mem_append_right _ (List.mem_singleton_self gid), all, fun _ _ _ => now⟩
  · rename_i kept
    refine ⟨List.mem_append_left _ among, fun other mem => (all other mem).trans same.symm,
      fun other mem likes => ?_⟩
    rcases List.mem_append.mp mem with old | new
    · exact first other old likes
    · rw [List.mem_singleton.mp new] at likes
      by_contra dislikes
      exact kept (by rw [likes, Bool.eq_false_iff.mpr dislikes]; rfl)

theorem Chosen.loop {seen : List Gid} {best : Option Gid}
    (chosen : Chosen preferred seen (.ok best)) :
    Chosen preferred (seen ++ gids.filter matching) (selectLoop matching preferred gids best) := by
  induction gids generalizing seen best with
  | nil =>
      rw [List.filter_nil, List.append_nil]
      exact chosen
  | cons gid rest ih =>
      rw [selectLoop.eq_def]
      dsimp only
      cases matched : matching gid with
      | false =>
          rw [if_pos Bool.not_false, List.filter_cons_of_neg (by simp [matched])]
          exact ih chosen
      | true =>
          rw [if_neg nofun, List.filter_cons_of_pos matched, List.append_cons]
          cases best with
          | none =>
              obtain rfl : seen = [] := chosen
              refine ih ⟨List.mem_singleton_self gid, fun other mem => ?_, fun other mem likes => ?_⟩
              · rw [List.mem_singleton.mp mem]
              · rwa [← List.mem_singleton.mp mem]
          | some best =>
              dsimp only
              split
              · rename_i same
                exact ih (chosen.better (sameEndpoint_iff.mp same))
              · rename_i apart
                refine ⟨rfl, best, ?_, gid, ?_, fun same => apart (sameEndpoint_iff.mpr same)⟩
                · exact List.mem_append_left _ (List.mem_append_left _ chosen.1)
                · exact List.mem_append_left _
                    (List.mem_append_right _ (List.mem_singleton_self gid))

theorem selectLoop_chosen (matching preferred : Gid → Bool) (gids : List Gid) :
    Chosen preferred (gids.filter matching) (selectLoop matching preferred gids none) :=
  @Chosen.loop matching preferred gids [] none rfl

theorem mem_matching {gid : Gid} : gid ∈ gids.filter matching ↔ gid ∈ gids ∧ matching gid = true :=
  List.mem_filter

theorem Chosen.enodev_iff {found : List Gid} (chosen : Chosen preferred found out) :
    selectBest out = .error enodev ↔ found = [] := by
  match out, chosen with
  | .ok none, empty => exact iff_of_true rfl empty
  | .ok (some gid), ⟨among, _⟩ =>
      exact iff_of_false nofun fun empty => List.not_mem_nil (empty ▸ among)
  | .error ret, ⟨code, a, mem, _⟩ =>
      refine iff_of_false (fun refused => ?_) fun empty => List.not_mem_nil (empty ▸ mem)
      rw [code] at refused
      cases refused

theorem Chosen.eexist_iff {found : List Gid} (chosen : Chosen preferred found out) :
    selectBest out = .error eexist ↔ ∃ a ∈ found, ∃ b ∈ found, a.endpoint ≠ b.endpoint := by
  match out, chosen with
  | .ok none, empty =>
      exact iff_of_false nofun fun ⟨a, mem, _⟩ => List.not_mem_nil (empty ▸ mem)
  | .ok (some gid), ⟨_, one, _⟩ =>
      exact iff_of_false nofun fun ⟨a, memA, b, memB, apart⟩ =>
        apart ((one a memA).trans (one b memB).symm)
  | .error ret, ⟨code, apart⟩ =>
      rw [code]
      exact iff_of_true rfl apart

theorem Chosen.selected {found : List Gid} {selection : Selection}
    (chosen : Chosen preferred found out) (selected : selectBest out = .ok selection) :
    ∃ gid ∈ found, selection = selectGid gid ∧ (∀ other ∈ found, other.endpoint = gid.endpoint) ∧
      ∀ other ∈ found, preferred other = true → preferred gid = true := by
  obtain ⟨gid, rfl, is⟩ := selectBest_ok selected
  exact ⟨gid, chosen.1, is, chosen.2⟩

/-- What does not depend on the order of the table. -/
def outcome (out : Except Int Selection) : Except Int (UInt32 × UInt8 × UInt8) :=
  out.map fun selection => (selection.deviceId, selection.port, selection.gidType)

theorem Chosen.outcome_eq {found found' : List Gid} (chosen : Chosen preferred found out)
    (chosen' : Chosen preferred found' out') (same : ∀ gid, gid ∈ found ↔ gid ∈ found')
    (typed : ∀ a ∈ found, ∀ b ∈ found, preferred a = preferred b → a.gidType = b.gidType) :
    outcome (selectBest out) = outcome (selectBest out') := by
  have empty : found = [] ↔ found' = [] := by
    simp only [List.eq_nil_iff_forall_not_mem, same]
  have apart : (∃ a ∈ found, ∃ b ∈ found, a.endpoint ≠ b.endpoint) ↔
      ∃ a ∈ found', ∃ b ∈ found', a.endpoint ≠ b.endpoint := by
    simp only [same]
  match out, chosen with
  | .ok none, nothing =>
      have same := chosen'.enodev_iff.mpr (empty.mp nothing)
      rw [same]
      rfl
  | .error ret, ⟨code, differ⟩ =>
      have same := chosen'.eexist_iff.mpr (apart.mp differ)
      rw [same, code]
      rfl
  | .ok (some gid), ⟨among, one, first⟩ =>
      cases selected : selectBest out' with
      | error ret =>
          match out', chosen' with
          | .ok none, nothing => exact absurd (empty.mpr nothing ▸ among) List.not_mem_nil
          | .ok (some _), _ => cases selected
          | .error _, ⟨_, differ⟩ =>
              obtain ⟨a, memA, b, memB, differs⟩ := apart.mpr differ
              exact absurd ((one a memA).trans (one b memB).symm) differs
      | ok selection =>
          obtain ⟨gid', among', rfl, _, first'⟩ := chosen'.selected selected
          have here := (same gid').mpr among'
          have likes : preferred gid = preferred gid' := by
            rw [Bool.eq_iff_iff]
            exact ⟨first' gid ((same gid).mp among), first gid' here⟩
          obtain ⟨device, port⟩ := Prod.mk.inj (one gid' here)
          have type := typed gid among gid' here likes
          rw [outcome, outcome, selectBest, Except.map, Except.map]
          dsimp only [selectGid]
          rw [device, port, type]

end

/-- A selection among the GIDs that match, whatever the order of the table. -/
structure SelectsEndpoint (matching preferred : Gid → Bool)
    (select : List Gid → Except Int Selection) : Prop where
  missing : ∀ gids, select gids = .error enodev ↔ ∀ gid ∈ gids, matching gid = false
  two : ∀ gids, select gids = .error eexist ↔
    ∃ a ∈ gids, ∃ b ∈ gids, matching a = true ∧ matching b = true ∧ a.endpoint ≠ b.endpoint
  errors : ∀ gids ret, select gids = .error ret → ret = enodev ∨ ret = eexist
  one : ∀ gids selection, select gids = .ok selection →
    ∃ gid ∈ gids, matching gid = true ∧ selection = selectGid gid ∧
      (∀ other ∈ gids, matching other = true → other.endpoint = gid.endpoint) ∧
      ∀ other ∈ gids, matching other = true → preferred other = true → preferred gid = true
  perm : ∀ gids gids', gids.Perm gids' → outcome (select gids) = outcome (select gids')

theorem selectLoop_selects {matching preferred : Gid → Bool}
    (typed : ∀ a b, matching a = true → matching b = true → preferred a = preferred b →
      a.gidType = b.gidType) :
    SelectsEndpoint matching preferred fun gids =>
      selectBest (selectLoop matching preferred gids none) := by
  have chosen := selectLoop_chosen matching preferred
  refine ⟨fun gids => ?_, fun gids => ?_, fun gids ret refused => ?_, fun gids selection selected => ?_,
    fun gids gids' perm => ?_⟩
  · rw [(chosen gids).enodev_iff, List.filter_eq_nil_iff]
    simp only [Bool.not_eq_true]
  · rw [(chosen gids).eexist_iff]
    constructor
    · rintro ⟨a, memA, b, memB, apart⟩
      obtain ⟨inA, matchA⟩ := mem_matching.mp memA
      obtain ⟨inB, matchB⟩ := mem_matching.mp memB
      exact ⟨a, inA, b, inB, matchA, matchB, apart⟩
    · rintro ⟨a, inA, b, inB, matchA, matchB, apart⟩
      exact ⟨a, mem_matching.mpr ⟨inA, matchA⟩, b, mem_matching.mpr ⟨inB, matchB⟩, apart⟩
  · have here := chosen gids
    generalize selectLoop matching preferred gids none = out at here refused
    match out, here with
    | .ok none, _ => exact .inl (Except.error.inj refused).symm
    | .ok (some _), _ => cases refused
    | .error _, ⟨code, _⟩ => exact .inr ((Except.error.inj refused).symm.trans code)
  · obtain ⟨gid, among, is, one, first⟩ := (chosen gids).selected selected
    obtain ⟨here, matched⟩ := mem_matching.mp among
    exact ⟨gid, here, matched, is, fun other mem found => one other (mem_matching.mpr ⟨mem, found⟩),
      fun other mem found => first other (mem_matching.mpr ⟨mem, found⟩)⟩
  · refine (chosen gids).outcome_eq (chosen gids') (fun gid => ?_) fun a memA b memB => ?_
    · rw [mem_matching, mem_matching, perm.mem_iff]
    · exact typed a b (mem_matching.mp memA).2 (mem_matching.mp memB).2

/-! ## The address range -/

def bitAt (bytes : List UInt8) (k : Nat) : Bool := (bytes.getD (k / 8) 0).toNat.testBit (7 - k % 8)

def addrSize (family : UInt8) : Option Nat :=
  if family = afInet then some 32 else if family = afInet6 then some 128 else none

/-- Bit `k` of the address; an IPv4 address is the last four bytes. -/
def Addr.bit (addr : Addr) (k : Nat) : Bool :=
  bitAt (if addr.family = afInet then addr.bytes.drop 12 else addr.bytes) k

theorem mask_bit : ∀ bits ≤ 8, ∀ i < 8,
    (UInt8.ofNat (0xff <<< (8 - bits))).toNat.testBit i = decide (8 - bits ≤ i) := by decide

theorem masked_eq_iff {a b : UInt8} {bits : Nat} (most : bits ≤ 8) :
    a &&& UInt8.ofNat (0xff <<< (8 - bits)) = b &&& UInt8.ofNat (0xff <<< (8 - bits)) ↔
      ∀ j < bits, a.toNat.testBit (7 - j) = b.toNat.testBit (7 - j) := by
  constructor
  · intro same j inside
    have bit := congrArg (fun byte : UInt8 => byte.toNat.testBit (7 - j)) same
    beta_reduce at bit
    rw [UInt8.toNat_and, UInt8.toNat_and, Nat.testBit_and, Nat.testBit_and,
      mask_bit bits most (7 - j) (by omega), decide_eq_true (by omega)] at bit
    rwa [Bool.and_true, Bool.and_true] at bit
  · intro same
    refine UInt8.toNat_inj.mp (Nat.eq_of_testBit_eq fun i => ?_)
    rw [UInt8.toNat_and, UInt8.toNat_and, Nat.testBit_and, Nat.testBit_and]
    by_cases byte : i < 8
    · rw [mask_bit bits most i byte]
      by_cases high : 8 - bits ≤ i
      · have bit := same (7 - i) (by omega)
        rw [show 7 - (7 - i) = i by omega] at bit
        rw [bit]
      · rw [decide_eq_false high, Bool.and_false, Bool.and_false]
    · have wide : 2 ^ 8 ≤ 2 ^ i := Nat.pow_le_pow_right (by decide) (by omega)
      rw [Nat.testBit_lt_two_pow (Nat.lt_of_lt_of_le a.toNat_lt wide),
        Nat.testBit_lt_two_pow (Nat.lt_of_lt_of_le b.toNat_lt wide)]

theorem byte_eq_iff {a b : UInt8} :
    a = b ↔ ∀ j < 8, a.toNat.testBit (7 - j) = b.toNat.testBit (7 - j) := by
  have whole : ∀ c : UInt8, c &&& UInt8.ofNat (0xff <<< (8 - 8)) = c := fun c => by
    refine UInt8.toNat_inj.mp ?_
    rw [UInt8.toNat_and]
    exact (Nat.and_two_pow_sub_one_eq_mod c.toNat 8).trans (Nat.mod_eq_of_lt c.toNat_lt)
  have masked := @masked_eq_iff a b 8 (Nat.le_refl 8)
  rwa [whole, whole] at masked

theorem take_eq_iff {a b : List UInt8} {n : Nat} (longA : n ≤ a.length) (longB : n ≤ b.length) :
    a.take n = b.take n ↔ ∀ i < n, a.getD i 0 = b.getD i 0 := by
  constructor
  · intro same i inside
    have byte := congrArg (·.getD i 0) same
    simpa [List.getD_eq_getElem?_getD, List.getElem?_take, inside] using byte
  · intro same
    refine List.ext_getElem (by simp [longA, longB]) fun i insideA insideB => ?_
    have inside : i < n := Nat.lt_of_lt_of_le insideA (List.length_take_le n a)
    have byte := same i inside
    rw [List.getD_eq_getElem a 0 (by omega), List.getD_eq_getElem b 0 (by omega)] at byte
    rwa [List.getElem_take, List.getElem_take]

/-- Whole bytes and a masked rest compare the first bits. -/
theorem prefixMatchBytes_iff {a b : List UInt8} {bits maxBits : Nat}
    (longA : maxBits ≤ 8 * a.length) (longB : maxBits ≤ 8 * b.length) :
    prefixMatchBytes a b bits maxBits = true ↔ bits ≤ maxBits ∧ ∀ k < bits, bitAt a k = bitAt b k := by
  unfold prefixMatchBytes
  by_cases fits : maxBits < bits
  · rw [if_pos fits]
    exact iff_of_false nofun fun both => by omega
  rw [if_neg fits, and_iff_right (Nat.le_of_not_lt fits)]
  dsimp only
  have bytes : a.take (bits / 8) = b.take (bits / 8) ↔ ∀ k < bits / 8 * 8, bitAt a k = bitAt b k := by
    rw [take_eq_iff (by omega) (by omega)]
    constructor
    · intro same k inside
      exact byte_eq_iff.mp (same (k / 8) (by omega)) (k % 8) (by omega)
    · intro same i inside
      refine byte_eq_iff.mpr fun j below => ?_
      have bit := same (8 * i + j) (by omega)
      unfold bitAt at bit
      rwa [show (8 * i + j) / 8 = i by omega, show (8 * i + j) % 8 = j by omega] at bit
  have rest := @masked_eq_iff (a.getD (bits / 8) 0) (b.getD (bits / 8) 0) (bits % 8) (by omega)
  have tail : (∀ j < bits % 8, (a.getD (bits / 8) 0).toNat.testBit (7 - j) =
      (b.getD (bits / 8) 0).toNat.testBit (7 - j)) ↔
      ∀ k < bits, bits / 8 * 8 ≤ k → bitAt a k = bitAt b k := by
    constructor
    · intro same k inside above
      have bit := same (k % 8) (by omega)
      unfold bitAt
      rwa [show k / 8 = bits / 8 by omega]
    · intro same j below
      have bit := same (bits / 8 * 8 + j) (by omega) (by omega)
      unfold bitAt at bit
      rwa [show (bits / 8 * 8 + j) / 8 = bits / 8 by omega,
        show (bits / 8 * 8 + j) % 8 = j by omega] at bit
  split
  · rename_i differs
    exact iff_of_false nofun fun same => differs.2 (bytes.mpr fun k inside => same k (by omega))
  · rename_i equal
    have front : ∀ k < bits / 8 * 8, bitAt a k = bitAt b k := by
      intro k inside
      exact bytes.mp (by_contra fun differs => equal ⟨by omega, differs⟩) k inside
    split
    · rename_i differs
      exact iff_of_false nofun fun same =>
        differs.2 (rest.mpr (tail.mpr fun k inside _ => same k inside))
    · rename_i alike
      refine iff_of_true rfl fun k inside => ?_
      by_cases early : k < bits / 8 * 8
      · exact front k early
      · have masked := by_contra fun differs => alike ⟨by omega, differs⟩
        exact tail.mp (rest.mp masked) k inside (by omega)

/-- The range test: no range, or the families agree, the number of bits fits them, and the first
bits agree. -/
theorem matchesRange_iff {gid : Gid} {policy : NcclPolicy} (whole : gid.addr.bytes.length = 16)
    (wholeRange : policy.addrRange.bytes.length = 16) : gid.matchesRange policy = true ↔
      policy.hasAddrRange = false ∨
      (gid.addr.family = policy.family ∧ policy.addrRange.family = policy.family ∧
        (∃ size, addrSize policy.family = some size ∧ policy.addrRangeBits ≤ size) ∧
        ∀ k < policy.addrRangeBits, gid.addr.bit k = policy.addrRange.bit k) := by
  unfold Gid.matchesRange
  cases ranged : policy.hasAddrRange with
  | false => exact iff_of_true rfl (.inl rfl)
  | true =>
      rw [if_neg (by decide : ¬ (!true) = true), or_iff_right (by decide : ¬ true = false)]
      by_cases families : gid.addr.family = policy.family ∧ policy.addrRange.family = policy.family
      · obtain ⟨mine, range⟩ := families
        rw [if_neg (by simp [mine, range]), and_iff_right mine, and_iff_right range]
        unfold Addr.bit
        rw [mine, range]
        have sized (size : Nat) : (∃ other, some size = some other ∧ policy.addrRangeBits ≤ other) ↔
            policy.addrRangeBits ≤ size :=
          ⟨fun ⟨_, is, fits⟩ => Option.some.inj is ▸ fits, fun fits => ⟨size, rfl, fits⟩⟩
        unfold addrSize
        by_cases inet : policy.family = afInet
        · simp only [if_pos inet]
          rw [sized]
          exact prefixMatchBytes_iff (by simp [whole]) (by simp [wholeRange])
        by_cases inet6 : policy.family = afInet6
        · simp only [if_neg inet, if_pos inet6]
          rw [sized]
          exact prefixMatchBytes_iff (by simp [whole]) (by simp [wholeRange])
        · simp [if_neg inet, if_neg inet6]
      · rw [if_pos (by
          by_contra neither
          exact families (by simpa [not_or] using neither))]
        exact iff_of_false nofun fun all => families ⟨all.1, all.2.1⟩

/-- Neither selection depends on the order of the table: what it returns, the endpoint and the
type of the GID are the same for every permutation. -/
theorem gid_selection_order_free (route : Route) (policy : NcclPolicy) :
    SelectsEndpoint (Gid.llamaMatches route) Gid.isV2 (selectLlama · route) ∧
      SelectsEndpoint (Gid.ncclEligible · policy) (fun _ => true) (selectNccl · policy) ∧
      ∀ gid : Gid, gid.addr.bytes.length = 16 → policy.addrRange.bytes.length = 16 →
        (gid.matchesRange policy = true ↔
          policy.hasAddrRange = false ∨
          (gid.addr.family = policy.family ∧ policy.addrRange.family = policy.family ∧
            (∃ size, addrSize policy.family = some size ∧ policy.addrRangeBits ≤ size) ∧
            ∀ k < policy.addrRangeBits, gid.addr.bit k = policy.addrRange.bit k)) := by
  refine ⟨?_, ?_, fun gid => matchesRange_iff⟩
  · have loops : (selectLlama · route) = fun gids =>
        selectBest (selectLoop (Gid.llamaMatches route) Gid.isV2 gids none) :=
      funext fun gids => congrArg selectBest (selectLlamaLoop_eq route gids none)
    rw [loops]
    refine selectLoop_selects fun a b matchA matchB same => ?_
    have roceA := (Bool.and_eq_true_iff.mp matchA).1
    have roceB := (Bool.and_eq_true_iff.mp matchB).1
    simp only [Gid.isRoce, Bool.or_eq_true, beq_iff_eq] at roceA roceB
    unfold Gid.isV2 at same
    rcases roceA with typeA | typeA <;> rcases roceB with typeB | typeB <;>
      rw [typeA, typeB] at same ⊢ <;> cases same
  · have loops : (selectNccl · policy) = fun gids =>
        selectBest (selectLoop (Gid.ncclEligible · policy) (fun _ => true) gids none) :=
      funext fun gids => congrArg selectBest (selectNcclLoop_eq policy gids none)
    rw [loops]
    refine selectLoop_selects fun a b matchA matchB _ => ?_
    simp only [Gid.ncclEligible, Gid.isGlobalRoce, Gid.isRoce, Bool.and_eq_true, beq_iff_eq] at matchA matchB
    have versions := matchA.1.2.trans matchB.1.2.symm
    have roceA := matchA.1.1.1.1.1.1
    have roceB := matchB.1.1.1.1.1.1
    simp only [Bool.or_eq_true, beq_iff_eq] at roceA roceB
    unfold Gid.roceVersion at versions
    rcases roceA with typeA | typeA <;> rcases roceB with typeB | typeB <;>
      rw [typeA, typeB] at versions ⊢ <;> cases versions

/-- Two ports with the same address, in either order: the first one found is not taken. -/
theorem gid_selection_order_free_twoPorts :
    let gid : Gid := ⟨1, 1, 0, gidRoceV2, addrV4 10 0 0 1⟩
    let route : Route := { localSrcAddr := addrV4 10 0 0 1 }
    let policy : NcclPolicy :=
      { ncclPolicyDefault with hasAddrRange := true, addrRange := addrV4 10 0 0 0, addrRangeBits := 30 }
    outcome (selectLlama [gid, { gid with port := 2 }] route) =
        outcome (selectLlama [{ gid with port := 2 }, gid] route) ∧
      gid.matchesRange policy = true :=
  let gid : Gid := ⟨1, 1, 0, gidRoceV2, addrV4 10 0 0 1⟩
  let policy : NcclPolicy :=
    { ncclPolicyDefault with hasAddrRange := true, addrRange := addrV4 10 0 0 0, addrRangeBits := 30 }
  ⟨(gid_selection_order_free { localSrcAddr := addrV4 10 0 0 1 } policy).1.perm _ _
      (List.Perm.swap _ _ _),
    ((gid_selection_order_free { localSrcAddr := addrV4 10 0 0 1 } policy).2.2 gid rfl rfl).mpr
      (.inr ⟨rfl, rfl, ⟨32, rfl, by decide⟩, by decide⟩)⟩

end Tbv.Config
