import Mathlib.Data.List.Nodup
import AimSimulator.Controller.Device
/-!
# All-bank refresh

`dram_controller/impl/refresh/all_bank_refresh.cpp` over any controller: all that the
refresh manager knows of it is its `priority_send`.  The manager of a model with a rank
level refreshes each rank once every `nREFI` cycles.  A model without one has
`get_level_size("rank") = -1`, which the loop over the ranks takes for their number.
-/

namespace AimSimulator.Controller

open Dram

/-! ## DRAM models -/

inductive Level
  | channel | pseudochannel | rank | bankgroup | bank | row | column
  deriving DecidableEq, Repr

/-- The DRAM models with an `all-bank-refresh` request and an `nREFI`. -/
inductive DRAMImpl
  | DDR3 | DDR4 | DDR4VRR | DDR5 | GDDR6 | HBM | HBM2 | HBM3 | LPDDR4 | LPDDR5
  deriving DecidableEq, Repr

namespace DRAMImpl

def levels : DRAMImpl → List Level
  | .DDR3 => [.channel, .rank, .bank, .row, .column]
  | .DDR4 | .DDR4VRR | .DDR5 | .LPDDR4 | .LPDDR5 =>
      [.channel, .rank, .bankgroup, .bank, .row, .column]
  | .GDDR6 | .HBM => [.channel, .bankgroup, .bank, .row, .column]
  | .HBM2 | .HBM3 => [.channel, .pseudochannel, .bankgroup, .bank, .row, .column]

/-- `get_level_size`; `-1` where `m_levels` throws. -/
def getLevelSize (impl : DRAMImpl) (org : Organization) (name : Level) : Int :=
  match impl.levels.idxOf? name with
  | some level => org.countAt level
  | none => -1

theorem idxOf_rank (impl : DRAMImpl) :
    impl.levels.idxOf? .rank = if Level.rank ∈ impl.levels then some 1 else none := by
  cases impl <;> rfl

theorem two_le_levels (impl : DRAMImpl) : 2 ≤ impl.levels.length := by
  cases impl <;> decide

end DRAMImpl

/-! ## The refresh manager -/

/-- What `AllBankRefresh::setup` reads from the DRAM model, and the channel. -/
structure RefreshSetup where
  orgLevels : Nat
  numRanks : Int
  nREFI : Int
  channelId : Int

/-- `AllBankRefresh::setup`. -/
def RefreshSetup.of (impl : DRAMImpl) (org : Organization) (nREFI channelId : Int) :
    RefreshSetup where
  orgLevels := impl.levels.length
  numRanks := impl.getLevelSize org .rank
  nREFI := nREFI
  channelId := channelId

namespace RefreshSetup

variable (p : RefreshSetup)

def request (rank : Nat) : Request where
  addrVec := ((List.replicate p.orgLevels (-1)).set 0 p.channelId).set 1 rank
  type := .RefAllBank
  typeId := 2

/-- The requests of one refresh, in the order of the loop over the ranks. -/
def round : List Request := (List.range p.numRanks.toNat).map p.request

section

variable {Ctrl : Type} (prioritySend : Ctrl → Request → Option (Bool × Ctrl))

/-- The loop over the ranks, with the requests that were enqueued; a refused refresh
throws. -/
def sendAll : Ctrl → List Nat → Option (Ctrl × List Request)
  | ctrl, [] => some (ctrl, [])
  | ctrl, rank :: ranks =>
      (prioritySend ctrl (p.request rank)).bind fun (isSuccess, ctrl') =>
        if isSuccess then
          (sendAll ctrl' ranks).map fun (ctrl'', sent) => (ctrl'', p.request rank :: sent)
        else none

def tick (m : AllBankRefresh) (ctrl : Ctrl) :
    Option (AllBankRefresh × Ctrl × List Request) :=
  if m.clk + 1 = m.nextRefreshCycle then
    (p.sendAll prioritySend ctrl (List.range p.numRanks.toNat)).map fun (ctrl', sent) =>
      (⟨m.clk + 1, m.nextRefreshCycle + p.nREFI⟩, ctrl', sent)
  else some (⟨m.clk + 1, m.nextRefreshCycle⟩, ctrl, [])

variable {p prioritySend} in
/-- The rule for the loop: a relation that counts the calls of `priority_send`. -/
theorem sendAll_induct {R : Nat → Ctrl → Ctrl → Prop} (hnil : ∀ ctrl, R 0 ctrl ctrl)
    (hsend : ∀ {ctrl ctrl₁ ctrl₂ req isSuccess n},
      prioritySend ctrl req = some (isSuccess, ctrl₁) → R n ctrl₁ ctrl₂ → R (n + 1) ctrl ctrl₂)
    {ctrl ctrl' : Ctrl} {ranks : List Nat} {sent : List Request}
    (h : p.sendAll prioritySend ctrl ranks = some (ctrl', sent)) :
    R ranks.length ctrl ctrl' := by
  induction ranks generalizing ctrl sent with
  | nil =>
      obtain ⟨rfl, -⟩ := Prod.mk.inj (Option.some.inj h)
      exact hnil _
  | cons rank ranks ih =>
      obtain ⟨⟨isSuccess, ctrl₁⟩, hfirst, h⟩ := Option.bind_eq_some_iff.mp h
      dsimp only at h
      split at h
      · obtain ⟨⟨ctrl₂, rest⟩, hrest, heq⟩ := Option.map_eq_some_iff.mp h
        obtain ⟨rfl, -⟩ := Prod.mk.inj heq
        exact hsend hfirst (ih hrest)
      · cases h

theorem sendAll_sent {ctrl ctrl' : Ctrl} {ranks : List Nat} {sent : List Request}
    (h : p.sendAll prioritySend ctrl ranks = some (ctrl', sent)) :
    sent = ranks.map p.request := by
  induction ranks generalizing ctrl ctrl' sent with
  | nil =>
      obtain ⟨-, rfl⟩ := Prod.mk.inj (Option.some.inj h)
      rfl
  | cons rank ranks ih =>
      obtain ⟨⟨isSuccess, ctrl₁⟩, -, h⟩ := Option.bind_eq_some_iff.mp h
      dsimp only at h
      split at h
      · obtain ⟨⟨ctrl₂, rest⟩, hrest, heq⟩ := Option.map_eq_some_iff.mp h
        obtain ⟨-, rfl⟩ := Prod.mk.inj heq
        rw [ih hrest, List.map_cons]
      · cases h

end

end RefreshSetup

/-! ## Runs -/

/-- A refresh manager with its controller and the requests it enqueued so far. -/
structure Refreshing (Ctrl : Type) where
  manager : AllBankRefresh
  ctrl : Ctrl
  enqueued : List Request := []

/-- The manager ticks, or the controller does something else. -/
inductive RefreshOp (Ctrl : Type)
  | tick
  | other (ctrl : Ctrl)

namespace Refreshing

variable {Ctrl : Type} (prioritySend : Ctrl → Request → Option (Bool × Ctrl))
  (p : RefreshSetup)

def step (r : Refreshing Ctrl) : RefreshOp Ctrl → Option (Refreshing Ctrl)
  | .tick =>
      (p.tick prioritySend r.manager r.ctrl).map fun (manager, ctrl, sent) =>
        ⟨manager, ctrl, r.enqueued ++ sent⟩
  | .other ctrl => some { r with ctrl }

/-- The runs of a refresh manager from its `setup`. -/
abbrev Run : Refreshing Ctrl → Prop :=
  Runs.Reachable (fun r => r.manager = { nextRefreshCycle := p.nREFI } ∧ r.enqueued = [])
    (fun r op t => r.step prioritySend p op = some t) (fun _ _ => True)

variable {prioritySend p} {r : Refreshing Ctrl}

theorem Run.rounds (hpos : 0 < p.nREFI) (hr : Run prioritySend p r) :
    ∃ k : Nat, r.enqueued = (List.replicate k p.round).flatten ∧
      r.manager.nextRefreshCycle = (k + 1 : Int) * p.nREFI ∧
      (k : Int) * p.nREFI ≤ r.manager.clk ∧
      r.manager.clk < (k + 1 : Int) * p.nREFI := by
  refine hr.invariant (I := fun r => ∃ k : Nat,
    r.enqueued = (List.replicate k p.round).flatten ∧
      r.manager.nextRefreshCycle = (k + 1 : Int) * p.nREFI ∧
      (k : Int) * p.nREFI ≤ r.manager.clk ∧
      r.manager.clk < (k + 1 : Int) * p.nREFI) ?_ ?_
  · rintro r ⟨hmanager, henqueued⟩
    refine ⟨0, by rw [henqueued]; rfl, ?_⟩
    rw [hmanager]
    simp only [Int.natCast_zero]
    omega
  · rintro r op t ⟨k, henqueued, hnext, hle, hlt⟩ - hstep
    cases op with
    | other ctrl =>
        obtain rfl := Option.some.inj hstep
        exact ⟨k, henqueued, hnext, hle, hlt⟩
    | tick =>
        obtain ⟨⟨manager, ctrl, sent⟩, htick, rfl⟩ := Option.map_eq_some_iff.mp hstep
        rw [RefreshSetup.tick] at htick
        split at htick
        · next hdue =>
            obtain ⟨⟨ctrl', sent'⟩, hsent, heq⟩ := Option.map_eq_some_iff.mp htick
            simp only [Prod.mk.injEq] at heq
            obtain ⟨rfl, rfl, rfl⟩ := heq
            obtain rfl := p.sendAll_sent prioritySend hsent
            have hsucc : (k + 1 + 1 : Int) * p.nREFI = (k + 1 : Int) * p.nREFI + p.nREFI := by
              rw [Int.add_mul (k + 1 : Int), Int.one_mul]
            refine ⟨k + 1, ?_, ?_⟩
            · rw [henqueued, List.replicate_succ', List.flatten_append, RefreshSetup.round]
              simp
            · simp only [Int.natCast_add, Int.natCast_one]
              omega
        · next hdue =>
            obtain ⟨rfl, rfl, rfl⟩ := Option.some.inj htick
            dsimp only
            rw [List.append_nil]
            exact ⟨k, henqueued, hnext, by omega, by omega⟩

theorem Run.enqueued_eq (hpos : 0 < p.nREFI) (hr : Run prioritySend p r) :
    r.enqueued = (List.replicate (r.manager.clk / p.nREFI).toNat p.round).flatten := by
  obtain ⟨k, henqueued, -, hle, hlt⟩ := hr.rounds hpos
  have hk : r.manager.clk / p.nREFI = k :=
    Int.le_antisymm (Int.le_of_lt_add_one (Int.ediv_lt_of_lt_mul hpos hlt))
      (Int.le_ediv_of_mul_le hpos hle)
  rw [henqueued, hk, Int.toNat_natCast]

end Refreshing

/-! ## Coverage -/

/-- The addresses that refreshes are due at: each rank, or the channel of a model without a
rank level; `-1` elsewhere. -/
def DRAMImpl.refreshTargets (impl : DRAMImpl) (org : Organization) (channelId : Int) :
    List AddrVec :=
  let channel := (List.replicate impl.levels.length (-1)).set 0 channelId
  match impl.levels.idxOf? .rank with
  | some level => (List.range (org.countAt level).toNat).map fun rank : Nat => channel.set level rank
  | none => [channel]

/-- Each target got exactly `count` all-bank refreshes, and no other request was
enqueued. -/
def CoveredBy (targets : List AddrVec) (count : Nat) (requests : List Request) : Prop :=
  (∀ req ∈ requests, req.type = .RefAllBank) ∧
    ∀ addrVec, (requests.map Request.addrVec).count addrVec =
      if addrVec ∈ targets then count else 0

instance (requests : List Request) : Decidable (∀ req ∈ requests, req.type = .RefAllBank) :=
  inferInstance

section

variable {impl : DRAMImpl} {org : Organization} {nREFI channelId : Int}

theorem count_round (hrank : Level.rank ∈ impl.levels) (addrVec : AddrVec) :
    ((RefreshSetup.of impl org nREFI channelId).round.map Request.addrVec).count addrVec =
      if addrVec ∈ impl.refreshTargets org channelId then 1 else 0 := by
  have hlevel : impl.levels.idxOf? .rank = some 1 := by rw [impl.idxOf_rank, if_pos hrank]
  have htargets : (RefreshSetup.of impl org nREFI channelId).round.map Request.addrVec =
      impl.refreshTargets org channelId := by
    rw [RefreshSetup.round, List.map_map, DRAMImpl.refreshTargets, hlevel]
    simp only [RefreshSetup.of, DRAMImpl.getLevelSize, hlevel]
    rfl
  have hnodup : (impl.refreshTargets org channelId).Nodup := by
    rw [DRAMImpl.refreshTargets, hlevel]
    refine List.Nodup.map ?_ List.nodup_range
    intro rank rank' heq
    have hget := congrArg (fun l : List Int => l[1]?) heq
    have hlength := impl.two_le_levels
    have hcast : (rank : Int) = rank' := by
      simpa [List.getElem?_set, show 1 < impl.levels.length by omega] using hget
    omega
  rw [htargets]
  split
  · next hmem => exact List.count_eq_one_of_mem hnodup hmem
  · next hmem => exact List.count_eq_zero.mpr hmem

theorem count_flatten_replicate (k : Nat) (l : List AddrVec) (addrVec : AddrVec) :
    (List.replicate k l).flatten.count addrVec = k * l.count addrVec := by
  rw [List.count_flatten, List.map_replicate, List.sum_replicate_nat]

theorem round_of_no_rank (hrank : Level.rank ∉ impl.levels) :
    (RefreshSetup.of impl org nREFI channelId).round = [] := by
  have hlevel : impl.levels.idxOf? .rank = none := by rw [impl.idxOf_rank, if_neg hrank]
  simp [RefreshSetup.round, RefreshSetup.of, DRAMImpl.getLevelSize, hlevel]

/-- After any number of cycles every target has got its refreshes if and only if the model
has a rank level or the first refresh is not due yet. -/
theorem refresh_covered_iff {Ctrl : Type}
    {prioritySend : Ctrl → Request → Option (Bool × Ctrl)} {r : Refreshing Ctrl}
    (hpos : 0 < nREFI)
    (hr : Refreshing.Run prioritySend (.of impl org nREFI channelId) r) :
    CoveredBy (impl.refreshTargets org channelId) (r.manager.clk / nREFI).toNat r.enqueued ↔
      Level.rank ∈ impl.levels ∨ r.manager.clk < nREFI := by
  have henqueued : r.enqueued = (List.replicate (r.manager.clk / nREFI).toNat
    (RefreshSetup.of impl org nREFI channelId).round).flatten := hr.enqueued_eq hpos
  constructor
  · rintro ⟨-, hcount⟩
    by_cases hrank : Level.rank ∈ impl.levels
    · exact .inl hrank
    · refine .inr ?_
      have hlevel : impl.levels.idxOf? .rank = none := by rw [impl.idxOf_rank, if_neg hrank]
      have htarget := hcount ((List.replicate impl.levels.length (-1)).set 0 channelId)
      rw [if_pos (by simp [DRAMImpl.refreshTargets, hlevel]), henqueued,
        round_of_no_rank hrank, List.map_flatten, List.map_replicate,
        count_flatten_replicate, List.map_nil, List.count_nil, Nat.mul_zero] at htarget
      have hdiv : r.manager.clk / nREFI < 1 := by omega
      simpa using Int.lt_mul_of_ediv_lt hpos hdiv
  · intro hcond
    constructor
    · intro req hreq
      rw [henqueued] at hreq
      obtain ⟨round, hround, hreq⟩ := List.mem_flatten.mp hreq
      rw [List.eq_of_mem_replicate hround] at hreq
      obtain ⟨rank, -, rfl⟩ := List.mem_map.mp hreq
      rfl
    · intro addrVec
      rw [henqueued, List.map_flatten, List.map_replicate, count_flatten_replicate]
      rcases hcond with hrank | hearly
      · rw [count_round hrank]
        split <;> simp
      · obtain ⟨k, -, -, hle, -⟩ := hr.rounds hpos
        have hk : (0 : Int) ≤ (k : Int) * nREFI := Int.mul_nonneg (Int.natCast_nonneg k) (by omega)
        have hclk : 0 ≤ r.manager.clk := Int.le_trans hk hle
        rw [Int.ediv_eq_zero_of_lt hclk hearly]
        simp

/-- An LPDDR4 manager over a controller that takes every request, in the cycle of its
second refresh. -/
theorem refresh_covered_lpddr4 :
    ∃ r : Refreshing Unit, r.manager.clk = 8 ∧
      CoveredBy [[3, 0, -1, -1, -1, -1], [3, 1, -1, -1, -1, -1]] 2 r.enqueued := by
  have hrun : ((Runs.replay (Refreshing.step (fun _ _ => some (true, ()))
      (.of .LPDDR4 ⟨8192, 16, [1, 2, 1, 8, 65536, 1024]⟩ 4 3)) (fun _ _ => true)
        ⟨{ nextRefreshCycle := 4 }, (), []⟩ (List.replicate 8 .tick)).any fun r =>
          r.manager.clk = 8) = true := by
    decide +kernel
  obtain ⟨r, hr, hclk⟩ := Option.any_eq_true .. |>.mp hrun
  have hclk := of_decide_eq_true hclk
  have hcovered := (refresh_covered_iff (by decide)
    (Runs.replay_reachable (fun _ _ _ => trivial) (.start ⟨rfl, rfl⟩) hr)).mpr (.inl (by decide))
  rw [hclk] at hcovered
  exact ⟨r, hclk, hcovered⟩

theorem exists_run_of_no_rank (hrank : Level.rank ∉ impl.levels) (n : Nat) :
    ∃ r : Refreshing Unit, Refreshing.Run (fun _ _ => some (true, ()))
      (.of impl org nREFI channelId) r ∧ r.manager.clk = n := by
  have hnum : (RefreshSetup.of impl org nREFI channelId).numRanks = -1 := by
    simp [RefreshSetup.of, DRAMImpl.getLevelSize, impl.idxOf_rank, if_neg hrank]
  induction n with
  | zero => exact ⟨⟨{ nextRefreshCycle := nREFI }, (), []⟩, .start ⟨rfl, rfl⟩, rfl⟩
  | succ n ih =>
      obtain ⟨r, hr, hclk⟩ := ih
      have hclk' : r.manager.clk + 1 = ((n + 1 : Nat) : Int) := by omega
      by_cases hdue : r.manager.clk + 1 = r.manager.nextRefreshCycle
      · refine ⟨⟨⟨_, r.manager.nextRefreshCycle + nREFI⟩, (), r.enqueued ++ []⟩,
          .next (l := .tick) hr trivial ?_, hclk'⟩
        rw [Refreshing.step, RefreshSetup.tick, if_pos hdue, hnum]
        rfl
      · refine ⟨⟨⟨_, r.manager.nextRefreshCycle⟩, (), r.enqueued ++ []⟩,
          .next (l := .tick) hr trivial ?_, hclk'⟩
        rw [Refreshing.step, RefreshSetup.tick, if_neg hdue]
        rfl

/-- A GDDR6 manager has enqueued nothing in the cycle of its first refresh. -/
theorem refresh_gddr6_none :
    ∃ r : Refreshing Unit, Refreshing.Run (fun _ _ => some (true, ()))
        (.of .GDDR6 ⟨8192, 16, [2, 4, 4, 16384, 1024]⟩ 15600 0) r ∧ r.manager.clk = 15600 ∧
      r.enqueued = [] ∧
      ¬ CoveredBy (DRAMImpl.GDDR6.refreshTargets ⟨8192, 16, [2, 4, 4, 16384, 1024]⟩ 0)
        (r.manager.clk / 15600).toNat r.enqueued := by
  obtain ⟨r, hr, hclk⟩ := @exists_run_of_no_rank .GDDR6 ⟨8192, 16, [2, 4, 4, 16384, 1024]⟩ 15600 0
    (by decide) 15600
  have hnone : r.enqueued = [] := by
    have henqueued := hr.enqueued_eq (by decide)
    rw [round_of_no_rank (by decide)] at henqueued
    simpa using henqueued
  refine ⟨r, hr, hclk, hnone, ?_⟩
  rintro ⟨-, hcount⟩
  have htarget := hcount [0, -1, -1, -1, -1]
  rw [hnone, hclk] at htarget
  exact absurd htarget (by decide)

end

/-! ## The manager of an AiM controller -/

section

variable {Dev Cmd : Type} [DecidableEq Cmd] (iface : IDRAM Dev Cmd) (params : Params)

def managerSend (c : AiMDRAMController Cmd) (req : Request) :
    Option (Bool × AiMDRAMController Cmd) :=
  (c.prioritySend iface req).map fun (ok, c', _) => (ok, c')

def managerSetup : RefreshSetup where
  orgLevels := iface.numLevels
  numRanks := iface.numRanks
  nREFI := iface.nREFI
  channelId := params.channelId

variable {iface params}

omit [DecidableEq Cmd] in
theorem accepted_enqueueTo {c c' : AiMDRAMController Cmd} {id : BufferId} {q : Queued Cmd}
    {events : List (Event Cmd)} (h : c.enqueueTo id q = (true, c', events)) :
    accepted events = [q] := by
  unfold AiMDRAMController.enqueueTo at h
  split at h
  · obtain ⟨-, -, rfl⟩ := h
    rfl
  · exact absurd (congrArg Prod.fst h) nofun

omit [DecidableEq Cmd] in
theorem accepted_serveCompletedReqs (c : AiMDRAMController Cmd) :
    accepted c.serveCompletedReqs.2 = [] := by
  have hreads : accepted c.serveReads.2 = [] := by
    unfold AiMDRAMController.serveReads
    split
    · split <;> rfl
    · rfl
  show accepted (c.serveReads.2 ++ c.serveReads.1.serveWrites.2) = []
  rw [accepted_append, hreads, List.nil_append]
  exact accepted_retire _

omit [DecidableEq Cmd] in
theorem sendRefreshes_sendAll {c c' : AiMDRAMController Cmd} {ranks : List Nat}
    {events : List (Event Cmd)} (h : c.sendRefreshes iface params ranks = some (c', events)) :
    (managerSetup iface params).sendAll (managerSend iface) c ranks =
      some (c', (accepted events).map Queued.req) := by
  induction ranks generalizing c events with
  | nil =>
      obtain ⟨rfl, rfl⟩ := Option.some.inj h
      rfl
  | cons rank ranks ih =>
      obtain ⟨⟨ok, c₁, events₁⟩, hfirst, h⟩ := Option.bind_eq_some_iff.mp h
      dsimp only at h
      split at h
      · next hok =>
          obtain ⟨⟨c₂, events₂⟩, hrest, heq⟩ := Option.map_eq_some_iff.mp h
          obtain ⟨rfl, rfl⟩ := Prod.mk.inj heq
          obtain rfl : ok = true := hok
          have hsend : managerSend iface c ((managerSetup iface params).request rank) =
              some (true, c₁) := congrArg (Option.map _) hfirst
          obtain ⟨final, -, henqueue⟩ := Option.map_eq_some_iff.mp hfirst
          rw [RefreshSetup.sendAll, hsend, accepted_append, accepted_enqueueTo henqueue]
          dsimp only [Option.bind_some]
          rw [if_pos rfl, ih hrest]
          rfl
      · cases h

omit [DecidableEq Cmd] in
theorem refreshTick_tick {c c' : AiMDRAMController Cmd} {events : List (Event Cmd)}
    (h : c.refreshTick iface params = some (c', events)) :
    ∃ ctrl ctrl', (managerSetup iface params).tick (managerSend iface) c.refresh ctrl =
      some (c'.refresh, ctrl', (accepted events).map Queued.req) := by
  unfold AiMDRAMController.refreshTick at h
  split at h
  · next hdue =>
      have hrefresh := (AiMDRAMController.SameRest.sendRefreshes h).refresh
      refine ⟨{ c with
        refresh := ⟨c.refresh.clk + 1, c.refresh.nextRefreshCycle + iface.nREFI⟩ }, c', ?_⟩
      rw [RefreshSetup.tick, if_pos hdue]
      have hranks : (managerSetup iface params).numRanks = iface.numRanks := rfl
      rw [hranks, sendRefreshes_sendAll h, hrefresh]
      rfl
  · next hdue =>
      obtain ⟨rfl, rfl⟩ := Option.some.inj h
      exact ⟨c, c, if_neg hdue⟩

/-- In every run of a controller its refresh manager runs, and what it enqueued was accepted
in the same order. -/
theorem Chan.refreshing {dev₀ : Dev} {guard : Chan Dev Cmd → Op → Prop} {s : Chan Dev Cmd}
    (hr : Chan.Run iface params dev₀ guard s) :
    ∃ r : Refreshing (AiMDRAMController Cmd),
      Refreshing.Run (managerSend iface) (managerSetup iface params) r ∧
        r.manager = s.ctl.refresh ∧
        r.enqueued.Sublist ((accepted s.log).map Queued.req) := by
  refine hr.invariant (I := fun s => ∃ r : Refreshing (AiMDRAMController Cmd),
    Refreshing.Run (managerSend iface) (managerSetup iface params) r ∧
      r.manager = s.ctl.refresh ∧
      r.enqueued.Sublist ((accepted s.log).map Queued.req)) ?_ ?_
  · rintro s rfl
    exact ⟨⟨{ nextRefreshCycle := iface.nREFI }, .init iface, []⟩, .start ⟨rfl, rfl⟩, rfl,
      List.nil_sublist _⟩
  · rintro s op t ⟨r, hrun, hmanager, hsub⟩ - hstep
    cases op with
    | send req =>
        obtain ⟨⟨ok, ctl, events⟩, hsent, rfl⟩ := Option.map_eq_some_iff.mp hstep
        refine ⟨r, hrun, hmanager.trans (AiMDRAMController.SameRest.send hsent).refresh.symm, ?_⟩
        rw [accepted_append, List.map_append]
        exact hsub.trans (List.sublist_append_left _ _)
    | prioritySend req =>
        obtain ⟨⟨ok, ctl, events⟩, hsent, rfl⟩ := Option.map_eq_some_iff.mp hstep
        refine ⟨r, hrun,
          hmanager.trans (AiMDRAMController.SameRest.prioritySend hsent).refresh.symm, ?_⟩
        rw [accepted_append, List.map_append]
        exact hsub.trans (List.sublist_append_left _ _)
    | tick =>
        obtain ⟨⟨ctl, dev, events⟩, hticked, rfl⟩ := Option.map_eq_some_iff.mp hstep
        obtain ⟨c₁, prepared, hprep, hrefresh, haccepted⟩ :=
          AiMDRAMController.tick_refresh hticked
        obtain ⟨c₂, refreshed, hsame, htick, rfl⟩ := AiMDRAMController.prepare_stages hprep
        obtain ⟨ctrl, ctrl', hmanaged⟩ := refreshTick_tick htick
        -- the controller changes before its manager ticks
        have hother : Refreshing.Run (managerSend iface) (managerSetup iface params)
            { r with ctrl } := .next (l := .other ctrl) hrun trivial rfl
        rw [hsame.refresh, ← hmanager] at hmanaged
        refine ⟨_, .next (l := .tick) hother trivial
          (show Refreshing.step _ _ { r with ctrl } .tick = some _ from
            congrArg (Option.map _) hmanaged), hrefresh.symm, ?_⟩
        rw [accepted_append, List.map_append, haccepted, accepted_append,
          accepted_serveCompletedReqs, List.nil_append]
        exact hsub.append (List.Sublist.refl _)

end

end AimSimulator.Controller
