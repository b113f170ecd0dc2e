import AimSimulator.Analysis.RowOps
import AimSimulator.Analysis.Simulation
import AimSimulator.Controller.Standby
/-!
# Standby totals and standby counters

The replay of a trace charges each interval between two commands by the banks that the first
one left open; the controller charges each tick by the mask it leaves.  A meter carries the
replay over the ticks.  It is one tick behind the counter, and further behind once a
`REFab` was issued under a mask that was not zero.
-/

namespace AimSimulator.Analysis

open Dram Controller

/-- The open banks of a replay and the active cycles it accounts up to a tick. -/
structure Meter where
  held : Nat := 0
  integrated : Int := 0

def Meter.idle (m : Meter) : Meter :=
  { m with integrated := m.integrated + if m.held = 0 then 0 else 1 }

def Meter.issue (m : Meter) (op : RowOp) : Meter := { m.idle with held := op.replay m.held }

/-! ## The replay of one trace -/

namespace TraceSpec

variable {spec : TraceSpec}

theorem foldl_add_standby (cycles : Int) (activities : List (Activity × Int)) (totals : Totals) :
    (activities.foldl (fun totals (activity, scale) => totals.add activity (scale * cycles))
        totals).actStbyCycles = totals.actStbyCycles ∧
      (activities.foldl (fun totals (activity, scale) => totals.add activity (scale * cycles))
        totals).preStbyCycles = totals.preStbyCycles := by
  induction activities generalizing totals with
  | nil => exact ⟨rfl, rfl⟩
  | cons a activities ih => exact ih _

variable (spec) in
theorem accountInterval_ok {cycles : Int} (h : 0 ≤ cycles) (totals : Totals) (openBanks : Nat)
    (activities : List (Activity × Int)) :
    ∃ totals', spec.accountInterval totals cycles openBanks activities = .ok totals' ∧
      totals'.actStbyCycles = totals.actStbyCycles + (if openBanks = 0 then 0 else cycles) ∧
      totals'.preStbyCycles = totals.preStbyCycles + (if openBanks = 0 then cycles else 0) := by
  refine ⟨_, if_neg (Int.not_lt.mpr h), ?_⟩
  obtain ⟨hact, hpre⟩ := foldl_add_standby cycles activities
    (if openBanks ≠ 0 then { totals with actStbyCycles := totals.actStbyCycles + cycles }
      else { totals with preStbyCycles := totals.preStbyCycles + cycles })
  rw [hact, hpre]
  by_cases hopen : openBanks = 0
  · simp [hopen]
  · simp [hopen]

end TraceSpec

/-- A replay has the open banks of a meter and, with the interval since its last event, the
totals of it. -/
structure AccountedTo (totals : Totals) (m : Meter) (clk : Int) (r : Replay) : Prop where
  openBanks : r.openBanks = m.held
  previousClock : r.previousClock ≤ clk
  act : r.totals.actStbyCycles + (if m.held = 0 then 0 else clk - r.previousClock) =
    totals.actStbyCycles + m.integrated
  pre : r.totals.preStbyCycles + (if m.held = 0 then clk - r.previousClock else 0) =
    totals.preStbyCycles + (clk - m.integrated)

namespace AccountedTo

variable {spec : TraceSpec} {totals : Totals} {m : Meter} {clk : Int} {r : Replay}

theorem start (totals : Totals) : AccountedTo totals {} 0 { totals } :=
  ⟨rfl, Int.le_refl 0, rfl, rfl⟩

theorem idle (h : AccountedTo totals m clk r) : AccountedTo totals m.idle (clk + 1) r := by
  obtain ⟨hopen, hclock, hact, hpre⟩ := h
  refine ⟨hopen, by omega, ?_, ?_⟩
  all_goals
    simp only [Meter.idle]
    split at hact <;> simp_all
    omega

variable (spec) in
theorem finish (h : AccountedTo totals m clk r) :
    ∃ totals', spec.accountInterval r.totals (clk - r.previousClock) r.openBanks
        r.previousActivities = .ok totals' ∧
      totals'.actStbyCycles = totals.actStbyCycles + m.integrated ∧
      totals'.preStbyCycles = totals.preStbyCycles + (clk - m.integrated) := by
  obtain ⟨hopen, hclock, hact, hpre⟩ := h
  obtain ⟨totals', hok, hact', hpre'⟩ := TraceSpec.accountInterval_ok spec
    (Int.sub_nonneg_of_le hclock) r.totals r.openBanks r.previousActivities
  refine ⟨totals', hok, ?_, ?_⟩
  · rw [hact', hopen, hact]
  · rw [hpre', hopen, hpre]

theorem issue_error (h : AccountedTo totals m clk r) {command e : String} {address : AddrVec}
    (herr : spec.rowOp command address = .error e) :
    spec.replayEvent r ⟨clk + 1, command, address⟩ = .error e := by
  obtain ⟨totals₁, hok, -⟩ := h.idle.finish spec
  unfold TraceSpec.replayEvent
  dsimp only
  rw [hok]
  change (spec.openAndClose _ command address).bind _ = _
  rw [TraceSpec.openAndClose_error herr]
  rfl

theorem issue (h : AccountedTo totals m clk r) {command : String} {address : AddrVec} {op : RowOp}
    (hop : spec.rowOp command address = .ok op) :
    ∃ r', spec.replayEvent r ⟨clk + 1, command, address⟩ = .ok r' ∧
      AccountedTo totals (m.issue op) (clk + 1) r' := by
  obtain ⟨totals₁, hok, hact, hpre⟩ := h.idle.finish spec
  obtain ⟨r', hopen, hsame⟩ := TraceSpec.openAndClose_ok
    (r := { r with totals := totals₁, previousActivities := [] }) hop
  refine ⟨{ r' with
    previousClock := clk + 1
    previousActivities := r'.previousActivities ++ spec.dataActivities command }, ?_, ?_⟩
  · unfold TraceSpec.replayEvent
    dsimp only
    rw [hok]
    change (spec.openAndClose _ command address).bind _ = _
    rw [hopen]
    rfl
  · refine ⟨?_, Int.le_refl _, ?_, ?_⟩
    · exact hsame.openBanks.trans (congrArg (op.replay ·) h.openBanks)
    · dsimp only
      rw [Int.sub_self, ite_self, Int.add_zero, hsame.act]
      exact hact
    · dsimp only
      rw [Int.sub_self, ite_self, Int.add_zero, hsame.pre]
      exact hpre

end AccountedTo

/-! ## One channel -/

def MaskedIssue.event {Cmd : Type} (commandName : Cmd → String) (e : MaskedIssue Cmd) :
    CommandEvent :=
  ⟨e.clk, commandName e.cmd, e.addrVec⟩

/-- No `REFab` was issued while the mask showed an open row. -/
def RefreshedClosed {Cmd : Type} (refreshAll : Cmd) (issues : List (MaskedIssue Cmd)) : Prop :=
  ∀ e ∈ issues, e.cmd = refreshAll → e.mask = 0

/-- How the counters of a channel and a replay of its trace relate over a meter. -/
structure Follows {Cmd : Type} (spec : TraceSpec) (commandName : Cmd → String)
    (refreshAll : Cmd) (InRange : Cmd → AddrVec → Prop) (m : Meter)
    (t : Traced Cmd) (mask : BitVec 16) : Prop where
  trace : t.recorder.trace = t.issues.map (MaskedIssue.event commandName)
  counted : t.ctl.stats.numActiveCycles + t.ctl.stats.numPrechargedCycles = t.recorder.clk
  held : ∀ i, m.held.testBit i = true → mask.toNat.testBit i = true
  lag : m.integrated + (if mask = 0 then 0 else 1) ≤ t.ctl.stats.numActiveCycles
  exact : RefreshedClosed refreshAll t.issues → m.held = mask.toNat ∧
    t.ctl.stats.numActiveCycles = m.integrated + (if mask = 0 then 0 else 1)
  stale : ¬ RefreshedClosed refreshAll t.issues →
    m.integrated + (if mask = 0 then 0 else 1) < t.ctl.stats.numActiveCycles ∨
      (mask ≠ 0 ∧ m.held = 0)
  replay : (∀ e ∈ t.issues, InRange e.cmd e.addrVec) → ∀ totals,
    ∃ r, t.recorder.trace.foldlM spec.replayEvent { totals } = .ok r ∧
      AccountedTo totals m t.recorder.clk r
  error : (¬ ∀ e ∈ t.issues, InRange e.cmd e.addrVec) → ∀ totals,
    ∃ msg, t.recorder.trace.foldlM spec.replayEvent { totals } = .error msg

/-- What a channel must have done for the replay to reach its counters: it issued a command,
each per-bank command named a bank, no refresh found a row open, and none is open at the end. -/
structure Replayable {Cmd : Type} (refreshAll : Cmd) (InRange : Cmd → AddrVec → Prop)
    (issues : List (MaskedIssue Cmd)) (mask : BitVec 16) : Prop where
  issued : issues ≠ []
  inRange : ∀ e ∈ issues, InRange e.cmd e.addrVec
  refreshed : RefreshedClosed refreshAll issues
  closed : mask = 0

namespace Follows

variable {Cmd : Type} {spec : TraceSpec} {commandName : Cmd → String}
  {refreshAll : Cmd} {rowOp : Cmd → AddrVec → RowOp} {InRange : Cmd → AddrVec → Prop} {m : Meter}
  {t t' : Traced Cmd}
  {mask mask' : BitVec 16} {openRowsAfter : Cmd → AddrVec → BitVec 16 → BitVec 16}

theorem init {ctl : AiMDRAMController Cmd} (hactive : ctl.stats.numActiveCycles = 0)
    (hprecharged : ctl.stats.numPrechargedCycles = 0) :
    Follows spec commandName refreshAll InRange {} { ctl } 0 where
  trace := rfl
  counted := by rw [hactive, hprecharged]; rfl
  held _ h := h
  lag := by rw [hactive]; decide
  exact _ := ⟨rfl, hactive⟩
  stale h := (h fun _ he => (List.not_mem_nil he).elim).elim
  replay _ totals := ⟨_, rfl, .start totals⟩
  error h := (h fun _ he => (List.not_mem_nil he).elim).elim

theorem congr (h : Follows spec commandName refreshAll InRange m t mask)
    (hstats : t'.ctl.stats = t.ctl.stats) (hrecorder : t'.recorder = t.recorder)
    (hissues : t'.issues = t.issues) : Follows spec commandName refreshAll InRange m t' mask := by
  obtain ⟨htrace, hcounted, hheld, hlag, hexact, hstale, hreplay, herror⟩ := h
  rw [← hissues] at htrace hexact hstale hreplay herror
  rw [← hrecorder] at htrace hcounted hreplay herror
  rw [← hstats] at hcounted hlag hexact hstale
  exact ⟨htrace, hcounted, hheld, hlag, hexact, hstale, hreplay, herror⟩

theorem held_le (h : ∀ i, m.held.testBit i = true → mask.toNat.testBit i = true) :
    (if m.held = 0 then 0 else 1 : Int) ≤ if mask = 0 then 0 else 1 := by
  by_cases hmask : mask = 0
  · subst hmask
    have hheld : m.held = 0 := Nat.eq_of_testBit_eq fun i => by
      rw [Nat.zero_testBit]
      exact Bool.eq_false_iff.mpr fun hi => by simpa using h i hi
    rw [if_pos hheld]
    exact Int.le_of_eq (if_pos rfl).symm
  · rw [if_neg hmask]
    split <;> decide

theorem toNat_eq_zero : mask.toNat = 0 ↔ mask = 0 := by
  rw [← BitVec.toNat_inj]
  rfl

theorem idle (h : Follows spec commandName refreshAll InRange m t mask)
    (hactive : t'.ctl.stats.numActiveCycles = t.ctl.stats.numActiveCycles +
      if mask = 0 then 0 else 1)
    (hprecharged : t'.ctl.stats.numPrechargedCycles = t.ctl.stats.numPrechargedCycles +
      if mask = 0 then 1 else 0)
    (hrecorder : t'.recorder = t.recorder.update none) (hissues : t'.issues = t.issues) :
    Follows spec commandName refreshAll InRange m.idle t' mask where
  trace := by
    rw [hrecorder, hissues]
    exact h.trace
  counted := by
    have hcounted := h.counted
    rw [hactive, hprecharged, hrecorder]
    simp only [TraceRecorder.update]
    split <;> omega
  held := h.held
  lag := by
    have hle := held_le h.held
    have hlag := h.lag
    rw [hactive]
    simp only [Meter.idle]
    omega
  exact hfresh := by
    rw [hissues] at hfresh
    obtain ⟨hheld, hexact⟩ := h.exact hfresh
    refine ⟨hheld, ?_⟩
    rw [hactive, hexact]
    simp only [Meter.idle, hheld, toNat_eq_zero]
  stale hstale := by
    rw [hissues] at hstale
    have hle := held_le h.held
    have hlag := h.lag
    rw [hactive]
    simp only [Meter.idle]
    rcases h.stale hstale with hlt | ⟨hmask, hheld⟩
    · exact .inl (by omega)
    · exact .inr ⟨hmask, hheld⟩
  replay hrange totals := by
    rw [hissues] at hrange
    obtain ⟨r, hok, hr⟩ := h.replay hrange totals
    rw [hrecorder]
    exact ⟨r, hok, hr.idle⟩
  error hrange totals := by
    rw [hissues] at hrange
    rw [hrecorder]
    exact h.error hrange totals

theorem issue (hrec : RecordedBy spec openRowsAfter commandName rowOp refreshAll InRange)
    (h : Follows spec commandName refreshAll InRange m t mask) {cmd : Cmd} {a : AddrVec}
    (hmask : mask' = openRowsAfter cmd a mask)
    (hactive : t'.ctl.stats.numActiveCycles = t.ctl.stats.numActiveCycles +
      if mask' = 0 then 0 else 1)
    (hprecharged : t'.ctl.stats.numPrechargedCycles = t.ctl.stats.numPrechargedCycles +
      if mask' = 0 then 1 else 0)
    (hrecorder : t'.recorder = t.recorder.update (some (commandName cmd, a)))
    (hissues : t'.issues = t.issues ++ [⟨t.recorder.clk + 1, cmd, a, mask⟩]) :
    Follows spec commandName refreshAll InRange (m.issue (rowOp cmd a)) t' mask' := by
  have hle := held_le h.held
  have hlag := h.lag
  have hdevice : mask'.toNat = (rowOp cmd a).device mask.toNat := hmask ▸ hrec.device cmd a mask
  have htrace : t'.recorder.trace =
      t.recorder.trace ++ [⟨t.recorder.clk + 1, commandName cmd, a⟩] := by
    rw [hrecorder]
    rfl
  have hclk : t'.recorder.clk = t.recorder.clk + 1 := by
    rw [hrecorder]
    rfl
  have hfresh : RefreshedClosed refreshAll t'.issues ↔
      RefreshedClosed refreshAll t.issues ∧ (rowOp cmd a = .refresh → mask = 0) := by
    rw [hissues, hrec.refresh]
    simp only [RefreshedClosed, List.forall_mem_append, List.forall_mem_singleton]
  have hrange : (∀ e ∈ t'.issues, InRange e.cmd e.addrVec) ↔
      (∀ e ∈ t.issues, InRange e.cmd e.addrVec) ∧ InRange cmd a := by
    rw [hissues]
    simp only [List.forall_mem_append, List.forall_mem_singleton]
  refine ⟨?_, ?_, ?_, ?_, ?_, ?_, ?_, ?_⟩
  · rw [htrace, h.trace, hissues, List.map_append]
    rfl
  · have hcounted := h.counted
    rw [hactive, hprecharged, hclk]
    split <;> omega
  · rw [hdevice]
    exact RowOp.replay_le h.held _
  · rw [hactive]
    simp only [Meter.issue, Meter.idle]
    omega
  · intro hnew
    obtain ⟨hold, hrefresh⟩ := hfresh.mp hnew
    obtain ⟨hheld, hexact⟩ := h.exact hold
    refine ⟨?_, ?_⟩
    · rw [hdevice, Meter.issue, hheld]
      by_cases hop : rowOp cmd a = .refresh
      · rw [hop, hrefresh hop]
        rfl
      · exact RowOp.replay_eq_device hop _
    · rw [hactive, hexact]
      simp only [Meter.issue, Meter.idle, hheld, toNat_eq_zero]
  · intro hnew
    rw [hactive]
    simp only [Meter.issue, Meter.idle]
    by_cases hold : RefreshedClosed refreshAll t.issues
    · -- the command refreshes under an open row: the replay closes it, the mask does not
      have hop : rowOp cmd a = .refresh ∧ mask ≠ 0 := by
        rw [hfresh, not_and, Classical.not_imp] at hnew
        exact hnew hold
      rw [hop.1] at hdevice ⊢
      have hsame : mask' = mask := BitVec.eq_of_toNat_eq hdevice
      exact .inr ⟨hsame ▸ hop.2, rfl⟩
    · left
      rcases h.stale hold with hlt | ⟨hne, hheld⟩
      · omega
      · rw [if_neg hne] at hlag
        rw [if_pos hheld]
        omega
  · intro hnew totals
    obtain ⟨hold, hin⟩ := hrange.mp hnew
    obtain ⟨r, hok, hr⟩ := h.replay hold totals
    obtain ⟨r', hok', hr'⟩ := hr.issue (hrec.replay cmd a hin)
    refine ⟨r', ?_, hclk ▸ hr'⟩
    rw [htrace, List.foldlM_append, hok]
    change (spec.replayEvent r _ >>= pure) = _
    rw [bind_pure]
    exact hok'
  · intro hnew totals
    rw [htrace, List.foldlM_append]
    by_cases hold : ∀ e ∈ t.issues, InRange e.cmd e.addrVec
    · obtain ⟨r, hok, hr⟩ := h.replay hold totals
      obtain ⟨msg, hmsg⟩ := hrec.error cmd a fun hin => hnew (hrange.mpr ⟨hold, hin⟩)
      refine ⟨msg, ?_⟩
      rw [hok]
      change (spec.replayEvent r _ >>= pure) = _
      rw [bind_pure]
      exact hr.issue_error hmsg
    · obtain ⟨msg, hmsg⟩ := h.error hold totals
      rw [hmsg]
      exact ⟨msg, rfl⟩

/-- The active cycles of the replay fall short of the counter, except where the mask is zero in
the end and was zero at each refresh. -/
theorem integrated_eq_iff (h : Follows spec commandName refreshAll InRange m t mask) :
    m.integrated ≤ t.ctl.stats.numActiveCycles ∧
      (m.integrated = t.ctl.stats.numActiveCycles ↔
        RefreshedClosed refreshAll t.issues ∧ mask = 0) := by
  have hlag := h.lag
  by_cases hmask : mask = 0
  · rw [if_pos hmask, Int.add_zero] at hlag
    refine ⟨hlag, fun heq => ⟨?_, hmask⟩, fun ⟨hfresh, _⟩ => ?_⟩
    · refine Classical.byContradiction fun hnot => ?_
      rcases h.stale hnot with hlt | ⟨hne, -⟩
      · rw [if_pos hmask] at hlt
        omega
      · exact hne hmask
    · have hexact := (h.exact hfresh).2
      rw [if_pos hmask] at hexact
      omega
  · rw [if_neg hmask] at hlag
    exact ⟨by omega, fun heq => by omega, fun ⟨_, hzero⟩ => absurd hzero hmask⟩

theorem replayFile_ok (h : Follows spec commandName refreshAll InRange m t mask)
    (hissued : t.issues ≠ []) (hrange : ∀ e ∈ t.issues, InRange e.cmd e.addrVec)
    (path : String) (totals : Totals) :
    ∃ totals', spec.replayFile t.recorder.clk totals (path, t.recorder.trace) = .ok totals' ∧
      totals'.actStbyCycles = totals.actStbyCycles + m.integrated ∧
      totals'.preStbyCycles = totals.preStbyCycles + (t.recorder.clk - m.integrated) := by
  have htrace : t.recorder.trace ≠ [] := by
    rw [h.trace]
    exact mt List.map_eq_nil_iff.mp hissued
  obtain ⟨r, hok, hr⟩ := h.replay hrange totals
  obtain ⟨totals', hfinish, hstandby⟩ := hr.finish spec
  refine ⟨totals', ?_, hstandby⟩
  unfold TraceSpec.replayFile parseCommandTrace
  dsimp only
  rw [if_neg htrace]
  change (if t.recorder.trace = [] then _ else _) = _
  rw [if_neg htrace, hok]
  exact hfinish

theorem replayFile_error (h : Follows spec commandName refreshAll InRange m t mask)
    (hbad : ¬ (t.issues ≠ [] ∧ ∀ e ∈ t.issues, InRange e.cmd e.addrVec))
    (path : String) (totals : Totals) :
    ∃ msg, spec.replayFile t.recorder.clk totals (path, t.recorder.trace) = .error msg := by
  unfold TraceSpec.replayFile parseCommandTrace
  dsimp only
  by_cases hissued : t.issues = []
  · rw [if_pos (by rw [h.trace, hissued]; rfl)]
    exact ⟨_, rfl⟩
  · have htrace : t.recorder.trace ≠ [] := by
      rw [h.trace]
      exact mt List.map_eq_nil_iff.mp hissued
    obtain ⟨msg, hmsg⟩ := h.error (fun hrange => hbad ⟨hissued, hrange⟩) totals
    rw [if_neg htrace]
    change ∃ msg, (if t.recorder.trace = [] then _ else _) = _
    rw [if_neg htrace, hmsg]
    exact ⟨msg, rfl⟩

end Follows

/-! ## All channels -/

theorem sum_map_eq_iff {α : Type} {f g : α → Int} {l : List α} (h : ∀ a ∈ l, f a ≤ g a) :
    (l.map f).sum ≤ (l.map g).sum ∧
      ((l.map f).sum = (l.map g).sum ↔ ∀ a ∈ l, f a = g a) := by
  induction l with
  | nil => exact ⟨Int.le_refl _, fun _ a ha => (List.not_mem_nil ha).elim, fun _ => rfl⟩
  | cons a l ih =>
      obtain ⟨hhead, htail⟩ := List.forall_mem_cons.mp h
      obtain ⟨hle, heq⟩ := ih htail
      simp only [List.map_cons, List.sum_cons, List.forall_mem_cons, ← heq]
      omega

section

variable {Cmd : Type} {spec : TraceSpec} {commandName : Cmd → String}
  {refreshAll : Cmd} {InRange : Cmd → AddrVec → Prop} {m : Nat → Meter}
  {t : Nat → Traced Cmd} {mask : Nat → BitVec 16} {clk : Int} {channels : List Nat}
  (hfollows : ∀ c ∈ channels, Follows spec commandName refreshAll InRange (m c) (t c) (mask c))
  (hclk : ∀ c ∈ channels, (t c).recorder.clk = clk)

include hfollows hclk

theorem replayFiles_ok (path : Nat → String) (hissued : ∀ c ∈ channels, (t c).issues ≠ [] ∧
      ∀ e ∈ (t c).issues, InRange e.cmd e.addrVec) (totals : Totals) :
    ∃ totals', (channels.map fun c => (path c, (t c).recorder.trace)).foldlM
        (spec.replayFile clk) totals = .ok totals' ∧
      totals'.actStbyCycles = totals.actStbyCycles + (channels.map fun c => (m c).integrated).sum ∧
      totals'.preStbyCycles = totals.preStbyCycles +
        (channels.map fun c => clk - (m c).integrated).sum := by
  induction channels generalizing totals with
  | nil => exact ⟨totals, rfl, (Int.add_zero _).symm, (Int.add_zero _).symm⟩
  | cons c channels ih =>
      obtain ⟨hfollow, hfollows⟩ := List.forall_mem_cons.mp hfollows
      obtain ⟨hclk₁, hclk⟩ := List.forall_mem_cons.mp hclk
      obtain ⟨⟨hissued₁, hrange₁⟩, hissued⟩ := List.forall_mem_cons.mp hissued
      obtain ⟨totals₁, hok, hact, hpre⟩ := hfollow.replayFile_ok hissued₁ hrange₁ (path c) totals
      obtain ⟨totals', hrest, hact', hpre'⟩ := ih hfollows hclk hissued totals₁
      rw [hclk₁] at hok hpre
      refine ⟨totals', ?_, ?_, ?_⟩
      · rw [List.map_cons, List.foldlM_cons, hok]
        exact hrest
      · rw [hact', hact, List.map_cons, List.sum_cons, Int.add_assoc]
      · rw [hpre', hpre, List.map_cons, List.sum_cons, Int.add_assoc]

theorem replayFiles_error (path : Nat → String) (hbad : ¬ ∀ c ∈ channels, (t c).issues ≠ [] ∧
      ∀ e ∈ (t c).issues, InRange e.cmd e.addrVec) (totals : Totals) :
    ∃ msg, (channels.map fun c => (path c, (t c).recorder.trace)).foldlM
      (spec.replayFile clk) totals = .error msg := by
  induction channels generalizing totals with
  | nil => exact (hbad fun c hc => (List.not_mem_nil hc).elim).elim
  | cons c channels ih =>
      obtain ⟨hfollow, hfollows⟩ := List.forall_mem_cons.mp hfollows
      obtain ⟨hclk₁, hclk⟩ := List.forall_mem_cons.mp hclk
      rw [List.map_cons, List.foldlM_cons]
      by_cases hhead : (t c).issues ≠ [] ∧ ∀ e ∈ (t c).issues, InRange e.cmd e.addrVec
      · obtain ⟨totals₁, hok, -⟩ := hfollow.replayFile_ok hhead.1 hhead.2 (path c) totals
        rw [hclk₁] at hok
        rw [hok]
        exact ih hfollows hclk (fun htail => hbad (List.forall_mem_cons.mpr ⟨hhead, htail⟩)) totals₁
      · obtain ⟨msg, hmsg⟩ := hfollow.replayFile_error hhead (path c) totals
        rw [hclk₁] at hmsg
        rw [hmsg]
        exact ⟨msg, rfl⟩

theorem replay_eq_counters_iff (path : Nat → String) :
    (∃ totals, spec.traceBasedActivityCycles clk
        (channels.map fun c => (path c, (t c).recorder.trace)) = .ok totals ∧
      totals.actStbyCycles = (channels.map fun c => (t c).ctl.stats.numActiveCycles).sum ∧
      totals.preStbyCycles = (channels.map fun c => (t c).ctl.stats.numPrechargedCycles).sum) ↔
    channels ≠ [] ∧ (spec.useIdd0Split = true → 0 < spec.nRAS ∧ spec.nRAS < spec.nRC) ∧
      ∀ c ∈ channels, Replayable refreshAll InRange (t c).issues (mask c) := by
  have hlag := (sum_map_eq_iff fun c hc => (hfollows c hc).integrated_eq_iff.1).2
  have hwindow : (spec.useIdd0Split = true → 0 < spec.nRAS ∧ spec.nRAS < spec.nRC) ↔
      ¬ (spec.useIdd0Split = true ∧ (spec.nRAS ≤ 0 ∨ spec.nRC - spec.nRAS ≤ 0)) := by
    rw [not_and]
    exact imp_congr_right fun _ => by omega
  have hfiles : (channels.map fun c => (path c, (t c).recorder.trace)) = [] ↔ channels = [] :=
    List.map_eq_nil_iff
  unfold TraceSpec.traceBasedActivityCycles
  constructor
  · rintro ⟨totals, hok, hact, hpre⟩
    split at hok
    · cases hok
    · next hsome =>
        split at hok
        · cases hok
        · next hvalid =>
            have hissued : ∀ c ∈ channels, (t c).issues ≠ [] ∧
                ∀ e ∈ (t c).issues, InRange e.cmd e.addrVec := by
              refine Classical.byContradiction fun hbad => ?_
              obtain ⟨msg, hmsg⟩ := replayFiles_error hfollows hclk path hbad {}
              cases hok.symm.trans hmsg
            obtain ⟨totals', hok', hact', -⟩ := replayFiles_ok hfollows hclk path hissued {}
            obtain rfl := Except.ok.inj (hok.symm.trans hok')
            have heq := hlag.mp (((Int.zero_add _).symm.trans hact'.symm).trans hact)
            refine ⟨mt hfiles.mpr hsome, hwindow.mpr hvalid, fun c hc => ?_⟩
            obtain ⟨hfresh, hzero⟩ := (hfollows c hc).integrated_eq_iff.2.mp (heq c hc)
            exact ⟨(hissued c hc).1, (hissued c hc).2, hfresh, hzero⟩
  · rintro ⟨hsome, hvalid, hchannels⟩
    rw [if_neg (mt hfiles.mp hsome), if_neg (hwindow.mp hvalid)]
    obtain ⟨totals, hok, hact, hpre⟩ := replayFiles_ok hfollows hclk path
      (fun c hc => ⟨(hchannels c hc).issued, (hchannels c hc).inRange⟩) {}
    have heq : ∀ c ∈ channels, (m c).integrated = (t c).ctl.stats.numActiveCycles := fun c hc =>
      (hfollows c hc).integrated_eq_iff.2.mpr ⟨(hchannels c hc).refreshed, (hchannels c hc).closed⟩
    refine ⟨totals, hok, ?_, ?_⟩
    · rw [hact, hlag.mpr heq]
      exact Int.zero_add _
    · rw [hpre]
      refine (Int.zero_add _).trans (congrArg List.sum (List.map_congr_left fun c hc => ?_))
      have hcounted := (hfollows c hc).counted
      have hactive := heq c hc
      have hclk := hclk c hc
      omega

end

end AimSimulator.Analysis
