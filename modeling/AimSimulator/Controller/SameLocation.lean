import Mathlib.Data.List.Nodup
import AimSimulator.Controller.ActiveBuffer
import AimSimulator.Controller.Ordering
/-!
# Accesses to one location

The controller keeps reads and writes in two buffers and picks the oldest ready request of
one of them.  Two writes of one location therefore keep their order, also while the first
one waits in the active buffer for its bank.  Nothing orders a write behind a read that
still waits.
-/

namespace AimSimulator.Controller

open Dram

section

variable {Dev Cmd : Type} [DecidableEq Cmd] {iface : IDRAM Dev Cmd}

/-! ## The order of a log -/

/-- Two conventional requests for one bank, row and column, of which one is a write. -/
def Conflict (x y : Request) : Prop :=
  x.isConventional = true ∧ y.isConventional = true ∧ x.addrVec = y.addrVec ∧
    (x.type = .Write ∨ y.type = .Write)

instance (x y : Request) : Decidable (Conflict x y) :=
  inferInstanceAs (Decidable (x.isConventional = true ∧ y.isConventional = true ∧
    x.addrVec = y.addrVec ∧ (x.type = .Write ∨ y.type = .Write)))

/-- Of two conflicting requests that are accepted one after the other, the first has been
served when the last command of the second is issued.  `admits` restricts the pairs, by
what the log says before the second one is accepted. -/
def KeepsOrder (admits : List (Event Cmd) → Queued Cmd → Queued Cmd → Prop)
    (log : List (Event Cmd)) : Prop :=
  ∀ m n x y q cmd, m < n → log[m]? = some (.accept y) → log[n]? = some (.issue q cmd) →
    q.key = y.key → cmd = y.finalCommand → x ∈ accepted (log.take m) →
      Conflict x.req y.req → admits (log.take m) x y → Served (log.take n) x

/-- Two requests of one type, or a request that no longer waits when the other one comes. -/
def SameTypeOrServed (log : List (Event Cmd)) (x y : Queued Cmd) : Prop :=
  x.req.type = y.req.type ∨ Served log x

namespace KeepsOrder

variable {admits : List (Event Cmd) → Queued Cmd → Queued Cmd → Prop}
  {log events : List (Event Cmd)}

theorem nil : KeepsOrder admits ([] : List (Event Cmd)) := by
  intro m n x y q cmd _ hm
  cases hm

theorem append (h : KeepsOrder admits log)
    (hnew : ∀ q cmd, .issue q cmd ∈ events → events = [.issue q cmd] ∧
      ∀ m x y, log[m]? = some (.accept y) → q.key = y.key → cmd = y.finalCommand →
        x ∈ accepted (log.take m) → Conflict x.req y.req → admits (log.take m) x y →
          Served log x) : KeepsOrder admits (log ++ events) := by
  intro m n x y q cmd hmn hm hn hkey hcmd hx hconflict hadmits
  by_cases hlt : n < log.length
  · have hm' : m < log.length := Nat.lt_trans hmn hlt
    rw [List.getElem?_append_left hm'] at hm
    rw [List.getElem?_append_left hlt] at hn
    rw [List.take_append_of_le_length (Nat.le_of_lt hm')] at hx hadmits
    rw [List.take_append_of_le_length (Nat.le_of_lt hlt)]
    exact h m n x y q cmd hmn hm hn hkey hcmd hx hconflict hadmits
  · rw [List.getElem?_append_right (Nat.le_of_not_lt hlt)] at hn
    obtain ⟨hevents, hlast⟩ := hnew q cmd (List.mem_of_getElem? hn)
    have hn : n = log.length := by
      have hbound := (List.getElem?_eq_some_iff.mp hn).1
      rw [hevents, List.length_singleton] at hbound
      omega
    rw [hn] at hmn
    rw [List.getElem?_append_left hmn] at hm
    rw [List.take_append_of_le_length (Nat.le_of_lt hmn)] at hx hadmits
    rw [hn, List.take_left]
    exact hlast m x y hm hkey hcmd hx hconflict hadmits

end KeepsOrder

theorem Sound.accepted_lt {c : Queues Cmd} {log : List (Event Cmd)} (h : Sound iface c log)
    {m : Nat} {x y : Queued Cmd} (hy : log[m]? = some (.accept y))
    (hx : x ∈ accepted (log.take m)) : x.seq < y.seq ∧ x ∈ accepted log := by
  obtain ⟨hm, hget⟩ := List.getElem?_eq_some_iff.mp hy
  have hsplit : accepted log = accepted (log.take m) ++ y :: accepted (log.drop (m + 1)) := by
    conv => lhs; rw [← List.take_append_drop m log, ← List.getElem_cons_drop hm, hget]
    rw [accepted_append]
    rfl
  have hsorted := @List.pairwise_lt_range c.nextSeq
  rw [← h.numbered, hsplit, List.map_append, List.pairwise_append] at hsorted
  refine ⟨hsorted.2.2 _ (List.mem_map_of_mem hx) _ List.mem_cons_self, ?_⟩
  rw [hsplit]
  exact List.mem_append_left _ hx

/-! ## The write buffer -/

/-- The write buffer holds its requests in the order in which they came. -/
structure Arrivals (c : Queues Cmd) : Prop where
  sorted : c.writeBuffer.buffer.Pairwise fun x y => x.seq < y.seq ∧ x.arrive ≤ y.arrive
  past : ∀ q ∈ c.writeBuffer.buffer, q.seq < c.nextSeq ∧ q.arrive ≤ c.clk

namespace Arrivals

omit [DecidableEq Cmd]

theorem frame {c c' : Queues Cmd} (h : Arrivals c) (hwrites : c'.writeBuffer = c.writeBuffer)
    (hseq : c.nextSeq ≤ c'.nextSeq) (hclk : c.clk ≤ c'.clk) : Arrivals c' := by
  refine ⟨hwrites ▸ h.sorted, fun q hq => ?_⟩
  obtain ⟨hq₁, hq₂⟩ := h.past q (hwrites ▸ hq)
  exact ⟨Nat.lt_of_lt_of_le hq₁ hseq, Int.le_trans hq₂ hclk⟩

theorem enqueueTo {c c' : AiMDRAMController Cmd} {id : BufferId} {q : Queued Cmd} {ok : Bool}
    {events : List (Event Cmd)} (h : Arrivals c.toQueues)
    (henqueue : c.enqueueTo id q = (ok, c', events)) (hseq : q.seq = c.nextSeq)
    (harrive : id = .write → q.arrive = c.clk) : Arrivals c'.toQueues := by
  unfold AiMDRAMController.enqueueTo at henqueue
  split at henqueue
  · next b heq =>
      obtain ⟨-, rfl, -⟩ := henqueue
      cases id with
      | write =>
          unfold ReqBuffer.enqueue at heq
          split at heq
          · obtain rfl := Option.some.inj heq
            have harrive := harrive rfl
            refine ⟨List.pairwise_append.mpr ⟨h.sorted, List.pairwise_singleton _ _, ?_⟩, ?_⟩
            · intro x hx y hy
              obtain ⟨hx₁, hx₂⟩ := h.past x hx
              rw [List.mem_singleton.mp hy, hseq, harrive]
              exact ⟨hx₁, hx₂⟩
            · intro x hx
              rcases List.mem_append.mp hx with hx | hx
              · exact ⟨Nat.lt_succ_of_lt (h.past x hx).1, (h.past x hx).2⟩
              · rw [List.mem_singleton.mp hx, hseq, harrive]
                exact ⟨Nat.lt_succ_self _, Int.le_refl _⟩
          · cases heq
      | _ => exact h.frame rfl (Nat.le_succ _) (Int.le_refl _)
  · obtain ⟨-, rfl, -⟩ := henqueue
    exact h

theorem send {c c' : AiMDRAMController Cmd} {req : Request} {ok : Bool}
    {events : List (Event Cmd)} (h : Arrivals c.toQueues)
    (hsend : c.send iface req = some (ok, c', events)) : Arrivals c'.toQueues := by
  unfold AiMDRAMController.send at hsend
  split at hsend
  · split at hsend
    · obtain ⟨-, rfl, -⟩ := Option.some.inj hsend
      exact h
    · obtain ⟨final, -, hsend⟩ := Option.map_eq_some_iff.mp hsend
      exact h.enqueueTo hsend rfl nofun
  · split at hsend
    · obtain ⟨-, rfl, -⟩ := Option.some.inj hsend
      exact h
    · obtain ⟨final, -, hsend⟩ := Option.bind_eq_some_iff.mp hsend
      split at hsend
      · split at hsend
        · obtain ⟨-, rfl, -⟩ := Option.some.inj hsend
          exact h.frame rfl (Nat.le_succ _) (Int.le_refl _)
        · exact h.enqueueTo (Option.some.inj hsend) rfl nofun
      · exact h.enqueueTo (Option.some.inj hsend) rfl fun _ => rfl
      · cases hsend

theorem prioritySend {c c' : AiMDRAMController Cmd} {req : Request} {ok : Bool}
    {events : List (Event Cmd)} (h : Arrivals c.toQueues)
    (hsend : c.prioritySend iface req = some (ok, c', events)) : Arrivals c'.toQueues := by
  obtain ⟨final, -, hsend⟩ := Option.map_eq_some_iff.mp hsend
  exact h.enqueueTo hsend rfl nofun

theorem queueStep {c c' : Queues Cmd} {events : List (Event Cmd)}
    (hstep : QueueStep iface (fun _ id _ => id = .priority) c events c') (h : Arrivals c) :
    Arrivals c' := by
  cases hstep with
  | clock => exact h.frame rfl (Nat.le_refl _) (Int.le_add_one (Int.le_refl _))
  | accept _ _ hid _ _ =>
      subst hid
      exact h.frame rfl (Nat.le_succ _) (Int.le_refl _)
  | forward _ _ hid _ _ _ _ _ => cases hid
  | _ => exact h.frame rfl (Nat.le_refl _) (Int.le_refl _)

theorem serveStep [DecidableEq Cmd] {c c' : Queues Cmd} {s : Scheduled Cmd}
    {events : List (Event Cmd)} (hstep : ServeStep iface c s events c')
    (hs : (c.bufferOf s.buffer).buffer[s.index]? = some s.req) (h : Arrivals c) :
    Arrivals c' := by
  have hstamp : ∀ q : Queued Cmd, (AiMDRAMController.stampIssue c q).arrive = q.arrive := by
    intro q
    unfold AiMDRAMController.stampIssue
    split <;> rfl
  have hsub := serve_sublist hstep hs (fun q => (q.seq, q.arrive))
    (fun q => Prod.ext (SameRequest.stampIssue c q).seq (hstamp q)) .write nofun
  constructor
  · have hsorted : (c.writeBuffer.buffer.map fun q => (q.seq, q.arrive)).Pairwise
        fun x y => x.1 < y.1 ∧ x.2 ≤ y.2 := List.pairwise_map.mpr h.sorted
    exact List.pairwise_map.mp (hsorted.sublist hsub)
  · intro q' hq'
    obtain ⟨q, hq, heq⟩ := List.mem_map.mp (hsub.subset (List.mem_map_of_mem hq'))
    obtain ⟨hseq, harrive⟩ := Prod.mk.inj heq
    rw [serve_nextSeq hstep, serve_clk hstep, ← hseq, ← harrive]
    exact h.past q hq

end Arrivals

/-- In every run the write buffer is in the order of arrival, and still is when the scheduler
looks at it. -/
theorem Chan.arrivals {params : Params} {dev₀ : Dev} {guard : Chan Dev Cmd → Op → Prop}
    {s : Chan Dev Cmd} (hr : Chan.Run iface params dev₀ guard s) :
    Arrivals s.ctl.toQueues ∧ ∀ {dev c₁ sched},
      s.ctl.nextScheduled iface params dev = some (c₁, sched) → Arrivals c₁.toQueues := by
  have hall : Arrivals s.ctl.toQueues := by
    refine hr.invariant (I := fun s : Chan Dev Cmd => Arrivals s.ctl.toQueues) ?_ ?_
    · rintro s rfl
      exact ⟨.nil, fun q hq => (List.not_mem_nil hq).elim⟩
    · intro s op t h _ hstep
      cases op with
      | send req =>
          obtain ⟨⟨ok, ctl, events⟩, hsent, rfl⟩ := Option.map_eq_some_iff.mp hstep
          exact h.send hsent
      | prioritySend req =>
          obtain ⟨⟨ok, ctl, events⟩, hsent, rfl⟩ := Option.map_eq_some_iff.mp hstep
          exact h.prioritySend hsent
      | tick =>
          obtain ⟨⟨ctl, dev, events⟩, htick, rfl⟩ := Option.map_eq_some_iff.mp hstep
          refine @AiMDRAMController.tick_induct _ _ _ iface params (fun _ id _ => id = .priority)
            (fun c _ => Arrivals c) (fun _ _ _ _ hstep h => h.queueStep hstep) _ _ _ _ [] _
            (fun _ _ _ _ => rfl) ?_ htick h
          intro c₁ sched hnext _ _ q' h hserve
          exact h.serveStep hserve (AiMDRAMController.nextScheduled_picked iface hnext).stands
  refine ⟨hall, fun hnext => ?_⟩
  obtain ⟨events, hprep, -⟩ := AiMDRAMController.nextScheduled_cases iface hnext
  exact @AiMDRAMController.prepare_induct _ _ iface params (fun _ id _ => id = .priority)
    (fun c _ => Arrivals c) (fun _ _ _ _ hstep h => h.queueStep hstep) _ _ [] _
    (fun _ _ _ _ => rfl) hprep hall

/-! ## The order of the writes -/

/-- What every run keeps of the writes: those that come by `priority_send` are none, and the
active one of a location is not younger than those that wait in the write buffer. -/
structure WriteOrder (c : Queues Cmd) : Prop where
  priority : ∀ q ∈ c.priorityBuffer.buffer, q.req.isConventional = false
  active : ∀ y ∈ c.activeBuffer.buffer, y.req.type = .Write → ∀ x ∈ c.writeBuffer.buffer,
    x.req.addrVec = y.req.addrVec → y.seq ≤ x.seq

theorem Sound.final_of_type {c : Queues Cmd} {log : List (Event Cmd)} (h : Sound iface c log)
    {x y : Queued Cmd} (hx : x ∈ c.outstanding) (hy : y ∈ c.outstanding)
    (htype : x.req.type = y.req.type) (haim : y.req.type ≠ .AIM) :
    x.finalCommand = y.finalCommand := by
  have hx := h.final x (.inl hx)
  have hy := h.final y (.inl hy)
  rw [finalOf, if_neg (htype ▸ haim), htype] at hx
  rw [finalOf, if_neg haim] at hy
  exact Option.some.inj (hx.symm.trans hy)

omit [DecidableEq Cmd] in
theorem Queues.mem_outstanding_of_buffer {c : Queues Cmd} (id : BufferId) {q : Queued Cmd}
    (h : q ∈ (c.bufferOf id).buffer) : q ∈ c.outstanding :=
  Queues.mem_outstanding.mpr (.inr (.inr ⟨id, h⟩))

theorem AiMDRAMController.picked_oldest {params : Params} {c : AiMDRAMController Cmd} {dev : Dev}
    {s : Scheduled Cmd} {log : List (Event Cmd)}
    (hsched : (c.scheduleRequest iface params dev).2 = some s) (hid : s.buffer = .write)
    (hsound : Sound iface c.toQueues log) (harrivals : Arrivals c.toQueues) {x : Queued Cmd}
    (hx : x ∈ c.writeBuffer.buffer) (hlocation : x.req.addrVec = s.req.req.addrVec) :
    s.req.seq ≤ x.seq := by
  obtain ⟨hbest, hready⟩ := scheduleRequest_best iface hsched (by rw [hid]; nofun)
    (by rw [hid]; nofun)
  rw [hid] at hbest
  obtain ⟨hs, hcandidate⟩ := FRFCFS.getBestRequest_spec iface hbest
  have hs : c.writeBuffer.buffer[s.index]? = some s.req := hs
  have hwrite : ∀ q ∈ c.writeBuffer.buffer, q.req.type = .Write := hsound.placed .write
  have hmem := List.mem_of_getElem? hs
  obtain ⟨i, hi, hget⟩ := List.mem_iff_getElem.mp hx
  have hxi : c.writeBuffer.buffer[i]? = some x := by rw [List.getElem?_eq_getElem hi, hget]
  have hfinal : x.finalCommand = s.req.finalCommand :=
    hsound.final_of_type (Queues.mem_outstanding_of_buffer .write hx)
      (Queues.mem_outstanding_of_buffer .write hmem)
      ((hwrite x hx).trans (hwrite s.req hmem).symm) (by rw [hwrite s.req hmem]; nofun)
  have hxready : (candidate iface dev .write i x).ready iface dev = true := by
    rw [hcandidate] at hready
    simp only [Scheduled.ready, candidate] at hready ⊢
    rw [hfinal, hlocation]
    exact hready
  have hfirst := FRFCFS.getBestRequest_first iface hbest hxi hxready
  obtain ⟨hj, hsget⟩ := List.getElem?_eq_some_iff.mp hs
  have hsorted := List.pairwise_iff_getElem.mp harrivals.sorted
  rcases Nat.lt_trichotomy i s.index with hlt | heq | hlt
  · have hord := hsorted i s.index hi hj hlt
    rw [hget, hsget] at hord
    omega
  · subst heq
    exact Nat.le_of_eq (congrArg Queued.seq (hsget.symm.trans hget))
  · have hord := hsorted s.index i hj hi hlt
    rw [hget, hsget] at hord
    exact Nat.le_of_lt hord.1

namespace WriteOrder

omit [DecidableEq Cmd] in
theorem queueStep {c c' : Queues Cmd} {events : List (Event Cmd)}
    (hstep : QueueStep iface (fun _ id req => id = .priority → req.isConventional = false)
      c events c')
    (hlt : ∀ q ∈ c.outstanding, q.seq < c.nextSeq) (h : WriteOrder c) : WriteOrder c' := by
  cases hstep with
  | @accept id q hseq _ hadmits hgate _ =>
      cases hgate with
      | priority =>
          refine ⟨fun x hx => ?_, h.active⟩
          rcases List.mem_append.mp hx with hx | hx
          · exact h.priority x hx
          · rw [List.mem_singleton.mp hx]
            exact hadmits rfl
      | write _ _ =>
          refine ⟨h.priority, fun y hy htype x hx hlocation => ?_⟩
          rcases List.mem_append.mp hx with hx | hx
          · exact h.active y hy htype x hx hlocation
          · rw [List.mem_singleton.mp hx, hseq]
            exact Nat.le_of_lt (hlt y (Queues.mem_outstanding_of_buffer .active hy))
      | aim _ _ _ => exact ⟨h.priority, h.active⟩
      | read _ _ => exact ⟨h.priority, h.active⟩
  | _ => exact ⟨h.priority, h.active⟩

theorem write_buffer {c : Queues Cmd} {log : List (Event Cmd)} (hsound : Sound iface c log)
    (h : WriteOrder c) {id : BufferId} {q : Queued Cmd} (hq : q ∈ (c.bufferOf id).buffer)
    (htype : q.req.type = .Write) : id = .active ∨ id = .write := by
  have hplaced := hsound.placed id q hq
  cases id with
  | active => exact .inl rfl
  | write => exact .inr rfl
  | priority =>
      have hplain := h.priority q hq
      rw [isConventional_of_type (.inr htype)] at hplain
      cases hplain
  | read => exact nomatch htype.symm.trans hplaced
  | aim => exact nomatch htype.symm.trans hplaced

theorem serveStep {c c' : Queues Cmd} {s : Scheduled Cmd} {log events : List (Event Cmd)}
    (hstep : ServeStep iface c s events c')
    (hs : (c.bufferOf s.buffer).buffer[s.index]? = some s.req) (hsound : Sound iface c log)
    (holdest : s.buffer = .write → ∀ x ∈ c.writeBuffer.buffer,
      x.req.addrVec = s.req.req.addrVec → s.req.seq ≤ x.seq) (h : WriteOrder c) :
    WriteOrder c' := by
  refine ⟨fun q' hq' => ?_, fun y' hy' htype x' hx' hlocation => ?_⟩
  · rcases serve_mem hstep hs .priority hq' with ⟨q, hq, hsame⟩ | ⟨hid, -⟩
    · rw [hsame.req]
      exact h.priority q hq
    · cases hid
  · obtain ⟨x, hx, hxsame⟩ : ∃ x ∈ c.writeBuffer.buffer, SameRequest x x' := by
      rcases serve_mem hstep hs .write hx' with hx | ⟨hid, -⟩
      · exact hx
      · cases hid
    rw [hxsame.req] at hlocation
    rw [hxsame.seq]
    rcases serve_mem hstep hs .active hy' with ⟨y, hy, hsame⟩ | ⟨-, hsame, -⟩
    · rw [hsame.req] at htype hlocation
      rw [hsame.seq]
      exact h.active y hy htype x hx hlocation
    · rw [hsame.req] at htype hlocation
      rw [hsame.seq]
      have hmem := List.mem_of_getElem? hs
      rcases h.write_buffer hsound hmem htype with hid | hid
      · exact h.active s.req (by rw [hid] at hmem; exact hmem) htype x hx hlocation
      · exact holdest hid x hx hlocation

theorem served {c : Queues Cmd} {dev : Dev} {s : Scheduled Cmd} {log : List (Event Cmd)}
    (h : WriteOrder c) (hsound : Sound iface c log) (hconserved : Conserved c log)
    (hpicked : Picked iface c dev s)
    (hone : ∀ x ∈ c.activeBuffer.buffer, ∀ y ∈ c.activeBuffer.buffer,
      x.req.addrVec = y.req.addrVec → x = y)
    (holdest : s.buffer = .write → ∀ x ∈ c.writeBuffer.buffer,
      x.req.addrVec = s.req.req.addrVec → s.req.seq ≤ x.seq)
    (htype : s.req.req.type = .Write) {x : Queued Cmd} (hx : x ∈ accepted log)
    (hlt : x.seq < s.req.seq) (hxtype : x.req.type = .Write)
    (hlocation : x.req.addrVec = s.req.req.addrVec) : Served log x := by
  obtain ⟨x', hkey, hplace⟩ := hconserved.located hx
  have hfinal := hsound.final_eq hkey (hplace.imp_right .inl) (.inr (.inr hx))
  obtain ⟨hseq, hreq⟩ := Prod.mk.inj hkey
  refine Served.congr hkey.symm hfinal.symm (hsound.served x' ?_)
  rcases hplace with hplace | hplace
  · rcases Queues.mem_outstanding.mp hplace with hx' | hx' | ⟨id, hx'⟩
    · exact .inl hx'
    · exact .inr (.inl hx')
    · -- the older write would have been picked
      exfalso
      rw [← hseq] at hlt
      rw [← hreq] at hxtype hlocation
      have hmem := List.mem_of_getElem? hpicked.stands
      rcases h.write_buffer hsound hx' hxtype with rfl | rfl
      · rcases h.write_buffer hsound hmem htype with hid | hid
        · rw [hid] at hmem
          rw [hone x' hx' s.req hmem hlocation] at hlt
          exact Nat.lt_irrefl _ hlt
        · have hsame : x'.finalCommand = s.req.finalCommand :=
            hsound.final_of_type hplace (Queues.mem_outstanding_of_buffer _ hmem)
              (hxtype.trans htype.symm) (by rw [htype]; nofun)
          have hover := hpicked.overActive (by rw [hid]; nofun) x' hx'
          obtain ⟨hpreq, hready⟩ := hpicked.command.resolve_left fun haim => by
            rw [hid] at haim
            cases haim.1
          rw [hsame, hlocation, ← hpreq, hready] at hover
          cases hover
      · rcases h.write_buffer hsound hmem htype with hid | hid
        · rw [hid] at hmem
          exact Nat.not_lt.mpr (h.active s.req hmem htype x' hx' hlocation) hlt
        · exact Nat.not_lt.mpr (holdest hid x' hx' hlocation) hlt
  · exact .inr (.inr hplace)

end WriteOrder

end

/-! ## Every run -/

section Run

variable {Cmd St Ext : Type} [DecidableEq Cmd] {model : DRAMModel Cmd St Ext}
  {count : Nat → Int} {params : Params}

/-- Reads and writes come by `send`, as those of the memory systems do. -/
def PlainPriority : Op → Prop
  | .prioritySend req => req.isConventional = false
  | _ => True

instance : DecidablePred PlainPriority
  | .prioritySend req => inferInstanceAs (Decidable (req.isConventional = false))
  | .send _ | .tick => .isTrue trivial

def RoomAtTick {Dev : Type} (s : Chan Dev Cmd) (op : Op) : Prop :=
  op = .tick → s.ctl.activeBuffer.size ≤ s.ctl.activeBuffer.maxSize

omit [DecidableEq Cmd] in
theorem ActiveBanks.unique {active : List (Queued Cmd)}
    (h : ActiveBanks model count (active.map activeEntry)) {x y : Queued Cmd}
    (hx : x ∈ active) (hy : y ∈ active) (hlocation : x.req.addrVec = y.req.addrVec) : x = y := by
  have hdistinct := h.distinct
  rw [List.map_map] at hdistinct
  refine List.inj_on_of_nodup_map hdistinct hx hy ?_
  exact congrArg (fun a => (AddrVec.at a 0, model.pathOf a model.bankLevel)) hlocation

/-- In every run whose ticks find room two requests keep their order when both are writes, or
when the first one no longer waits when the second one comes. -/
theorem run_keepsOrder (hopens : model.OpensBank count)
    (htmod : (model.commandMeta model.tmod).isOpening = false)
    (hact : model.ActionsKeepTiming count) (hwin : model.WindowsPositive)
    {s : Chan model.Dev Cmd}
    (hr : Chan.Run model.idram params (model.createNodes count)
      (fun s op => PlainPriority op ∧ RoomAtTick s op) s) : KeepsOrder SameTypeOrServed s.log := by
  refine (Chan.invariant (fun _ id req => id = .priority → req.isConventional = false)
    (I := fun c log => Sound model.idram c log ∧ Conserved c log ∧ WriteOrder c ∧
      KeepsOrder SameTypeOrServed log) ?_ ?_ ?_ ?_ ?_ ?_ hr.strengthen).2.2.2
  · exact ⟨.init, .init, ⟨fun q hq => (List.not_mem_nil hq).elim,
      fun q hq => (List.not_mem_nil hq).elim⟩, .nil⟩
  · rintro c log events c' hstep ⟨hsound, hconserved, hwrites, horder⟩
    refine ⟨hsound.queueStep hstep, hconserved.queueStep hstep,
      hwrites.queueStep hstep fun q hq => hconserved.seq_lt hsound hq, horder.append ?_⟩
    intro q cmd hissue
    have hmem : (q, cmd) ∈ issued events := mem_issued.mpr hissue
    rw [hstep.issued] at hmem
    cases hmem
  · exact fun _ _ _ => rfl
  · exact fun s req _ id _ hid h => absurd h hid
  · intro s req hg _
    exact hg.1.1
  · rintro s c₁ sched ⟨hg, hrun⟩ hnext log events c' ⟨hsound, hconserved, hwrites, horder⟩ hserve
    have hpicked := AiMDRAMController.nextScheduled_picked model.idram hnext
    have hactive := AiMDRAMController.nextScheduled_activeBuffer hnext
    obtain ⟨-, hbank⟩ := run_activeBanks hopens htmod hact hwin hrun
    have hroom : s.ctl.activeBuffer.size ≤ s.ctl.activeBuffer.maxSize := hg.2 rfl
    rw [← hactive] at hbank hroom
    have harrivals := (Chan.arrivals hrun).2 hnext
    obtain ⟨prepared, -, hsched⟩ := AiMDRAMController.nextScheduled_cases model.idram hnext
    have holdest := fun hid x hx hlocation => AiMDRAMController.picked_oldest (x := x) hsched hid
      hsound harrivals hx hlocation
    refine ⟨hsound.serveStep hpicked.stands hserve,
      hconserved.serveStep hpicked.stands hroom hserve,
      hwrites.serveStep hserve hpicked.stands hsound holdest, horder.append ?_⟩
    intro q cmd hissue
    cases hserve with
    | barrier _ => cases List.mem_singleton.mp hissue
    | @issue cmd' _ hcmd' =>
        obtain ⟨rfl, rfl⟩ := Event.issue.inj (List.mem_singleton.mp hissue)
        refine ⟨rfl, fun m x y hy hkey _ hx hconflict hadmits => ?_⟩
        rcases hadmits with htype | hserved
        · obtain ⟨hlt, hx⟩ := hsound.accepted_lt hy hx
          obtain ⟨-, -, hlocation, hwrite⟩ := hconflict
          have hytype : y.req.type = .Write := hwrite.elim (fun h => htype.symm.trans h) id
          have hkey : sched.req.key = y.key := (SameRequest.stampIssue _ sched.req).key ▸ hkey
          obtain ⟨hseq, hreq⟩ := Prod.mk.inj hkey
          exact hwrites.served hsound hconserved hpicked
            (fun x hx y hy hlocation => hbank.unique hx hy hlocation) holdest
            (hreq ▸ hytype) hx (hseq ▸ hlt) (htype.trans hytype) (hreq ▸ hlocation)
        · exact hserved.mono (List.take_subset _ _)

end Run

/-! ## Runs of GDDR6 -/

/-- In every run over GDDR6 in which the active buffer has room at each tick, the write of a
location that is accepted first is issued first, and so is a request that no longer waits when
the other one is accepted.  With at most 32 banks the calls of a memory system leave room. -/
theorem gddr6_keepsOrder (V : GDDR6.Timing → Int) (count : Nat → Int) (params : Params) :
    (∀ s, Chan.Run (GDDR6.model V).idram params ((GDDR6.model V).createNodes count)
        (fun s op => PlainPriority op ∧ RoomAtTick s op) s →
      KeepsOrder SameTypeOrServed s.log) ∧
    ((count GDDR6.bankgroup).toNat * (count GDDR6.bank).toNat ≤ 32 →
      ∀ s, Chan.Run (GDDR6.model V).idram params ((GDDR6.model V).createNodes count)
          (fun _ op => PlainPriority op ∧ OwnChannel params op) s →
        KeepsOrder SameTypeOrServed s.log) := by
  have hkeeps : ∀ s, Chan.Run (GDDR6.model V).idram params ((GDDR6.model V).createNodes count)
      (fun s op => PlainPriority op ∧ RoomAtTick s op) s → KeepsOrder SameTypeOrServed s.log :=
    fun _ hr => run_keepsOrder (GDDR6.opensBank V count) rfl (GDDR6.actionsKeepTiming V count)
      (GDDR6.windowsPositive V) hr
  refine ⟨hkeeps, fun hbanks s hr => hkeeps s (hr.strengthen.mono fun s op h => ⟨h.1.1, ?_⟩)⟩
  rintro rfl
  exact run_room (GDDR6.opensBank V count) rfl (GDDR6.actionsKeepTiming V count)
    (GDDR6.windowsPositive V) (fun _ _ h => h.2) (by rwa [GDDR6.length_paths]) h.2

/-- Two writes of one location behind a `SYNC`, the first of which waits for its bank in the
active buffer when the second one comes. -/
theorem gddr6_keepsOrder_writes :
    ∃ s : Chan GDDR6.aimModel.Dev GDDR6.Cmd,
      (issued s.log).map Prod.snd = [.ACT, .WR, .WR] ∧ KeepsOrder SameTypeOrServed s.log := by
  have hrun : ((Chan.replay GDDR6.aimModel.idram { channelId := 0 } GDDR6.x16Device
      (fun _ op => decide (PlainPriority op ∧ OwnChannel { channelId := 0 } op))
      ([.send { type := .AIM, opcode := .ISR_SYNC }, .tick,
        .send { type := .Write, addrVec := [0, 1, 1, 5, 0] }, .tick,
        .send { type := .Write, addrVec := [0, 1, 1, 5, 0] }] ++ List.replicate 32 .tick)).any
          fun s => (issued s.log).map Prod.snd = [.ACT, .WR, .WR]) = true := by
    decide +kernel
  obtain ⟨s, hs, htest⟩ := Option.any_eq_true .. |>.mp hrun
  exact ⟨s, of_decide_eq_true htest, (gddr6_keepsOrder GDDR6.aimVals
    GDDR6.x16Organization.countAt { channelId := 0 }).2 (by decide) s
      (Chan.replay_run (fun _ _ hok => of_decide_eq_true hok) hs)⟩

/-- A write overtakes a read of its location: the bank is opened for the read, and then `WR`
is ready before `RD` is. -/
theorem write_overtakes_read :
    ∃ s, Chan.Run GDDR6.aimModel.idram { channelId := 0 } GDDR6.x16Device
        (fun _ op => PlainPriority op ∧ OwnChannel { channelId := 0 } op) s ∧
      ¬ KeepsOrder (fun _ _ _ => True) s.log := by
  have hrun : ((Chan.replay GDDR6.aimModel.idram { channelId := 0 } GDDR6.x16Device
      (fun _ op => decide (PlainPriority op ∧ OwnChannel { channelId := 0 } op))
      ([.send { type := .Read, addrVec := [0, 1, 1, 5, 0] },
        .send { type := .Write, addrVec := [0, 1, 1, 5, 0] }] ++ List.replicate 30 .tick)).any
          fun s => (accepted (s.log.take 1)).any fun x => (accepted s.log[1]?.toList).any fun y =>
            (issued s.log[3]?.toList).any fun i => decide (i.1.key = y.key ∧
              i.2 = y.finalCommand ∧ Conflict x.req y.req ∧ ¬ Served (s.log.take 3) x)) =
                true := by
    decide +kernel
  obtain ⟨s, hs, htest⟩ := Option.any_eq_true .. |>.mp hrun
  refine ⟨s, Chan.replay_run (fun _ _ hok => of_decide_eq_true hok) hs, fun horder => ?_⟩
  obtain ⟨x, hx, htest⟩ := List.any_eq_true.mp htest
  obtain ⟨y, hy, htest⟩ := List.any_eq_true.mp htest
  obtain ⟨⟨q, cmd⟩, hq, htest⟩ := List.any_eq_true.mp htest
  obtain ⟨hkey, hcmd, hconflict, hserved⟩ := of_decide_eq_true htest
  have haccept : s.log[1]? = some (.accept y) := Option.mem_toList.mp (mem_accepted.mp hy)
  have hissue : s.log[3]? = some (.issue q cmd) := Option.mem_toList.mp (mem_issued.mp hq)
  exact hserved (horder 1 3 x y q cmd (by decide) haccept hissue hkey hcmd hx hconflict trivial)

end AimSimulator.Controller
