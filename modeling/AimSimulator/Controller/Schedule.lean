import AimSimulator.Controller.AiMController
import AimSimulator.Dram.GDDR6
/-!
# What the scheduler picks

`schedule_request` changes no queue, and `Picked` says all there is to say about the
request it returns: where it stands, with which command, and what it took precedence
over.
-/

namespace AimSimulator.Controller

open Dram

variable {Dev Cmd : Type} (iface : IDRAM Dev Cmd)

/-! ## FR-FCFS prefers ready requests -/

theorem FRFCFS.prefers_total (dev : Dev) (s₁ s₂ : Scheduled Cmd) :
    FRFCFS.prefers iface dev s₁ s₂ = true ∨ FRFCFS.prefers iface dev s₂ s₁ = true := by
  unfold FRFCFS.prefers
  cases s₁.ready iface dev <;> cases s₂.ready iface dev <;> simp <;> omega

theorem FRFCFS.prefers_trans (dev : Dev) (s₁ s₂ s₃ : Scheduled Cmd) :
    FRFCFS.prefers iface dev s₁ s₂ = true → FRFCFS.prefers iface dev s₂ s₃ = true →
      FRFCFS.prefers iface dev s₁ s₃ = true := by
  unfold FRFCFS.prefers
  cases s₁.ready iface dev <;> cases s₂.ready iface dev <;> cases s₃.ready iface dev <;>
    simp <;> omega

theorem FRFCFS.getBestRequest_spec {dev : Dev} {id : BufferId} {b : ReqBuffer Cmd}
    {s : Scheduled Cmd} (h : FRFCFS.getBestRequest iface dev id b = some s) :
    b.buffer[s.index]? = some s.req ∧ s = candidate iface dev id s.index s.req := by
  unfold FRFCFS.getBestRequest at h
  split at h
  · cases h
  · next c cs heq =>
      have hmem : s ∈ b.buffer.mapIdx (candidate iface dev id) := by
        rw [heq, ← Option.some.inj h]
        exact Best.best_mem c cs
      obtain ⟨i, hi, rfl⟩ := List.mem_mapIdx.mp hmem
      exact ⟨List.getElem?_eq_getElem hi, rfl⟩

theorem FRFCFS.getBestRequest_not_ready {dev : Dev} {id : BufferId} {b : ReqBuffer Cmd}
    (h : (FRFCFS.getBestRequest iface dev id b).filter (Scheduled.ready iface dev) = none)
    {q : Queued Cmd} (hq : q ∈ b.buffer) :
    iface.checkReady dev (iface.getPreqCommand dev q.finalCommand q.req.addrVec)
      q.req.addrVec = false := by
  obtain ⟨i, hi, rfl⟩ := List.mem_iff_getElem.mp hq
  have hmem : candidate iface dev id i b.buffer[i] ∈ b.buffer.mapIdx (candidate iface dev id) :=
    List.mem_mapIdx.mpr ⟨i, hi, rfl⟩
  unfold FRFCFS.getBestRequest at h
  split at h
  · next heq =>
      rw [heq] at hmem
      cases hmem
  · next c cs heq =>
      rw [heq] at hmem
      have hle := Best.best_le (FRFCFS.prefers_total iface dev) (FRFCFS.prefers_trans iface dev)
        hmem
      simp only [Option.filter_eq_none_iff, Option.some.injEq, forall_eq',
        Bool.not_eq_true] at h
      rw [FRFCFS.prefers, h] at hle
      cases hr : (candidate iface dev id i b.buffer[i]).ready iface dev with
      | false => exact hr
      | true => simp [hr] at hle

/-- The lexicographic order of the scheduler: ready before not ready, then the smaller
`arrive`, then the earlier place in the buffer. -/
def FRFCFS.Precedes (dev : Dev) (s₁ s₂ : Scheduled Cmd) : Prop :=
  (s₁.ready iface dev = true ∧ s₂.ready iface dev = false) ∨
    (s₁.ready iface dev = s₂.ready iface dev ∧
      (s₁.req.arrive < s₂.req.arrive ∨ (s₁.req.arrive = s₂.req.arrive ∧ s₁.index < s₂.index)))

theorem FRFCFS.precedes_of_prefers {dev : Dev} {s₁ s₂ : Scheduled Cmd}
    (h : FRFCFS.prefers iface dev s₁ s₂ = true) (hindex : s₁.index < s₂.index) :
    FRFCFS.Precedes iface dev s₁ s₂ := by
  unfold FRFCFS.prefers at h
  unfold FRFCFS.Precedes
  cases h₁ : s₁.ready iface dev <;> cases h₂ : s₂.ready iface dev <;>
    simp_all only [bne_self_eq_false, Bool.false_eq_true, ite_false, decide_eq_true_eq] <;>
    simp_all <;> omega

theorem FRFCFS.precedes_of_not_prefers {dev : Dev} {s₁ s₂ : Scheduled Cmd}
    (h : FRFCFS.prefers iface dev s₂ s₁ = false) : FRFCFS.Precedes iface dev s₁ s₂ := by
  unfold FRFCFS.prefers at h
  unfold FRFCFS.Precedes
  cases h₁ : s₁.ready iface dev <;> cases h₂ : s₂.ready iface dev <;> simp_all

theorem FRFCFS.getBestRequest_precedes {dev : Dev} {id : BufferId} {b : ReqBuffer Cmd}
    {s : Scheduled Cmd} (h : FRFCFS.getBestRequest iface dev id b = some s) {i : Nat}
    {q : Queued Cmd} (hq : b.buffer[i]? = some q) (hi : i ≠ s.index) :
    FRFCFS.Precedes iface dev s (candidate iface dev id i q) := by
  unfold FRFCFS.getBestRequest at h
  split at h
  · cases h
  · next c cs heq =>
      obtain rfl := Option.some.inj h
      have htotal := FRFCFS.prefers_total iface dev
      have htrans := FRFCFS.prefers_trans iface dev
      have hcand : (c :: cs)[i]? = some (candidate iface dev id i q) := by
        rw [← heq, List.getElem?_mapIdx, hq, Option.map_some]
      have hwins := Best.best_le htotal htrans (List.mem_of_getElem? hcand)
      obtain ⟨before, after, hsplit, hlost⟩ := Best.best_first htotal htrans c cs
      generalize Best.best (FRFCFS.prefers iface dev) c cs = s at hsplit hlost hi hwins
      have hindex : s.index = before.length := by
        have hs : (c :: cs)[before.length]? = some s := by
          rw [hsplit, List.getElem?_append_right (Nat.le_refl _), Nat.sub_self]
          rfl
        rw [← heq, List.getElem?_mapIdx] at hs
        obtain ⟨x, -, hx⟩ := Option.map_eq_some_iff.mp hs
        rw [← hx]
        rfl
      by_cases hlt : i < s.index
      · -- it stands before the winner and lost to it
        rw [hsplit, List.getElem?_append_left (hindex ▸ hlt)] at hcand
        exact FRFCFS.precedes_of_not_prefers iface (hlost _ (List.mem_of_getElem? hcand))
      · -- it stands behind the winner, which is preferred on a tie
        have hgt : s.index < i := by omega
        exact FRFCFS.precedes_of_prefers iface hwins hgt

/-- The candidate that is returned is the first of the ready ones: by its arrival, and on a
tie by its place in the buffer. -/
theorem FRFCFS.getBestRequest_first {dev : Dev} {id : BufferId} {b : ReqBuffer Cmd}
    {s : Scheduled Cmd} (h : FRFCFS.getBestRequest iface dev id b = some s)
    {i : Nat} {q : Queued Cmd} (hq : b.buffer[i]? = some q)
    (hqready : (candidate iface dev id i q).ready iface dev = true) :
    s.req.arrive < q.arrive ∨ (s.req.arrive = q.arrive ∧ s.index ≤ i) := by
  by_cases hi : i = s.index
  · have hat := (FRFCFS.getBestRequest_spec iface h).1
    rw [← hi, hq] at hat
    obtain rfl := Option.some.inj hat
    exact .inr ⟨rfl, Nat.le_of_eq hi.symm⟩
  · rcases FRFCFS.getBestRequest_precedes iface h hq hi with ⟨-, hnot⟩ | ⟨-, hlt | ⟨heq, hlt⟩⟩
    · rw [hqready] at hnot
      cases hnot
    · exact .inl hlt
    · exact .inr ⟨heq, Nat.le_of_lt hlt⟩

theorem FRFCFS.getBestRequest_isSome (dev : Dev) (id : BufferId) {b : ReqBuffer Cmd}
    (hne : b.buffer ≠ []) : ∃ s, FRFCFS.getBestRequest iface dev id b = some s := by
  unfold FRFCFS.getBestRequest
  split
  · next heq => exact absurd (List.mapIdx_eq_nil_iff.mp heq) hne
  · exact ⟨_, rfl⟩

/-- FR-FCFS returns a request of the buffer, with its prerequisite, that precedes all the others;
so it is ready when any request is, and no request that arrived earlier is as ready. -/
theorem FRFCFS.getBestRequest_least (dev : Dev) (id : BufferId) (b : ReqBuffer Cmd)
    (hne : b.buffer ≠ []) :
    ∃ s, FRFCFS.getBestRequest iface dev id b = some s ∧
      b.buffer[s.index]? = some s.req ∧ s = candidate iface dev id s.index s.req ∧
      (∀ i q, b.buffer[i]? = some q → i ≠ s.index →
        FRFCFS.Precedes iface dev s (candidate iface dev id i q)) ∧
      (∀ i q, b.buffer[i]? = some q → (candidate iface dev id i q).ready iface dev = true →
        s.ready iface dev = true) ∧
      (∀ i q, b.buffer[i]? = some q →
        (candidate iface dev id i q).ready iface dev = s.ready iface dev →
        s.req.arrive ≤ q.arrive) := by
  obtain ⟨s, hs⟩ := FRFCFS.getBestRequest_isSome iface dev id hne
  obtain ⟨hat, hcandidate⟩ := FRFCFS.getBestRequest_spec iface hs
  refine ⟨s, hs, hat, hcandidate, fun i q hq hi => FRFCFS.getBestRequest_precedes iface hs hq hi,
    ?_, ?_⟩
  · intro i q hq hready
    by_cases hi : i = s.index
    · subst hi
      obtain rfl := Option.some.inj (hat.symm.trans hq)
      rw [hcandidate]
      exact hready
    · rcases FRFCFS.getBestRequest_precedes iface hs hq hi with ⟨h, -⟩ | ⟨h, -⟩
      · exact h
      · exact h.trans hready
  · intro i q hq hready
    by_cases hi : i = s.index
    · subst hi
      obtain rfl := Option.some.inj (hat.symm.trans hq)
      exact Int.le_refl _
    · rcases FRFCFS.getBestRequest_precedes iface hs hq hi with ⟨h, h'⟩ | ⟨-, hlt | ⟨heq, -⟩⟩
      · rw [h, h'] at hready
        cases hready
      · exact Int.le_of_lt hlt
      · exact Int.le_of_eq heq

/-- Two reads of one bank; the one behind arrived earlier. -/
def readsOutOfOrder : ReqBuffer GDDR6.Cmd where
  buffer :=
    [ { req := { type := .Read, addrVec := [0, 1, 2, 7, 0] }, finalCommand := .RD, arrive := 5,
        seq := 1 },
      { req := { type := .Read, addrVec := [0, 1, 2, 9, 0] }, finalCommand := .RD, arrive := 3,
        seq := 0 } ]

theorem FRFCFS.getBestRequest_least_reads :
    ∃ s, FRFCFS.getBestRequest GDDR6.aimModel.idram GDDR6.x16Device .read readsOutOfOrder = some s ∧
      ∀ i q, readsOutOfOrder.buffer[i]? = some q → i ≠ s.index →
        FRFCFS.Precedes GDDR6.aimModel.idram GDDR6.x16Device s
          (candidate GDDR6.aimModel.idram GDDR6.x16Device .read i q) := by
  obtain ⟨s, hs, -, -, hprecedes, -⟩ := FRFCFS.getBestRequest_least GDDR6.aimModel.idram
    GDDR6.x16Device .read readsOutOfOrder (by simp [readsOutOfOrder])
  exact ⟨s, hs, hprecedes⟩

/-! ## The request that is picked -/

/-- All that `schedule_request` says about the request it returns. -/
structure Picked (c : Queues Cmd) (dev : Dev) (s : Scheduled Cmd) : Prop where
  stands : (c.bufferOf s.buffer).buffer[s.index]? = some s.req
  command : (s.buffer = .aim ∧ s.req.req.opcode.isBarrier = true) ∨
    (s.command = iface.getPreqCommand dev s.req.finalCommand s.req.req.addrVec ∧
      iface.checkReady dev s.command s.req.req.addrVec = true)
  overActive : s.buffer ≠ .active → ∀ q ∈ c.activeBuffer.buffer,
    iface.checkReady dev (iface.getPreqCommand dev q.finalCommand q.req.addrVec)
      q.req.addrVec = false
  overPriority : s.buffer ≠ .active → s.buffer ≠ .priority → c.priorityBuffer.buffer = []
  aimHead : s.buffer = .aim → s.index = 0
  overAim : s.buffer = .read ∨ s.buffer = .write → c.aimBuffer.buffer = []

namespace AiMDRAMController

@[simp] theorem setWriteMode_toQueues (params : Params) (c : AiMDRAMController Cmd) :
    (c.setWriteMode params).toQueues = c.toQueues := by
  unfold setWriteMode
  split <;> split <;> rfl

theorem unlessClosing_eq_some {c : AiMDRAMController Cmd} {s s' : Scheduled Cmd}
    (h : c.unlessClosing iface s = some s') : s' = s := by
  unfold unlessClosing at h
  split at h
  · cases h
  · exact (Option.some.inj h).symm

theorem filter_bind_unlessClosing {c : AiMDRAMController Cmd} {dev : Dev} {o : Option (Scheduled Cmd)}
    {s : Scheduled Cmd}
    (h : (o.filter (Scheduled.ready iface dev)).bind (c.unlessClosing iface) = some s) :
    o = some s ∧ s.ready iface dev = true := by
  obtain ⟨s', hs', htaken⟩ := Option.bind_eq_some_iff.mp h
  obtain rfl := unlessClosing_eq_some iface htaken
  exact Option.filter_eq_some_iff.mp hs'

theorem scheduleRequest_toQueues (params : Params) (c : AiMDRAMController Cmd) (dev : Dev) :
    (c.scheduleRequest iface params dev).1.toQueues = c.toQueues := by
  unfold scheduleRequest
  split
  · rfl
  · split
    · rfl
    · split
      · split <;> rfl
      · exact setWriteMode_toQueues params c

theorem scheduleRequest_picked {params : Params} {c : AiMDRAMController Cmd} {dev : Dev}
    {s : Scheduled Cmd} (h : (c.scheduleRequest iface params dev).2 = some s) :
    Picked iface c.toQueues dev s := by
  unfold scheduleRequest at h
  split at h
  · -- the active buffer had a ready request
    next s' heq =>
      obtain rfl := unlessClosing_eq_some iface h
      obtain ⟨hbest, hready⟩ := Option.filter_eq_some_iff.mp heq
      obtain ⟨hat, hcand⟩ := FRFCFS.getBestRequest_spec iface hbest
      have hid : s.buffer = .active := by rw [hcand]; rfl
      have hcmd : s.command = iface.getPreqCommand dev s.req.finalCommand s.req.req.addrVec := by
        rw [hcand]; rfl
      refine ⟨by rw [hid]; exact hat, .inr ⟨hcmd, hready⟩, ?_, ?_, ?_, ?_⟩
      · exact fun h => absurd hid h
      · exact fun h => absurd hid h
      · rw [hid]; exact fun h => nomatch h
      · rw [hid]; exact fun h => by rcases h with h | h <;> cases h
  · next hactive =>
      have hover : ∀ q ∈ c.activeBuffer.buffer, iface.checkReady dev
          (iface.getPreqCommand dev q.finalCommand q.req.addrVec) q.req.addrVec = false :=
        fun q hq => FRFCFS.getBestRequest_not_ready iface hactive hq
      split at h
      · -- the head of the priority buffer
        next q qs hprio =>
          obtain ⟨heq, hready⟩ := filter_bind_unlessClosing iface h
          obtain rfl := Option.some.inj heq
          refine ⟨?_, .inr ⟨rfl, hready⟩, fun _ => hover, fun _ h => absurd rfl h, ?_, ?_⟩
          · show c.priorityBuffer.buffer[0]? = some q
            rw [hprio]
            rfl
          · exact fun h => nomatch h
          · exact fun h => by rcases h with h | h <;> cases h
      · next hprio =>
          split at h
          · -- the head of the AiM buffer
            next q qs haim =>
              have hat : c.aimBuffer.buffer[0]? = some q := by
                rw [haim]
                rfl
              split at h
              · next hbarrier =>
                  obtain rfl := Option.some.inj h
                  exact ⟨hat, .inl ⟨rfl, hbarrier⟩, fun _ => hover, fun _ _ => hprio,
                    fun _ => rfl, fun h => by rcases h with h | h <;> cases h⟩
              · obtain ⟨heq, hready⟩ := filter_bind_unlessClosing iface h
                obtain rfl := Option.some.inj heq
                exact ⟨hat, .inr ⟨rfl, hready⟩, fun _ => hover, fun _ _ => hprio,
                  fun _ => rfl, fun h => by rcases h with h | h <;> cases h⟩
          · -- the read or the write buffer
            next haim =>
              obtain ⟨hbest, hready⟩ := filter_bind_unlessClosing iface h
              obtain ⟨hat, hcand⟩ := FRFCFS.getBestRequest_spec iface hbest
              have hcmd : s.command =
                  iface.getPreqCommand dev s.req.finalCommand s.req.req.addrVec := by
                rw [hcand]; rfl
              rw [setWriteMode_toQueues] at hat
              have hbuf : s.buffer =
                  if (c.setWriteMode params).isWriteMode then .write else .read := by
                rw [hcand]; rfl
              have hid : s.buffer = .write ∨ s.buffer = .read := by
                rw [hbuf]
                split
                · exact .inl rfl
                · exact .inr rfl
              rw [← hbuf] at hat
              refine ⟨hat, .inr ⟨hcmd, hready⟩, fun _ => hover, fun _ _ => hprio, ?_,
                fun _ => haim⟩
              intro h
              rcases hid with hid | hid <;> rw [hid] at h <;> cases h

theorem scheduleRequest_best {params : Params} {c : AiMDRAMController Cmd} {dev : Dev}
    {s : Scheduled Cmd} (h : (c.scheduleRequest iface params dev).2 = some s)
    (hpriority : s.buffer ≠ .priority) (haim : s.buffer ≠ .aim) :
    FRFCFS.getBestRequest iface dev s.buffer (c.bufferOf s.buffer) = some s ∧
      s.ready iface dev = true := by
  unfold scheduleRequest at h
  split at h
  · next s' heq =>
      obtain rfl := unlessClosing_eq_some iface h
      obtain ⟨hbest, hready⟩ := Option.filter_eq_some_iff.mp heq
      have hid : s.buffer = .active := by
        rw [(FRFCFS.getBestRequest_spec iface hbest).2]
        rfl
      rw [hid]
      exact ⟨hbest, hready⟩
  · split at h
    · obtain ⟨heq, -⟩ := filter_bind_unlessClosing iface h
      obtain rfl := Option.some.inj heq
      exact absurd rfl hpriority
    · split at h
      · split at h
        · obtain rfl := Option.some.inj h
          exact absurd rfl haim
        · obtain ⟨heq, -⟩ := filter_bind_unlessClosing iface h
          obtain rfl := Option.some.inj heq
          exact absurd rfl haim
      · obtain ⟨hbest, hready⟩ := filter_bind_unlessClosing iface h
        rw [setWriteMode_toQueues] at hbest
        have hid : s.buffer =
            if (c.setWriteMode params).isWriteMode then .write else .read := by
          rw [(FRFCFS.getBestRequest_spec iface hbest).2]
          rfl
        rw [hid]
        exact ⟨hbest, hready⟩

theorem nextScheduled_cases {params : Params} {c c₁ : AiMDRAMController Cmd} {dev : Dev}
    {s : Scheduled Cmd} (h : c.nextScheduled iface params dev = some (c₁, s)) :
    ∃ events, c.prepare iface params = some (c₁, events) ∧
      (c₁.scheduleRequest iface params dev).2 = some s := by
  obtain ⟨⟨c', events⟩, hprep, hsched⟩ := Option.bind_eq_some_iff.mp h
  obtain ⟨s', hs', heq⟩ := Option.map_eq_some_iff.mp hsched
  obtain ⟨rfl, rfl⟩ := Prod.mk.inj heq
  exact ⟨events, hprep, hs'⟩

theorem nextScheduled_picked {params : Params} {c c₁ : AiMDRAMController Cmd} {dev : Dev}
    {s : Scheduled Cmd} (h : c.nextScheduled iface params dev = some (c₁, s)) :
    Picked iface c₁.toQueues dev s := by
  obtain ⟨events, -, hsched⟩ := nextScheduled_cases iface h
  exact scheduleRequest_picked iface hsched

end AiMDRAMController

end AimSimulator.Controller
