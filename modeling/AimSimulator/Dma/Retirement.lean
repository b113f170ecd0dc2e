import AimSimulator.Lib.Counting
import AimSimulator.Dma.Decode
import AimSimulator.Dma.Run
/-!
# The retirement of host requests

However the controllers accept, refuse and call back, each host request is decoded,
called back and removed once, before the next one is decoded, and the counter of the
DMA is the number of blocking copies of the head that have not called back.
-/

namespace AimSimulator.Dma

def enqueued (log : List HostEvent) : List Request :=
  log.filterMap fun
    | .enqueue host => some host
    | _ => none

inductive Phase
  | decoded (host : Request)
  | calledBack (host : Request)
  | removed (host : Request)

def phases (log : List HostEvent) : List Phase :=
  log.filterMap fun
    | .decode host => some (.decoded host)
    | .callback host _ => some (.calledBack host)
    | .remove host => some (.removed host)
    | _ => none

/-- The whole life of a host request: its callback, if it has one, runs at its removal. -/
def life (host : Request) : List Phase :=
  .decoded host :: (if host.callback = .empty then [] else [.calledBack host]) ++
    [.removed host]

@[simp] theorem enqueued_append (log log' : List HostEvent) :
    enqueued (log ++ log') = enqueued log ++ enqueued log' := List.filterMap_append

@[simp] theorem phases_append (log log' : List HostEvent) :
    phases (log ++ log') = phases log ++ phases log' := List.filterMap_append

variable {C : Type} {p : SystemParams} {send : Request → C → Option (Bool × C)}

namespace System

variable {s s' t : System C} {blocking : Bool}

def isBlocking (copy : Request) : Bool := copy.callback == .aimReceive

def unfired (s : System C) : List Request := s.inFlight ++ s.waiting.filter isBlocking

def opened (s : System C) : List Request :=
  if s.Idle then [] else s.dma.requestQueue.take 1

/-! ## The copies of the head -/

/-- All copies that wait or are in flight are copies of the head, of one kind, and the
counter of the DMA counts the blocking ones. -/
structure Delivering (s : System C) (blocking : Bool) : Prop where
  bounded : s.Bounded
  stalled : s.dma.stalledAiMRequests = s.unfired.length
  owner : ∀ copy, copy ∈ s.inFlight ∨ copy ∈ s.waiting →
    ∃ host queue, s.dma.requestQueue = host :: queue ∧ copy.hostReqId = host.hostReqId
  flight : s.inFlight ≠ [] → blocking = true
  kind : ∀ copy ∈ s.waiting, isBlocking copy = blocking

/-- A part of a call that decodes, calls back, removes and enqueues nothing. -/
structure SameHistory (s s' : System C) : Prop where
  requestQueue : s'.dma.requestQueue = s.dma.requestQueue
  enqueued : enqueued s'.log = enqueued s.log
  phases : phases s'.log = phases s.log

theorem SameHistory.refl (s : System C) : SameHistory s s := ⟨rfl, rfl, rfl⟩

theorem SameHistory.trans (h : SameHistory s s') (h' : SameHistory s' t) : SameHistory s t :=
  ⟨h'.requestQueue.trans h.requestQueue, h'.enqueued.trans h.enqueued,
    h'.phases.trans h.phases⟩

theorem deliver_sameHistory {channel : Nat} {copy : Request} {ok : Bool}
    (h : s.deliver p send channel copy = some (ok, s')) : SameHistory s s' := by
  obtain ⟨-, c, -, rfl⟩ := deliver_eq_some h
  refine ⟨rfl, ?_, ?_⟩
  · simp [enqueued]
  · simp [phases]

theorem unfired_length (s : System C) :
    s.unfired.length = s.inFlight.length + s.waiting.countP isBlocking := by
  rw [unfired, List.length_append, List.countP_eq_length_filter]

namespace Delivering

theorem of_idle (hbounded : s.Bounded) (hstalled : s.dma.stalledAiMRequests = 0)
    (hflight : s.inFlight = []) (hwaiting : s.waiting = []) (blocking : Bool) :
    Delivering s blocking := by
  refine ⟨hbounded, ?_, ?_, fun h => absurd hflight h, ?_⟩
  · simp [hstalled, unfired, hflight, hwaiting]
  · simp [hflight, hwaiting]
  · simp [hwaiting]

theorem idle (h : Delivering s blocking) (hstalled : s.dma.stalledAiMRequests = 0) :
    s.inFlight = [] := by
  have hlength := h.stalled
  rw [hstalled, unfired_length] at hlength
  exact List.length_eq_zero_iff.mp (by omega)

theorem opened_head (h : Delivering s blocking)
    (hbusy : ¬ s.Idle) :
    ∃ host queue, s.dma.requestQueue = host :: queue := by
  have hcopy : ∃ copy, copy ∈ s.inFlight ∨ copy ∈ s.waiting := by
    by_cases hwaiting : s.waiting = []
    · have hflight : s.inFlight ≠ [] := by
        intro hflight
        refine hbusy ⟨?_, hwaiting⟩
        rw [h.stalled, unfired_length, hflight, hwaiting]
        rfl
      obtain ⟨copy, hcopy⟩ := List.exists_mem_of_ne_nil _ hflight
      exact ⟨copy, .inl hcopy⟩
    · obtain ⟨copy, hcopy⟩ := List.exists_mem_of_ne_nil _ hwaiting
      exact ⟨copy, .inr hcopy⟩
  obtain ⟨copy, hcopy⟩ := hcopy
  obtain ⟨host, queue, hqueue, -⟩ := h.owner copy hcopy
  exact ⟨host, queue, hqueue⟩

/-- When the last unfired copy is in flight, none waits: the waiting ones would block too. -/
theorem waiting_of_last {copy : Request} (h : Delivering s blocking) (hmem : copy ∈ s.inFlight)
    (hlast : s.dma.stalledAiMRequests - 1 = 0) : s.waiting = [] := by
  have hstalled := h.stalled
  have hflight := List.length_pos_of_mem hmem
  rw [unfired_length] at hstalled
  have hcount : s.waiting.countP isBlocking = 0 := by omega
  rw [List.eq_nil_iff_forall_not_mem]
  intro x hx
  have hkind := h.kind x hx
  rw [h.flight (List.ne_nil_of_mem hmem)] at hkind
  exact List.countP_eq_zero.mp hcount x hx hkind

theorem retry_sent {channel : Nat} {copy : Request} {queue : List Request}
    (h : Delivering s blocking) (hqueue : s.dma.remaining channel = copy :: queue)
    (hdeliver : s.deliver p send channel copy = some (true, s')) :
    Delivering (s'.setRemaining channel queue) blocking := by
  obtain ⟨-, c, -, rfl⟩ := deliver_eq_some hdeliver
  have hchannel : channel < maxChannelCount := by
    by_cases hlt : channel < maxChannelCount
    · exact hlt
    · rw [h.bounded channel (Nat.le_of_not_lt hlt)] at hqueue
      cases hqueue
  have hcopy : copy ∈ s.waiting := mem_waiting.mpr ⟨channel, hchannel, by simp [hqueue]⟩
  have hsub : ∀ i, ∀ x ∈ (if i = channel then queue else s.dma.remaining i),
      x ∈ s.dma.remaining i := by
    intro i x hx
    split at hx
    · next hi =>
        rw [hi, hqueue]
        exact List.mem_cons_of_mem _ hx
    · exact hx
  refine ⟨?_, ?_, ?_, ?_, ?_⟩
  · intro i hi
    have := h.bounded i hi
    rw [List.eq_nil_iff_forall_not_mem] at this ⊢
    exact fun x hx => this x (hsub i x hx)
  · have hcount := Counting.countP_flatMap_update isBlocking hchannel
      (f := s.dma.remaining) (g := fun i => if i = channel then queue else s.dma.remaining i)
      (fun i hi => if_neg hi)
    have hstalled := h.stalled
    rw [unfired_length] at hstalled ⊢
    simp only [setRemaining, waiting, hqueue, if_true, List.countP_cons, Bool.true_and]
      at hcount hstalled ⊢
    rw [hstalled]
    unfold isBlocking at hcount ⊢
    split at hcount <;> simp_all
    omega
  · rintro x (hx | hx)
    · have hx : x ∈ s.inFlight ∨ x = copy := by
        simp only [setRemaining, Bool.true_and] at hx
        split at hx
        · simpa using hx
        · exact .inl hx
      rcases hx with hx | rfl
      · exact h.owner x (.inl hx)
      · exact h.owner x (.inr hcopy)
    · obtain ⟨i, hi, hx⟩ := mem_waiting.mp hx
      exact h.owner x (.inr (mem_waiting.mpr ⟨i, hi, hsub i x hx⟩))
  · intro hflight
    simp only [setRemaining, Bool.true_and] at hflight
    split at hflight
    · next hblocking => exact (h.kind copy hcopy).symm.trans hblocking
    · exact h.flight hflight
  · intro x hx
    obtain ⟨i, hi, hx⟩ := mem_waiting.mp hx
    exact h.kind x (mem_waiting.mpr ⟨i, hi, hsub i x hx⟩)

theorem refused {channel : Nat} {copy : Request} (h : Delivering s blocking)
    (hdeliver : s.deliver p send channel copy = some (false, s')) : Delivering s' blocking := by
  obtain ⟨-, c, -, rfl⟩ := deliver_eq_some hdeliver
  exact ⟨h.bounded, h.stalled, h.owner, h.flight, h.kind⟩

theorem sendCopy {channel : Nat} {host copy : Request} {queue : List Request} {ok : Bool}
    (h : Delivering s blocking) (hqueue : s.dma.requestQueue = host :: queue)
    (hhost : host.callback ≠ .aimReceive) (hcopy : CopyOf host blocking copy)
    (hsend : s.sendCopy p send blocking channel copy = some (ok, s')) :
    Delivering s' blocking := by
  obtain ⟨u, hdeliver, hchannel, rfl⟩ := sendCopy_eq_some hsend
  obtain ⟨-, c, -, rfl⟩ := deliver_eq_some hdeliver
  have hkind : isBlocking { copy with aimReqId := s.dma.aimReqId } = blocking := by
    cases blocking <;> simp [isBlocking, hcopy.callback, hhost]
  have hblocking : (copy.callback == Callback.aimReceive) = blocking := hkind
  cases ok with
  | true =>
      refine ⟨?_, ?_, ?_, ?_, ?_⟩
      · intro i hi
        simpa using h.bounded i hi
      · have hstalled := h.stalled
        rw [unfired_length] at hstalled ⊢
        simp only [waiting, Bool.true_and, hblocking, reduceCtorEq, false_and, if_false]
          at hstalled ⊢
        rw [hstalled]
        cases blocking <;> grind
      · rintro x (hx | hx)
        · have hx : x ∈ s.inFlight ∨ x = { copy with aimReqId := s.dma.aimReqId } := by
            dsimp only at hx
            split at hx
            · simpa using hx
            · exact .inl hx
          rcases hx with hx | rfl
          · exact h.owner x (.inl hx)
          · exact ⟨host, queue, hqueue, hcopy.hostReqId⟩
        · exact h.owner x (.inr (by simpa [waiting] using hx))
      · intro hflight
        simp only [Bool.true_and, hblocking] at hflight
        split at hflight
        · assumption
        · exact h.flight hflight
      · intro x hx
        exact h.kind x (by simpa [waiting] using hx)
  | false =>
      have hchannel := hchannel rfl
      have hnew : ∀ i, ∀ x ∈ (if i = channel then
          s.dma.remaining channel ++ [{ copy with aimReqId := s.dma.aimReqId }]
            else s.dma.remaining i),
          x ∈ s.dma.remaining i ∨ x = { copy with aimReqId := s.dma.aimReqId } := by
        intro i x hx
        split at hx
        · next hi =>
            rw [hi]
            simpa using hx
        · exact .inl hx
      refine ⟨?_, ?_, ?_, ?_, ?_⟩
      · intro i hi
        have hne : i ≠ channel := by omega
        simpa [hne] using h.bounded i hi
      · have hcount := Counting.countP_flatMap_update isBlocking hchannel
          (f := s.dma.remaining) (g := fun i => if i = channel then
            s.dma.remaining channel ++ [{ copy with aimReqId := s.dma.aimReqId }]
              else s.dma.remaining i) (fun i hi => if_neg hi)
        have hstalled := h.stalled
        rw [unfired_length] at hstalled ⊢
        simp only [waiting, if_true, List.countP_append, List.countP_singleton, hkind,
          Bool.false_and, true_and] at hcount hstalled ⊢
        rw [hstalled]
        cases blocking <;> simp at hcount ⊢ <;> omega
      · rintro x (hx | hx)
        · exact h.owner x (.inl (by simpa using hx))
        · obtain ⟨i, hi, hx⟩ := mem_waiting.mp hx
          rcases hnew i x (by simpa using hx) with hx | rfl
          · exact h.owner x (.inr (mem_waiting.mpr ⟨i, hi, hx⟩))
          · exact ⟨host, queue, hqueue, hcopy.hostReqId⟩
      · intro hflight
        exact h.flight (by simpa using hflight)
      · intro x hx
        obtain ⟨i, hi, hx⟩ := mem_waiting.mp hx
        rcases hnew i x (by simpa using hx) with hx | rfl
        · exact h.kind x (mem_waiting.mpr ⟨i, hi, hx⟩)
        · exact hkind

end Delivering

theorem retryChannels_delivering {channels : List Nat} {was isLeft : Bool}
    (hretry : s.retryChannels p send channels = some (was, isLeft, s'))
    (h : Delivering s blocking) :
    Delivering s' blocking ∧ SameHistory s s' := by
  refine retryChannels_induct (I := fun s' => Delivering s' blocking ∧ SameHistory s s')
    ?_ ?_ hretry ⟨h, .refl s⟩
  · intro u t channel copy queue hI hqueue hdeliver
    have hsame := hI.2.trans (deliver_sameHistory hdeliver)
    exact ⟨hI.1.retry_sent hqueue hdeliver, hsame.requestQueue, hsame.enqueued, hsame.phases⟩
  · intro u t channel copy queue hI _ hdeliver
    exact ⟨hI.1.refused hdeliver, hI.2.trans (deliver_sameHistory hdeliver)⟩

theorem sendCopies_delivering {host : Request} {queue : List Request}
    {copies : List (Nat × Request)} {allSent : Bool}
    (hsend : s.sendCopies p send blocking copies = some (allSent, s'))
    (hqueue : s.dma.requestQueue = host :: queue) (hhost : host.callback ≠ .aimReceive)
    (hcopies : ∀ c ∈ copies, CopyOf host blocking c.2) (h : Delivering s blocking) :
    Delivering s' blocking ∧ SameHistory s s' := by
  refine sendCopies_induct (I := fun s' => Delivering s' blocking ∧ SameHistory s s') ?_ hsend
    ⟨h, .refl s⟩
  intro u t ok channel copy hmem hI hone
  have hhead : u.dma.requestQueue = host :: queue := hI.2.requestQueue.trans hqueue
  refine ⟨hI.1.sendCopy hhead hhost (hcopies _ hmem) hone, ?_⟩
  obtain ⟨v, hdeliver, -, rfl⟩ := sendCopy_eq_some hone
  have hsame := hI.2.trans (deliver_sameHistory hdeliver)
  exact ⟨hI.2.requestQueue, hsame.enqueued, hsame.phases⟩

/-! ## The protocol -/

/-- The invariant of the DMA: its accounts are right, and the log is the whole life of the
removed host requests, followed by the decoding of the open one. -/
structure Retiring (s : System C) : Prop where
  delivering : ∃ blocking, Delivering s blocking
  hosts : ∀ host ∈ s.dma.requestQueue, host.callback ≠ .aimReceive
  history : ∃ done, enqueued s.log = done ++ s.dma.requestQueue ∧
    phases s.log = done.flatMap life ++ s.opened.map .decoded

theorem popHead_retiring {arg : Request → Request} (h : Delivering s blocking)
    (hstalled : s.dma.stalledAiMRequests = 0) (hwaiting : s.waiting = [])
    (hhosts : ∀ host ∈ s.dma.requestQueue, host.callback ≠ .aimReceive)
    (hhistory : ∃ done, enqueued s.log = done ++ s.dma.requestQueue ∧
      phases s.log = done.flatMap life ++ (s.dma.requestQueue.take 1).map .decoded)
    (hpop : s.popHead arg = some t) : Retiring t := by
  unfold popHead at hpop
  split at hpop
  · cases hpop
  · next host queue hqueue =>
      rw [← Option.some.inj hpop]
      have hidle := h.idle hstalled
      obtain ⟨done, henqueued, hphases⟩ := hhistory
      rw [hqueue] at henqueued hphases hhosts
      refine ⟨⟨blocking, .of_idle ?_ ?_ ?_ ?_ _⟩,
        fun x hx => hhosts x (List.mem_cons_of_mem _ hx), done ++ [host], ?_, ?_⟩
      · exact h.bounded
      · exact hstalled
      · exact hidle
      · exact hwaiting
      · dsimp only
        split <;> simp [enqueued] at henqueued ⊢ <;> exact henqueued
      · have hclosed : System.opened { s with
            dma.requestQueue := queue
            log := s.log ++ (if host.callback = .empty then [] else
              [.callback host (arg host)]) ++ [.remove host] } = [] :=
          if_pos ⟨hstalled, hwaiting⟩
        rw [hclosed, List.map_nil, List.append_nil, List.flatMap_append, List.flatMap_singleton,
          life]
        dsimp only
        split <;> simp [phases] at hphases ⊢ <;> rw [hphases] <;> simp

theorem decodeHead_retiring {host : Request} {queue : List Request}
    (hqueue : s.dma.requestQueue = host :: queue) (hstalled : s.dma.stalledAiMRequests = 0)
    (hwaiting : s.waiting = []) (h : Retiring s) (hdecode : s.decodeHead p send host = some t) :
    Retiring t := by
  obtain ⟨d, hd, hdecode⟩ := Option.bind_eq_some_iff.mp hdecode
  obtain ⟨⟨allSent, u⟩, hsend, hdecode⟩ := Option.bind_eq_some_iff.mp hdecode
  obtain ⟨b, hdelivering⟩ := h.delivering
  have hhost := h.hosts host (hqueue ▸ List.mem_cons_self ..)
  have hstart : Delivering { s with
      dma.cfrValues := d.cfrValues, log := s.log ++ [.decode host] } d.blocking := by
    refine .of_idle ?_ ?_ ?_ ?_ _
    · exact hdelivering.bounded
    · exact hstalled
    · exact hdelivering.idle hstalled
    · exact hwaiting
  obtain ⟨hsent, hsame⟩ := sendCopies_delivering hsend hqueue hhost
    (fun c hc => decode_copy hd hc) hstart
  obtain ⟨hall, hsome⟩ := sendCopies_allSent hsend
  obtain ⟨done, henqueued, hphases⟩ := h.history
  have hclosed : s.opened = [] := if_pos ⟨hstalled, hwaiting⟩
  have hhosts : ∀ x ∈ u.dma.requestQueue, x.callback ≠ .aimReceive := by
    rw [hsame.requestQueue]
    exact h.hosts
  have hhistory : ∃ done, enqueued u.log = done ++ u.dma.requestQueue ∧
      phases u.log = done.flatMap life ++ (u.dma.requestQueue.take 1).map .decoded := by
    refine ⟨done, ?_, ?_⟩
    · rw [hsame.enqueued, hsame.requestQueue]
      simpa [enqueued] using henqueued
    · rw [hsame.phases, hsame.requestQueue]
      simp [phases] at hphases ⊢
      rw [hphases, hclosed, hqueue]
      simp
  dsimp only at hdecode
  split at hdecode
  · next hdone =>
      refine popHead_retiring hsent hdone.1 ?_ hhosts hhistory hdecode
      rw [waiting, hall hdone.2]
      exact hwaiting
  · next hopen =>
      rw [← Option.some.inj hdecode]
      have hbusy : ¬ u.Idle := by
        rintro ⟨hzero, hnil⟩
        cases allSent with
        | true => exact hopen ⟨hzero, rfl⟩
        | false => exact hsome rfl hnil
      refine ⟨⟨d.blocking, hsent⟩, hhosts, ?_⟩
      rw [opened, if_neg hbusy]
      exact hhistory

theorem tick_retiring (h : Retiring s) (htick : s.tick p send = some t) : Retiring t := by
  obtain ⟨b, hdelivering⟩ := h.delivering
  obtain ⟨u, v, ⟨was, isLeft, hretry⟩, rfl, hcases⟩ := tick_cases hdelivering.bounded htick
  suffices hretiring : Retiring v from ⟨hretiring.delivering.imp fun _ h =>
    ⟨h.bounded, h.stalled, h.owner, h.flight, h.kind⟩, hretiring.hosts, hretiring.history⟩
  obtain ⟨hdelivered, hsame⟩ := retryChannels_delivering hretry hdelivering
  have hhosts : ∀ x ∈ u.dma.requestQueue, x.callback ≠ .aimReceive := by
    rw [hsame.requestQueue]
    exact h.hosts
  obtain ⟨done, henqueued, hphases⟩ := h.history
  rw [← hsame.enqueued, ← hsame.requestQueue] at henqueued
  rw [← hsame.phases] at hphases
  rcases hcases with ⟨rfl, hidle⟩ | ⟨hbusy, hidle, hpop⟩ | ⟨hidle, rfl, host, queue, hqueue, hv⟩
  · have hopened : v.opened = s.opened := by
      rw [opened, opened, hsame.requestQueue]
      exact ite_congr (propext hidle) (fun _ => rfl) fun _ => rfl
    exact ⟨⟨b, hdelivered⟩, hhosts, done, henqueued, hopened ▸ hphases⟩
  · refine popHead_retiring hdelivered hidle.1 hidle.2 hhosts ⟨done, henqueued, ?_⟩ hpop
    rw [hphases, opened, if_neg hbusy, hsame.requestQueue]
  · exact decodeHead_retiring hqueue hidle.1 hidle.2 h hv

theorem receive_of_head {host copy : Request} {queue : List Request}
    (hqueue : s.dma.requestQueue = host :: queue) (hid : copy.hostReqId = host.hostReqId) :
    s.receive copy =
      if s.dma.stalledAiMRequests - 1 = 0 then
        { s with dma.stalledAiMRequests := s.dma.stalledAiMRequests - 1 }.popHead id
      else some { s with dma.stalledAiMRequests := s.dma.stalledAiMRequests - 1 } := by
  unfold receive
  split
  · next hnil =>
      rw [hqueue] at hnil
      cases hnil
  · next host' queue' hcons =>
      rw [hqueue] at hcons
      obtain ⟨rfl, rfl⟩ := List.cons.inj hcons
      rw [if_neg fun hne => hne hid]

theorem receive_retiring {i : Nat} {copy : Request} (h : Retiring s)
    (hi : s.inFlight[i]? = some copy) :
    ∃ t, { s with inFlight := s.inFlight.eraseIdx i }.receive copy = some t ∧ Retiring t := by
  obtain ⟨b, hdelivering⟩ := h.delivering
  obtain ⟨done, henqueued, hphases⟩ := h.history
  have hmem : copy ∈ s.inFlight := List.mem_of_getElem? hi
  obtain ⟨host, queue, hqueue, hid⟩ := hdelivering.owner copy (.inl hmem)
  have hlength : (s.inFlight.eraseIdx i).length + 1 = s.inFlight.length := by
    obtain ⟨hlt, -⟩ := List.getElem?_eq_some_iff.mp hi
    rw [List.length_eraseIdx_of_lt hlt]
    omega
  have hpos : s.dma.stalledAiMRequests ≠ 0 := by
    rw [hdelivering.stalled, unfired_length]
    omega
  have hopened : s.opened = s.dma.requestQueue.take 1 := if_neg fun hidle => hpos hidle.1
  have hfired : Delivering { s with
      inFlight := s.inFlight.eraseIdx i
      dma.stalledAiMRequests := s.dma.stalledAiMRequests - 1 } b := by
    refine ⟨hdelivering.bounded, ?_, ?_, ?_, hdelivering.kind⟩
    · have hstalled := hdelivering.stalled
      rw [unfired_length] at hstalled ⊢
      simp only [waiting] at hstalled ⊢
      omega
    · rintro x (hx | hx)
      · exact hdelivering.owner x (.inl (Counting.mem_of_mem_eraseIdx hx))
      · exact hdelivering.owner x (.inr hx)
    · exact fun _ => hdelivering.flight (List.ne_nil_of_mem hmem)
  have hhistory : ∃ done, enqueued s.log = done ++ s.dma.requestQueue ∧
      phases s.log = done.flatMap life ++ (s.dma.requestQueue.take 1).map .decoded :=
    ⟨done, henqueued, hopened ▸ hphases⟩
  rw [receive_of_head (s := { s with inFlight := s.inFlight.eraseIdx i }) hqueue hid]
  split
  · next hzero =>
      have hwaiting := hdelivering.waiting_of_last hmem hzero
      obtain ⟨t, ht⟩ : ∃ t, System.popHead id { s with
          inFlight := s.inFlight.eraseIdx i
          dma.stalledAiMRequests := s.dma.stalledAiMRequests - 1 } = some t := by
        unfold popHead
        split
        · next hnil =>
            have hnil : s.dma.requestQueue = [] := hnil
            rw [hqueue] at hnil
            cases hnil
        · exact ⟨_, rfl⟩
      exact ⟨t, ht, popHead_retiring hfired hzero hwaiting h.hosts hhistory ht⟩
  · next hzero =>
      refine ⟨_, rfl, ⟨b, hfired⟩, h.hosts, ?_⟩
      rw [opened, if_neg fun hidle => hzero hidle.1]
      exact hhistory

theorem send_retiring {req : Request} {ok : Bool} (hreq : req.callback ≠ .aimReceive)
    (h : Retiring s) (hsend : s.send req = some (ok, t)) : Retiring t := by
  obtain ⟨b, hdelivering⟩ := h.delivering
  obtain ⟨u, full, rw, aim, rfl | rfl, rfl⟩ := send_cases hsend
  · exact ⟨⟨b, hdelivering.bounded, hdelivering.stalled, hdelivering.owner,
      hdelivering.flight, hdelivering.kind⟩, h.hosts, h.history⟩
  · obtain ⟨done, henqueued, hphases⟩ := h.history
    refine ⟨⟨b, hdelivering.bounded, hdelivering.stalled, ?_, hdelivering.flight,
      hdelivering.kind⟩, ?_, done, ?_, ?_⟩
    · intro copy hcopy
      obtain ⟨host, queue, hqueue, hid⟩ := hdelivering.owner copy hcopy
      exact ⟨host, queue ++ [req], by simp [push, hqueue], hid⟩
    · intro host hhost
      rcases List.mem_append.mp hhost with hhost | hhost
      · exact h.hosts host hhost
      · rw [List.mem_singleton.mp hhost]
        exact hreq
    · simp [push, enqueued] at henqueued ⊢
      rw [henqueued, List.append_assoc]
    · have hopened : (s.push req).opened = s.opened := by
        by_cases hidle : s.Idle
        · rw [opened, opened, if_pos hidle]
          exact if_pos hidle
        · obtain ⟨host, queue, hqueue⟩ := hdelivering.opened_head hidle
          rw [opened, opened, if_neg hidle]
          refine (if_neg hidle).trans ?_
          simp [push, hqueue]
      refine Eq.trans ?_ (congrArg (fun l => done.flatMap life ++ l.map .decoded) hopened.symm)
      rw [← hphases]
      simp [push, phases]

theorem init_retiring (ctls : Nat → C) : Retiring ({ controllers := ctls } : System C) := by
  have hwaiting : ({ controllers := ctls } : System C).waiting = [] :=
    List.flatMap_eq_nil_iff.mpr fun _ _ => rfl
  have hopened : ({ controllers := ctls } : System C).opened = [] := if_pos ⟨rfl, hwaiting⟩
  refine ⟨⟨true, .of_idle (fun _ _ => rfl) rfl rfl hwaiting true⟩,
    fun _ h => (List.not_mem_nil h).elim, [], rfl, ?_⟩
  rw [hopened]
  rfl

theorem run_retiring {ctls : Nat → C} (hr : Run p send ctls s) : Retiring s := by
  refine hr.invariant ?_ ?_
  · rintro s rfl
    exact init_retiring ctls
  · intro s op t h hop hstep
    cases op with
    | send req =>
        obtain ⟨⟨ok, t⟩, hsend, rfl⟩ := Option.map_eq_some_iff.mp hstep
        exact send_retiring hop h hsend
    | tick => exact tick_retiring h hstep
    | receive i =>
        obtain ⟨copy, hi, hreceive⟩ := Option.bind_eq_some_iff.mp hstep
        obtain ⟨t', ht', hretiring⟩ := receive_retiring h hi
        rw [ht'] at hreceive
        rw [← Option.some.inj hreceive]
        exact hretiring
    | controllers ctls =>
        obtain ⟨b, hdelivering⟩ := h.delivering
        rw [← Option.some.inj hstep]
        exact ⟨⟨b, hdelivering.bounded, hdelivering.stalled, hdelivering.owner,
          hdelivering.flight, hdelivering.kind⟩, h.hosts, h.history⟩

/-! ## The host requests that were accepted -/

theorem send_enqueued {req : Request} {ok : Bool} (h : s.send req = some (ok, t)) :
    enqueued t.log = enqueued s.log ++ if ok then [req] else [] := by
  unfold send at h
  split at h
  · obtain ⟨rfl, rfl⟩ := Prod.mk.inj (Option.some.inj h)
    exact (List.append_nil _).symm
  · have hone : enqueued (s.log ++ [.enqueue req]) = enqueued s.log ++ [req] := enqueued_append ..
    dsimp only at h
    split at h
    · obtain ⟨rfl, rfl⟩ := Prod.mk.inj (Option.some.inj h)
      exact hone
    · obtain ⟨rfl, rfl⟩ := Prod.mk.inj (Option.some.inj h)
      exact hone
    · obtain ⟨rfl, rfl⟩ := Prod.mk.inj (Option.some.inj h)
      exact hone
    · cases h

theorem popHead_enqueued {arg : Request → Request} (h : s.popHead arg = some t) :
    enqueued t.log = enqueued s.log := by
  unfold popHead at h
  split at h
  · cases h
  · rw [← Option.some.inj h]
    dsimp only
    split <;> simp [enqueued]

theorem receive_enqueued {copy : Request} (h : s.receive copy = some t) :
    enqueued t.log = enqueued s.log := by
  unfold receive at h
  split at h
  · cases h
  · split at h
    · cases h
    · dsimp only at h
      split at h
      · have hpop := popHead_enqueued h
        exact hpop
      · rw [← Option.some.inj h]

theorem tick_enqueued (h : s.tick p send = some t) : enqueued t.log = enqueued s.log := by
  obtain ⟨⟨was, isLeft, u⟩, hretry, h⟩ := Option.bind_eq_some_iff.mp h
  obtain ⟨v, hv, rfl⟩ := Option.map_eq_some_iff.mp h
  have hu : enqueued u.log = enqueued s.log :=
    retryChannels_induct (I := fun u => enqueued u.log = enqueued s.log)
      (fun _ _ _ _ _ hs _ hdeliver => (deliver_sameHistory hdeliver).enqueued.trans hs)
      (fun _ _ _ _ _ hs _ hdeliver => (deliver_sameHistory hdeliver).enqueued.trans hs) hretry rfl
  suffices hsame : enqueued v.log = enqueued u.log from hsame.trans hu
  split at hv
  · split at hv
    · split at hv
      · rw [Option.some.inj hv]
      · exact popHead_enqueued hv
    · split at hv
      · rw [Option.some.inj hv]
      · next host queue hqueue =>
          obtain ⟨d, -, hv⟩ := Option.bind_eq_some_iff.mp hv
          obtain ⟨⟨allSent, w⟩, hsent, hv⟩ := Option.bind_eq_some_iff.mp hv
          have hw : enqueued w.log = enqueued u.log := by
            refine sendCopies_induct (I := fun w => enqueued w.log = enqueued u.log) ?_ hsent ?_
            · intro x y ok channel copy _ hx hcopy
              obtain ⟨z, hdeliver, -, rfl⟩ := sendCopy_eq_some hcopy
              exact (deliver_sameHistory hdeliver).enqueued.trans hx
            · simp [enqueued]
          dsimp only at hv
          split at hv
          · exact (popHead_enqueued hv).trans hw
          · rw [← Option.some.inj hv]
            exact hw
  · rw [Option.some.inj hv]

/-- In every run the accepted host requests are the removed ones followed by the queue, the
removed ones had their whole life one after the other, the open one was only decoded, the
counter is the number of the unfired blocking copies, all of the head, and no callback
fails. -/
theorem run_retires {ctls : Nat → C} (hr : Run p send ctls s) :
    (∃ done, enqueued s.log = done ++ s.dma.requestQueue ∧
      phases s.log = done.flatMap life ++ s.opened.map .decoded) ∧
    s.dma.stalledAiMRequests = s.unfired.length ∧
    (∀ copy ∈ s.unfired, ∃ host queue, s.dma.requestQueue = host :: queue ∧
      copy.hostReqId = host.hostReqId) ∧
    ∀ i, i < s.inFlight.length → (s.step p send (.receive i)).isSome = true := by
  have h := run_retiring hr
  obtain ⟨b, hdelivering⟩ := h.delivering
  refine ⟨h.history, hdelivering.stalled, ?_, ?_⟩
  · intro copy hcopy
    rcases List.mem_append.mp hcopy with hcopy | hcopy
    · exact hdelivering.owner copy (.inl hcopy)
    · exact hdelivering.owner copy (.inr (List.mem_filter.mp hcopy).1)
  · intro i hi
    obtain ⟨t, ht, -⟩ := receive_retiring h (List.getElem?_eq_getElem hi)
    simp [step, hi, ht]

/-- A `RD_MAC` of two channels of which one refuses at first, and an `EWADD`. -/
theorem run_retires_rd_mac :
    ∃ s : System (List Bool), s.log.length = 9 ∧
      s.dma.stalledAiMRequests = s.unfired.length := by
  have hrun : ((Runs.replay (step gddr6System scripted) (fun _ op => decide (HostCallback op))
      { controllers := fun channel => if channel = 31 then [false] else [] }
      [.send { type := .AIM, opcode := .ISR_RD_MAC, gprAddr0 := 0, channelMask := 3 },
        .send { type := .AIM, opcode := .ISR_EWADD, hostReqId := 1 },
        .tick, .receive 0, .tick, .receive 0, .tick]).any fun s => s.log.length == 9) =
      true := by
    decide +kernel
  obtain ⟨s, hs, hlog⟩ := Option.any_eq_true .. |>.mp hrun
  exact ⟨s, eq_of_beq hlog, (run_retires (replay_run hs)).2.1⟩

end System

end AimSimulator.Dma
