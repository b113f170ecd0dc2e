import AimSimulator.Processor.LLCStructure
/-!
# Wake-ups of the cores

Where the requests are that the cache has accepted.  A hit that completes and a miss that
allocates a line both replace the list of requests that wait for their address; no request is
lost as long as that list is empty.
-/

namespace AimSimulator.Processor

open SimpleO3LLC

namespace SimpleO3

variable {p : LLCParams} {s s' : SimpleO3}

/-! ## Located requests -/

/-- The hits on their way, the requests that wait and those that were received. -/
def located (s : SimpleO3) : List Request :=
  s.llc.hitList.map Prod.snd ++ s.llc.receiveRequests.all ++ s.received

def accepts (p : LLCParams) (s : SimpleO3) : Op → List Request
  | .send req =>
      match s.llc.send p req with
      | .ok (_, true) => [req]
      | _ => []
  | .tick _ | .receive _ | .respond _ => []

/-- Nothing waits for the address of a hit that completes or of a miss that allocates a line. -/
def NoOverlap (p : LLCParams) (s : SimpleO3) : Op → Prop
  | .send req => Allocates p s.llc req → s.llc.receiveRequests.get req.addr = []
  | .tick _ => ∀ hit ∈ s.llc.hitList, hit.1 ≤ s.llc.clk + 1 →
      s.llc.receiveRequests.get hit.2.addr = []
  | .receive _ | .respond _ => True

instance (llc : SimpleO3LLC) (req : Request) : Decidable (Allocates p llc req) :=
  inferInstanceAs (Decidable (_ = none ∧ _ = none ∧ _ ≠ _ ∧ _ = true))

instance : (op : Op) → Decidable (NoOverlap p s op)
  | .send req => inferInstanceAs (Decidable (Allocates p s.llc req → _ = []))
  | .tick _ => inferInstanceAs (Decidable (∀ hit ∈ s.llc.hitList, hit.1 ≤ _ → _ = []))
  | .receive _ | .respond _ => inferInstanceAs (Decidable True)

theorem missRequest_idem (req : Request) : missRequest (missRequest req) = missRequest req := by
  by_cases h : req.type = .Write
  · simp [missRequest, h]
  · simp [missRequest, h]

theorem completeHits_located (hs : WellFormed p s.llc) {clk : Int}
    {hits kept : List (Int × Request)}
    (hfree : ∀ due req, (due, req) ∈ hits → due ≤ clk → s.llc.receiveRequests.get req.addr = [])
    (h : completeHits p clk s hits = .ok (s', kept)) :
    s'.llc.receiveRequests.all.Perm s.llc.receiveRequests.all ∧
      (kept.map Prod.snd ++ s'.received).Perm (hits.map Prod.snd ++ s.received) := by
  induction hits generalizing s s' kept with
  | nil =>
      obtain ⟨rfl, rfl⟩ := Prod.mk.inj (Except.ok.inj h)
      exact ⟨.refl _, .refl _⟩
  | cons hit hits ih =>
      obtain ⟨due, req⟩ := hit
      rw [completeHits] at h
      split at h
      · next hdue =>
          split at h
          · cases h
          · next s₁ hhit =>
              obtain ⟨hs₁, -, hrequests, hreceived, -⟩ := completeHit_cases hs hhit
              have hempty := hfree due req List.mem_cons_self hdue
              have hfree₁ : ∀ due req, (due, req) ∈ hits → due ≤ clk →
                  s₁.llc.receiveRequests.get req.addr = [] := by
                intro due' req' hmem hdue'
                rw [hrequests]
                by_cases haddr : req'.addr = req.addr
                · rw [haddr, Buckets.get_put_self]
                · rw [Buckets.get_put_ne _ _ haddr]
                  exact hfree due' req' (List.mem_cons_of_mem _ hmem) hdue'
              obtain ⟨hall, hperm⟩ := ih hs₁ hfree₁ h
              rw [hrequests] at hall
              rw [hreceived, ← List.append_assoc] at hperm
              refine ⟨hall.trans (Buckets.all_put_of_get_eq_nil _ [] hempty), hperm.trans ?_⟩
              exact List.perm_append_singleton _ _
      · obtain ⟨⟨s₁, kept₁⟩, hrest, heq⟩ := Excepts.map_eq_ok.mp h
        obtain ⟨rfl, rfl⟩ := Prod.mk.inj heq
        obtain ⟨hall, hperm⟩ :=
          ih hs (fun due req hmem => hfree due req (List.mem_cons_of_mem _ hmem)) hrest
        exact ⟨hall, hperm.cons req⟩

theorem located_cons {req : Request} {hits requests requests' received : List Request}
    (h : (requests'.map missRequest).Perm ((missRequest req :: requests).map missRequest)) :
    ((hits ++ requests' ++ received).map missRequest).Perm
      (([req] ++ (hits ++ requests ++ received)).map missRequest) := by
  rw [List.map_cons, missRequest_idem, List.perm_iff_count] at h
  rw [List.perm_iff_count]
  intro r
  have hr := h r
  simp only [List.map_append, List.map_singleton, List.count_append, List.count_cons,
    List.count_nil] at hr ⊢
  omega

/-- A call adds to the located requests what it accepts, if nothing waits for the addresses
whose lists it replaces. -/
theorem step_located (hp : p.PowersOfTwo) (hs : WellFormed p s.llc) {op : Op}
    (hfree : NoOverlap p s op) (h : s.step p op = .ok s') :
    (s'.located.map missRequest).Perm ((accepts p s op ++ s.located).map missRequest) := by
  cases op with
  | send req =>
      obtain ⟨llc', accepted, heq, -, -, hsent⟩ := send_cases hs hp req
      rw [step, heq] at h
      obtain rfl := Except.ok.inj h
      rw [accepts, heq, located, located]
      cases hsent with
      | hit _ _ hrequests _ hhit =>
          refine List.Perm.map _ ?_
          rw [hrequests, hhit, List.map_append, List.perm_iff_count]
          intro r
          simp only [List.map_singleton, List.count_append]
          omega
      | mshrHit _ _ _ hrequests _ hhit =>
          rw [hrequests, hhit]
          exact located_cons ((Buckets.all_push _ _ _).map _)
      | refused => exact .refl _
      | allocate halloc _ hrequests _ _ hhit =>
          rw [hrequests, hhit]
          exact located_cons ((Buckets.all_put_of_get_eq_nil _ _ (hfree halloc)).map _)
  | tick answers =>
      obtain ⟨t, hitList, hhits, rfl⟩ := tick_cases h
      obtain ⟨hall, hperm⟩ := completeHits_located (s := s.tickMisses answers) hs
        (fun due req hmem hdue => hfree (due, req) hmem hdue) hhits
      change t.llc.receiveRequests.all.Perm s.llc.receiveRequests.all at hall
      change (hitList.map Prod.snd ++ t.received).Perm (s.llc.hitList.map Prod.snd ++ s.received)
        at hperm
      refine List.Perm.map _ ?_
      rw [List.perm_iff_count] at hall hperm ⊢
      intro r
      have hall := hall r
      have hperm := hperm r
      simp only [located, accepts, List.count_append, List.nil_append] at hall hperm ⊢
      omega
  | receive req =>
      obtain ⟨llc', heq, -, -, hrequests, -, hhit, -⟩ := SimpleO3LLC.receive_cases hs req
      rw [step, heq] at h
      obtain rfl := Except.ok.inj h
      rw [located, located, accepts]
      dsimp only
      rw [hrequests, hhit]
      exact .refl _
  | respond req =>
      obtain ⟨-, -, hrequests, hreceived, -, hhit, -⟩ :=
        receive_cases (s := { s with memory := s.memory.erase req }) hs h
      refine List.Perm.map _ ?_
      have hall := Buckets.all_perm s.llc.receiveRequests req.addr
      rw [located, located, accepts, hrequests, hreceived, hhit, Buckets.all_put]
      rw [List.perm_iff_count] at hall ⊢
      intro r
      have hall := hall r
      simp only [List.count_append, List.nil_append] at hall ⊢
      omega

theorem length_located (s : SimpleO3) : s.located.length =
    s.llc.hitList.length + s.llc.receiveRequests.all.length + s.received.length := by
  rw [located, List.length_append, List.length_append, List.length_map]

theorem length_all_put_nil (b : Buckets Int Request) (addr : Int) :
    (b.put addr []).all.length + (b.get addr).length = b.all.length := by
  rw [(Buckets.all_perm b addr).length_eq, Buckets.all_put, List.nil_append, List.length_append,
    Nat.add_comm]

theorem completeHits_length (hs : WellFormed p s.llc) {clk : Int} {hits kept : List (Int × Request)}
    (h : completeHits p clk s hits = .ok (s', kept)) :
    s'.llc.receiveRequests.all.length + kept.length + s'.received.length ≤
      s.llc.receiveRequests.all.length + hits.length + s.received.length ∧
    (s'.llc.receiveRequests.all.length + kept.length + s'.received.length =
        s.llc.receiveRequests.all.length + hits.length + s.received.length →
      ∀ due req, (due, req) ∈ hits → due ≤ clk → s.llc.receiveRequests.get req.addr = []) := by
  induction hits generalizing s s' kept with
  | nil =>
      obtain ⟨rfl, rfl⟩ := Prod.mk.inj (Except.ok.inj h)
      exact ⟨Nat.le_refl _, fun _ _ _ hmem => nomatch hmem⟩
  | cons hit hits ih =>
      obtain ⟨due, req⟩ := hit
      rw [completeHits] at h
      split at h
      · next hdue =>
          split at h
          · cases h
          · next s₁ hhit =>
              obtain ⟨hs₁, -, hrequests, hreceived, -⟩ := completeHit_cases hs hhit
              obtain ⟨hle, hfree⟩ := ih hs₁ h
              have hall := length_all_put_nil s.llc.receiveRequests req.addr
              rw [hrequests, hreceived, List.length_append, List.length_singleton] at hle hfree
              rw [List.length_cons]
              refine ⟨by omega, fun heq due' req' hmem hdue' => ?_⟩
              have hempty : s.llc.receiveRequests.get req.addr = [] :=
                List.eq_nil_of_length_eq_zero (by omega)
              by_cases haddr : req'.addr = req.addr
              · rw [haddr, hempty]
              · rcases List.mem_cons.mp hmem with hhead | hmem
                · exact absurd (congrArg (fun e => e.2.addr) hhead) haddr
                · have hrest := hfree (by omega) due' req' hmem hdue'
                  rwa [Buckets.get_put_ne _ _ haddr] at hrest
      · next hdue =>
          obtain ⟨⟨s₁, kept₁⟩, hrest, heq⟩ := Excepts.map_eq_ok.mp h
          obtain ⟨rfl, rfl⟩ := Prod.mk.inj heq
          obtain ⟨hle, hfree⟩ := ih hs hrest
          rw [List.length_cons, List.length_cons]
          refine ⟨by omega, fun heq due' req' hmem hdue' => ?_⟩
          rcases List.mem_cons.mp hmem with hhead | hmem
          · obtain ⟨rfl, rfl⟩ := Prod.mk.inj hhead
            exact absurd hdue' hdue
          · exact hfree (by omega) due' req' hmem hdue'

/-- A call loses none of the requests exactly when nothing waits for the addresses whose lists it
replaces. -/
theorem step_located_iff (hp : p.PowersOfTwo) (hs : WellFormed p s.llc) {op : Op}
    (h : s.step p op = .ok s') :
    (s'.located.map missRequest).Perm ((accepts p s op ++ s.located).map missRequest) ↔
      NoOverlap p s op := by
  refine ⟨fun hperm => ?_, fun hfree => step_located hp hs hfree h⟩
  have hlength := hperm.length_eq
  rw [List.length_map, List.length_map, List.length_append, length_located, length_located]
    at hlength
  cases op with
  | send req =>
      intro halloc
      obtain ⟨llc', accepted, heq, -, -, hsent⟩ := send_cases hs hp req
      rw [step, heq] at h
      obtain rfl := Except.ok.inj h
      rw [accepts, heq] at hlength
      cases hsent with
      | hit hnot => exact absurd halloc hnot
      | mshrHit hnot => exact absurd halloc hnot
      | refused hnot => exact absurd halloc hnot
      | allocate _ _ hrequests _ _ hhit =>
          have hall := (Buckets.all_perm s.llc.receiveRequests req.addr).length_eq
          dsimp only at hlength
          rw [hrequests, hhit, Buckets.all_put, List.length_append, List.length_singleton,
            List.length_singleton] at hlength
          rw [List.length_append] at hall
          exact List.eq_nil_of_length_eq_zero (by omega)
  | tick answers =>
      obtain ⟨t, hitList, hhits, rfl⟩ := tick_cases h
      obtain ⟨-, hfree⟩ := completeHits_length (s := s.tickMisses answers) hs hhits
      refine fun hit hmem hdue => hfree ?_ hit.1 hit.2 hmem hdue
      change t.llc.receiveRequests.all.length + hitList.length + t.received.length =
        s.llc.receiveRequests.all.length + s.llc.hitList.length + s.received.length
      rw [accepts, List.length_nil] at hlength
      dsimp only at hlength
      omega
  | receive req => trivial
  | respond req => trivial

/-! ## Outstanding misses -/

/-- A read of the address is on its way to the memory system or held by it. -/
def Outstanding (s : SimpleO3) (addr : Int) : Prop :=
  ∃ req : Request, req.addr = addr ∧ req.type = .Read ∧ req.callback ≠ .empty ∧
    (req ∈ s.memory ∨ ∃ due, (due, req) ∈ s.llc.missList)

/-- What waits for an address and what an MSHR stands for is outstanding. -/
structure Awaited (s : SimpleO3) : Prop where
  requests : ∀ addr, s.llc.receiveRequests.get addr ≠ [] → s.Outstanding addr
  mshrs : ∀ m ∈ s.llc.mshrs, s.Outstanding m.1

/-- The calls of the cores and of the memory system: reads and writes of the cores with a
callback, and callbacks of requests that the memory system holds. -/
def OfSystem (p : LLCParams) (s : SimpleO3) : Op → Prop
  | .send req => (req.type = .Read ∨ req.type = .Write) ∧ req.callback ≠ .empty ∧
      0 ≤ req.sourceId ∧ req.sourceId < p.numCores
  | .tick _ => True
  | .receive _ => False
  | .respond req => req ∈ s.memory ∧ req.callback ≠ .empty

instance : (op : Op) → Decidable (OfSystem p s op)
  | .send _ => inferInstanceAs (Decidable ((_ = _ ∨ _ = _) ∧ _ ≠ _ ∧ _ ≤ _ ∧ _ < _))
  | .tick _ => inferInstanceAs (Decidable True)
  | .receive _ => inferInstanceAs (Decidable False)
  | .respond _ => inferInstanceAs (Decidable (_ ∈ _ ∧ _ ≠ _))

theorem Outstanding.mono {addr : Int} (h : s.Outstanding addr) (hmemory : s.memory ⊆ s'.memory)
    (hmiss : s.llc.missList ⊆ s'.llc.missList) : s'.Outstanding addr := by
  obtain ⟨req, haddr, htype, hcallback, hwhere⟩ := h
  refine ⟨req, haddr, htype, hcallback, hwhere.imp (fun h => hmemory h) ?_⟩
  rintro ⟨due, hdue⟩
  exact ⟨due, hmiss hdue⟩

theorem mem_sendMisses (clk : Int) (answers : List Bool) {misses : List (Int × Request)}
    {due : Int} {req : Request} (h : (due, req) ∈ misses) :
    (due, req) ∈ (sendMisses clk answers misses).1 ∨ req ∈ (sendMisses clk answers misses).2 := by
  induction misses generalizing answers with
  | nil => cases h
  | cons miss misses ih =>
      obtain ⟨due', req'⟩ := miss
      rw [sendMisses]
      dsimp only
      split
      · split
        · rcases List.mem_cons.mp h with heq | hmem
          · obtain ⟨rfl, rfl⟩ := Prod.mk.inj heq
            exact .inr List.mem_cons_self
          · exact (ih _ hmem).imp_right (List.mem_cons_of_mem _)
        · rcases List.mem_cons.mp h with heq | hmem
          · rw [heq]
            exact .inl List.mem_cons_self
          · exact (ih _ hmem).imp_left (List.mem_cons_of_mem _)
      · rcases List.mem_cons.mp h with heq | hmem
        · rw [heq]
          exact .inl List.mem_cons_self
        · exact (ih _ hmem).imp_left (List.mem_cons_of_mem _)

theorem Outstanding.tickMisses {addr : Int} (h : s.Outstanding addr) (answers : List Bool) :
    (s.tickMisses answers).Outstanding addr := by
  obtain ⟨req, haddr, htype, hcallback, hwhere⟩ := h
  refine ⟨req, haddr, htype, hcallback, ?_⟩
  rcases hwhere with hmemory | ⟨due, hmiss⟩
  · exact .inl (List.mem_append_left _ hmemory)
  · rcases mem_sendMisses (s.llc.clk + 1) answers hmiss with hkept | hsent
    · exact .inr ⟨due, hkept⟩
    · exact .inl (List.mem_append_right _ hsent)

theorem Awaited.shrink (h : s.Awaited) (hmemory : s'.memory = s.memory)
    (hmiss : s'.llc.missList = s.llc.missList) (hmshrs : s'.llc.mshrs ⊆ s.llc.mshrs)
    (hrequests : ∀ addr, s'.llc.receiveRequests.get addr ≠ [] →
      s.llc.receiveRequests.get addr ≠ []) : s'.Awaited := by
  have hmono : ∀ addr, s.Outstanding addr → s'.Outstanding addr := fun addr haddr =>
    haddr.mono (hmemory ▸ List.Subset.refl _) (hmiss ▸ List.Subset.refl _)
  exact ⟨fun addr haddr => hmono addr (h.requests addr (hrequests addr haddr)),
    fun m hm => hmono m.1 (h.mshrs m (hmshrs hm))⟩

theorem get_put_nil {b : Buckets Int Request} {a addr : Int} (h : (b.put a []).get addr ≠ []) :
    addr ≠ a ∧ b.get addr ≠ [] := by
  by_cases haddr : addr = a
  · rw [haddr, Buckets.get_put_self] at h
    exact absurd rfl h
  · rw [Buckets.get_put_ne _ _ haddr] at h
    exact ⟨haddr, h⟩

theorem missRequest_addr (req : Request) : (missRequest req).addr = req.addr := by
  unfold missRequest
  split <;> rfl

theorem missRequest_callback (req : Request) : (missRequest req).callback = req.callback := by
  unfold missRequest
  split <;> rfl

theorem missRequest_type {req : Request} (h : req.type = .Read ∨ req.type = .Write) :
    (missRequest req).type = .Read := by
  unfold missRequest
  split
  · rfl
  · next hne => exact h.resolve_right hne

theorem Awaited.send (h : s.Awaited) {req : Request} (hop : OfSystem p s (.send req))
    {llc' : SimpleO3LLC} {accepted : Bool} (hsent : Sent p s.llc req llc' accepted) :
    ({ s with llc := llc' } : SimpleO3).Awaited := by
  cases hsent with
  | hit _ hmshrs hrequests hmiss _ =>
      refine h.shrink rfl hmiss ?_ ?_
      · dsimp only
        rw [hmshrs]
        exact List.Subset.refl _
      · dsimp only
        rw [hrequests]
        exact fun _ haddr => haddr
  | refused => exact h
  | @mshrHit _ m _ hm hmshrs hrequests hmiss _ =>
      have hmono : ∀ addr, s.Outstanding addr →
          ({ s with llc := llc' } : SimpleO3).Outstanding addr := fun addr haddr =>
        haddr.mono (List.Subset.refl _) (hmiss ▸ List.Subset.refl _)
      constructor
      · intro addr haddr
        dsimp only at haddr
        rw [hrequests] at haddr
        by_cases hne : addr = m.1
        · rw [hne]
          exact hmono m.1 (h.mshrs m hm)
        · rw [Buckets.get_push_ne _ _ hne] at haddr
          exact hmono addr (h.requests addr haddr)
      · intro m' hm'
        dsimp only at hm'
        rw [hmshrs] at hm'
        exact hmono m'.1 (h.mshrs m' hm')
  | @allocate _ it due _ hmshrs hrequests hmiss hmem _ =>
      have hmono : ∀ addr, s.Outstanding addr →
          ({ s with llc := llc' } : SimpleO3).Outstanding addr := fun addr haddr =>
        haddr.mono (List.Subset.refl _) hmiss
      have hnew : ({ s with llc := llc' } : SimpleO3).Outstanding req.addr :=
        ⟨missRequest req, missRequest_addr req, missRequest_type hop.1,
          missRequest_callback req ▸ hop.2.1, .inr ⟨due, hmem⟩⟩
      constructor
      · intro addr haddr
        dsimp only at haddr
        rw [hrequests] at haddr
        by_cases hne : addr = req.addr
        · rw [hne]
          exact hnew
        · rw [Buckets.get_put_ne _ _ hne] at haddr
          exact hmono addr (h.requests addr haddr)
      · intro m hm
        dsimp only at hm
        rw [hmshrs] at hm
        rcases List.mem_append.mp hm with hm | hm
        · exact hmono m.1 (h.mshrs m hm)
        · rw [List.mem_singleton.mp hm]
          exact hnew

theorem step_awaited (hp : p.PowersOfTwo) (hs : WellFormed p s.llc) (hawaited : s.Awaited)
    {op : Op} (hop : OfSystem p s op) (h : s.step p op = .ok s') : s'.Awaited := by
  cases op with
  | send req =>
      obtain ⟨llc', accepted, heq, -, -, hsent⟩ := send_cases hs hp req
      rw [step, heq] at h
      obtain rfl := Except.ok.inj h
      exact hawaited.send hop hsent
  | tick answers =>
      obtain ⟨t, hitList, hhits, rfl⟩ := tick_cases h
      have hmisses : (s.tickMisses answers).Awaited :=
        ⟨fun addr haddr => (hawaited.requests addr haddr).tickMisses answers,
          fun m hm => (hawaited.mshrs m hm).tickMisses answers⟩
      have ht : WellFormed p t.llc ∧ t.Awaited := by
        refine completeHits_induction (s := s.tickMisses answers)
          (I := fun s => WellFormed p s.llc ∧ s.Awaited) ?_ ⟨hs, hmisses⟩ hhits
        rintro s s' due req - - ⟨hs, hawaited⟩ hhit
        obtain ⟨hs', hmshrs, hrequests, -, hmiss, -, hmemory⟩ := completeHit_cases hs hhit
        refine ⟨hs', hawaited.shrink hmemory hmiss ?_ ?_⟩
        · rw [hmshrs]
          exact List.eraseP_subset
        · intro addr haddr
          rw [hrequests] at haddr
          exact (get_put_nil haddr).2
      exact ⟨ht.2.requests, ht.2.mshrs⟩
  | receive req => exact hop.elim
  | respond req =>
      obtain ⟨-, hmshrs, hrequests, -, hmiss, -, -, hmemory⟩ :=
        receive_cases (s := { s with memory := s.memory.erase req }) hs h
      -- the request that the memory system answers is the only one that leaves
      have hkeep : ∀ addr, addr ≠ req.addr → s.Outstanding addr → s'.Outstanding addr := by
        rintro addr hne ⟨r, haddr, htype, hcallback, hwhere⟩
        refine ⟨r, haddr, htype, hcallback, ?_⟩
        rw [hmemory, hmiss]
        refine hwhere.imp (fun hmem => ?_) id
        exact (List.mem_erase_of_ne fun heq => hne (haddr.symm.trans (congrArg _ heq))).mpr hmem
      constructor
      · intro addr haddr
        rw [hrequests] at haddr
        obtain ⟨hne, hget⟩ := get_put_nil haddr
        exact hkeep addr hne (hawaited.requests addr hget)
      · intro m hm
        rw [hmshrs] at hm
        refine hkeep m.1 ?_ (hawaited.mshrs m (List.eraseP_subset hm))
        intro haddr
        exact hs.align_ne_of_mem_erase hp hm (congrArg p.align haddr)

end SimpleO3

/-! ## Runs -/

/-- The system with the requests of the cores that the cache has accepted. -/
structure Traced where
  system : SimpleO3 := {}
  accepted : List Request := []

namespace Traced

variable {p : LLCParams} {t : Traced}

open SimpleO3

def step (p : LLCParams) (t : Traced) (op : Op) : Option Traced :=
  (t.system.step p op).toOption.map fun system =>
    { system, accepted := t.accepted ++ accepts p t.system op }

/-- The states of the runs of the system whose steps meet a condition. -/
abbrev Run (p : LLCParams) (guard : SimpleO3 → Op → Prop) : Traced → Prop :=
  Runs.Reachable (Eq {}) (fun t op t' => t.step p op = some t')
    fun t op => OfSystem p t.system op ∧ guard t.system op

/-- Every accepted request is on the hit list, waits or was received, once and up to its type,
which becomes `Read` on a miss. -/
def Conserved (t : Traced) : Prop :=
  (t.accepted.map missRequest).Perm
    ((t.system.llc.hitList.map Prod.snd ++ t.system.llc.receiveRequests.all ++
      t.system.received).map missRequest)

theorem Conserved.step_iff (hp : p.PowersOfTwo) (hs : WellFormed p t.system.llc)
    (h : t.Conserved) {op : Op} {t' : Traced} (hstep : t.step p op = some t') :
    t'.Conserved ↔ NoOverlap p t.system op := by
  obtain ⟨s', hs', rfl⟩ := Option.map_eq_some_iff.mp hstep
  rw [← step_located_iff hp hs (toOption_eq_some.mp hs')]
  have hperm : ((t.accepted ++ accepts p t.system op).map missRequest).Perm
      ((accepts p t.system op ++ t.system.located).map missRequest) := by
    rw [List.map_append, List.map_append]
    exact (List.Perm.append_right _ h).trans List.perm_append_comm
  exact ⟨fun h' => h'.symm.trans hperm, fun h' => hperm.trans h'.symm⟩

/-- In every run in which nothing waits for the address of a hit that completes or of a miss
that allocates a line, every accepted request is accounted for, and a read is outstanding for
every address with a waiting request; a call that does not meet the condition loses a request. -/
theorem llc_no_lost_wakeup (hp : p.PowersOfTwo) (h : Run p (NoOverlap p) t) :
    t.Conserved ∧
    (∀ addr, t.system.llc.receiveRequests.get addr ≠ [] → t.system.Outstanding addr) ∧
    ∀ op t', t.step p op = some t' → (t'.Conserved ↔ NoOverlap p t.system op) := by
  have hrun : WellFormed p t.system.llc ∧ t.system.Awaited ∧ t.Conserved := by
    refine h.invariant (I := fun t : Traced =>
      WellFormed p t.system.llc ∧ t.system.Awaited ∧ t.Conserved) ?_ ?_
    · rintro t rfl
      refine ⟨init_wellFormed p, ⟨?_, nofun⟩, .refl _⟩
      exact fun addr haddr => absurd rfl haddr
    · rintro t op t' ⟨hs, hawaited, hconserved⟩ ⟨hop, hfree⟩ hstep
      have hconserved' := (hconserved.step_iff hp hs hstep).mpr hfree
      obtain ⟨s', hs', rfl⟩ := Option.map_eq_some_iff.mp hstep
      have hstep' := toOption_eq_some.mp hs'
      exact ⟨step_wellFormed hp hs hstep', step_awaited hp hs hawaited hop hstep', hconserved'⟩
  exact ⟨hrun.2.2, hrun.2.1.requests, fun op t' hstep => hrun.2.2.step_iff hp hrun.1 hstep⟩

/-- Two lines are read and hit again by the first core, its third line evicts the first, and the
second core reads that one. -/
def twoCores : List Op :=
  [.send (read 0 0), .send (read 0 64), .tick [true, true], .respond (read 0 0),
    .respond (read 0 64), .send (read 0 0), .send (read 0 64), .send (read 0 128), .send (read 1 0)]

theorem llc_no_lost_wakeup_twoCores :
    ∃ t, Run small (NoOverlap small) t ∧ t.Conserved ∧ t.accepted.length = 6 := by
  have hrun : ((Runs.replay (step small)
      (fun t op => decide (OfSystem small t.system op ∧ NoOverlap small t.system op)) {}
      twoCores).any fun t => decide (t.accepted.length = 6)) = true := by decide +kernel
  obtain ⟨t, ht, htest⟩ := Option.any_eq_true _ _ |>.mp hrun
  have hreached : Run small (NoOverlap small) t :=
    Runs.replay_reachable (fun _ _ h => of_decide_eq_true h) (.start rfl) ht
  exact ⟨t, hreached, (llc_no_lost_wakeup small_powersOfTwo hreached).1, of_decide_eq_true htest⟩

/-- The hit of the first core completes while the read of the second core waits, which is
lost. -/
theorem llc_lost_wakeup : ∃ t, Run small (fun _ _ => True) t ∧ ¬ t.Conserved := by
  have hrun : ((Runs.replay (step small) (fun t op => decide (OfSystem small t.system op)) {}
      (twoCores ++ [.tick [true, true]])).any fun t =>
        decide (t.accepted.length = 6) && decide (t.system.located.length = 5)) = true := by
    decide +kernel
  obtain ⟨t, ht, htest⟩ := Option.any_eq_true _ _ |>.mp hrun
  obtain ⟨hsix, hfive⟩ := Bool.and_eq_true_iff.mp htest
  have hreached : Run small (fun _ _ => True) t :=
    Runs.replay_reachable (fun _ _ h => ⟨of_decide_eq_true h, trivial⟩) (.start rfl) ht
  refine ⟨t, hreached, fun hconserved => ?_⟩
  have hlength := hconserved.length_eq
  change (t.accepted.map missRequest).length = (t.system.located.map missRequest).length at hlength
  rw [List.length_map, List.length_map, of_decide_eq_true hsix, of_decide_eq_true hfive] at hlength
  cases hlength

end Traced

end AimSimulator.Processor
