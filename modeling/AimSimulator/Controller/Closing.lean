import AimSimulator.Controller.RowState
import AimSimulator.Dram.LPDDRRows
/-!
# Closing commands and active requests

A closing command closes the banks below the node that its address names at its scope.  The
scheduler drops it when a request of the active buffer has the same address down to the
banks.  That protects active requests from the commands of a single bank, and from those of
a whole channel or rank only when the banks of the active requests there are closed already.
-/

namespace AimSimulator.Dram

/-! ## The banks a command covers -/

def AgreeTo (n : Nat) (a a' : AddrVec) : Prop := ∀ k, k ≤ n → a.at k = a'.at k

instance (n : Nat) (a a' : AddrVec) : Decidable (AgreeTo n a a') :=
  inferInstanceAs (Decidable (∀ k, k ≤ n → a.at k = a'.at k))

/-- An address whose levels below `n` are all named agrees there with another address
exactly when the prefixes are equal. -/
theorem AddrVec.take_eq {a a' : AddrVec} {n : Nat} (hnamed : ∀ k, k < n → 0 ≤ a'.at k)
    (h : ∀ k, k < n → a.at k = a'.at k) : a.take n = a'.take n := by
  have hsome : ∀ {b : AddrVec} {k : Nat}, 0 ≤ b.at k → b[k]? = some (b.at k) := by
    intro b k hk
    cases hb : b[k]? with
    | none => simp [AddrVec.at, hb] at hk
    | some x => simp [AddrVec.at, hb]
  refine List.ext_getElem? fun k => ?_
  rw [List.getElem?_take, List.getElem?_take]
  split
  · next hk =>
      have hk' := hnamed k hk
      rw [hsome hk', hsome (h k hk ▸ hk'), h k hk]
  · rfl

section

variable {Cmd St Ext : Type}

theorem DRAMModel.Names.take_eq {model : DRAMModel Cmd St Ext} {a target : AddrVec} {channel : Nat}
    {path : List Nat} (hnames : model.Names target channel path)
    (hagree : AgreeTo model.bankLevel a target) :
    target.take (model.bankLevel + 1) = a.take (model.bankLevel + 1) := by
  refine (AddrVec.take_eq (fun k hk => ?_) fun k hk => hagree k (Nat.le_of_lt_succ hk)).symm
  cases k with
  | zero =>
      rw [hnames.1]
      exact Int.natCast_nonneg channel
  | succ k => exact (hnames.at_succ (Nat.lt_of_succ_lt_succ hk)).1

/-! ## Closing commands close what they cover -/

namespace DRAMSpec

/-- A command whose only action is the one at its scope, which leaves the banks below with the
rows `closed`. -/
structure ClosesAt (spec : DRAMSpec Cmd St Ext) (f : RowAction Cmd St) (cmd : Cmd)
    (closed : BankRows St) : Prop where
  own : ∀ a r, f (spec.bankLevel - spec.commandScopes cmd) cmd a r = closed
  other : ∀ d, d ≠ spec.bankLevel - spec.commandScopes cmd → ∀ a r, f d cmd a r = r

variable {spec : DRAMSpec Cmd St Ext} {f : RowAction Cmd St} {cmd : Cmd} {a : AddrVec}

theorem touch_covered {d : Nat} (hd : d ≤ spec.bankLevel) {path : List Nat}
    (hlength : path.length = d) (hscope : spec.level d ≤ spec.commandScopes cmd)
    (hcovers : ∀ k, k < d → spec.level d + k < spec.commandScopes cmd →
      ∃ i, path[k]? = some i ∧ a.at (spec.level d + k + 1) = (i : Nat)) (r : BankRows St) :
    ∃ r', spec.touch f cmd a d path r = f (spec.bankLevel - spec.commandScopes cmd) cmd a r' := by
  unfold DRAMSpec.level at hscope hcovers
  induction d generalizing path r with
  | zero =>
      refine ⟨r, ?_⟩
      rw [show spec.bankLevel - spec.commandScopes cmd = 0 by omega]
      rfl
  | succ d ih =>
      match path, hlength with
      | i :: path, hlength =>
          have hlevel : spec.level d = spec.bankLevel - (d + 1) + 1 := by
            unfold DRAMSpec.level
            omega
          rw [DRAMSpec.touch]
          by_cases hstop : spec.level (d + 1) = spec.commandScopes cmd
          · rw [if_pos (.inl hstop)]
            refine ⟨r, ?_⟩
            unfold DRAMSpec.level at hstop
            rw [show spec.bankLevel - spec.commandScopes cmd = d + 1 by omega]
          · have hstop' : spec.bankLevel - (d + 1) ≠ spec.commandScopes cmd := hstop
            obtain ⟨j, hj, hat⟩ := hcovers 0 (Nat.succ_pos d) (by omega)
            obtain rfl := Option.some.inj hj
            rw [if_neg (not_or.mpr ⟨hstop, Decidable.not_not.mpr (hlevel ▸ hat)⟩)]
            refine ih (Nat.le_of_succ_le hd) (Nat.succ.inj hlength) (by omega)
              (fun k hk hlt => ?_) _
            obtain ⟨j, hj, hat⟩ := hcovers (k + 1) (Nat.succ_lt_succ hk) (by omega)
            refine ⟨j, hj, ?_⟩
            rwa [show spec.bankLevel - d + k + 1 = spec.bankLevel - (d + 1) + (k + 1) + 1 by omega]

theorem ClosesAt.touch_uncovered {closed : BankRows St} (h : spec.ClosesAt f cmd closed) {d : Nat}
    (hd : d ≤ spec.bankLevel) {path : List Nat} {k i : Nat} (hk : k < d)
    (hscope : spec.level d + k < spec.commandScopes cmd) (hi : path[k]? = some i)
    (hoff : a.at (spec.level d + k + 1) ≠ (i : Nat)) (r : BankRows St) :
    spec.touch f cmd a d path r = r := by
  unfold DRAMSpec.level at hscope hoff
  induction d generalizing path k with
  | zero => exact absurd hk (Nat.not_lt_zero k)
  | succ d ih =>
      match path with
      | [] => cases hi
      | j :: path =>
          have hlevel : spec.level d = spec.bankLevel - (d + 1) + 1 := by
            unfold DRAMSpec.level
            omega
          have habove : spec.level (d + 1) ≠ spec.commandScopes cmd := by
            unfold DRAMSpec.level
            omega
          rw [touch, h.other (d + 1) (by omega)]
          by_cases hj : a.at (spec.level d) = j
          · rw [if_neg (not_or.mpr ⟨habove, Decidable.not_not.mpr hj⟩)]
            cases k with
            | zero =>
                obtain rfl := Option.some.inj hi
                exact absurd (hlevel ▸ hj) hoff
            | succ k =>
                have hi : path[k]? = some i := hi
                have hshift : spec.bankLevel - (d + 1) + (k + 1) = spec.bankLevel - d + k := by
                  omega
                rw [hshift] at hscope hoff
                exact ih (Nat.le_of_succ_le hd) (Nat.lt_of_succ_lt_succ hk) hscope hi hoff
          · rw [if_pos (.inr hj)]

end DRAMSpec

namespace DRAMModel

variable [DecidableEq Cmd] {model : DRAMModel Cmd St Ext} {f : DRAMSpec.RowAction Cmd St}
  {cmd : Cmd}

/-- A closing command closes the banks whose addresses agree with its own down to its scope, and
no others. -/
theorem rowsAt_closing (hf : model.ActsBy f) {closed : BankRows St}
    (hcloses : model.ClosesAt f cmd closed) {dev : model.Dev} {a target : AddrVec} {ch : Nat}
    {path : List Nat} (hnames : model.Names target ch path) :
    model.rowsAt (model.issueCommand dev cmd a) ch path = (model.rowsAt dev ch path).map fun r =>
      if AgreeTo (min (model.commandScopes cmd) model.bankLevel) a target then closed else r := by
  rw [model.rowsAt_issueCommand hf]
  cases hold : model.rowsAt dev ch path with
  | none => rfl
  | some r =>
      refine congrArg some ?_
      have hlevel : model.level model.bankLevel = 0 := Nat.sub_self _
      have hat : ∀ k, k < model.bankLevel →
          ∃ i : Nat, path[k]? = some i ∧ target.at (k + 1) = (i : Nat) := by
        intro k hk
        obtain ⟨hpos, hget⟩ := hnames.at_succ hk
        exact ⟨_, hget, (Int.toNat_of_nonneg hpos).symm⟩
      dsimp only
      by_cases hagree : AgreeTo (min (model.commandScopes cmd) model.bankLevel) a target
      · obtain ⟨r', hr'⟩ := @DRAMSpec.touch_covered _ _ _ model.toDRAMSpec f cmd a _ (Nat.le_refl _)
          path (model.length_of_rowsAt hold) (hlevel ▸ Nat.zero_le _) (fun k hk hlt => by
            rw [hlevel, Nat.zero_add] at hlt ⊢
            obtain ⟨i, hi, htarget⟩ := hat k hk
            exact ⟨i, hi, (hagree (k + 1) (Nat.le_min.mpr ⟨hlt, hk⟩)).trans htarget⟩) r
        rw [if_pos ((hagree 0 (Nat.zero_le _)).trans hnames.1), if_pos hagree, hr', hcloses.own]
      · rw [if_neg hagree]
        split
        · next hchannel =>
            obtain ⟨k, hk⟩ := Classical.not_forall.mp hagree
            obtain ⟨hle, hne⟩ := Classical.not_imp.mp hk
            cases k with
            | zero => exact absurd (hchannel.trans hnames.1.symm) hne
            | succ k =>
                obtain ⟨hscope, hk⟩ := Nat.le_min.mp hle
                obtain ⟨i, hi, htarget⟩ := hat k hk
                refine hcloses.touch_uncovered (Nat.le_refl _) hk ?_ hi ?_ r
                · rw [hlevel]
                  omega
                · rw [hlevel, Nat.zero_add, ← htarget]
                  exact hne
        · rfl

def BankClosed (model : DRAMModel Cmd St Ext) (closed : St) (dev : model.Dev)
    (addrVec : AddrVec) : Prop := ∀ b ∈ model.addressed dev addrVec, b.state = closed

instance [DecidableEq St] (closed : St) (dev : model.Dev) (addrVec : AddrVec) :
    Decidable (model.BankClosed closed dev addrVec) :=
  inferInstanceAs (Decidable (∀ b ∈ model.addressed dev addrVec, b.state = closed))

omit [DecidableEq Cmd] in
theorem bankClosed_of_unnamed {closed : St} {dev : model.Dev} {target : AddrVec}
    (h : ¬ ∃ ch path, model.Names target ch path) : model.BankClosed closed dev target := by
  intro b hb
  obtain ⟨ch, path, hnames, -⟩ := model.exists_names hb
  exact absurd ⟨ch, path, hnames⟩ h

omit [DecidableEq Cmd] in
theorem Names.bankClosed_iff {closed : St} {dev : model.Dev} {target : AddrVec}
    {ch : Nat} {path : List Nat} (hnames : model.Names target ch path) :
    model.BankClosed closed dev target ↔
      ∀ r ∈ model.rowsAt dev ch path, r.1 = closed := by
  rw [model.rowsAt_addressed hnames]
  simp [BankClosed, NodeBase.rows]

theorem bankClosed_inert (hf : model.ActsBy f) (hid : ∀ d a r, f d cmd a r = r) {closed : St}
    {dev : model.Dev} {a target : AddrVec} :
    model.BankClosed closed (model.issueCommand dev cmd a) target ↔
      model.BankClosed closed dev target := by
  by_cases hnamed : ∃ ch path, model.Names target ch path
  · obtain ⟨ch, path, hnames⟩ := hnamed
    have htouch : ∀ r, model.touch f cmd a model.bankLevel path r = r := fun r =>
      model.touch_induct (P := fun r' => r' = r) (fun d r' h => (hid d a r').trans h) rfl
    rw [hnames.bankClosed_iff, hnames.bankClosed_iff, model.rowsAt_issueCommand hf]
    simp [htouch]
  · exact iff_of_true (bankClosed_of_unnamed hnamed) (bankClosed_of_unnamed hnamed)

theorem bankClosed_issueCommand (hf : model.ActsBy f) {closed : St}
    (hcloses : model.ClosesAt f cmd (closed, [])) {dev : model.Dev} {a target : AddrVec} :
    model.BankClosed closed (model.issueCommand dev cmd a) target ↔
      model.BankClosed closed dev target ∨
        AgreeTo (min (model.commandScopes cmd) model.bankLevel) a target := by
  by_cases hnamed : ∃ ch path, model.Names target ch path
  · obtain ⟨ch, path, hnames⟩ := hnamed
    rw [hnames.bankClosed_iff, hnames.bankClosed_iff, rowsAt_closing hf hcloses hnames]
    by_cases hagree : AgreeTo (min (model.commandScopes cmd) model.bankLevel) a target
    · refine iff_of_true (fun r hr => ?_) (.inr hagree)
      obtain ⟨_, -, rfl⟩ := Option.map_eq_some_iff.mp hr
      rw [if_pos hagree]
    · simp [hagree]
  · exact iff_of_true (bankClosed_of_unnamed hnamed) (.inl (bankClosed_of_unnamed hnamed))

end DRAMModel

end

theorem GDDR6.closesAt {V : GDDR6.Timing → Int} {cmd : GDDR6.Cmd}
    (h : (GDDR6.commandMeta cmd).isClosing = true) :
    (GDDR6.model V).ClosesAt GDDR6.rowAction cmd (.Closed, []) := by
  constructor
  · intro a r
    cases cmd with
    | PREA | WRA16 | PRE4 | PRE | RDA | WRA => rfl
    | _ => exact absurd h (by decide)
  · intro d hd a r
    match d with
    | 0 | 1 | 2 =>
        cases cmd with
        | PREA | WRA16 | PRE4 | PRE | RDA | WRA => first | rfl | exact absurd rfl hd
        | _ => exact absurd h (by decide)
    | _ + 3 => rfl

theorem LPDDR.closesAt {gen : LPDDR.Generation} {count : Nat → Int} {W : LPDDR.Timing → Int}
    {cmd : LPDDR.Cmd} (h : (LPDDR.commandMeta cmd).isClosing = true) (hwra8 : cmd ≠ .WRA8) :
    (LPDDR.model gen count W).ClosesAt LPDDR.rowAction cmd (.Closed, []) := by
  constructor
  · intro a r
    cases cmd with
    | PREA | PRE4 | PRE | RDA | WRA => rfl
    | WRA8 => exact absurd rfl hwra8
    | _ => exact absurd h (by decide)
  · intro d hd a r
    match d with
    | 0 | 1 | 2 | 3 =>
        cases cmd with
        | PREA | PRE4 | PRE | RDA | WRA => first | rfl | exact absurd rfl hd
        | WRA8 => exact absurd rfl hwra8
        | _ => exact absurd h (by decide)
    | _ + 4 => rfl

end AimSimulator.Dram

namespace AimSimulator.Controller

open Dram

/-! ## The closing test of the scheduler -/

section

variable {Dev Cmd : Type} {iface : IDRAM Dev Cmd} {params : Params}

namespace AiMDRAMController

theorem unlessClosing_spares {c : AiMDRAMController Cmd} {s s' : Scheduled Cmd}
    (h : c.unlessClosing iface s = some s') : c.closesActive iface s' = false := by
  obtain rfl := unlessClosing_eq_some iface h
  unfold unlessClosing at h
  split at h
  · cases h
  · next hspares => exact Bool.not_eq_true _ ▸ hspares

theorem scheduleRequest_spares {c : AiMDRAMController Cmd} {dev : Dev} {s : Scheduled Cmd}
    (h : (c.scheduleRequest iface params dev).2 = some s)
    (hbarrier : s.req.req.opcode.isBarrier = false) : c.closesActive iface s = false := by
  have hbind : ∀ {o : Option (Scheduled Cmd)} {c' : AiMDRAMController Cmd},
      o.bind (c'.unlessClosing iface) = some s → c'.closesActive iface s = false := by
    intro o c' h
    obtain ⟨s', -, htaken⟩ := Option.bind_eq_some_iff.mp h
    exact unlessClosing_spares htaken
  unfold scheduleRequest at h
  split at h
  · exact unlessClosing_spares h
  · split at h
    · exact hbind h
    · split at h
      · split at h
        · next hisBarrier =>
            obtain rfl := Option.some.inj h
            rw [hisBarrier] at hbarrier
            cases hbarrier
        · exact hbind h
      · have hspares := hbind h
        rwa [closesActive, setWriteMode_toQueues] at hspares

theorem Issues.spares {c c₁ : AiMDRAMController Cmd} {dev : Dev} {s : Scheduled Cmd} {cmd : Cmd}
    (h : Issues iface params c dev c₁ s cmd)
    (htmod : (iface.commandMeta iface.tmod).isClosing = false)
    (hclosing : (iface.commandMeta cmd).isClosing = true) {q : Queued Cmd}
    (hq : q ∈ c.activeBuffer.buffer) :
    q.req.addrVec.take iface.rowLevel ≠ s.req.req.addrVec.take iface.rowLevel := by
  intro hprefix
  have hcmd : cmd = s.command := by
    rcases h.command with rfl | hcmd
    · rw [htmod] at hclosing
      cases hclosing
    · exact hcmd
  rw [← nextScheduled_activeBuffer h.next] at hq
  obtain ⟨prepared, -, hsched⟩ := nextScheduled_cases iface h.next
  have hspares := scheduleRequest_spares hsched h.notBarrier
  rw [closesActive, ← hcmd, hclosing, Bool.true_and, List.any_eq_false] at hspares
  exact hspares q hq (decide_eq_true hprefix)

end AiMDRAMController

end

/-! ## Which active requests are spared -/

section

variable {Cmd St Ext : Type} [DecidableEq Cmd]

/-- Whether the command of `q` on the way from `s` to `t` closes the bank of no other active
request: where such a bank is closed afterwards, it was closed before. -/
def SparesActive (model : DRAMModel Cmd St Ext) (closed : St) (s t : Chan model.Dev Cmd)
    (q : Queued Cmd) : Prop :=
  ∀ q' ∈ s.ctl.activeBuffer.buffer, q'.seq ≠ q.seq →
    model.BankClosed closed t.dev q'.req.addrVec → model.BankClosed closed s.dev q'.req.addrVec

instance [DecidableEq St] (model : DRAMModel Cmd St Ext) (closed : St) (s t : Chan model.Dev Cmd)
    (q : Queued Cmd) : Decidable (SparesActive model closed s t q) :=
  inferInstanceAs (Decidable (∀ q' ∈ s.ctl.activeBuffer.buffer, _))

/-- Whether the other active requests below the node at the scope of the command of `q` wait for
closed banks. -/
def ClosedBelow (model : DRAMModel Cmd St Ext) (closed : St) (s : Chan model.Dev Cmd)
    (q : Queued Cmd) (cmd : Cmd) : Prop :=
  ∀ q' ∈ s.ctl.activeBuffer.buffer, q'.seq ≠ q.seq →
    AgreeTo (model.commandScopes cmd) q.req.addrVec q'.req.addrVec →
      model.BankClosed closed s.dev q'.req.addrVec

/-- In every reached state, a closing command that the next call issues spares the active
requests exactly when it is a command of a single bank, one of `inert`, or all other active
requests below the node that it is issued to wait for closed banks. -/
def ClosingSpares (model : DRAMModel Cmd St Ext) (closed : St) (inert : Cmd → Prop) : Prop :=
  ∀ {count : Nat → Int} {params : Params} {guard : Chan model.Dev Cmd → Op → Prop}
    {s : Chan model.Dev Cmd}, Chan.Run model.idram params (model.createNodes count) guard s →
    ∀ {op : Op} {t : Chan model.Dev Cmd} {events : List (Event Cmd)} {q : Queued Cmd} {cmd : Cmd},
      s.step model.idram params op = some t → t.log = s.log ++ events → .issue q cmd ∈ events →
        (model.commandMeta cmd).isClosing = true →
          (SparesActive model closed s t q ↔
            model.bankLevel ≤ model.commandScopes cmd ∨ inert cmd ∨
              ClosedBelow model closed s q cmd)

theorem closingSpares {model : DRAMModel Cmd St Ext} {closed : St} {inert : Cmd → Prop}
    {f : DRAMSpec.RowAction Cmd St} (hf : model.ActsBy f)
    (htmod : (model.commandMeta model.tmod).isClosing = false)
    (hinert : ∀ cmd, inert cmd → ∀ d a r, f d cmd a r = r)
    (hcloses : ∀ cmd, (model.commandMeta cmd).isClosing = true → ¬ inert cmd →
      model.ClosesAt f cmd (closed, [])) : ClosingSpares model closed inert := by
  intro count params guard s hr op t events q cmd hstep hlog hissue hclosing
  obtain ⟨c₁, sched, hissues, rfl, -, hdev⟩ := Chan.step_issue hstep hlog hissue
  have hreq := (SameRequest.stampIssue c₁.toQueues sched.req).req
  have hissued : ∀ addrVec, model.BankClosed closed t.dev addrVec ↔ model.BankClosed closed
      (model.issueCommand (model.tick s.dev) cmd sched.req.req.addrVec) addrVec := by
    intro addrVec
    rw [hdev]
    rfl
  by_cases hcmd : inert cmd
  · refine iff_of_true (fun q' _ _ hclosed => ?_) (.inr (.inl hcmd))
    have hbefore : model.BankClosed closed (model.tick s.dev) q'.req.addrVec :=
      (DRAMModel.bankClosed_inert hf (hinert cmd hcmd)).mp ((hissued _).mp hclosed)
    exact hbefore
  have hmoves : ∀ addrVec, model.BankClosed closed t.dev addrVec ↔
      model.BankClosed closed s.dev addrVec ∨
        AgreeTo (min (model.commandScopes cmd) model.bankLevel) sched.req.req.addrVec addrVec :=
    fun addrVec => (hissued addrVec).trans
      (DRAMModel.bankClosed_issueCommand hf (hcloses cmd hclosing hcmd))
  by_cases hscope : model.bankLevel ≤ model.commandScopes cmd
  · -- the closing test compares the whole address of the bank
    refine iff_of_true (fun q' hq' _ hclosed b hb => ?_) (.inl hscope)
    rcases (hmoves _).mp hclosed with hclosed | hagree
    · exact hclosed b hb
    · rw [Nat.min_eq_right hscope] at hagree
      obtain ⟨ch, path, hnames, -⟩ := model.exists_names hb
      exact absurd (hnames.take_eq hagree) (hissues.spares htmod hclosing hq')
  · rw [Nat.min_eq_left (Nat.le_of_not_le hscope)] at hmoves
    refine Iff.trans ?_ ((or_iff_right hscope).trans (or_iff_right hcmd)).symm
    refine forall_congr' fun q' => forall_congr' fun _ => forall_congr' fun _ => ?_
    rw [hmoves, hreq]
    exact ⟨fun h hagree => h (.inr hagree), fun h hmoved => hmoved.elim id h⟩

/-- A closing command that is issued in GDDR6, LPDDR4 or LPDDR5 closes the banks of no other
active requests exactly when it is a command of a single bank, the `WRA8` of LPDDR, or the banks
of all others below the channel or rank that it is issued to are closed already. -/
theorem closing_spares_active_iff (V : GDDR6.Timing → Int) (gen : LPDDR.Generation)
    (count : Nat → Int) (W : LPDDR.Timing → Int) :
    ClosingSpares (GDDR6.model V) .Closed (fun _ => False) ∧
      ClosingSpares (LPDDR.model gen count W) .Closed (· = .WRA8) := by
  constructor
  · exact closingSpares (GDDR6.actsBy V) rfl (fun _ h => h.elim)
      fun cmd hclosing _ => GDDR6.closesAt hclosing
  · refine closingSpares (LPDDR.actsBy gen count W) rfl ?_
      fun cmd hclosing hwra8 => LPDDR.closesAt hclosing hwra8
    rintro _ rfl d a r
    match d with
    | 0 | 1 | 2 | 3 | _ + 4 => rfl

end

open GDDR6 in
/-- A read of another row of a bank precharges it, and spares a read that waits in the active
buffer for another bank. -/
theorem closing_spares_active_read :
    ∃ (s t : Chan aimModel.Dev Cmd) (q : Queued Cmd) (events : List (Event Cmd)),
      s.ctl.activeBuffer.size = 1 ∧ t.log = s.log ++ events ∧ .issue q .PRE ∈ events ∧
        SparesActive aimModel .Closed s t q := by
  have hrun : ((Chan.replay aimModel.idram { channelId := 0 } x16Device (fun _ _ => true)
      ([.send { type := .Read, addrVec := [0, 0, 0, 5, 0] }] ++ List.replicate 38 .tick ++
        [.send { type := .Read, addrVec := [0, 0, 0, 6, 0] }] ++ List.replicate 8 .tick ++
        [.send { type := .Read, addrVec := [0, 1, 0, 7, 0] }] ++ List.replicate 8 .tick)).any
          fun s => s.ctl.activeBuffer.size = 1 &&
            (s.ctl.tick aimModel.idram { channelId := 0 } (aimModel.idram.tick s.dev)).any fun r =>
              (issued r.2.2).any fun i => decide (i.2 = .PRE)) = true := by
    decide +kernel
  obtain ⟨s, hs, htest⟩ := Option.any_eq_true .. |>.mp hrun
  obtain ⟨hsize, htest⟩ := Bool.and_eq_true_iff.mp htest
  obtain ⟨r, htick, htest⟩ := Option.any_eq_true .. |>.mp htest
  obtain ⟨⟨q, _⟩, hissued, hcmd⟩ := List.any_eq_true.mp htest
  obtain rfl := of_decide_eq_true hcmd
  have hstep : s.step aimModel.idram { channelId := 0 } .tick =
      some ⟨r.1, r.2.1, s.log ++ r.2.2⟩ := by
    rw [Chan.step, htick]
    rfl
  exact ⟨s, _, q, _, of_decide_eq_true hsize, rfl, mem_issued.mp hissued,
    ((closing_spares_active_iff aimVals .LPDDR4 (fun _ => 0) fun _ => 0).1
      (Chan.replay_run (fun _ _ _ => trivial) hs) hstep rfl (mem_issued.mp hissued) rfl).mpr
        (.inl (Nat.le_refl _))⟩

/-! ## A refresh interrupts a write -/

open GDDR6 in
/-- A refresh that arrives after the activations for a read of one bank and a write of another
precharges the channel while the write waits in the active buffer. -/
theorem refresh_interrupts_write :
    ∃ (s t : Chan aimModel.Dev Cmd) (q : Queued Cmd) (events : List (Event Cmd)),
      Chan.Run aimModel.idram { channelId := 0 } x16Device (fun _ _ => True) s ∧
        s.step aimModel.idram { channelId := 0 } .tick = some t ∧ t.log = s.log ++ events ∧
        .issue q .PREA ∈ events ∧ (commandMeta .PREA).isClosing = true ∧
        ¬ SparesActive aimModel .Closed s t q := by
  have hrun : ((Chan.replay aimModel.idram { channelId := 0 } x16Device (fun _ _ => true)
      ([.send { type := .Read, addrVec := [0, 0, 0, 5, 0] }] ++ List.replicate 11 .tick ++
        [.send { type := .Write, addrVec := [0, 1, 0, 7, 0] }, .tick,
          .prioritySend { type := .RefAllBank, addrVec := [0, -1, -1, -1, -1] }] ++
        List.replicate 53 .tick)).any fun s =>
          (s.ctl.tick aimModel.idram { channelId := 0 } (aimModel.idram.tick s.dev)).any fun r =>
            (issued r.2.2).any fun i => decide (i.2 = .PREA ∧
              ¬ SparesActive aimModel .Closed s ⟨r.1, r.2.1, s.log ++ r.2.2⟩ i.1)) = true := by
    decide +kernel
  obtain ⟨s, hs, htest⟩ := Option.any_eq_true .. |>.mp hrun
  obtain ⟨r, htick, htest⟩ := Option.any_eq_true .. |>.mp htest
  obtain ⟨⟨q, _⟩, hissued, htest⟩ := List.any_eq_true.mp htest
  obtain ⟨rfl, hcloses⟩ := of_decide_eq_true htest
  refine ⟨s, ⟨r.1, r.2.1, s.log ++ r.2.2⟩, q, r.2.2, Chan.replay_run (fun _ _ _ => trivial) hs, ?_,
    rfl, mem_issued.mp hissued, rfl, hcloses⟩
  rw [Chan.step, htick]
  rfl

end AimSimulator.Controller
