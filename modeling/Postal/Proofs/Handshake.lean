import Postal.Proofs.Desks

/-!
# The handshake in every interleaving.

Every move in the office keeps the ledgers of the desks: a step of a worker or of a customer, an
exchange between the two, a panic, a section of a close, the shutdown, and whoever comes. The
invariant asks nothing of the outside. So it holds in every run in which no worker has two shifts
(`Floor.regular_induction`).

## §1 — steps of a worker.
## §2 — steps of a customer.
## §3 — the other moves.
-/

namespace Postal

namespace Floor

section Kept

variable {workers : Nat} {f : Floor} {ledgers : Nat → Ledger}

/-! ## §1 — steps of a worker -/

/-- A worker announces the next event of its service. -/
theorem Kept.worker_announces (h : f.Kept workers ledgers) {j w : Nat} {k k' : Working}
    {s s' : Stage} {e : Event} (hj : f.people[j]? = some (.worker w k))
    (hstage : (ledgers w).stage = s) (hturn : s.ByWorker s') (hsees : s.Announces s')
    (hw : e.worker? = some w)
    (he : (Trace.service w (ledgers w).current)[s.announced]? = some e)
    (hfits : k'.Fits w ((ledgers w).turn s')) :
    ∃ ledgers', Kept workers ⟨f.premises.record e, f.people.set j (.worker w k')⟩ ledgers' := by
  subst hstage
  refine ⟨_, h.worker_turn hj (Premises.alikeBut_record hw)
    (Premises.view_announce (h.views w (h.worker_fits hj).1) hsees hw he) hturn rfl rfl
    (fun c hc => ?_) hfits⟩
  rw [Ledger.present, show ((ledgers w).turn s').stage.isTaken = s'.isTaken from rfl,
    hsees.2.2.2.2.2] at hc
  exact hc

/-- A worker takes a section of its slot. -/
theorem Kept.worker_section (h : f.Kept workers ledgers) {j w : Nat} {k k' : Working}
    {s s' : Stage} {slot slot' : Slot} (hj : f.people[j]? = some (.worker w k))
    (hstage : (ledgers w).stage = s) (hturn : s.ByWorker s') (hsees : s.Quiet s')
    (hslot : f.premises.slots[w]? = some slot) (hphase : slot'.phase = s'.phase)
    (hcustomer : slot'.customer = ((ledgers w).turn s').bound)
    (hserved : slot'.served = slot.served) (hfits : k'.Fits w ((ledgers w).turn s')) :
    ∃ ledgers', Kept workers
      ⟨f.premises.setSlot w slot', f.people.set j (.worker w k')⟩ ledgers' := by
  subst hstage
  refine ⟨_, h.worker_turn hj (Premises.alikeBut_setSlot _)
    (Premises.view_section (h.views w (h.worker_fits hj).1) hsees hslot hphase hcustomer hserved)
    hturn rfl rfl (fun c hc => ?_) hfits⟩
  rw [Ledger.present, show ((ledgers w).turn s').stage.isTaken = s'.isTaken from rfl,
    hsees.2.2.2.2] at hc
  exact hc

/-- A worker announces its creation at a fresh desk. -/
theorem Kept.worker_creates (h : f.Kept workers ledgers) {j w : Nat}
    (hj : f.people[j]? = some (.worker w .announcingCreation)) :
    ∃ ledgers',
      Kept workers ⟨f.premises.record (.workerCreated w), f.people.set j (.worker w (.deciding 0))⟩
        ledgers' := by
  obtain ⟨hw, hk⟩ := h.worker_fits hj
  have hstage : (ledgers w).stage = .absent := hk.stage
  have hpast : (ledgers w).past = [] := List.length_eq_zero_iff.1 (hk.served 0 rfl).symm
  refine ⟨_, h.worker_turn hj (Premises.alikeBut_record rfl)
    (Premises.view_created (h.views w hw) ⟨hstage, hpast⟩) (hstage ▸ .created) rfl rfl
    (fun c hc => ?_) (hk.turn rfl (.inl rfl) rfl rfl)⟩
  rw [Ledger.present, hstage]
  exact hc

/-- A worker puts its token down, or goes on with its offer. -/
theorem Kept.worker_advertises (h : f.Kept workers ledgers) {j w n : Nat} {pos : Pool.Advertising}
    {progress : Progress Pool.Advertising (Except Fault Unit)} {pool : Pool}
    (hj : f.people[j]? = some (.worker w (.advertising n pos)))
    (hoffer : Pool.Offers f.premises.pool w pos progress pool) :
    ∃ ledgers', Kept workers ⟨{ f.premises with pool }, f.people.set j (.worker w
      (progress.within (.advertising n) (Working.afterOffer n)))⟩ ledgers' := by
  obtain ⟨hw, hk⟩ := h.worker_fits hj
  cases hoffer with
  | unknown hs => exact ⟨_, h.worker_still hj rfl rfl (fun _ => rfl) (.failed _)⟩
  | claimable hs hfull => exact ⟨_, h.worker_still hj rfl rfl (fun _ => rfl) (.failed _)⟩
  | @putDown s hs hroom =>
      have hview := h.views w hw
      have hstage : (ledgers w).stage = .idle := hk.stage
      -- the desk was idle, so the token is the only one there
      have hpermits : s.permits + 1 = 1 := by
        rw [(Premises.token_of_view hview hs).1, hstage]
        rfl
      refine ⟨Function.update ledgers w ((ledgers w).turn .free), h.worker_turn hj
        (Premises.alikeBut_setToken _)
        (Premises.view_token hview hs (by simp [hstage]) (by decide) (by rw [hstage]; rfl)
          (by rw [hstage]; rfl) hpermits rfl) (hstage ▸ .offered) rfl rfl (fun c hc => ?_)
        (hk.turn rfl (.inl rfl) rfl (List.mem_cons_self ..))⟩
      rw [Ledger.present, hstage]
      exact hc
  | full hfull => exact ⟨_, h.worker_still hj rfl rfl (fun _ => rfl) (.failed _)⟩
  | raised hroom =>
      exact ⟨_, h.worker_still hj rfl rfl (fun _ => rfl) (hk.turn rfl (.inl rfl) rfl hk.stage)⟩

/-- A worker books the completed service. -/
theorem Kept.worker_settles (h : f.Kept workers ledgers) {j w n : Nat} {a : Assignment} {s : Slot}
    (hj : f.people[j]? = some (.worker w (.serving n a .settling)))
    (hs : f.premises.slots[w]? = some s) :
    ∃ ledgers', Kept workers
      ⟨f.premises.setSlot w s.settle, f.people.set j (.worker w (.deciding (n + 1)))⟩ ledgers' := by
  obtain ⟨hw, hk⟩ := h.worker_fits hj
  have hstage : (ledgers w).stage = .completed := List.mem_singleton.1 hk.stage
  refine ⟨_, h.worker_turn hj (Premises.alikeBut_setSlot _)
    (Premises.view_settle (h.views w hw) hs hstage) (hstage ▸ .settled) rfl rfl (fun c hc => ?_)
    hk.settles⟩
  rw [Ledger.present, hstage]
  exact hc

/-- Wherever a worker stands after it has asked for the scale, it fits the ledger as before. -/
theorem fits_weighing {w n : Nat} {l : Ledger} {a : Assignment} {pos : Scale.Acquiring}
    (hk : (Working.serving n a (.weighing pos)).Fits w l)
    (progress : Progress Scale.Acquiring (Except Fault Unit)) :
    (progress.within (fun pos => Working.serving n a (.weighing pos))
      (Working.afterWeighing w n a)).Fits w l := by
  have hstage : l.stage = .permitted := List.mem_singleton.1 hk.stage
  rcases progress with pos' | ⟨e | ⟨⟩⟩
  · exact hk.turn rfl (.inr rfl) rfl hk.stage
  · cases e with
    | interrupted => exact hk.leave rfl (by rw [hstage]; rfl)
    | _ => exact .failed _
  · exact hk.turn rfl (.inr rfl) rfl hk.stage

/-- **A step of a worker** keeps the invariant. -/
theorem Kept.worker_step (h : f.Kept workers ledgers) {j w : Nat} {k k' : Working}
    {offered : Bool} {premises' : Premises} (hj : f.people[j]? = some (.worker w k))
    (hstep : k.Steps w f.premises offered k' premises') :
    ∃ ledgers', Kept workers ⟨premises', f.people.set j (.worker w k')⟩ ledgers' := by
  obtain ⟨hw, hk⟩ := h.worker_fits hj
  have hview := h.views w hw
  have hallows := hk.stage
  cases hstep with
  | enrolls hlt =>
      exact ⟨_, h.worker_still hj rfl rfl (fun _ => rfl) (hk.turn rfl (.inl rfl) rfl hallows)⟩
  | unknown hge => exact ⟨_, h.worker_still hj rfl rfl (fun _ => rfl) (.failed _)⟩
  | announcesCreation => exact h.worker_creates hj
  | stays hfired =>
      exact ⟨_, h.worker_still hj rfl rfl (fun _ => rfl) (hk.turn rfl (.inl rfl) rfl hallows)⟩
  | retires hfired =>
      have hstage : (ledgers w).stage = .resting := hallows
      exact ⟨_, h.worker_still hj rfl rfl (fun _ => rfl) (hk.leave rfl (by rw [hstage]; rfl))⟩
  | @opens n s hs hphase =>
      exact h.worker_section hj hallows .opened (by decide) hs rfl
        (Premises.customer_of_view hview hs hallows rfl) rfl (hk.turn rfl (.inl rfl) rfl rfl)
  | announcesIdle =>
      exact h.worker_announces hj hallows .announced (by decide) rfl rfl
        (hk.turn rfl (.inl rfl) rfl rfl)
  | advertises hoffer => exact h.worker_advertises hj hoffer
  | goesHome hout =>
      exact ⟨_, h.worker_still hj rfl rfl (fun _ => rfl)
        (hk.leave rfl (Stage.isLeft_of_offered hallows))⟩
  | accepts hs hphase hcustomer =>
      exact ⟨_, h.worker_still hj rfl rfl (fun _ => rfl)
        (hk.turn rfl (.inr rfl) rfl (List.mem_singleton.2 hallows))⟩
  | rejects hs hno e => exact ⟨_, h.worker_still hj rfl rfl (fun _ => rfl) (.failed _)⟩
  | announcesIntent =>
      refine h.worker_announces hj (List.mem_singleton.1 hallows) .greeted (by decide) rfl ?_
        (hk.turn rfl (.inr rfl) rfl (List.mem_singleton.2 rfl))
      rw [hk.assignment _ rfl]
      rfl
  | @acknowledges n a s hs hphase =>
      have hstage : (ledgers w).stage = .greeted := List.mem_singleton.1 hallows
      exact h.worker_section hj hstage .accepted (by decide) hs rfl
        (Premises.customer_of_view hview hs hstage rfl) rfl
        (hk.turn rfl (.inr rfl) rfl (List.mem_singleton.2 rfl))
  | interrupted hwaits hclosed =>
      obtain ⟨-, hleft⟩ := Service.engaged_of_waits _ hwaits hallows
      exact ⟨_, h.worker_still hj rfl rfl (fun _ => rfl) (hk.leave rfl hleft)⟩
  | @starts n a s hs hphase =>
      refine ⟨_, h.worker_still hj rfl rfl (fun _ => rfl) ?_⟩
      cases a.task.needsScale <;> exact hk.turn rfl (.inr rfl) rfl hallows
  | weighs hacq =>
      exact ⟨_, h.worker_still hj rfl rfl (fun _ => rfl) (fits_weighing hk _)⟩
  | announcesStart =>
      refine h.worker_announces hj (List.mem_singleton.1 hallows) .started (by decide) rfl ?_
        (hk.turn rfl (.inr rfl) rfl (List.mem_singleton.2 rfl))
      rw [hk.assignment _ rfl]
      rfl
  | @works n deadline a =>
      refine ⟨_, h.worker_still hj rfl rfl (fun _ => rfl) ?_⟩
      cases a.task.needsScale <;> exact hk.turn rfl (.inr rfl) rfl hallows
  | @drops n a pos =>
      refine ⟨_, h.worker_still hj rfl rfl (fun _ => rfl) ?_⟩
      cases pos <;> exact hk.turn rfl (.inr rfl) rfl hallows
  | announcesFinish =>
      refine h.worker_announces hj (List.mem_singleton.1 hallows) .finished (by decide) rfl ?_
        (hk.turn rfl (.inr rfl) rfl (List.mem_singleton.2 rfl))
      rw [hk.assignment _ rfl]
      rfl
  | @completes n a s hs hphase =>
      have hstage : (ledgers w).stage = .finished := List.mem_singleton.1 hallows
      exact h.worker_section hj hstage .completed (by decide) hs rfl
        (Premises.customer_of_view hview hs hstage rfl) rfl
        (hk.turn rfl (.inr rfl) rfl (List.mem_singleton.2 rfl))
  | settles hs => exact h.worker_settles hj hs
  | @unwinds pos =>
      refine ⟨_, h.worker_still hj rfl rfl (fun _ => rfl) ?_⟩
      cases pos
      · exact .unwinding _
      · exact .panicked
  | breaks hs hneeds hphase e => exact ⟨_, h.worker_still hj rfl rfl (fun _ => rfl) (.failed _)⟩

/-! ## §2 — steps of a customer -/

/-- A customer announces the next event of its service. -/
theorem Kept.customer_announces (h : f.Kept workers ledgers) {i w : Nat} {c : Customer}
    {stay : Stay} {d d' : Dealing} {s s' : Stage} {e : Event}
    (hi : f.people[i]? = some (.customer c (.dealing stay w d))) (hd : d.isDone = false)
    (hstages : d.stages = [s]) (hturn : s.ByCustomer s') (hsees : s.Announces s')
    (hw : e.worker? = some w) (he : (Trace.service w c)[s.announced]? = some e)
    (hd' : d'.isDone = false) (hstage' : s' ∈ d'.stages) :
    ∃ ledgers', Kept workers
      ⟨f.premises.record e, f.people.set i (.customer c (.dealing stay w d'))⟩ ledgers' := by
  obtain ⟨hlt, hclaimant, hcurrent, hstage⟩ := h.dealing_fits hi hd
  rw [hstages, List.mem_singleton] at hstage
  subst hstage
  exact ⟨_, h.customer_turn hi hlt (Premises.alikeBut_record hw)
    (Premises.view_announce (h.views w hlt) hsees hw (hcurrent ▸ he)) hturn rfl hcurrent hclaimant
    (fun _ => ⟨hclaimant, hcurrent⟩) hd' hstage' fun u hu => hu.1.symm⟩

/-- A customer takes a section of the slot. -/
theorem Kept.customer_section (h : f.Kept workers ledgers) {i w : Nat} {c : Customer}
    {stay : Stay} {d d' : Dealing} {s s' : Stage} {slot slot' : Slot}
    (hi : f.people[i]? = some (.customer c (.dealing stay w d))) (hd : d.isDone = false)
    (hstages : d.stages = [s]) (hturn : s.ByCustomer s') (hsees : s.Quiet s')
    (hslot : f.premises.slots[w]? = some slot) (hphase : slot'.phase = s'.phase)
    (hcustomer : slot.customer = (ledgers w).bound → (ledgers w).stage = s →
      (ledgers w).current = c → slot'.customer = ((ledgers w).turn s').bound)
    (hserved : slot'.served = slot.served) (hd' : d'.isDone = false) (hstage' : s' ∈ d'.stages) :
    ∃ ledgers', Kept workers ⟨f.premises.setSlot w slot',
      f.people.set i (.customer c (.dealing stay w d'))⟩ ledgers' := by
  obtain ⟨hlt, hclaimant, hcurrent, hstage⟩ := h.dealing_fits hi hd
  rw [hstages, List.mem_singleton] at hstage
  subst hstage
  have hview := h.views w hlt
  exact ⟨_, h.customer_turn hi hlt (Premises.alikeBut_setSlot _)
    (Premises.view_section hview hsees hslot hphase
      (hcustomer (Premises.slot_of_view hview hslot).2.1 rfl hcurrent) hserved) hturn rfl hcurrent
    hclaimant (fun _ => ⟨hclaimant, hcurrent⟩) hd' hstage' fun u hu => hu.1.symm⟩

/-- A customer takes a token. -/
theorem Kept.customer_claims (h : f.Kept workers ledgers) {i w : Nat} {c : Customer}
    {stay : Stay} {pos : Pool.Claiming} {s s' : Semaphore}
    (hi : f.people[i]? = some (.customer c (.claiming stay pos)))
    (hs : f.premises.pool.slots[w]? = some s) (hpermits : s'.permits + 1 = s.permits)
    (hceiling : s'.ceiling = s.ceiling) :
    ∃ ledgers', Kept workers
      ⟨{ f.premises with pool := f.premises.pool.setSlot w s' },
        f.people.set i (.customer c (if w < f.premises.workerCount
          then .dealing stay w .announcingClaim
          else .leave (.failed (.violation w .noSuchWorker))))⟩ ledgers' := by
  have hlt : w < workers := h.pool ▸ (List.getElem?_eq_some_iff.1 hs).1
  have hview := h.views w hlt
  have htoken := (Premises.token_of_view hview hs).1
  -- the token is there, so nobody has claimed the desk yet
  have hfree : (ledgers w).stage = .free := Stage.eq_free_of_tokens (by omega)
  have hzero : s'.permits = 0 := by
    rw [hfree, show Stage.tokens .free = 1 from rfl] at htoken
    omega
  have hin : w < f.premises.workerCount := Nat.lt_of_lt_of_eq hlt h.slots.symm
  rw [if_pos hin]
  exact ⟨_, h.customer_turn hi hlt (Premises.alikeBut_setToken _)
    (Premises.view_claim hview hs hfree hzero hceiling c i) (hfree ▸ .claimed) rfl rfl rfl
    (absurd hfree) rfl (List.mem_singleton.2 rfl) fun u hu => hu.elim⟩

/-- Where a search goes on, it is before the last slot or at it. -/
theorem scan_fits {p : Pool} {w i : Nat} {c : Customer} {stay : Stay}
    {afterwards : Except Fault Nat → Visiting} (hsize : p.size = workers)
    (hfits : ∀ e, (afterwards (.error e)).Fits workers i c ledgers) :
    ((p.scan w).within (Visiting.claiming stay) afterwards).Fits workers i c ledgers := by
  rw [Pool.scan]
  split_ifs with hlt hlast
  · exact hsize ▸ hlt
  · trivial
  · exact hfits _

/-- **A step of a customer** keeps the invariant. -/
theorem Kept.customer_step (h : f.Kept workers ledgers) {i : Nat} {c : Customer} {v v' : Visiting}
    {premises' : Premises} (hi : f.people[i]? = some (.customer c v))
    (hstep : v.Steps c f.premises v' premises') :
    ∃ ledgers', Kept workers ⟨premises', f.people.set i (.customer c v')⟩ ledgers' := by
  cases hstep with
  | announcesCreation =>
      exact ⟨_, h.customer_still hi rfl rfl (Premises.view_record_of_none rfl) trivial
        fun _ hatt => hatt.elim⟩
  | @enters pos progress gate henter =>
      refine ⟨_, h.customer_still hi rfl rfl (fun _ => rfl) ?_ fun _ hatt => hatt.elim⟩
      rcases progress with pos' | ⟨e | ticket⟩ <;> trivial
  | looksUp =>
      exact ⟨_, h.customer_still hi rfl rfl (fun _ => rfl) trivial fun _ hatt => hatt.elim⟩
  | announcesAdmission =>
      exact ⟨_, h.customer_still hi rfl rfl (Premises.view_record_of_none rfl) trivial
        fun _ hatt => hatt.elim⟩
  | claims hclaim =>
      cases hclaim with
      | waits hacq =>
          exact ⟨_, h.customer_still hi rfl rfl (fun _ => rfl) trivial fun _ hatt => hatt.elim⟩
      | admitted hacq =>
          exact ⟨_, h.customer_still hi rfl rfl (fun _ => rfl)
            (scan_fits h.pool fun _ => trivial) fun _ hatt => hatt.elim⟩
      | refused hacq =>
          exact ⟨_, h.customer_still hi rfl rfl (fun _ => rfl) trivial fun _ hatt => hatt.elim⟩
      | missed hs htry =>
          exact ⟨_, h.customer_still hi rfl rfl (fun _ => rfl)
            (scan_fits h.pool fun _ => trivial) fun _ hatt => hatt.elim⟩
      | took hs htry =>
          exact h.customer_claims hi hs (Semaphore.tryAcquire_permits htry)
            (Semaphore.tryAcquire_ceiling_eq htry)
      | lastWaits hs hacq =>
          exact ⟨_, h.customer_still hi rfl (Pool.size_setSlot _ _ _)
            (Premises.view_setToken_same hs (Semaphore.acquire?_permits hacq)
              (Semaphore.acquire?_ceiling_eq hacq)) trivial fun _ hatt => hatt.elim⟩
      | lastTook hs hacq =>
          exact h.customer_claims hi hs (Semaphore.acquire?_permits hacq)
            (Semaphore.acquire?_ceiling_eq hacq)
      | lastRefused hs hacq =>
          exact ⟨_, h.customer_still hi rfl (Pool.size_setSlot _ _ _)
            (Premises.view_setToken_same hs (Semaphore.acquire?_permits hacq)
              (Semaphore.acquire?_ceiling_eq hacq)) trivial fun _ hatt => hatt.elim⟩
  | announcesClaim =>
      exact h.customer_announces hi rfl rfl .approached (by decide) rfl rfl rfl
        (List.mem_singleton.2 rfl)
  | binds hs hphase =>
      refine h.customer_section hi rfl rfl .bound (by decide) hs rfl (fun _ _ hcurrent => ?_) rfl
        rfl (List.mem_singleton.2 rfl)
      rw [← hcurrent]
      rfl
  | @linesUp stay w =>
      have hold := h.fits i _ hi
      exact ⟨_, h.customer_still hi rfl rfl (fun _ => rfl) ⟨hold.1, fun _ => hold.2 rfl⟩
        fun _ hatt => ⟨hatt.1, rfl⟩⟩
  | interrupted hwaits hclosed =>
      exact ⟨_, h.customer_still hi rfl rfl (fun _ => rfl) trivial fun _ _ => rfl⟩
  | announcesIntent =>
      exact h.customer_announces hi rfl rfl .asked (by decide) rfl rfl rfl
        (List.mem_singleton.2 rfl)
  | proceeds hs hphase =>
      refine h.customer_section hi rfl rfl .permitted (by decide) hs rfl
        (fun hbound hstage _ => ?_) rfl rfl (List.mem_singleton.2 rfl)
      rw [show _ = (ledgers _).bound from hbound, Ledger.bound, hstage]
      rfl
  | announcesFinish =>
      exact ⟨_, h.customer_still hi rfl rfl (Premises.view_record_of_none rfl)
        (Visiting.fits_of_done (h.fits i _ hi).1 rfl) fun _ hatt => absurd hatt.2 (by decide)⟩
  | announcesDeparture =>
      exact ⟨_, h.customer_still hi rfl rfl (Premises.view_record_of_none rfl)
        (Visiting.fits_of_done (h.fits i _ hi).1 rfl) fun _ hatt => absurd hatt.2 (by decide)⟩
  | departs =>
      exact ⟨_, h.customer_still hi rfl rfl (fun _ => rfl) trivial
        fun _ hatt => absurd hatt.2 (by decide)⟩
  | stepsOut => exact ⟨_, h.customer_still hi rfl rfl (fun _ => rfl) trivial fun _ hatt => hatt⟩
  | leaves => exact ⟨_, h.customer_still hi rfl rfl (fun _ => rfl) trivial fun _ hatt => hatt⟩
  | breaks hs hneeds hphase e =>
      exact ⟨_, h.customer_still hi rfl rfl (fun _ => rfl) trivial fun _ _ => rfl⟩

/-! ## §3 — the other moves -/

/-- **An exchange** keeps the invariant. -/
theorem Kept.exchange (h : f.Kept workers ledgers) {i j w : Nat} {people' : List Person}
    (hex : Exchanges f.people i j w people') :
    ∃ ledgers', Kept workers ⟨f.premises, people'⟩ ledgers' := by
  -- what the book shows of a desk does not change when both sides move at once
  have view : ∀ {s s' : Stage}, (ledgers w).stage = s → s.Quiet s' → s'.phase = s.phase →
      ((ledgers w).turn s').view w = (ledgers w).view w := by
    intro s s' hstage hsees hphase
    subst hstage
    obtain ⟨hl, hs, hcount, htokens, -⟩ := hsees
    rw [Ledger.view_turn_silent hl hs hcount, hphase, htokens,
      show ((ledgers w).turn s').bound = (ledgers w).bound by
        rw [Ledger.bound, Ledger.bound, Ledger.turn, hphase]]
    rfl
  cases hex with
  | published hi hj =>
      obtain ⟨-, -, hcurrent, hmem⟩ := h.dealing_fits hi rfl
      have hstage := List.mem_singleton.1 hmem
      have hk := (h.worker_fits hj).2
      exact ⟨_, h.exchange_turn (s := .received) hi hj rfl (view hstage (by decide) rfl)
        (by rw [hstage]; rfl)
        (hk.receives hcurrent) (.inl ⟨rfl, List.mem_cons_self ..⟩)⟩
  | acknowledged hi hj =>
      have hk := (h.worker_fits hi).2
      have hstage := List.mem_singleton.1 hk.stage
      rw [set_customer_set_worker hj hi]
      exact ⟨_, h.exchange_turn (s := .accepted) hj hi rfl (view hstage (by decide) rfl)
        (by rw [hstage]; rfl) (hk.turn rfl (.inr rfl) rfl (List.mem_cons_self ..))
        (.inl ⟨rfl, List.mem_singleton.2 rfl⟩)⟩
  | proceeded hi hj =>
      obtain ⟨-, -, -, hmem⟩ := h.dealing_fits hi rfl
      have hstage := List.mem_singleton.1 hmem
      have hk := (h.worker_fits hj).2
      exact ⟨_, h.exchange_turn (s := .permitted) hi hj rfl (view hstage (by decide) rfl)
        (by rw [hstage]; rfl) (hk.turn rfl (.inr rfl) rfl (List.mem_singleton.2 rfl))
        (.inl ⟨rfl, List.mem_cons_self ..⟩)⟩
  | completed hi hj =>
      have hk := (h.worker_fits hi).2
      have hstage := List.mem_singleton.1 hk.stage
      rw [set_customer_set_worker hj hi]
      exact ⟨_, h.exchange_turn (s := .completed) hj hi rfl (view hstage (by decide) rfl)
        (by rw [hstage]; rfl) (hk.turn rfl (.inr rfl) rfl (List.mem_singleton.2 rfl))
        (.inr ⟨rfl, rfl⟩)⟩

/-- **A panic** keeps the invariant. -/
theorem Kept.unwind (h : f.Kept workers ledgers) {i : Nat} {p p' : Person}
    (hi : f.people[i]? = some p) (hunwind : p.unwind? = some p') :
    Kept workers ⟨f.premises, f.people.set i p'⟩ ledgers := by
  cases Person.unwinds_of_unwind? hunwind with
  | outside => exact h.customer_still hi rfl rfl (fun _ => rfl) trivial fun _ hatt => hatt.elim
  | entered => exact h.customer_still hi rfl rfl (fun _ => rfl) trivial fun _ hatt => hatt.elim
  | dealing he => exact h.customer_still hi rfl rfl (fun _ => rfl) trivial fun _ _ => rfl
  | weighing hneeds => exact h.worker_still hi rfl rfl (fun _ => rfl) (.unwinding _)
  | working he hscale => exact h.worker_still hi rfl rfl (fun _ => rfl) .panicked

/-- A step of a close shows at no desk. -/
theorem alike_of_closing {k k' : Closing} {p p' : Premises} (hstep : k.Steps p k' p') :
    p'.slots.length = p.slots.length ∧ p'.pool.size = p.pool.size ∧
      ∀ w, p'.view w = p.view w := by
  cases hstep with
  | token hs => exact ⟨rfl, Pool.size_setSlot _ _ _, Premises.view_setToken_same hs rfl rfl⟩
  | @slot v s hs =>
      refine ⟨List.length_set, rfl, fun w => ?_⟩
      by_cases hw : w = v
      · subst hw
        rw [Premises.view_setSlot_self _ (List.getElem?_eq_some_iff.1 hs).1]
        simp only [Premises.view, hs, Option.map_some]
        rfl
      · exact Premises.view_setSlot_of_ne _ hw
  | _ => exact ⟨rfl, rfl, fun _ => rfl⟩

/-- **A step on the floor** keeps the invariant. -/
theorem Kept.step (h : f.Kept workers ledgers) {f' : Floor} {i : Nat} (hstep : f.Steps i f') :
    ∃ ledgers', f'.Kept workers ledgers' := by
  cases hstep with
  | customer hi hv => exact h.customer_step hi hv
  | worker hi hk => exact h.worker_step hi hk
  | closer hi hk =>
      obtain ⟨hslots, hpool, hviews⟩ := alike_of_closing hk
      exact ⟨_, (h.premises hslots hpool fun w _ => hviews w).still hi rfl trivial
        fun _ _ _ hp => by cases hp⟩

/-- **Somebody comes**: a customer, a worker of the office who is not there yet, or a closer. -/
theorem Kept.join (h : f.Kept workers ledgers) {p : Person}
    (hp : (∃ c, p = .arrives c) ∨ (∃ w, p = .starts w ∧ w < workers ∧ .worker w ∉ f.badges) ∨
      p = .closes) : (f.join p).Kept workers ledgers := by
  have hbadges : (f.join p).badges = f.badges ++ [p.badge] := by simp [badges, Floor.join]
  have hmember : ∀ b ∈ f.badges, b ∈ (f.join p).badges := by
    intro b hb
    rw [hbadges]
    exact List.mem_append_left _ hb
  -- the newcomer is no worker who is there already
  have hnew : ∀ w, p.badge = .worker w → .worker w ∉ f.badges := by
    rcases hp with ⟨c, rfl⟩ | ⟨v, rfl, -, hno⟩ | rfl
    · intro w hb
      cases hb
    · intro w hb
      obtain rfl := Badge.worker.inj hb
      exact hno
    · intro w hb
      cases hb
  refine ⟨h.slots, h.pool, h.views, fun i q hi => ?_, fun i j w hi hj => ?_, fun w hw hno => ?_,
    fun w hw c hc => hmember _ (h.known w hw c hc), fun w hw hengaged => ?_⟩
  · rcases getElem?_concat_cases hi with hold | ⟨-, rfl⟩
    · exact h.fits i q hold
    · rcases hp with ⟨c, rfl⟩ | ⟨w, rfl, hw, hno⟩ | rfl
      · trivial
      · exact ⟨hw, .arriving (h.blank w hw hno)⟩
      · trivial
  · rw [hbadges] at hi hj
    rcases getElem?_concat_cases hi with hi' | ⟨rfl, hbi⟩ <;>
      rcases getElem?_concat_cases hj with hj' | ⟨rfl, hbj⟩
    · exact h.single i j w hi' hj'
    · exact absurd (List.mem_of_getElem? hi') (hnew w hbj.symm)
    · exact absurd (List.mem_of_getElem? hj') (hnew w hbi.symm)
    · rfl
  · exact h.blank w hw fun hmem => hno (hmember _ hmem)
  · obtain ⟨v, hv, hatt⟩ := h.attended w hw hengaged
    exact ⟨v, (List.getElem?_append_left (List.getElem?_eq_some_iff.1 hv).1).trans hv, hatt⟩

/-- The ledgers of an office that has just opened are blank. -/
theorem kept_opening (capacity workers minute clock : Nat) :
    Kept workers (.opening (.furnish capacity workers minute) clock) fun _ => .blank where
  slots := by simp [opening, Premises.opening, Office.furnish]
  pool := by simp [opening, Premises.opening, Office.furnish, Pool.ofWorkers, Pool.size]
  views w hw := by
    simp [opening, Premises.opening, Office.furnish, Premises.view, Ledger.view, Ledger.blank,
      Pool.ofWorkers, hw, Slot.fresh, Semaphore.bounded, Premises.events, Trace.worker,
      Ledger.events, Ledger.bound, Stage.phase, Stage.tokens, Phase.hasCustomer]
  fits i p hi := by simp [opening] at hi
  single i j w hi := by simp [opening, badges] at hi
  blank w _ _ := ⟨rfl, rfl⟩
  known w _ c hc := by simp [Ledger.present, Ledger.blank, Stage.isTaken] at hc
  attended w _ hw := by simp [Ledger.blank, Stage.isEngaged] at hw

/-- **Every move** keeps the invariant. -/
theorem Kept.move (h : f.Kept workers ledgers) {f' : Floor} {m : Move}
    (hmove : f.move? m = some f')
    (hjoin : ∀ p, m = .join p → (∃ c, p = .arrives c) ∨
      (∃ w, p = .starts w ∧ w < workers ∧ .worker w ∉ f.badges) ∨ p = .closes) :
    ∃ ledgers', f'.Kept workers ledgers' := by
  cases m with
  | step i => exact h.step (steps_of_step? hmove)
  | exchange i j =>
      obtain ⟨w, people', -, hex, rfl⟩ := exchanges_of_exchange? hmove
      exact h.exchange hex
  | unwind i =>
      obtain ⟨p, p', hi, hunwind, rfl⟩ := unwind?_eq_some hmove
      exact ⟨_, h.unwind hi hunwind⟩
  | fire =>
      obtain rfl := Option.some.inj hmove
      exact ⟨_, h.premises rfl rfl fun _ _ => rfl⟩
  | join p =>
      obtain rfl := Option.some.inj hmove
      exact ⟨_, h.join (hjoin p rfl)⟩

end Kept

/-- **Induction over a run of a kept floor.** `motive` speaks of the moves that are still to come
and of the floor. Whoever comes begins a visit, a shift or a close, and no worker comes who is there
already; then every move of the run finds the floor kept. -/
theorem kept_induction {workers : Nat} {motive : List Move → Floor → Prop} {ms : List Move}
    {f f' : Floor} (hkept : ∃ ledgers, f.Kept workers ledgers)
    (hbegins : ∀ p, .join p ∈ ms → (∃ c, p = .arrives c) ∨ (∃ w, w < workers ∧ p = .starts w) ∨
      p = .closes)
    (honce : ∀ w, (f.badges ++ newcomers ms).count (.worker w) ≤ 1) (hstart : motive ms f)
    (hmove : ∀ {m : Move} {rest : List Move} {g g' : Floor} {ledgers : Nat → Ledger}, m ∈ ms →
      g.Kept workers ledgers → motive (m :: rest) g → g.move? m = some g' → motive rest g')
    (hrun : run? ms f = some f') : (∃ ledgers, f'.Kept workers ledgers) ∧ motive [] f' := by
  -- the motive carries along that no worker comes twice in what is left of the run
  have hend := run_induction (motive := fun rest g => (∃ ledgers, g.Kept workers ledgers) ∧
    motive rest g ∧ (∀ m ∈ rest, m ∈ ms) ∧ ∀ w, (g.badges ++ newcomers rest).count (.worker w) ≤ 1)
    (fun {m rest g g'} hg hm => ?_) ⟨hkept, hstart, fun _ hm => hm, honce⟩ hrun
  · exact ⟨hend.1, hend.2.1⟩
  · obtain ⟨⟨ledgers, hkept⟩, hmot, hmem, honce⟩ := hg
    have hm' : m ∈ ms := hmem m (List.mem_cons_self ..)
    refine ⟨hkept.move hm fun p hp => ?_, hmove hm' hkept hmot hm,
      fun m hm => hmem m (List.mem_cons_of_mem _ hm), fun w => ?_⟩
    · rcases hbegins p (hp ▸ hm') with hc | ⟨w, hw, rfl⟩ | hc
      · exact .inl hc
      · refine .inr (.inl ⟨w, rfl, hw, fun hold => ?_⟩)
        have hcount := honce w
        subst hp
        have hpos := List.count_pos_iff.2 hold
        rw [newcomers_cons, List.count_append, List.count_append,
          show Move.newcomer? (.join (.starts w)) = some (.worker w) from rfl, Option.toList_some,
          List.count_singleton_self] at hcount
        omega
      · exact .inr (.inr hc)
    · have hsame : g'.badges ++ newcomers rest = g.badges ++ newcomers (m :: rest) := by
        rw [badges_move hm, List.append_assoc, newcomers_cons]
      rw [hsame]
      exact honce w

/-- **Induction over a regular run** from an office that opens. Every move of the run finds the
floor kept. -/
theorem regular_induction {capacity workers minute clock : Nat} {motive : Floor → Prop}
    {ms : List Move} {f : Floor} (hms : Regular workers ms)
    (hopening : motive (.opening (.furnish capacity workers minute) clock))
    (hmove : ∀ {m : Move} {f f' : Floor} {ledgers : Nat → Ledger}, m ∈ ms →
      f.Kept workers ledgers → motive f → f.move? m = some f' → motive f')
    (hrun : run? ms (.opening (.furnish capacity workers minute) clock) = some f) :
    (∃ ledgers, f.Kept workers ledgers) ∧ motive f :=
  kept_induction (motive := fun _ => motive) ⟨_, kept_opening capacity workers minute clock⟩
    hms.begins hms.once hopening hmove hrun

end Floor

end Postal
