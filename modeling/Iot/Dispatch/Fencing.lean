import Iot.Dispatch.Redelivery

/-!
# Leases are exclusive and completions are fenced

A completed claim changes its command only while the claim is the last one and its lease runs.
That rests on four operations not re-arming an old attempt, which `Leased` states for one command:
its claims are numbered by its attempts, every claim but the last one has expired or has been
completed, and the row of a command whose last claim is open carries that claim's expiry as its
next dispatch. `lease_exclusive` holds over every run in which the database clock does not go
back.
-/

namespace Iot.Dispatch

open Text Contracts Platform Store Data Execution

/-- The attempts of a command claimed `n` times, the last one first. -/
def countdown : Nat → List Int
  | 0 => []
  | n + 1 => ((n + 1 : Nat) : Int) :: countdown n

/-- No attempt has a number above the count. -/
theorem le_of_mem_countdown {n : Nat} {attempt : Int} (h : attempt ∈ countdown n) :
    attempt ≤ n := by
  induction n with
  | zero => simp [countdown] at h
  | succ n ih =>
      rw [countdown, List.mem_cons] at h
      rcases h with rfl | h
      · exact le_refl _
      · have hle := ih h
        omega

/-- No two attempts have one number. -/
theorem countdown_nodup (n : Nat) : (countdown n).Nodup := by
  induction n with
  | zero => exact List.nodup_nil
  | succ n ih =>
      refine List.nodup_cons.mpr ⟨fun h => ?_, ih⟩
      have hle := le_of_mem_countdown h
      omega

/-- The claims of a command, their leases and its row fit together. -/
structure Leased (focus : Focus) : Prop where
  numbered : focus.claims.map Claim.attempt = countdown (attempts focus.view)
  held : ∀ claim ∈ focus.held, claim ∈ focus.claims ∧ claim ∉ focus.completed
  completed : ∀ claim ∈ focus.completed, claim ∈ focus.claims
  expired : ∀ claim ∈ focus.claims, claim ∉ focus.completed →
    claim.attempt < attempts focus.view → claim.expiry ≤ focus.clock
  current : ∀ row, focus.view.row = some row → row.status = .created →
    ∀ claim ∈ focus.claims, claim ∉ focus.completed →
      claim.attempt = attempts focus.view → row.nextDispatchAt = claim.expiry
  settled : ∀ row, focus.view.row = some row → row.status = .published →
    ∀ claim ∈ focus.claims, claim.attempt = attempts focus.view → claim ∈ focus.completed

/-- A claim is known by its number. -/
theorem Leased.unique {focus : Focus} (h : Leased focus) {claim other : Claim}
    (hclaim : claim ∈ focus.claims) (hother : other ∈ focus.claims)
    (hattempt : claim.attempt = other.attempt) : claim = other := by
  have hnodup : (focus.claims.map Claim.attempt).Nodup := by
    rw [h.numbered]
    exact countdown_nodup _
  exact List.inj_on_of_nodup_map hnodup hclaim hother hattempt

/-- No claim is numbered above the attempts of its command. -/
theorem Leased.attempt_le {focus : Focus} (h : Leased focus) {claim : Claim}
    (hclaim : claim ∈ focus.claims) : claim.attempt ≤ attempts focus.view := by
  refine le_of_mem_countdown ?_
  rw [← h.numbered]
  exact List.mem_map_of_mem hclaim

/-- The claim with the highest number is the last one made. -/
theorem Leased.newest {focus : Focus} (h : Leased focus) {claim : Claim}
    (hclaim : claim ∈ focus.claims) (hattempt : claim.attempt = attempts focus.view) :
    focus.claims.head? = some claim := by
  cases hclaims : focus.claims with
  | nil => simp [hclaims] at hclaim
  | cons first rest =>
      have hnumbered := h.numbered
      rw [hclaims, List.map_cons] at hnumbered
      cases hcount : attempts focus.view with
      | zero => simp [hcount, countdown] at hnumbered
      | succ n =>
          rw [hcount, countdown, List.cons.injEq] at hnumbered
          have hfirst : first = claim := by
            refine h.unique (by simp [hclaims]) hclaim ?_
            rw [hnumbered.1, hattempt, hcount]
          rw [hfirst, List.head?_cons]

/-- The row a foreign transition leaves in the queue was published before. -/
theorem foreign_created {label : Label} {view after : View} (h : Transition label view after)
    (hforeign : Label.isForeign label) {row : CommandRow} (hrow : after.row = some row)
    (hstatus : row.status = .created) :
    view.row = none ∨ ∃ before, view.row = some before ∧ before.status = .published := by
  cases h with
  | create => exact Or.inl rfl
  | claim h | publish h | reschedule h => simp [Label.isForeign] at hforeign
  | deliver h | expire h | exhaust h =>
      cases hrow
      simp [endedRow] at hstatus
  | requeue h => exact Or.inr ⟨_, rfl, h⟩
  | acknowledge hopen hnext hresult =>
      cases hrow
      rcases hnext with ⟨rfl, _⟩ | ⟨rfl, _⟩ <;> simp at hstatus

/-- No foreign transition publishes a command. -/
theorem foreign_not_published {label : Label} {view after : View}
    (h : Transition label view after) (hforeign : Label.isForeign label) {row : CommandRow}
    (hrow : after.row = some row) : row.status ≠ .published := by
  cases h with
  | create hstatus =>
      cases hrow
      simp [hstatus]
  | claim h | publish h | reschedule h => simp [Label.isForeign] at hforeign
  | deliver h | expire h | exhaust h | requeue h =>
      cases hrow
      simp [endedRow, requeuedRow]
  | acknowledge hopen hnext hresult =>
      cases hrow
      rcases hnext with ⟨rfl, _⟩ | ⟨rfl, _⟩ <;> simp

/-- A claim finds the claims before it expired or completed. -/
theorem leased_claim {row : CommandRow} {acks : List AckRow} {log : List CommandEvent}
    {clock now : Time} {held claims completed : List Claim} {claim : Claim}
    (h : claimable now row) (hattempt : claim.attempt = row.dispatchAttempts + 1)
    (hnow : claim.claimedAt = now) (hclock : clock ≤ now)
    (hleased : Leased ⟨⟨some row, acks, log⟩, clock, held, claims, completed⟩) :
    Leased ⟨⟨some (claimedRow now claim.lease row), acks, log⟩, now, claim :: held,
      claim :: claims, completed⟩ := by
  have hbefore : attempts ⟨some row, acks, log⟩ = row.dispatchAttempts := rfl
  have hafter : attempts ⟨some (claimedRow now claim.lease row), acks, log⟩ =
      row.dispatchAttempts + 1 := rfl
  have hle : ∀ other ∈ claims, other.attempt ≤ row.dispatchAttempts :=
    fun other hother => hleased.attempt_le hother
  have hnew : claim ∉ claims := by
    intro hmem
    have := hle claim hmem
    omega
  simp only [claimable, Bool.and_eq_true, beq_iff_eq, decide_eq_true_eq] at h
  obtain ⟨⟨hcreated, hnext⟩, _⟩ := h
  refine ⟨?_, ?_, ?_, ?_, ?_, ?_⟩
  · have hnumbered := hleased.numbered
    dsimp only at hnumbered ⊢
    rw [hafter, countdown, List.map_cons, hattempt, hnumbered, hbefore]
    rfl
  · intro other hother
    rw [List.mem_cons] at hother
    rcases hother with rfl | hother
    · exact ⟨List.mem_cons_self, fun hdone => hnew (hleased.completed _ hdone)⟩
    · obtain ⟨hmem, hopen⟩ := hleased.held other hother
      exact ⟨List.mem_cons_of_mem _ hmem, hopen⟩
  · intro other hother
    exact List.mem_cons_of_mem _ (hleased.completed other hother)
  · intro other hother hopen hlt
    dsimp only at hother hopen hlt ⊢
    rw [hafter] at hlt
    rw [List.mem_cons] at hother
    rcases hother with rfl | hother
    · omega
    · -- an earlier claim had expired before, or is the one whose expiry the row carried
      rcases lt_or_eq_of_le (hle other hother) with hearlier | hlast
      · exact (hleased.expired other hother hopen hearlier).trans hclock
      · rw [← hleased.current row rfl hcreated other hother hopen hlast]
        exact hnext
  · intro changed hchanged _ other hother _ hlast
    cases hchanged
    dsimp only at hother hlast
    rw [hafter] at hlast
    rw [List.mem_cons] at hother
    rcases hother with rfl | hother
    · simp [claimedRow, Claim.expiry, hnow]
    · have := hle other hother
      omega
  · intro changed hchanged hstatus
    cases hchanged
    simp [claimedRow, hcreated] at hstatus

/-- A completion with effect settles the last claim. -/
theorem leased_complete {id : Bytes} {row : CommandRow} {acks : List AckRow}
    {log : List CommandEvent} {after : View} {clock now : Time}
    {held held' claims completed : List Claim} {claim : Claim} {label : Label}
    (hholds : claim ∈ held) (hheld : held'.Sublist held) (hgone : claim ∉ held')
    (h : fenced now id claim.attempt row)
    (hlabel : label = .publish now claim.attempt ∨
      ∃ retryAfter, label = .reschedule now retryAfter claim.attempt)
    (htransition : Transition label ⟨some row, acks, log⟩ after) (hclock : clock ≤ now)
    (hleased : Leased ⟨⟨some row, acks, log⟩, clock, held, claims, completed⟩) :
    Leased ⟨after, now, held', claims, claim :: completed⟩ := by
  have hattempts := (completion_attempts htransition hlabel).1
  have hclaim := (hleased.held claim hholds).1
  -- the fence makes the completed claim the one with the highest number
  have hlast : claim.attempt = attempts ⟨some row, acks, log⟩ := (fenced_created h).2.1.symm
  have hdone : ∀ other ∈ claims, other.attempt = attempts after → other ∈ claim :: completed := by
    intro other hother hattempt
    rw [hattempts, ← hlast] at hattempt
    exact List.mem_cons.mpr (Or.inl (hleased.unique hother hclaim hattempt))
  refine ⟨?_, ?_, ?_, ?_, ?_, ?_⟩
  · dsimp only
    rw [hattempts]
    exact hleased.numbered
  · intro other hother
    obtain ⟨hmem, hopen⟩ := hleased.held other (hheld.subset hother)
    refine ⟨hmem, fun hcompleted => ?_⟩
    rcases List.mem_cons.mp hcompleted with rfl | hcompleted
    · exact hgone hother
    · exact hopen hcompleted
  · intro other hother
    rcases List.mem_cons.mp hother with rfl | hother
    · exact hclaim
    · exact hleased.completed other hother
  · intro other hother hopen hlt
    dsimp only at hlt
    rw [hattempts] at hlt
    exact (hleased.expired other hother (fun hmem => hopen (List.mem_cons_of_mem _ hmem))
      hlt).trans hclock
  · intro changed _ _ other hother hopen hattempt
    exact absurd (hdone other hother hattempt) hopen
  · intro changed _ _ other hother hattempt
    exact hdone other hother hattempt

/-- What others do to a command does not re-arm its claims. -/
theorem leased_foreign {view after : View} {clock clock' : Time}
    {held claims completed : List Claim} {label : Label} (hforeign : Label.isForeign label)
    (htransition : Transition label view after) (hclock : clock ≤ clock')
    (hleased : Leased ⟨view, clock, held, claims, completed⟩) :
    Leased ⟨after, clock', held, claims, completed⟩ := by
  have hattempts := (foreign_attempts htransition hforeign).1
  refine ⟨?_, hleased.held, hleased.completed, ?_, ?_, ?_⟩
  · dsimp only
    rw [hattempts]
    exact hleased.numbered
  · intro claim hclaim hopen hlt
    dsimp only at hlt
    rw [hattempts] at hlt
    exact (hleased.expired claim hclaim hopen hlt).trans hclock
  · intro row hrow hstatus claim hclaim hopen hlast
    dsimp only at hlast
    rw [hattempts] at hlast
    rcases foreign_created htransition hforeign hrow hstatus with hnone | ⟨before, hbefore, hold⟩
    · have hempty := hleased.numbered
      simp only [attempts, hnone, Option.map_none, Option.getD_none, countdown,
        List.map_eq_nil_iff] at hempty
      simp [hempty] at hclaim
    · exact absurd (hleased.settled before hbefore hold claim hclaim hlast) hopen
  · intro row hrow hstatus
    exact absurd hstatus (foreign_not_published htransition hforeign hrow)

/-- Every step at a time that is not before the last one keeps the leases. -/
theorem focus_leased {id : Bytes} {focus after : Focus} (h : FocusStep id focus after)
    (hclock : focus.clock ≤ after.clock) (hleased : Leased focus) : Leased after := by
  cases h with
  | idle hheld =>
      exact ⟨hleased.numbered, fun claim hclaim => hleased.held claim (hheld.subset hclaim),
        hleased.completed,
        fun claim hclaim hopen hlt => (hleased.expired claim hclaim hopen hlt).trans hclock,
        hleased.current, hleased.settled⟩
  | claim h hclaim => exact leased_claim h hclaim.2.1 hclaim.2.2 hclock hleased
  | complete hholds hheld hgone h hlabel htransition =>
      exact leased_complete hholds hheld hgone h hlabel htransition hclock hleased
  | foreign hforeign htransition => exact leased_foreign hforeign htransition hclock hleased

/-- The step is not taken at a time before the last one the database told. -/
def ClockForward (sys : System) (action : Action) : Prop :=
  ∀ now ∈ action.dbTime, sys.clock ≤ now

instance (sys : System) (action : Action) : Decidable (ClockForward sys action) :=
  inferInstanceAs (Decidable (∀ now ∈ action.dbTime, _))

variable (go : GoRuntime) (pg : Postgres)

/-- The clock of the system does not go back. -/
theorem step_clock {sys : System} {action : Action} (h : ClockForward sys action) :
    sys.clock ≤ (sys.step go pg action).clock := by
  cases action with
  | claim dispatcher now lease locked =>
      have hnow : sys.clock ≤ now := h now rfl
      simp only [System.step]
      split
      · exact le_refl _
      · split <;> exact hnow
  | complete dispatcher now written =>
      have hnow : sys.clock ≤ now := h now rfl
      simp only [System.step]
      split
      · exact le_refl _
      · exact hnow
  | abandon | expire | acknowledge | create | registerDevice => exact le_refl _
  | recoverRequeue now | recoverFail now | markSent now | requeue now => exact h now rfl

/-- The leases fit together in every state of a run in which the clock does not go back. -/
theorem run_leased (clock : Time) {actions : List Action}
    (h : Along (System.step go pg) ClockForward (.initial clock) actions) (id : Bytes) :
    Leased ((run (System.step go pg) (.initial clock) actions).focus id) := by
  refine run_invariant_along ClockForward (fun sys : System => ∀ id, Leased (sys.focus id)) ?_ ?_
    h id
  · intro sys action hleased hforward id
    exact focus_leased (step_focus go pg sys action id) (step_clock go pg hforward) (hleased id)
  · intro id
    rw [initial_focus]
    refine ⟨rfl, ?_, ?_, ?_, ?_, ?_⟩ <;> simp

/-- Along every run in which the database clock does not go back: a completion that changes its
command is that of the last claim of the command, within its lease; and of the claims of one
command on which no completion took effect, at most one has not expired. -/
theorem lease_exclusive (go : GoRuntime) (pg : Postgres) (clock : Time) (actions : List Action)
    (h : Along (System.step go pg) ClockForward (.initial clock) actions) :
    let sys := run (System.step go pg) (.initial clock) actions
    (∀ dispatcher now written claim, sys.holding dispatcher = some claim → sys.clock ≤ now →
      (sys.step go pg (.complete dispatcher now written)).db.view claim.id ≠
        sys.db.view claim.id →
      sys.history.find? (fun other => other.id = claim.id) = some claim ∧
        now < claim.claimedAt + claim.lease) ∧
    (∀ claim ∈ sys.held, claim ∈ sys.history) ∧
    (∀ first ∈ sys.history, ∀ second ∈ sys.history, first.id = second.id →
      first ∉ sys.completed → second ∉ sys.completed → ∀ now, sys.clock ≤ now →
      now < first.claimedAt + first.lease → now < second.claimedAt + second.lease →
      first = second) := by
  intro sys
  have hleased : ∀ id, Leased (sys.focus id) := run_leased go pg clock h
  refine ⟨?_, ?_, ?_⟩
  · intro dispatcher now written claim hholding _ hchanged
    obtain ⟨hmem, _⟩ := holding_mem hholding
    have heffective : sys.effective now claim = true := by
      by_contra hidle
      refine hchanged ?_
      simp only [System.step, hholding]
      exact completion_ineffective go pg sys now claim written (by simpa using hidle)
    obtain ⟨row, label, hrow, hfenced, _⟩ :=
      completion_effective go pg sys now claim written heffective
    obtain ⟨hcreated, hattempt, hlease⟩ := fenced_created hfenced
    have hattempts : attempts (sys.focus claim.id).view = row.dispatchAttempts := by
      simp [attempts, System.focus, hrow]
    have hlast : claim.attempt = attempts (sys.focus claim.id).view := by
      rw [hattempts, hattempt]
    obtain ⟨hclaims, hopen⟩ :=
      (hleased claim.id).held claim (by simpa [System.focus] using hmem)
    refine ⟨?_, ?_⟩
    · rw [← List.head?_filter]
      exact (hleased claim.id).newest hclaims hlast
    · rw [(hleased claim.id).current row hrow hcreated claim hclaims hopen hlast] at hlease
      exact hlease
  · intro claim hmem
    have hclaims := ((hleased claim.id).held claim (by simpa [System.focus] using hmem)).1
    simpa [System.focus] using hclaims
  · intro first hfirst second hsecond hid hopen hopen' now hnow hrun hrun'
    have hfocus := hleased first.id
    -- an open claim that has not expired is the last one
    have hlast : ∀ claim ∈ sys.history, claim.id = first.id → claim ∉ sys.completed →
        now < claim.claimedAt + claim.lease →
        claim ∈ (sys.focus first.id).claims ∧
          claim.attempt = attempts (sys.focus first.id).view := by
      intro claim hclaim hclaimId hclaimOpen hclaimRun
      have hmem : claim ∈ (sys.focus first.id).claims := by
        simp [System.focus, hclaim, hclaimId]
      refine ⟨hmem, (hfocus.attempt_le hmem).eq_of_not_lt fun hlt => ?_⟩
      have hexpired := hfocus.expired claim hmem
        (fun hdone => hclaimOpen (List.mem_of_mem_filter hdone)) hlt
      exact absurd hclaimRun (not_lt.mpr (hexpired.trans hnow))
    obtain ⟨hmem, hattempt⟩ := hlast first hfirst rfl hopen hrun
    obtain ⟨hmem', hattempt'⟩ := hlast second hsecond hid.symm hopen' hrun'
    exact hfocus.unique hmem hmem' (hattempt.trans hattempt'.symm)

/-- A command claimed by one dispatcher that is slow, and by a second one after the first lease
has run out. -/
def reclaimedRun : List Action :=
  [.registerDevice (ascii "t") (ascii "d"),
    .create (ascii "t") (ascii "d") [] [] (.ok (ascii "c")) 0,
    .claim 0 10 30 [],
    .claim 1 50 30 []]

theorem lease_exclusive_reclaimed :
    Along (System.step .plain .plain) ClockForward (.initial 0) reclaimedRun ∧
    (run (System.step .plain .plain) (.initial 0) reclaimedRun).history =
      [⟨1, ascii "c", 2, 50, 30⟩, ⟨0, ascii "c", 1, 10, 30⟩] ∧
    ((run (System.step .plain .plain) (.initial 0) reclaimedRun).step .plain .plain
        (.complete 0 60 true)).db.view (ascii "c") =
      (run (System.step .plain .plain) (.initial 0) reclaimedRun).db.view (ascii "c") := by
  have hclock : Along (System.step .plain .plain) ClockForward (.initial 0) reclaimedRun := by
    decide +kernel
  obtain ⟨hfence, _, _⟩ := lease_exclusive .plain .plain 0 reclaimedRun hclock
  refine ⟨hclock, by decide +kernel, ?_⟩
  by_contra hchanged
  have hlease := (hfence 0 60 true ⟨0, ascii "c", 1, 10, 30⟩ (by decide +kernel)
    (by decide +kernel) hchanged).2
  revert hlease
  decide

end Iot.Dispatch
