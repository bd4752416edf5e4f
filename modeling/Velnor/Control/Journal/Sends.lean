/-
  Terminal sends: a completion is claimed at most once for each ownership of
  its job, never for a provisional row, and given up only with its budget
  spent or its payload lost.

  The first part is a walk over the custody book: claimed, then closed, then
  owned again.  The last part needs the row's history, so `Charged` ties a
  pending row to the moves since the intent that wrote it.
-/
import Velnor.Control.Journal.Frames
import Velnor.Control.Journal.Occupancy

namespace Velnor.Control.Journal

open Rows Custody Relational FleetState List OutboxRecord

/-! ## What a move does about a completion -/

/-- The move is an accepted event with this property. -/
def Accepts (s : FleetState) (m : Move) (p : UnixTime → Event → Prop) : Prop :=
  ∃ now event, accepted s m = some (now, event) ∧ p now event

def Event.Intends (jobId : JobId) : Event → Prop
  | .completionIntended id _ _ => id = jobId
  | _ => False

def Event.Claims (jobId : JobId) : Event → Prop
  | .completionSendStarted id _ => id = jobId
  | _ => False

def Event.Acknowledges (jobId : JobId) : Event → Prop
  | .remoteAcked id _ | .remoteObservedTerminal id _ => id = jobId
  | _ => False

def Event.Abandons (jobId : JobId) : Event → Prop
  | .completionUnresolvable id _ _ | .completionPayloadLost id _ _ _ => id = jobId
  | _ => False

def Event.Owns (jobId : JobId) : Event → Prop
  | .jobOwned id .. => id = jobId
  | _ => False

variable {jobId : JobId} {event : Event} {s : FleetState} {m : Move} {now : UnixTime}
  {a : List Move} {row row' : OutboxRecord}

theorem label_of_claims (h : event.Claims jobId) : event.label = .claim jobId := by
  cases event <;> first | exact h.elim | (cases h; rfl)

theorem closes_of_label (h : event.label = .close jobId) :
    event.Acknowledges jobId ∨ event.Abandons jobId := by
  cases event <;> cases h
  case remoteAcked | remoteObservedTerminal => exact .inl rfl
  case completionUnresolvable | completionPayloadLost => exact .inr rfl

theorem label_of_closes (h : event.Acknowledges jobId ∨ event.Abandons jobId) :
    event.label = .close jobId := by
  cases event <;> rcases h with h | h <;> first | exact h.elim | (cases h; rfl)

theorem owns_of_label (h : event.label = .own jobId) : event.Owns jobId := by
  cases event <;> cases h
  rfl

theorem moveLabel_of_accepted (h : accepted s m = some (now, event)) :
    moveLabel s m = event.label := by
  unfold moveLabel
  rw [h]
  rfl

/-- A label other than `quiet` is that of an accepted event. -/
theorem accepted_of_moveLabel {l : Label SlotId JobId} (h : moveLabel s m = l) (hl : l ≠ .quiet) :
    Accepts s m fun _ event => event.label = l := by
  unfold moveLabel at h
  cases ha : accepted s m with
  | none =>
    rw [ha] at h
    exact absurd h.symm hl
  | some e =>
    rw [ha] at h
    exact ⟨e.1, e.2, ha, h⟩

theorem opening_cases (event : Event) :
    event.opening = .quiet ∨ ∃ slot, event.opening = .add slot := by
  cases event <;> first | exact .inl rfl | exact .inr ⟨_, rfl⟩

/-- The opening of a move is about no job. -/
theorem moveOpening_ne {l : Label SlotId JobId} (hquiet : l ≠ .quiet)
    (hadd : ∀ slot, l ≠ .add slot) : moveOpening s m ≠ l := by
  have hevent : ∀ event : Event, event.opening ≠ l := by
    rintro event rfl
    exact (opening_cases event).elim hquiet fun ⟨slot, h⟩ => hadd slot h
  cases m with
  | apply now event =>
    dsimp only [moveOpening]
    split
    · exact hquiet.symm
    · exact hevent event
  | reduce _ event => exact hevent event
  | settle | mark => exact hquiet.symm

/-! ## One send for each ownership -/

section Walk

theorem claimed_move (hs : Sound s) (m : Move) (h : Claimed s.book jobId) :
    Claimed (move s m).book jobId ∨ moveLabel s m = .close jobId := by
  obtain ⟨-, _, hopen, hstep⟩ := move_refines hs.tidy hs.coherent m
  rcases hopen.claimed h with h | h
  · exact hstep.claimed h
  · exact absurd h (moveOpening_ne nofun nofun)

theorem unowned_move (hs : Sound s) (m : Move) (h : Unowned s.book jobId) :
    Unowned (move s m).book jobId ∨ moveLabel s m = .own jobId := by
  obtain ⟨-, _, hopen, hstep⟩ := move_refines hs.tidy hs.coherent m
  rcases hopen.unowned h with h | h
  · exact hstep.unowned h
  · exact absurd h (moveOpening_ne nofun nofun)

theorem stateAfter_append (a b : List Move) : stateAfter (a ++ b) = run move (stateAfter a) b :=
  run_append move _ a b

/-- A claim after a claim: the completion was closed and the job owned again
    in between. -/
theorem closed_and_owned_between {a b : List Move} {m m' : Move}
    (hm : moveLabel (stateAfter a) m = .claim jobId)
    (hm' : moveLabel (stateAfter (a ++ m :: b)) m' = .claim jobId) :
    ∃ b₁ z b₂ w b₃, b = b₁ ++ z :: (b₂ ++ w :: b₃)
      ∧ moveLabel (stateAfter (a ++ m :: b₁)) z = .close jobId
      ∧ moveLabel (stateAfter (a ++ m :: (b₁ ++ z :: b₂))) w = .own jobId := by
  have hrun : ∀ c, stateAfter (a ++ m :: c) = run move (move (stateAfter a) m) c := fun c => by
    rw [stateAfter_append, run_cons]
  have hsound : Sound (move (stateAfter a) m) := sound_move m (sound_run a)
  -- The second claim finds the completion neither claimed nor closed.
  obtain ⟨-, _, hopen', hclaim'⟩ := move_refines (sound_run (a ++ m :: b)).tidy
    (sound_run (a ++ m :: b)).coherent m'
  rw [hm'] at hclaim'
  have hnot : ¬ Claimed (stateAfter (a ++ m :: b)).book jobId := fun h => by
    rcases hopen'.claimed h with h | h
    · exact hclaim'.not_claimed h
    · exact absurd h (moveOpening_ne nofun nofun)
  have hnot' : ¬ Unowned (stateAfter (a ++ m :: b)).book jobId := fun h => by
    rcases hopen'.unowned h with h | h
    · exact hclaim'.not_unowned h
    · exact absurd h (moveOpening_ne nofun nofun)
  have hclaimed : Claimed (move (stateAfter a) m).book jobId := by
    obtain ⟨-, _, -, hclaim⟩ := move_refines (sound_run a).tidy (sound_run a).coherent m
    rw [hm] at hclaim
    exact hclaim.claimed_of_claim
  rcases run_until (fun _ m hs => sound_move m hs) (fun _ m hs h => claimed_move hs m h)
    hsound hclaimed b with hend | ⟨b₁, z, rest, rfl, -, hclose⟩
  · rw [hrun] at hnot
    exact absurd hend hnot
  have hsound' : Sound (run move (move (stateAfter a) m) b₁) :=
    run_preserves (fun _ m hs => sound_move m hs) hsound b₁
  have hunowned : Unowned (move (run move (move (stateAfter a) m) b₁) z).book jobId := by
    obtain ⟨-, _, -, hstep⟩ := move_refines hsound'.tidy hsound'.coherent z
    rw [hclose] at hstep
    exact hstep.unowned_of_close
  rcases run_until (fun _ m hs => sound_move m hs) (fun _ m hs h => unowned_move hs m h)
    (sound_move z hsound') hunowned rest with hend | ⟨b₂, w, b₃, rfl, -, hown⟩
  · rw [hrun, run_append] at hnot'
    exact absurd hend hnot'
  refine ⟨b₁, z, b₂, w, b₃, rfl, ?_, ?_⟩
  · rw [hrun]
    exact hclose
  · rw [hrun, run_append]
    exact hown

end Walk

/-! ## Ownership -/

theorem not_rejected_of_accepted (h : accepted s m = some (now, event)) :
    (reduce now s event).rejected = false := by
  cases m with
  | settle | mark => cases h
  | apply now' event' | reduce now' event' =>
    dsimp only [accepted] at h
    split at h
    case isTrue => cases h
    case isFalse hr =>
      cases Option.some.inj h
      exact Bool.eq_false_iff.mpr hr

variable {intent : Move} {b : List Move} {generation : Generation}

/-- The job row that backs a live completion. -/
theorem owned_of_live (ht : s.Tidy) (hr : s.row? jobId = some row)
    (hlive : s.rowIsLive generation row = true) :
    ∃ job, s.job? jobId = some job ∧ job.provisional = false := by
  have howner := (rowIsLive_iff.mp hlive).2.2
  obtain ⟨job, hmem, hjob⟩ := any_eq_true.mp (Bool.and_eq_true_iff.mp howner).2
  simp only [Bool.and_eq_true, decide_eq_true_iff, Bool.not_eq_true'] at hjob
  obtain ⟨⟨⟨hid, -⟩, -⟩, hprov⟩ := hjob
  refine ⟨job, ?_, hprov⟩
  rw [← key_of_lookup hr, ← hid]
  exact lookup_of_mem ht.jobs hmem

/-- A completion event is accepted only for an owned job. -/
theorem owned_of_accepted (ht : s.Tidy) (hacc : (reduce now s event).rejected = false)
    (h : event.Intends jobId ∨ event.Claims jobId ∨ event.Acknowledges jobId) :
    ∃ job, s.job? jobId = some job ∧ job.provisional = false := by
  cases event <;> simp only [Event.Intends, Event.Claims, Event.Acknowledges, or_false,
    false_or] at h
  case completionIntended id generation payload =>
    subst h
    rcases completionIntended_cases with hrej | ⟨job, hj, hprov, -⟩
    · rw [reduce, hrej] at hacc
      cases hacc
    · exact ⟨job, hj, hprov⟩
  case completionSendStarted id generation =>
    subst h
    rcases completionSendStarted_cases with hrej | ⟨row, hr, hlive, -⟩
    · rw [reduce, hrej] at hacc
      cases hacc
    · exact owned_of_live ht hr hlive
  case remoteAcked id generation | remoteObservedTerminal id generation =>
    subst h
    rcases remoteAcked_cases with hrej | ⟨row, hr, hlive, -⟩
    · rw [reduce, hrej] at hacc
      cases hacc
    · exact owned_of_live ht hr hlive

/-! ## The history of a pending row -/

/-- An accepted `CompletionAttemptFailed` of the job. -/
def isCharge (jobId : JobId) : Option (UnixTime × Event) → Bool
  | some (_, .completionAttemptFailed id _ _) => decide (id = jobId)
  | _ => false

/-- One that the remote service refused for good. -/
def isRefusal (jobId : JobId) : Option (UnixTime × Event) → Bool
  | some (_, .completionAttemptFailed id _ permanent) => decide (id = jobId) && permanent
  | _ => false

/-- An accepted acknowledgement or abandonment of the job's completion. -/
def IsClose (jobId : JobId) : Option (UnixTime × Event) → Prop
  | some (_, event) => event.Acknowledges jobId ∨ event.Abandons jobId
  | none => False

/-- What was accepted in the moves `b` that follow `a`. -/
def acceptedSince (a b : List Move) : List (Option (UnixTime × Event)) :=
  trace move accepted (stateAfter a) b

theorem acceptedSince_snoc (a b : List Move) (m : Move) :
    acceptedSince a (b ++ [m]) = acceptedSince a b ++ [accepted (stateAfter (a ++ b)) m] := by
  unfold acceptedSince
  rw [trace_append, stateAfter_append]
  rfl

/-- The row was written by an intent, and what it has been charged since. -/
structure ChargedSince (a : List Move) (intent : Move) (b : List Move) (row : OutboxRecord) :
    Prop where
  intended : ∃ t, accepted (stateAfter a) intent
      = some (t, .completionIntended row.jobId row.generation row.payloadSha256)
    ∧ row.deadlineUnix = saturatingAdd (unixSecs t) completionResolutionSeconds
  unclosed : ∀ e ∈ acceptedSince (a ++ [intent]) b, ¬ IsClose row.jobId e
  attempts : row.attempts.toNat ≤ (acceptedSince (a ++ [intent]) b).countP (isCharge row.jobId)
  refused : row.permanent = true →
    ∃ e ∈ acceptedSince (a ++ [intent]) b, isRefusal row.jobId e = true

/-- The columns of a row that its history fixes. -/
def OutboxRecord.terms (row : OutboxRecord) :
    JobId × Generation × String × UInt64 × UInt32 × Bool :=
  (row.jobId, row.generation, row.payloadSha256, row.deadlineUnix, row.attempts, row.permanent)

/-- Another move that keeps the row's terms. -/
theorem ChargedSince.keep (h : ChargedSince a intent b row) (hterms : row'.terms = row.terms)
    (hopen : ¬ IsClose row'.jobId (accepted (stateAfter (a ++ [intent] ++ b)) m)) :
    ChargedSince a intent (b ++ [m]) row' := by
  simp only [terms, Prod.mk.injEq] at hterms
  obtain ⟨hid, hgen, hpayload, hdeadline, hattempts, hpermanent⟩ := hterms
  refine ⟨?_, ?_, ?_, fun hp => ?_⟩
  · rw [hid, hgen, hpayload, hdeadline]
    exact h.intended
  · rw [acceptedSince_snoc]
    exact forall_mem_append.mpr ⟨hid ▸ h.unclosed, forall_mem_singleton.mpr hopen⟩
  · rw [hattempts, hid, acceptedSince_snoc, countP_append]
    exact Nat.le_trans h.attempts (Nat.le_add_right _ _)
  · rw [hid, acceptedSince_snoc]
    obtain ⟨e, he, href⟩ := h.refused (hpermanent ▸ hp)
    exact ⟨e, mem_append_left _ he, href⟩

theorem toNat_saturatingSucc_le (n : UInt32) : (saturatingSucc n).toNat ≤ n.toNat + 1 := by
  unfold saturatingSucc
  split
  case isTrue h =>
    exact Nat.mod_le _ _
  case isFalse => exact Nat.le_succ _

/-- One more charged attempt. -/
theorem ChargedSince.charge (h : ChargedSince a intent b row) {t : UnixTime} {permanent : Bool}
    (hm : accepted (stateAfter (a ++ [intent] ++ b)) m =
      some (t, .completionAttemptFailed row.jobId generation permanent)) :
    ChargedSince a intent (b ++ [m]) (charged permanent row) := by
  refine ⟨h.intended, ?_, ?_, fun hp => ?_⟩
  · rw [acceptedSince_snoc]
    refine forall_mem_append.mpr ⟨h.unclosed, forall_mem_singleton.mpr ?_⟩
    rw [hm]
    exact not_or.mpr ⟨id, id⟩
  · rw [acceptedSince_snoc, countP_append, hm]
    have hone : [some (t, Event.completionAttemptFailed row.jobId generation permanent)].countP
        (isCharge row.jobId) = 1 := by
      rw [countP_singleton, isCharge, decide_eq_true rfl]
      rfl
    change (saturatingSucc row.attempts).toNat
      ≤ (acceptedSince (a ++ [intent]) b).countP (isCharge row.jobId)
        + countP (isCharge row.jobId) _
    rw [hone]
    exact Nat.le_trans (toNat_saturatingSucc_le _) (Nat.succ_le_succ h.attempts)
  · rw [acceptedSince_snoc]
    rcases Bool.or_eq_true_iff.mp hp with hold | hnew
    · obtain ⟨e, he, href⟩ := h.refused hold
      exact ⟨e, mem_append_left _ he, href⟩
    refine ⟨_, mem_append_right _ (mem_singleton.mpr rfl), ?_⟩
    change isRefusal row.jobId (accepted (stateAfter (a ++ [intent] ++ b)) m) = true
    rw [hm, isRefusal, hnew, decide_eq_true rfl]
    rfl

theorem outbox_closeCompletion (s : FleetState) (jobId : JobId) (generation : Generation)
    (f : OutboxRecord → OutboxRecord) :
    (s.closeCompletion jobId generation f).state.outbox
      = modifyFirst (fun row => decide (row.jobId = jobId)) f s.outbox :=
  ((keeps_refl (s := s.setRow jobId f)).restoreSlotAfterJobRemoval jobId).outbox rfl

/-- The event wrote the pending row, or charged it. -/
def Event.Writes (s : FleetState) (row' : OutboxRecord) (now : UnixTime) (event : Event) : Prop :=
  (∃ slotId, event = .completionIntended row'.jobId row'.generation row'.payloadSha256
    ∧ row' = intendedRow row'.jobId slotId row'.generation row'.payloadSha256 (unixSecs now))
  ∨ ∃ row ∈ s.outbox, row.isPending = true ∧ ∃ generation permanent,
    event = .completionAttemptFailed row.jobId generation permanent ∧ row' = charged permanent row

/-- Where a pending row comes from, over one event. -/
theorem pending_reduce (ht : s.Tidy) (now : UnixTime) (event : Event)
    (hmem : row' ∈ (reduce now s event).state.outbox) (hp : row'.isPending = true) :
    (∃ row ∈ s.outbox, row.isPending = true ∧ row'.terms = row.terms)
    ∨ (reduce now s event).rejected = false ∧ event.Writes s row' now := by
  -- An outbox that did not change, and one whose row of a job was assigned.
  have hkept : row' ∈ s.outbox → ∃ row ∈ s.outbox, row.isPending = true ∧ row'.terms = row.terms :=
    fun h => ⟨row', h, hp, rfl⟩
  have hset : ∀ {jobId : JobId} {row : OutboxRecord} {f : OutboxRecord → OutboxRecord},
      s.row? jobId = some row →
      row' ∈ modifyFirst (fun row => decide (row.jobId = jobId)) f s.outbox →
      row' = f row ∨ row' ∈ s.outbox := fun hr h =>
    ((mem_modifyFirst ht.outbox hr).mp h).imp id And.left
  -- a closed row is not pending, so the pending ones are the others
  have hclosed : ∀ {out jobId generation f} {Found : OutboxRecord → Prop},
      RowArm s jobId generation Found out (s.closeCompletion jobId generation f) →
      (∀ row, (f row).isPending = false) → row' ∈ out.state.outbox → row' ∈ s.outbox := by
    rintro _ jobId generation f Found (rfl | ⟨row, hr, -, -, rfl⟩) hdone h
    · exact h
    rw [outbox_closeCompletion] at h
    refine (hset hr h).resolve_left ?_
    rintro rfl
    rw [hdone] at hp
    cases hp
  by_cases hcompletion : event.isCompletion = false
  · rw [(reduce_effects now s event).outbox hcompletion] at hmem
    exact .inl (hkept hmem)
  cases event <;> first | exact absurd rfl hcompletion | skip
  case completionIntended jobId generation payload =>
    dsimp only [reduce] at hmem ⊢
    rcases completionIntended_cases with hrej | ⟨job, -, -, -, -, ⟨row, -, -, -, hacc⟩ | ⟨-, hacc⟩⟩
    · rw [hrej] at hmem
      exact .inl (hkept hmem)
    · rw [hacc] at hmem
      exact .inl (hkept hmem)
    · rw [hacc] at hmem ⊢
      rcases mem_append.mp hmem with hold | hnew
      · exact .inl (hkept hold)
      · obtain rfl := mem_singleton.mp hnew
        exact .inr ⟨rfl, .inl ⟨job.slotId, rfl, rfl⟩⟩
  case completionSendStarted jobId generation =>
    dsimp only [reduce] at hmem
    rcases completionSendStarted_cases with hrej | ⟨row, hr, hlive, -, hacc⟩
    · rw [hrej] at hmem
      exact .inl (hkept hmem)
    rw [hacc] at hmem
    rcases hset hr hmem with rfl | hold
    · exact .inl ⟨row, mem_of_lookup hr, (rowIsLive_iff.mp hlive).2.1, rfl⟩
    · exact .inl (hkept hold)
  case completionAttemptFailed jobId generation permanent =>
    dsimp only [reduce] at hmem ⊢
    rcases completionAttemptFailed_cases with hrej | ⟨row, hr, hlive, -, hacc⟩
    · rw [hrej] at hmem
      exact .inl (hkept hmem)
    rw [hacc] at hmem ⊢
    rcases hset hr hmem with rfl | hold
    · refine .inr ⟨rfl, .inr ⟨row, mem_of_lookup hr, (rowIsLive_iff.mp hlive).2.1, generation,
        permanent, ?_, rfl⟩⟩
      rw [show row.jobId = jobId from key_of_lookup hr]
    · exact .inl (hkept hold)
  case remoteAcked | remoteObservedTerminal =>
    exact .inl (hkept (hclosed remoteAcked_cases (fun row => by simp [isPending]) hmem))
  case completionUnresolvable =>
    exact .inl (hkept (hclosed completionUnresolvable_cases (fun row => by simp [isPending]) hmem))
  case completionPayloadLost =>
    exact .inl (hkept (hclosed completionPayloadLost_cases (fun row => by simp [isPending]) hmem))

/-- The same over one move. -/
theorem pending_move (ht : s.Tidy) (m : Move) (hmem : row' ∈ (move s m).outbox)
    (hp : row'.isPending = true) :
    (∃ row ∈ s.outbox, row.isPending = true ∧ row'.terms = row.terms)
    ∨ ∃ now event, accepted s m = some (now, event) ∧ event.Writes s row' now := by
  cases m with
  | settle => exact .inl ⟨row', mem_of_mem_filter hmem, hp, rfl⟩
  | mark => exact .inl ⟨row', hmem, hp, rfl⟩
  | apply now event =>
    dsimp only [move] at hmem
    split at hmem
    case isTrue => exact .inl ⟨row', hmem, hp, rfl⟩
    case isFalse =>
      rcases pending_reduce ht now event hmem hp with hkept | ⟨hacc, hrest⟩
      · exact .inl hkept
      · exact .inr ⟨now, event, by rw [accepted, hacc]; rfl, hrest⟩
  | reduce now event =>
    rcases pending_reduce ht now event hmem hp with hkept | ⟨hacc, hrest⟩
    · exact .inl hkept
    · exact .inr ⟨now, event, by rw [accepted, hacc]; rfl, hrest⟩

/-- The completion of a row that is still pending was not closed just now. -/
theorem not_close_of_pending (hs : Sound s) (m : Move) (hmem : row ∈ (move s m).outbox)
    (hp : row.isPending = true) : ¬ IsClose row.jobId (accepted s m) := by
  intro hclose
  have hlabel : moveLabel s m = .close row.jobId := by
    cases hacc : accepted s m with
    | none =>
      rw [hacc] at hclose
      exact hclose.elim
    | some =>
      rw [hacc] at hclose
      exact (moveLabel_of_accepted hacc).trans (label_of_closes hclose)
  obtain ⟨-, _, -, hstep⟩ := move_refines hs.tidy hs.coherent m
  rw [hlabel] at hstep
  have hnone := hstep.unowned_of_close.1
  rw [(sound_move m hs).debt_of_mem hmem hp] at hnone
  cases hnone

/-- Every pending row has such a history. -/
theorem charged_run (moves : List Move) :
    ∀ row ∈ (stateAfter moves).outbox, row.isPending = true →
      ∃ a intent b, moves = a ++ [intent] ++ b ∧ ChargedSince a intent b row := by
  induction moves using reverseRecOn with
  | nil => nofun
  | append_singleton moves m ih =>
    intro row' hmem hp
    rw [stateAfter_append] at hmem
    have hopen := not_close_of_pending (sound_run moves) m hmem hp
    rcases pending_move (sound_run moves).tidy m hmem hp with
      ⟨row, hrow, hpending, hterms⟩ | ⟨now, event, hacc, hwritten | hcharged⟩
    · obtain ⟨a, intent, b, rfl, hsince⟩ := ih row hrow hpending
      exact ⟨a, intent, b ++ [m], by rw [append_assoc], hsince.keep hterms hopen⟩
    · obtain ⟨_, rfl, hrow'⟩ := hwritten
      have hdeadline : row'.deadlineUnix
          = saturatingAdd (unixSecs now) completionResolutionSeconds := by
        rw [hrow', intendedRow]
      have hattempts : row'.attempts = 0 := congrArg attempts hrow'
      have hpermanent : row'.permanent = false := congrArg permanent hrow'
      refine ⟨moves, m, [], by rw [append_nil], ?_, nofun, ?_, ?_⟩
      · exact ⟨now, hacc, hdeadline⟩
      · rw [hattempts]
        exact Nat.zero_le _
      · rw [hpermanent]
        nofun
    · obtain ⟨row, hrow, hpending, _, _, rfl, rfl⟩ := hcharged
      obtain ⟨a, intent, b, rfl, hsince⟩ := ih row hrow hpending
      exact ⟨a, intent, b ++ [m], by rw [append_assoc], hsince.charge hacc⟩

/-! ## The discipline -/

/-- Why a completion prepared by an intent at `t` with `payload` may be given
    up by `event` at `now`, after what was accepted since. -/
def MayAbandon (jobId : JobId) (t : UnixTime) (payload : String)
    (since : List (Option (UnixTime × Event))) (now : UnixTime) : Event → Prop
  | .completionUnresolvable _ _ _ =>
    (∃ e ∈ since, isRefusal jobId e = true)
      ∨ 8 ≤ since.countP (isCharge jobId)
      ∨ saturatingAdd (unixSecs t) completionResolutionSeconds ≤ unixSecs now
  | .completionPayloadLost _ _ lost _ => lost = payload
  | _ => False

/-- What holds of terminal sends in a run. -/
structure SendDiscipline (moves : List Move) : Prop where
  /-- Between two claims the completion was closed and the job owned again. -/
  one_send : ∀ a m b m' c jobId, moves = a ++ m :: (b ++ m' :: c) →
    (Accepts (stateAfter a) m fun _ event => event.Claims jobId) →
    (Accepts (stateAfter (a ++ m :: b)) m' fun _ event => event.Claims jobId) →
    ∃ b₁ z b₂ w b₃, b = b₁ ++ z :: (b₂ ++ w :: b₃)
      ∧ (Accepts (stateAfter (a ++ m :: b₁)) z fun _ event =>
          event.Acknowledges jobId ∨ event.Abandons jobId)
      ∧ Accepts (stateAfter (a ++ m :: (b₁ ++ z :: b₂))) w fun _ event => event.Owns jobId
  /-- No completion is intended, claimed or acknowledged for a provisional row. -/
  owned_only : ∀ a m c jobId, moves = a ++ m :: c →
    (Accepts (stateAfter a) m fun _ event =>
      event.Intends jobId ∨ event.Claims jobId ∨ event.Acknowledges jobId) →
    ∃ job ∈ (stateAfter a).jobs, job.jobId = jobId ∧ job.provisional = false
  /-- A pending completion is given up only for one of the four reasons. -/
  given_up : ∀ a m c jobId, moves = a ++ m :: c →
    ∀ now event, accepted (stateAfter a) m = some (now, event) → event.Abandons jobId →
    ∃ a₁ intent a₂ t generation payload, a = a₁ ++ [intent] ++ a₂
      ∧ accepted (stateAfter a₁) intent = some (t, .completionIntended jobId generation payload)
      ∧ (∀ e ∈ acceptedSince (a₁ ++ [intent]) a₂, ¬ IsClose jobId e)
      ∧ MayAbandon jobId t payload (acceptedSince (a₁ ++ [intent]) a₂) now event

theorem given_up_reason (hacc : accepted (stateAfter a) m = some (now, event))
    (habandon : event.Abandons jobId) :
    ∃ a₁ intent a₂ t generation payload, a = a₁ ++ [intent] ++ a₂
      ∧ accepted (stateAfter a₁) intent = some (t, .completionIntended jobId generation payload)
      ∧ (∀ e ∈ acceptedSince (a₁ ++ [intent]) a₂, ¬ IsClose jobId e)
      ∧ MayAbandon jobId t payload (acceptedSince (a₁ ++ [intent]) a₂) now event := by
  have hred := not_rejected_of_accepted hacc
  cases event <;> simp only [Event.Abandons] at habandon
  case completionUnresolvable id generation reason =>
    subst habandon
    rcases completionUnresolvable_cases with hrej | ⟨row, hr, hlive, hspent, -⟩
    · rw [reduce, hrej] at hred
      cases hred
    obtain ⟨a₁, intent, a₂, rfl, hsince⟩ :=
      charged_run a row (mem_of_lookup hr) (rowIsLive_iff.mp hlive).2.1
    obtain ⟨t, hintent, hdeadline⟩ := hsince.intended
    obtain rfl : row.jobId = id := key_of_lookup hr
    refine ⟨a₁, intent, a₂, t, _, _, rfl, hintent, hsince.unclosed, ?_⟩
    simp only [budgetExhausted, Bool.or_eq_true, Bool.and_eq_true, decide_eq_true_iff] at hspent
    rcases hspent with (hpermanent | hattempts) | ⟨-, hlate⟩
    · exact .inl (hsince.refused hpermanent)
    · refine .inr (.inl (Nat.le_trans ?_ hsince.attempts))
      exact UInt32.le_iff_toNat_le.mp hattempts
    · exact .inr (.inr (hdeadline ▸ hlate))
  case completionPayloadLost id generation payload reason =>
    subst habandon
    rcases completionPayloadLost_cases with hrej | ⟨row, hr, hlive, hpayload, -⟩
    · rw [reduce, hrej] at hred
      cases hred
    obtain ⟨a₁, intent, a₂, rfl, hsince⟩ :=
      charged_run a row (mem_of_lookup hr) (rowIsLive_iff.mp hlive).2.1
    obtain ⟨t, hintent, -⟩ := hsince.intended
    obtain rfl : row.jobId = id := key_of_lookup hr
    exact ⟨a₁, intent, a₂, t, _, _, rfl, hintent, hsince.unclosed, hpayload.symm⟩

/-- Every run of a journal keeps the discipline. -/
theorem sendDiscipline (moves : List Move) : SendDiscipline moves where
  one_send a m b m' c jobId _ hclaim hclaim' := by
    obtain ⟨_, _, hm, hclaims⟩ := hclaim
    obtain ⟨_, _, hm', hclaims'⟩ := hclaim'
    obtain ⟨b₁, z, b₂, w, b₃, rfl, hclose, hown⟩ := closed_and_owned_between
      ((moveLabel_of_accepted hm).trans (label_of_claims hclaims))
      ((moveLabel_of_accepted hm').trans (label_of_claims hclaims'))
    refine ⟨b₁, z, b₂, w, b₃, rfl, ?_, ?_⟩
    · obtain ⟨t, e, he, hlabel⟩ := accepted_of_moveLabel hclose nofun
      exact ⟨t, e, he, closes_of_label hlabel⟩
    · obtain ⟨t, e, he, hlabel⟩ := accepted_of_moveLabel hown nofun
      exact ⟨t, e, he, owns_of_label hlabel⟩
  owned_only a m c jobId _ h := by
    obtain ⟨_, _, hm, hevent⟩ := h
    obtain ⟨job, hj, hprov⟩ :=
      owned_of_accepted (sound_run a).tidy (not_rejected_of_accepted hm) hevent
    exact ⟨job, mem_of_lookup hj, key_of_lookup hj, hprov⟩
  given_up a m c jobId _ now event hacc habandon := given_up_reason hacc habandon

/-- A slot that becomes ready, a job that is owned and whose completion is
    prepared; the reading is the same throughout. -/
def readied (now : UnixTime) : List Move :=
  [.routing true true, .permitReserved "slot-1" 1, .executorProven "slot-1" 1,
    .sessionLive "slot-1" 1, .registered "slot-1" 1, .readyAttempt "slot-1" 1].map (.apply now)

def prepared (now : UnixTime) : List Move :=
  [.jobAcquisitionIntended "slot-1" "job-1" 1 "message" "url" 0,
    .jobOwned "job-1" "slot-1" 1 1 "worker" 0, .completionIntended "job-1" 1 "sha"].map (.apply now)

/-- A job that is redelivered after its acknowledgement is claimed again. -/
theorem sendDiscipline_redelivered :
    let now : UnixTime := ⟨1000, by decide⟩
    let claim : Move := .apply now (.completionSendStarted "job-1" 1)
    let between := .apply now (.remoteAcked "job-1" 1) :: .settle :: prepared now
    ∃ b₁ z b₂ w b₃, between = b₁ ++ z :: (b₂ ++ w :: b₃)
      ∧ (Accepts (stateAfter (readied now ++ prepared now ++ claim :: b₁)) z fun _ event =>
          event.Acknowledges "job-1" ∨ event.Abandons "job-1")
      ∧ Accepts (stateAfter (readied now ++ prepared now ++ claim :: (b₁ ++ z :: b₂))) w
          fun _ event => event.Owns "job-1" :=
  (sendDiscipline _).one_send _ _ _ (.apply ⟨1000, by decide⟩ (.completionSendStarted "job-1" 1)) []
    "job-1" rfl ⟨⟨1000, by decide⟩, .completionSendStarted "job-1" 1, by decide +kernel, rfl⟩
    ⟨⟨1000, by decide⟩, .completionSendStarted "job-1" 1, by decide +kernel, rfl⟩

end Velnor.Control.Journal
