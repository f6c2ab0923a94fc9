import FavoniusBackend.Lib.Run
import FavoniusBackend.Lib.Tasks
import FavoniusBackend.Ocpp.ChargingProfiles

/-!
# Concurrent calls of `set_charging_profile`

A call reads the stored profiles for its validation, reads them again for the stacking limit and then stores its
profile.  It is cut at these three statements, and the calls that are under way take their steps in any order.

The table has a unique key on the profile id and the store is an upsert, so ids are unique in every run.  The
stacking limit is checked before the store and not with it.  The room that a check finds is there at the store as
well, unless another call for the purpose and the stack level is past its check at the same time
(`withinLimits_of_checksAlone`).
-/

namespace FavoniusBackend.Ocpp.ProfileStacking

open Lib Ocpp.ChargingProfiles

/-- A call of `set_charging_profile`, with the statement that it runs next. -/
inductive Call
  | validating (profile : ChargingProfile)
  | stacking (profile : ChargingProfile)
  | storing (profile : ChargingProfile)
  deriving DecidableEq, Repr

/-- The stored profiles of the EVSE and the calls that are under way. -/
structure State where
  stored : List ChargingProfile
  calls : List Call := []

inductive Event
  | setChargingProfile (profile : ChargingProfile)
  | resume (i : ℕ) (works : Bool)

def State.finish (s : State) (i : ℕ) : State := { s with calls := s.calls.eraseIdx i }

def State.goOn (s : State) (i : ℕ) (call : Call) : State := { s with calls := s.calls.set i call }

def State.existing (s : State) : List ChargingProfile := getChargingProfiles s.stored none none none

def State.check (s : State) (i : ℕ) (outcome : Except StatusInfo Unit) (next : Call) : State :=
  match outcome with
  | .error _ => s.finish i
  | .ok () => s.goOn i next

/-- The next statement of the `i`-th call; a call whose statement fails is rejected. -/
def State.resume (s : State) (i : ℕ) (works : Bool) : State :=
  match s.calls[i]? with
  | none => s
  | some call =>
    if !works then s.finish i
    else
      match call with
      | .validating profile => s.check i (validateProfile s.existing profile) (.stacking profile)
      | .stacking profile => s.check i (checkStackingLimits s.existing profile) (.storing profile)
      | .storing profile =>
        match storeChargingProfile s.stored profile with
        | none => s.finish i
        | some stored => { s.finish i with stored := stored }

def step (s : State) : Event → State
  | .setChargingProfile profile => { s with calls := s.calls ++ [Call.validating profile] }
  | .resume i works => s.resume i works

/-! ## What is stored -/

def UniqueIds (stored : List ChargingProfile) : Prop := (stored.map ChargingProfile.id).Nodup

/-- Not more than the limit share a purpose and a stack level. -/
def WithinLimits (stored : List ChargingProfile) : Prop :=
  ∀ p ∈ stored, stored.countP (sameStack p) ≤ stackingLimit p.chargingProfilePurpose

instance (stored : List ChargingProfile) : Decidable (WithinLimits stored) :=
  inferInstanceAs (Decidable (∀ p ∈ stored, stored.countP (sameStack p) ≤ stackingLimit p.chargingProfilePurpose))

def HasRoom (stored : List ChargingProfile) (profile : ChargingProfile) : Prop :=
  (stored.countP fun p => sameStack profile p && decide (p.id ≠ profile.id)) <
    stackingLimit profile.chargingProfilePurpose

/-! ## The calls between their checks and their stores -/

def Call.waiting : Call → Option ChargingProfile
  | .storing profile => some profile
  | _ => none

/-- The profiles that are about to be stored. -/
def State.waiting (s : State) : List ChargingProfile := s.calls.filterMap Call.waiting

def State.passing (s : State) : Event → Option ChargingProfile
  | .setChargingProfile _ => none
  | .resume i works =>
    match s.calls[i]? with
    | some (.stacking profile) =>
      if works ∧ (checkStackingLimits s.existing profile).isOk then some profile else none
    | _ => none

/-- Two profiles do not compete for a stack level: they have different ones, or the same id. -/
def Compatible (p q : ChargingProfile) : Prop := sameStack p q = true → q.id = p.id

instance (p q : ChargingProfile) : Decidable (Compatible p q) :=
  inferInstanceAs (Decidable (sameStack p q = true → q.id = p.id))

/-- No call passes its stacking check while a competing profile is about to be stored. -/
def ChecksAlone (s : State) (op : Event) : Prop :=
  ∀ profile ∈ s.passing op, ∀ other ∈ s.waiting, Compatible profile other

instance (s : State) (op : Event) : Decidable (ChecksAlone s op) :=
  inferInstanceAs (Decidable (∀ profile ∈ s.passing op, ∀ other ∈ s.waiting, Compatible profile other))

section Calls

variable {s : State} {i : ℕ} {call : Call}

theorem waiting_finish (h : s.calls[i]? = some call) :
    s.waiting.Perm (call.waiting.toList ++ (s.finish i).waiting) := by
  refine ((Tasks.perm_cons_eraseIdx h).filterMap Call.waiting).trans ?_
  rw [List.filterMap_cons]
  cases call.waiting with
  | none => exact .refl _
  | some profile => exact .refl _

theorem waiting_finish_subperm (i : ℕ) : (s.finish i).waiting.Subperm s.waiting :=
  ((List.eraseIdx_sublist s.calls i).filterMap Call.waiting).subperm

theorem waiting_goOn (h : s.calls[i]? = some call) (hcall : call.waiting = none) (next : Call) :
    (s.goOn i next).waiting.Perm (next.waiting.toList ++ s.waiting) := by
  have hnext := waiting_finish (s := s.goOn i next) (List.getElem?_set_self (List.getElem?_eq_some_iff.mp h).1)
  have hold := waiting_finish h
  rw [hcall, Option.toList_none, List.nil_append] at hold
  rw [State.finish, State.goOn, List.eraseIdx_set_eq] at hnext
  exact hnext.trans (hold.symm.append_left _)

end Calls

theorem storeChargingProfile_eq {stored : List ChargingProfile} {profile : ChargingProfile}
    (h : storeChargingProfile stored profile ≠ none) :
    storeChargingProfile stored profile = some (Sql.upsert ChargingProfile.id profile stored) := by
  unfold storeChargingProfile at h ⊢
  split at h
  · exact absurd rfl h
  · rename_i hdates
    rw [if_neg hdates]

/-- **What a step does**: a call passes its stacking check, a waiting profile is stored, or nothing is stored and
no profile begins to wait. -/
inductive Stepped (s : State) (op : Event) (s' : State) : Prop
  | passes (profile : ChargingProfile) (passing : s.passing op = some profile) (stored : s'.stored = s.stored)
      (waiting : s'.waiting.Perm (profile :: s.waiting))
  | stores (profile : ChargingProfile) (stored : s'.stored = Sql.upsert ChargingProfile.id profile s.stored)
      (waiting : s.waiting.Perm (profile :: s'.waiting))
  | rests (stored : s'.stored = s.stored) (waiting : s'.waiting.Subperm s.waiting)

theorem stepped (s : State) (op : Event) : Stepped s op (step s op) := by
  cases op with
  | setChargingProfile profile =>
    refine .rests rfl ?_
    show ((s.calls ++ [Call.validating profile]).filterMap Call.waiting).Subperm _
    rw [List.filterMap_append]
    exact (List.Perm.of_eq (List.append_nil _)).subperm
  | resume i works =>
    show Stepped s (.resume i works) (s.resume i works)
    cases hcall : s.calls[i]? with
    | none =>
      simp only [State.resume, hcall]
      exact .rests rfl (.refl _)
    | some call =>
      cases works with
      | false =>
        simp only [State.resume, hcall, Bool.not_false, if_true]
        exact .rests rfl (waiting_finish_subperm i)
      | true =>
        cases call with
        | validating profile =>
          simp only [State.resume, hcall, Bool.not_true, Bool.false_eq_true, if_false, State.check]
          split
          · exact .rests rfl (waiting_finish_subperm i)
          · exact .rests rfl (waiting_goOn hcall rfl _).subperm
        | stacking profile =>
          simp only [State.resume, hcall, Bool.not_true, Bool.false_eq_true, if_false, State.check]
          split
          · exact .rests rfl (waiting_finish_subperm i)
          · rename_i hcheck
            refine .passes profile ?_ rfl (waiting_goOn hcall rfl _)
            simp only [State.passing, hcall, hcheck]
            rfl
        | storing profile =>
          simp only [State.resume, hcall, Bool.not_true, Bool.false_eq_true, if_false]
          split
          · exact .rests rfl (waiting_finish_subperm i)
          · rename_i stored hstore
            refine .stores profile ?_ (waiting_finish hcall)
            rw [storeChargingProfile_eq (by rw [hstore]; exact Option.some_ne_none _)] at hstore
            exact (Option.some.inj hstore).symm

theorem UniqueIds.step {s : State} (h : UniqueIds s.stored) (op : Event) : UniqueIds (step s op).stored := by
  rcases stepped s op with ⟨_, _, heq, _⟩ | ⟨profile, heq, _⟩ | ⟨heq, _⟩
  · exact heq ▸ h
  · rw [heq]
    exact Sql.upsert_keys_nodup ChargingProfile.id profile h
  · exact heq ▸ h

theorem perm_existing (s : State) : s.existing.Perm s.stored := by
  have hall : s.existing = inStackOrder s.stored := congrArg inStackOrder (List.filter_eq_self.mpr fun _ _ => rfl)
  rw [hall]
  exact (List.perm_insertionSort _ _).trans (List.reverse_perm _)

theorem sameStack_eq {p q : ChargingProfile} (h : sameStack p q = true) : sameStack p = sameStack q := by
  obtain ⟨hpurpose, hlevel⟩ := of_decide_eq_true h
  funext r
  simp only [sameStack, hpurpose, hlevel]

theorem WithinLimits.upsert {stored : List ChargingProfile} (hids : UniqueIds stored) (h : WithinLimits stored)
    {profile : ChargingProfile} (hroom : HasRoom stored profile) :
    WithinLimits (Sql.upsert ChargingProfile.id profile stored) := by
  intro p hp
  rw [Sql.countP_upsert _ _ _ hids]
  cases hsame : sameStack p profile with
  | true =>
    have hpurpose : profile.chargingProfilePurpose = p.chargingProfilePurpose := (of_decide_eq_true hsame).1
    rw [if_pos rfl, sameStack_eq hsame, ← hpurpose]
    exact hroom
  | false =>
    rw [if_neg Bool.false_ne_true, Nat.add_zero]
    have hstored : p ∈ stored := by
      rcases Sql.eq_or_mem_of_mem_upsert _ _ hp with rfl | hin
      · simp [sameStack] at hsame
      · exact hin
    refine le_trans (List.countP_mono_left ?_) (h p hstored)
    intro q _ hq
    exact (Bool.and_eq_true_iff.mp hq).1

theorem HasRoom.upsert {stored : List ChargingProfile} (hids : UniqueIds stored) {profile other : ChargingProfile}
    (h : HasRoom stored other) (hcompatible : Compatible other profile) :
    HasRoom (Sql.upsert ChargingProfile.id profile stored) other := by
  rw [HasRoom, Sql.countP_upsert _ _ _ hids, if_neg, Nat.add_zero]
  · refine lt_of_le_of_lt (List.countP_mono_left ?_) h
    intro p _ hp
    exact (Bool.and_eq_true_iff.mp hp).1
  · rw [Bool.and_eq_true, decide_eq_true_eq]
    exact fun hboth => hboth.2 (hcompatible hboth.1)

theorem hasRoom_of_passing {s : State} {op : Event} {profile : ChargingProfile} (h : s.passing op = some profile) :
    HasRoom s.stored profile := by
  unfold State.passing at h
  split at h
  · cases h
  · split at h
    · rename_i i works checked hcall
      split at h
      · rename_i hboth
        cases h
        have hok : checkStackingLimits s.existing profile = .ok () := by
          cases hcheck : checkStackingLimits s.existing profile with
          | error e =>
            rw [hcheck] at hboth
            cases hboth.2
          | ok _ => rfl
        have hlimit := (Guard.require_eq_ok _ _).mp hok
        rw [(perm_existing s).countP_eq] at hlimit
        refine lt_of_le_of_lt (List.countP_mono_left ?_) hlimit
        intro p _ hp
        exact (Bool.and_eq_true_iff.mp hp).1
      · cases h
    · cases h

/-- The limits are kept, and every profile that is about to be stored has room that no other one takes. -/
structure Inv (s : State) : Prop where
  ids : UniqueIds s.stored
  limits : WithinLimits s.stored
  room : ∀ profile ∈ s.waiting, HasRoom s.stored profile
  apart : s.waiting.Pairwise Compatible

theorem compatible_symm {p q : ChargingProfile} (h : Compatible p q) : Compatible q p := by
  intro hsame
  obtain ⟨hpurpose, hlevel⟩ := of_decide_eq_true hsame
  exact (h (decide_eq_true ⟨hpurpose.symm, hlevel.symm⟩)).symm

/-- **One step.** -/
theorem Inv.step {s : State} (h : Inv s) {op : Event} (halone : ChecksAlone s op) : Inv (step s op) := by
  have hids := h.ids.step op
  have hsymm : Std.Symm Compatible := ⟨fun _ _ => compatible_symm⟩
  rcases stepped s op with ⟨profile, hpassing, hstored, hwaiting⟩ | ⟨profile, hstored, hwaiting⟩ | ⟨hstored, hwaiting⟩
  · refine ⟨hids, hstored ▸ h.limits, ?_, ?_⟩
    · intro other hother
      rw [hstored]
      rcases List.mem_cons.mp (hwaiting.mem_iff.mp hother) with rfl | hold
      · exact hasRoom_of_passing hpassing
      · exact h.room other hold
    · refine (hwaiting.pairwise_iff fun hpq => compatible_symm hpq).mpr ?_
      exact List.pairwise_cons.mpr ⟨halone profile hpassing, h.apart⟩
  · have hapart := (hwaiting.pairwise_iff fun hpq => compatible_symm hpq).mp h.apart
    obtain ⟨hfirst, hrest⟩ := List.pairwise_cons.mp hapart
    have hmem : ∀ other, other = profile ∨ other ∈ (ProfileStacking.step s op).waiting → other ∈ s.waiting := by
      intro other hother
      exact hwaiting.mem_iff.mpr (List.mem_cons.mpr hother)
    refine ⟨hids, ?_, ?_, hrest⟩
    · rw [hstored]
      exact h.limits.upsert h.ids (h.room profile (hmem profile (.inl rfl)))
    · intro other hother
      rw [hstored]
      exact (h.room other (hmem other (.inr hother))).upsert h.ids (compatible_symm (hfirst other hother))
  · obtain ⟨kept, hkept, hsub⟩ := hwaiting
    refine ⟨hids, hstored ▸ h.limits, ?_, ?_⟩
    · intro other hother
      rw [hstored]
      exact h.room other (hsub.subset (hkept.mem_iff.mpr hother))
    · exact (hkept.pairwise_iff fun hpq => compatible_symm hpq).mp (h.apart.sublist hsub)

/-- **Concurrent calls.**  From a table that keeps them, unique ids are kept by every run, and the stacking limits are
kept by every run in which no call passes its stacking check while another one waits to store a profile with the
same purpose and stack level and another id. -/
theorem withinLimits_of_checksAlone {stored : List ChargingProfile} (hids : UniqueIds stored)
    (hlimits : WithinLimits stored) (ops : List Event) :
    Run.Along step (fun s op => UniqueIds (step s op).stored) { stored := stored } ops ∧
      (Run.Along step ChecksAlone { stored := stored } ops →
        Run.Along step (fun s op => WithinLimits (step s op).stored) { stored := stored } ops) := by
  constructor
  · have hstep : ∀ (s : State) (op : Event), True → UniqueIds s.stored →
        UniqueIds (step s op).stored ∧ UniqueIds (step s op).stored :=
      fun s op _ h => ⟨h.step op, h.step op⟩
    exact Run.Along.imp hstep hids (Run.Along.of_forall fun _ _ => trivial)
  · have hstep : ∀ (s : State) (op : Event), ChecksAlone s op → Inv s →
        WithinLimits (step s op).stored ∧ Inv (step s op) :=
      fun s op halone h => ⟨(h.step halone).limits, h.step halone⟩
    exact Run.Along.imp hstep ⟨hids, hlimits, fun _ h => absurd h List.not_mem_nil, List.Pairwise.nil⟩

def limitOf (id : ℤ) (limit : ℚ) : ChargingProfile :=
  { id := id, stackLevel := 0, chargingProfilePurpose := .txDefaultProfile
    chargingSchedulePeriod := [{ startPeriod := 0, limit := limit }] }

/-- Two calls for the same purpose and stack level, one after the other: the second is rejected. -/
def oneAfterTheOther : List Event :=
  [.setChargingProfile (limitOf 1 11000), .resume 0 true, .resume 0 true, .setChargingProfile (limitOf 2 4000),
    .resume 1 true, .resume 0 true, .resume 0 true]

theorem oneAfterTheOther_withinLimits :
    (Run.run step { stored := [] } oneAfterTheOther).stored = [limitOf 1 11000] ∧
      Run.Along step (fun s op => WithinLimits (step s op).stored) { stored := [] } oneAfterTheOther := by
  have hids : UniqueIds [] := List.nodup_nil
  have hlimits : WithinLimits [] := by
    decide
  exact ⟨by decide +kernel, (withinLimits_of_checksAlone hids hlimits oneAfterTheOther).2 (by decide +kernel)⟩

/-- Both calls pass their checks before either of them stores; the first has stored. -/
def checkedTogether : List Event :=
  [.setChargingProfile (limitOf 1 11000), .setChargingProfile (limitOf 2 4000), .resume 0 true, .resume 1 true,
    .resume 0 true, .resume 1 true, .resume 0 true]

/-- The second store leaves two profiles with the same purpose and stack level. -/
theorem checked_together_exceeds_limit :
    ¬ Run.Along step (fun s op => WithinLimits (step s op).stored) { stored := [] }
      (checkedTogether ++ [Event.resume 0 true]) := by
  intro h
  have hlimits := h.last
  revert hlimits
  decide +kernel

end FavoniusBackend.Ocpp.ProfileStacking
