import FavoniusBackend.Lib.Run
import FavoniusBackend.Ocpp.ChargingProfiles

/-!
# The two caches of active profiles

`_get_active_profiles` asks a cache whose entries expire after 300 seconds, then a dictionary that never expires,
and only then the database, with whose answer it fills both.  `set_charging_profile` writes to the database and to
the dictionary, `clear_charging_profile` deletes from the database and refreshes the dictionary, with all stored
profiles and not only the active ones; neither touches the first cache.  Each delete is a statement of its own: a
clear that fails in between leaves the dictionary with profiles that are gone.

A read is right where no cache answers, where nothing was set or cleared since a read has filled the caches and no
profile became active or expired, and where the dictionary answers, holds every stored profile and all of them are
active, if no clear has failed after a delete since the dictionary was last refreshed.  `reads_active_along` says
that these are enough.
-/

namespace FavoniusBackend.Ocpp.ProfileCache

open Lib Ocpp.ChargingProfiles

/-- The manager's view of one EVSE: the stored profiles, the entry of the cache manager with its time, the entry of
`profile_cache`, when a read has filled the two, if nothing was set or cleared since, and whether a clear has failed
after a delete and left `profile_cache` as it was. -/
structure State where
  clock : ℚ
  stored : List ChargingProfile
  entry : Option (ℚ × List ChargingProfile) := none
  profileCache : Option (List ChargingProfile) := none
  filledAt : Option ℚ := none
  halfCleared : Bool := false

/-- `ttl=timedelta(seconds=300)`. -/
def ttl : ℚ := 300

/-- `cache_manager.get`: an expired entry is none. -/
def State.cached (s : State) : Option (List ChargingProfile) :=
  match s.entry with
  | none => none
  | some (createdAt, profiles) => if ttl < s.clock - createdAt then none else some profiles

/-- `cache_manager.get` evicts an expired entry. -/
def State.evictExpired (s : State) : State := if s.cached = none then { s with entry := none } else s

def State.cacheAnswers (s : State) : Bool := s.cached.any fun profiles => decide (profiles ≠ [])

def updateCache (profileCache : Option (List ChargingProfile)) (profile : ChargingProfile) : List ChargingProfile :=
  (profileCache.getD []).filter (fun p => p.id ≠ profile.id) ++ [profile]

inductive Status
  | accepted
  | rejected (statusInfo : StatusInfo)
  deriving DecidableEq, Repr

/-- `set_charging_profile`; `works` is false if the database refuses the insert.  The text of a database error is left
out. -/
def State.setChargingProfile (s : State) (profile : ChargingProfile) (works : Bool) : State × Status :=
  let existing := getChargingProfiles s.stored none none none
  match (do validateProfile existing profile; checkStackingLimits existing profile) with
  | .error statusInfo => (s, .rejected statusInfo)
  | .ok () =>
    match storeChargingProfile s.stored profile with
    | none => (s, .rejected ⟨.internalError, ""⟩)
    | some stored =>
      if works then
        ({ s with
            stored := stored
            profileCache := some (updateCache s.profileCache profile)
            filledAt := none }, .accepted)
      else (s, .rejected ⟨.internalError, ""⟩)

/-- `clear_charging_profile`: a select, a delete for each profile it returns, and the select of the refresh.  `done` of
these statements are executed before one raises; all of them, if it is large enough. -/
def State.clearChargingProfile (s : State) (profileId : Option ℤ) (purpose : Option String) (stackLevel : Option ℤ)
    (done : ℕ) : State × Status :=
  match done with
  | 0 => (s, .rejected ⟨.internalError, ""⟩)
  | deletes + 1 =>
    match getChargingProfiles s.stored profileId purpose stackLevel with
    | [] => (s, .accepted)
    | profile :: profiles =>
      let stored :=
        ((profile :: profiles).take deletes).foldl (fun stored p => removeChargingProfile stored p.id) s.stored
      if (profile :: profiles).length < deletes then
        ({ s with
            stored := stored
            profileCache := some (getChargingProfiles stored none none none)
            filledAt := none
            halfCleared := false }, .accepted)
      else if deletes = 0 then (s, .rejected ⟨.internalError, ""⟩)
      else
        ({ s with
            stored := stored
            filledAt := none
            halfCleared := s.halfCleared || s.profileCache.isSome }, .rejected ⟨.internalError, ""⟩)

def State.getActiveProfiles (s : State) : State × List ChargingProfile :=
  match s.cached with
  | some (profile :: profiles) => (s.evictExpired, profile :: profiles)
  | _ =>
    match s.profileCache with
    | some profiles => (s.evictExpired, profiles)
    | none =>
      let profiles := getActiveChargingProfiles s.stored s.clock
      ({ s with
          entry := some (s.clock, profiles)
          profileCache := some profiles
          filledAt := some s.clock
          halfCleared := false }, profiles)

/-- An operation on the EVSE, the passage of time, or the eviction of the entry by the cache manager. -/
inductive Event
  | set (profile : ChargingProfile) (works : Bool)
  | clear (profileId : Option ℤ) (purpose : Option String) (stackLevel : Option ℤ) (done : ℕ)
  | read
  | elapse (seconds : ℚ)
  | evict

def step (s : State) : Event → State
  | .set profile works => (s.setChargingProfile profile works).1
  | .clear profileId purpose stackLevel done => (s.clearChargingProfile profileId purpose stackLevel done).1
  | .read => s.getActiveProfiles.1
  | .elapse seconds => { s with clock := s.clock + |seconds| }
  | .evict => { s with entry := none }

/-! ## What a read returns -/

/-- A read returns exactly the stored profiles that are active at that time. -/
def ReadsActive (s : State) : Event → Prop
  | .read => ∀ p, p ∈ s.getActiveProfiles.2 ↔ p ∈ s.stored ∧ isActive s.clock p
  | _ => True

def CachesFit (s : State) : Event → Prop
  | .read =>
    (s.cacheAnswers = false ∧ s.profileCache = none) ∨
    (∃ t ∈ s.filledAt, ∀ p ∈ s.stored, isActive t p = isActive s.clock p) ∨
    (s.cacheAnswers = false ∧ s.halfCleared = false ∧
      (∀ p ∈ s.stored, p ∈ s.profileCache.getD [] ∧ isActive s.clock p))
  | _ => True

/-- What the profile cache holds is stored, unless a clear has failed after a delete, and what a read has filled the
caches with, if nothing came since, is what was active then. -/
structure Coherent (s : State) : Prop where
  stored : s.halfCleared = false → ∀ profiles ∈ s.profileCache, ∀ p ∈ profiles, p ∈ s.stored
  profileCache : ∀ t ∈ s.filledAt, ∃ profiles ∈ s.profileCache, ∀ p, p ∈ profiles ↔ p ∈ s.stored ∧ isActive t p
  entry : ∀ t ∈ s.filledAt, ∀ e ∈ s.entry, ∀ p, p ∈ e.2 ↔ p ∈ s.stored ∧ isActive t p

theorem getActiveProfiles_snd (s : State) :
    s.getActiveProfiles.2 =
      if s.cacheAnswers then s.cached.getD []
      else s.profileCache.getD (getActiveChargingProfiles s.stored s.clock) := by
  unfold State.getActiveProfiles State.cacheAnswers
  cases s.cached with
  | none => cases s.profileCache <;> rfl
  | some profiles =>
    cases profiles with
    | nil => cases s.profileCache <;> rfl
    | cons profile profiles => rfl

theorem getActiveProfiles_fst (s : State) :
    s.getActiveProfiles.1 = s.evictExpired ∨
      s.getActiveProfiles.1 =
        { s with
          entry := some (s.clock, getActiveChargingProfiles s.stored s.clock)
          profileCache := some (getActiveChargingProfiles s.stored s.clock)
          filledAt := some s.clock
          halfCleared := false } := by
  unfold State.getActiveProfiles
  cases s.cached with
  | none =>
    cases s.profileCache with
    | none => exact .inr rfl
    | some profiles => exact .inl rfl
  | some profiles =>
    cases profiles with
    | nil =>
      cases s.profileCache with
      | none => exact .inr rfl
      | some profiles => exact .inl rfl
    | cons profile profiles => exact .inl rfl

theorem mem_entry_of_cached {s : State} {profiles : List ChargingProfile} (h : s.cached = some profiles) :
    ∃ createdAt, s.entry = some (createdAt, profiles) := by
  unfold State.cached at h
  split at h
  · cases h
  · rename_i createdAt profiles' hentry
    split at h
    · cases h
    · exact ⟨createdAt, hentry.trans (by rw [Option.some.inj h])⟩

/-! ## One operation -/

theorem setChargingProfile_cases (s : State) (profile : ChargingProfile) (works : Bool) :
    (s.setChargingProfile profile works).1 = s ∨
      (s.setChargingProfile profile works).1 =
        { s with
          stored := s.stored ++ [profile]
          profileCache := some (updateCache s.profileCache profile)
          filledAt := none } := by
  unfold State.setChargingProfile
  dsimp only
  split
  · exact .inl rfl
  · rename_i hvalid
    obtain ⟨_, hprofile, -⟩ := (Guard.bind_eq_ok _ _ _).mp hvalid
    have hfresh : ∀ p ∈ s.stored, p.id ≠ profile.id :=
      fun p hp => id_ne_of_validateProfile hprofile p (mem_getChargingProfiles_all.mpr hp)
    unfold storeChargingProfile
    rw [Sql.upsert_of_fresh _ _ hfresh]
    split
    · exact .inl rfl
    · rename_i hstored
      cases works with
      | false => exact .inl rfl
      | true =>
        right
        split at hstored
        · cases hstored
        · rw [← Option.some.inj hstored]
          rfl

theorem Coherent.set {s : State} (h : Coherent s) (profile : ChargingProfile) (works : Bool) :
    Coherent (s.setChargingProfile profile works).1 := by
  rcases setChargingProfile_cases s profile works with heq | heq
  · rw [heq]
    exact h
  · rw [heq]
    refine ⟨?_, by simp, by simp⟩
    intro hwhole profiles hprofiles p hp
    obtain rfl := Option.some.inj hprofiles
    rcases List.mem_append.mp hp with hold | hnew
    · refine List.mem_append_left _ ?_
      have hin := (List.mem_filter.mp hold).1
      cases hcache : s.profileCache with
      | none => simp [hcache] at hin
      | some cached => exact h.stored hwhole cached hcache p (by simpa [hcache] using hin)
    · exact List.mem_append_right _ hnew

theorem Coherent.clear {s : State} (h : Coherent s) (profileId : Option ℤ) (purpose : Option String)
    (stackLevel : Option ℤ) (done : ℕ) :
    Coherent (s.clearChargingProfile profileId purpose stackLevel done).1 := by
  unfold State.clearChargingProfile
  split
  · exact h
  · split
    · exact h
    · dsimp only
      split
      · refine ⟨?_, by simp, by simp⟩
        intro _ profiles hprofiles p hp
        obtain rfl := Option.some.inj hprofiles
        exact mem_getChargingProfiles_all.mp hp
      · split
        · exact h
        · -- the dictionary may hold what was deleted, if there is one
          refine ⟨?_, by simp, by simp⟩
          intro hwhole profiles hprofiles p hp
          have hcached := (Bool.or_eq_false_iff.mp hwhole).2
          rw [Option.isSome_eq_false_iff, Option.isNone_iff_eq_none] at hcached
          have hsome : s.profileCache = some profiles := hprofiles
          rw [hcached] at hsome
          cases hsome

theorem Coherent.evictExpired {s : State} (h : Coherent s) : Coherent s.evictExpired := by
  unfold State.evictExpired
  split
  · exact ⟨h.stored, h.profileCache, by simp⟩
  · exact h

theorem Coherent.read {s : State} (h : Coherent s) : Coherent s.getActiveProfiles.1 := by
  rcases getActiveProfiles_fst s with heq | heq
  · rw [heq]
    exact h.evictExpired
  · rw [heq]
    refine ⟨?_, ?_, ?_⟩
    · intro _ profiles hprofiles p hp
      obtain rfl := Option.some.inj hprofiles
      exact (mem_getActiveChargingProfiles.mp hp).1
    · intro t ht
      obtain rfl := Option.some.inj ht
      exact ⟨_, rfl, fun p => mem_getActiveChargingProfiles⟩
    · intro t ht e he p
      obtain rfl := Option.some.inj ht
      obtain rfl := Option.some.inj he
      exact mem_getActiveChargingProfiles

theorem Coherent.step {s : State} (h : Coherent s) (op : Event) : Coherent (step s op) := by
  cases op with
  | set profile works => exact h.set profile works
  | clear profileId purpose stackLevel done => exact h.clear profileId purpose stackLevel done
  | read => exact h.read
  | elapse seconds => exact ⟨h.stored, h.profileCache, h.entry⟩
  | evict => exact ⟨h.stored, h.profileCache, by simp [ProfileCache.step]⟩

/-! ## Every run -/

/-- Where nothing came since the caches were filled, each of them answers with what was active then. -/
theorem Coherent.mem_read_of_filledAt {s : State} (h : Coherent s) {t : ℚ} (ht : s.filledAt = some t)
    (p : ChargingProfile) : p ∈ s.getActiveProfiles.2 ↔ p ∈ s.stored ∧ isActive t p := by
  rw [getActiveProfiles_snd]
  split
  · cases hcached : s.cached with
    | none => rename_i hanswers; simp [State.cacheAnswers, hcached] at hanswers
    | some profiles =>
      obtain ⟨createdAt, hentry⟩ := mem_entry_of_cached hcached
      exact h.entry t ht (createdAt, profiles) hentry p
  · obtain ⟨profiles, hprofiles, hmem⟩ := h.profileCache t ht
    rw [hprofiles, Option.getD_some]
    exact hmem p

theorem readsActive_of_cachesFit {s : State} (h : Coherent s) (op : Event) (hfit : CachesFit s op) :
    ReadsActive s op := by
  cases op with
  | read =>
    intro p
    rcases hfit with ⟨hanswers, hnone⟩ | ⟨t, ht, hsame⟩ | ⟨hanswers, hwhole, hall⟩
    · rw [getActiveProfiles_snd, hanswers, if_neg Bool.false_ne_true, hnone, Option.getD_none]
      exact mem_getActiveChargingProfiles
    · rw [h.mem_read_of_filledAt ht]
      refine and_congr_right fun hp => ?_
      rw [hsame p hp]
    · rw [getActiveProfiles_snd, hanswers, if_neg Bool.false_ne_true]
      cases hcache : s.profileCache with
      | none => exact mem_getActiveChargingProfiles
      | some profiles =>
        rw [hcache, Option.getD_some] at hall
        rw [Option.getD_some]
        constructor
        · intro hp
          have hstored := h.stored hwhole profiles hcache p hp
          exact ⟨hstored, (hall p hstored).2⟩
        · exact fun hp => (hall p hp.1).1
  | _ => trivial

/-- **The profiles that are used are the stored ones that are active**, in every run from an empty cache in which at
every read no cache answers, or nothing was set or cleared since a read has filled the caches and no stored profile
became active or expired since, or the profile cache answers, holds every stored profile and all are active, and no
clear has failed after a delete since it was refreshed. -/
theorem reads_active_along (clock : ℚ) (stored : List ChargingProfile) (ops : List Event)
    (h : Run.Along step CachesFit { clock := clock, stored := stored } ops) :
    Run.Along step ReadsActive { clock := clock, stored := stored } ops := by
  have hstep : ∀ s op, CachesFit s op → Coherent s → ReadsActive s op ∧ Coherent (step s op) :=
    fun s op hfit hcoherent => ⟨readsActive_of_cachesFit hcoherent op hfit, hcoherent.step op⟩
  exact Run.Along.imp hstep ⟨by simp, by simp, by simp⟩ h

def defaultLimit : ChargingProfile :=
  { id := 1, stackLevel := 0, chargingProfilePurpose := .txDefaultProfile
    chargingSchedulePeriod := [{ startPeriod := 0, limit := 11000 }] }

def tighterLimit : ChargingProfile :=
  { id := 2, stackLevel := 1, chargingProfilePurpose := .txDefaultProfile
    chargingSchedulePeriod := [{ startPeriod := 0, limit := 4000 }] }

theorem set_then_cleared_reads_active :
    Run.Along step ReadsActive { clock := 0, stored := [] }
      [.set defaultLimit true, .set tighterLimit true, .read, .elapse 60, .clear (some 2) none none 3, .read] :=
  reads_active_along 0 [] _
    ⟨trivial, trivial, .inr (.inr ⟨by decide +kernel, by decide +kernel, by decide +kernel⟩), trivial, trivial,
      .inr (.inr ⟨by decide +kernel, by decide +kernel, by decide +kernel⟩), trivial⟩

def readThenSet : List Event := [.read, .set tighterLimit true]

/-- The next read misses the limit that was accepted before it. -/
theorem accepted_profile_missed :
    ¬ Run.Along step ReadsActive { clock := 0, stored := [defaultLimit] } (readThenSet ++ [Event.read]) := by
  intro h
  have hread := (h.last tighterLimit).mpr (by decide +kernel)
  revert hread
  decide +kernel

end FavoniusBackend.Ocpp.ProfileCache
