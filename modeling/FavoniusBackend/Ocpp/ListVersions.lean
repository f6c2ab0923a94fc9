import FavoniusBackend.Lib.Run
import FavoniusBackend.Ocpp.LocalAuthSync

/-!
# The versions of the local list

A sync sends the list under the version that follows the one it has read, and stores that version when the charger has
accepted the list.  Syncs of one station may overlap, the store may fail, and a sync may be cancelled between its
request and its store.

A list that the charger has accepted is *unstored* until its sync has stored the version.  The versions that are sent
increase, and the stored version does not decrease, just where every sync that sends a list has read the row when no
accepted list was unstored and no list has been accepted since (`increases_iff_upToDate`).
-/

namespace FavoniusBackend.Ocpp.ListVersions

open Lib
open Ocpp.LocalAuthSync

/-- A sync under way: what it has still to do, and whether the row that it has read is up to date with the charger. -/
structure Task where
  upToDate : Bool
  remaining : List Action

/-- The row, the versions that the charger has accepted, those among them (with the sync that sent them) that are not
stored, and the syncs.  A sync that has ended has nothing to do. -/
structure State where
  row : Station := {}
  accepted : List ℕ := []
  unstored : List (ℕ × ℕ) := []
  tasks : List Task := []

/-- The charger accepts the list: it says so, or its answer is lost. -/
def accepts (reply : Option LocalListStatus) (delivered : Bool) : Bool :=
  decide (reply = some .accepted) || decide (reply = none) && delivered

def State.accept (s : State) (i version : ℕ) : State :=
  { s with
    accepted := s.accepted ++ [version]
    unstored := s.unstored ++ [(i, version)]
    tasks := s.tasks.map fun task => { task with upToDate := false } }

def State.goOn (s : State) (i : ℕ) (remaining : List Action) : State :=
  { s with tasks := s.tasks.modify i fun task => { task with remaining := remaining } }

def State.execute (s : State) (i : ℕ) (write : Write) : State :=
  { s with
    row := s.row.write write
    unstored :=
      match write with
      | .storeVersion version _ => s.unstored.filter fun entry => decide (entry ≠ (i, version))
      | _ => s.unstored }

/-- A sync starts with the row that it reads, takes its next action (a write may work or not, and a list that is not
answered may have been delivered), or is cancelled. -/
inductive Event
  | start (inputs : Inputs)
  | resume (i : ℕ) (works delivered : Bool)
  | cancel (i : ℕ)

def State.resume (s : State) (i : ℕ) (works delivered : Bool) : List Action → State
  | [] => s
  | .execute write :: rest => (if works then s.execute i write else s).goOn i rest
  | .sendLocalList version _ reply :: rest => (if accepts reply delivered then s.accept i version else s).goOn i rest
  | _ :: rest => s.goOn i rest

def step (s : State) : Event → State
  | .start inputs =>
    { s with tasks := s.tasks ++ [Task.mk (decide (s.unstored = [])) (syncCharger inputs s.row).actions] }
  | .resume i works delivered => s.resume i works delivered ((s.tasks[i]?.map Task.remaining).getD [])
  | .cancel i => s.goOn i []

def sending (s : State) : Event → Option (Task × ℕ)
  | .resume i _ _ => s.tasks[i]?.bind fun task =>
    match task.remaining with
    | .sendLocalList version _ _ :: _ => some (task, version)
    | _ => none
  | _ => none

/-- A list that is sent has a greater version than those the charger has accepted, and the stored version does not
decrease. -/
def Increases (s : State) (op : Event) : Prop :=
  (∀ sent ∈ sending s op, ∀ a ∈ s.accepted, a < sent.2) ∧
    s.row.localListVersion ≤ (step s op).row.localListVersion

instance (s : State) (op : Event) : Decidable (Increases s op) :=
  inferInstanceAs (Decidable ((∀ sent ∈ sending s op, ∀ a ∈ s.accepted, a < sent.2) ∧ _ ≤ _))

/-- A sync that sends a list has read the row when no accepted list was unstored, and no list has been accepted
since. -/
def UpToDate (s : State) (op : Event) : Prop := ∀ sent ∈ sending s op, sent.1.upToDate = true

/-! ## What a sync has to do -/

def Quiet : Action → Prop
  | .sendLocalList _ _ _ => False
  | .execute (.storeVersion _ _) => False
  | _ => True

/-- The actions of a sync that has read the version `n`: at most one list, under the next version, and after it one
write, which stores that version only if the charger has accepted the list. -/
inductive Planned (n : ℕ) : List Action → Prop
  | nil : Planned n []
  | quiet {a : Action} {rest : List Action} : Quiet a → Planned n rest → Planned n (a :: rest)
  | send {entries : List AuthorizationData} {reply : Option LocalListStatus} {write : Write} :
      (∀ version status, write = .storeVersion version status → version = n + 1 ∧ reply = some .accepted) →
      Planned n [.sendLocalList (n + 1) entries reply, .execute write]

theorem planned_sendPlan (inputs : Inputs) (snap : Snapshot) (currentFw : Option String) (probePositive : Bool)
    (bootstrap : Option BootstrapOutcome) (entries : List AuthorizationData) :
    Planned snap.version (sendPlan inputs snap currentFw probePositive bootstrap entries).actions := by
  rw [sendPlan_actions]
  generalize hwrite : resultWrite snap currentFw probePositive bootstrap entries
    (sendLocalListWithError inputs.disabled inputs.vendor entries inputs.sendLocalList) = write
  have hstore : ∀ version status, write = .storeVersion version status →
      version = snap.version + 1 ∧ refusesLocally inputs.disabled inputs.vendor entries = false ∧
        inputs.sendLocalList = some .accepted := by
    rintro version status rfl
    obtain ⟨hversion, haccepted⟩ := resultWrite_eq_storeVersion hwrite
    exact ⟨hversion, sendLocalListWithError_accepted haccepted⟩
  split
  · rename_i hlocal
    refine .quiet ?_ .nil
    cases write with
    | storeVersion version status =>
      have hsent := (hstore version status rfl).2.1
      rw [hlocal] at hsent
      cases hsent
    | recordProbeOutcome supported firmware lastStatus => trivial
    | stampStatus status => trivial
  · refine .send ?_
    intro version status heq
    exact ⟨(hstore version status heq).1, (hstore version status heq).2.2⟩

theorem planned_bootstrapPlan (inputs : Inputs) (snap : Snapshot) (currentFw : Option String) (probePositive : Bool)
    (entries : List AuthorizationData) :
    Planned snap.version (bootstrapPlan inputs snap currentFw probePositive entries).actions := by
  have hwrite : ∀ outcome status, Planned snap.version (bootstrapWrite snap currentFw probePositive outcome status) := by
    intro outcome status
    unfold bootstrapWrite
    split
    · exact .quiet trivial .nil
    · split
      · exact .quiet trivial .nil
      · exact .nil
  unfold bootstrapPlan
  dsimp only
  split
  · split
    · exact .quiet trivial (planned_sendPlan ..)
    · exact .quiet trivial (hwrite _ _)
    · exact .quiet trivial (hwrite _ _)
  · exact planned_sendPlan ..

theorem planned_probePlan (inputs : Inputs) (snap : Snapshot) (currentFw : Option String) :
    Planned snap.version (probePlan inputs snap currentFw).actions := by
  have hlist : ∀ probePositive, Planned snap.version (listPlan inputs snap currentFw probePositive).actions := by
    intro probePositive
    unfold listPlan
    split
    · exact .nil
    · exact planned_bootstrapPlan ..
  unfold probePlan
  dsimp only
  split
  · split
    · split
      · exact .quiet trivial (.quiet trivial .nil)
      · exact .quiet trivial .nil
    · split
      · exact .quiet trivial (.quiet trivial (hlist _))
      · exact .quiet trivial (hlist _)
    · exact .quiet trivial (hlist _)
  · exact hlist _

theorem planned_syncCharger (inputs : Inputs) (row : Station) :
    Planned row.localListVersion (syncCharger inputs row).actions := by
  unfold syncCharger
  split
  · exact .nil
  · cases inputs.read with
    | failed => exact .nil
    | missing => exact .nil
    | legacy =>
      dsimp only [fetchStation]
      split
      · exact .nil
      · exact planned_probePlan inputs ⟨true, row.localListVersion, none, none⟩ _
    | current =>
      dsimp only [fetchStation]
      split
      · exact .nil
      · exact planned_probePlan inputs ⟨false, row.localListVersion, row.localListSupported,
          normalizeFirmware row.localListProbedFirmware⟩ _

theorem Planned.tail {n : ℕ} {a : Action} {rest : List Action} (h : Planned n (a :: rest)) (ha : Quiet a) :
    Planned n rest := by
  cases h with
  | quiet _ hrest => exact hrest
  | send _ => exact absurd ha id

theorem Planned.quiet_execute {n : ℕ} {write : Write} {rest : List Action} (h : Planned n (.execute write :: rest)) :
    Quiet (.execute write) := by
  cases h with
  | quiet ha _ => exact ha

theorem Planned.sending {n version : ℕ} {entries : List AuthorizationData} {reply : Option LocalListStatus}
    {rest : List Action} (h : Planned n (.sendLocalList version entries reply :: rest)) :
    version = n + 1 ∧ ∃ write, rest = [.execute write] ∧
      ∀ version' status, write = .storeVersion version' status → version' = n + 1 ∧ reply = some .accepted := by
  cases h with
  | quiet ha _ => exact absurd ha id
  | send hwrite => exact ⟨rfl, _, rfl, hwrite⟩

theorem write_version_of_quiet {write : Write} (h : Quiet (.execute write)) (row : Station) :
    (row.write write).localListVersion = row.localListVersion := by
  cases write with
  | storeVersion version status => exact absurd h id
  | recordProbeOutcome supported firmware lastStatus => rfl
  | stampStatus status => rfl

/-! ## The syncs and the row -/

/-- A sync that has not come to its store: the version that it has read is still the stored one and everything that was
accepted is stored, or a list with a greater version has been accepted. -/
def Waiting (s : State) (task : Task) : Prop :=
  ∃ n, Planned n task.remaining ∧ n ≤ s.row.localListVersion ∧
    (task.upToDate = true → n = s.row.localListVersion ∧ s.unstored = []) ∧
    (task.upToDate = false → ∃ a ∈ s.accepted, n < a)

/-- A sync that is about to store the version of a list that was accepted. -/
def Storing (s : State) (i : ℕ) (task : Task) : Prop :=
  task.upToDate = false ∧ ∃ version status, task.remaining = [.execute (.storeVersion version status)] ∧
    (i, version) ∈ s.unstored

/-- **The invariant.**  At most one accepted list is unstored, and then its version follows the stored one. -/
structure Inv (s : State) : Prop where
  accepted : ∀ a ∈ s.accepted, a ≤ s.row.localListVersion ∨ ∃ i, (i, a) ∈ s.unstored
  unstored : ∀ entry ∈ s.unstored, entry.2 = s.row.localListVersion + 1 ∧ entry.2 ∈ s.accepted
  single : s.unstored.length ≤ 1
  task : ∀ i task, s.tasks[i]? = some task → Waiting s task ∨ Storing s i task

theorem Inv.eq_singleton {s : State} (h : Inv s) {entry : ℕ × ℕ} (hentry : entry ∈ s.unstored) :
    s.unstored = [entry] := by
  obtain ⟨first, hfirst⟩ := List.length_eq_one_iff.mp
    (le_antisymm h.single (List.length_pos_of_mem hentry))
  rw [hfirst] at hentry ⊢
  rw [List.mem_singleton.mp hentry]

theorem goOn_getElem? (s : State) (i : ℕ) (remaining : List Action) (j : ℕ) :
    (s.goOn i remaining).tasks[j]? =
      s.tasks[j]?.map fun task => if i = j then { task with remaining := remaining } else task := by
  unfold State.goOn
  rw [List.getElem?_modify]
  cases s.tasks[j]? with
  | none => split <;> rfl
  | some task => split <;> rfl

theorem Inv.goOn {s : State} (h : Inv s) {i : ℕ} {remaining : List Action}
    (hnext : ∀ task, s.tasks[i]? = some task → Waiting s { task with remaining := remaining }) :
    Inv (s.goOn i remaining) := by
  refine ⟨h.accepted, h.unstored, h.single, ?_⟩
  intro j task htask
  rw [goOn_getElem?] at htask
  obtain ⟨old, hold, rfl⟩ := Option.map_eq_some_iff.mp htask
  split
  · rename_i hij
    subst hij
    exact .inl (hnext old hold)
  · exact h.task j old hold

theorem Inv.execute {s : State} (h : Inv s) {write : Write} (hquiet : Quiet (.execute write)) (i : ℕ) :
    Inv (s.execute i write) := by
  have hversion := write_version_of_quiet hquiet s.row
  have hunstored : (s.execute i write).unstored = s.unstored := by
    cases write with
    | storeVersion version status => exact absurd hquiet id
    | recordProbeOutcome supported firmware lastStatus => rfl
    | stampStatus status => rfl
  refine ⟨?_, ?_, ?_, ?_⟩
  · show ∀ a ∈ s.accepted, a ≤ (s.row.write write).localListVersion ∨ _
    rw [hversion, hunstored]
    exact h.accepted
  · show ∀ entry ∈ (s.execute i write).unstored, entry.2 = (s.row.write write).localListVersion + 1 ∧ _
    rw [hversion, hunstored]
    exact h.unstored
  · rw [hunstored]
    exact h.single
  · intro j task htask
    unfold Waiting Storing
    show (∃ n, _ ∧ n ≤ (s.row.write write).localListVersion ∧
      (_ → n = (s.row.write write).localListVersion ∧ _) ∧ _) ∨ _
    rw [hversion, hunstored]
    exact h.task j task htask

theorem Inv.store {s : State} (h : Inv s) {i : ℕ} {task : Task} (htask : s.tasks[i]? = some task) {version : ℕ}
    {status : SyncStatus} (hstale : task.upToDate = false) (hentry : (i, version) ∈ s.unstored) :
    Inv ((s.execute i (.storeVersion version status)).goOn i []) := by
  have hsingle := h.eq_singleton hentry
  obtain ⟨hversion, hmem⟩ : version = s.row.localListVersion + 1 ∧ version ∈ s.accepted := h.unstored _ hentry
  have hnone : ((s.execute i (.storeVersion version status)).goOn i []).unstored = [] := by
    show s.unstored.filter (fun entry => decide (entry ≠ (i, version))) = []
    rw [hsingle]
    simp
  refine ⟨?_, ?_, ?_, ?_⟩
  · intro a ha
    refine .inl ?_
    show a ≤ version
    rcases h.accepted a ha with hle | ⟨j, hj⟩
    · omega
    · rw [hsingle] at hj
      rw [(Prod.mk.inj (List.mem_singleton.mp hj)).2]
  · rw [hnone]
    simp
  · rw [hnone]
    simp
  · intro j other hother
    rw [goOn_getElem?] at hother
    obtain ⟨old, hold, rfl⟩ := Option.map_eq_some_iff.mp hother
    refine .inl ?_
    split
    · rename_i hij
      subst hij
      obtain rfl : task = old := Option.some.inj (htask.symm.trans hold)
      refine ⟨s.row.localListVersion, .nil, ?_, ?_, fun _ => ⟨version, hmem, ?_⟩⟩
      · show s.row.localListVersion ≤ version
        omega
      · simp [hstale]
      · omega
    · rename_i hij
      rcases h.task j old hold with ⟨n, hplanned, hn, hfresh, hpast⟩ | ⟨-, version', status', -, hentry'⟩
      · refine ⟨n, hplanned, ?_, ?_, hpast⟩
        · show n ≤ version
          omega
        · intro hupToDate
          have hempty := (hfresh hupToDate).2
          rw [hempty] at hentry
          cases hentry
      · rw [hsingle] at hentry'
        exact absurd (Prod.mk.inj (List.mem_singleton.mp hentry')).1.symm hij

theorem Inv.accept {s : State} (h : Inv s) {i : ℕ} {write : Write}
    (hempty : s.unstored = [])
    (hwrite : ∀ version status, write = .storeVersion version status → version = s.row.localListVersion + 1) :
    Inv ((s.accept i (s.row.localListVersion + 1)).goOn i [.execute write]) := by
  refine ⟨?_, ?_, ?_, ?_⟩
  · intro a ha
    rcases List.mem_append.mp ha with hold | hnew
    · rcases h.accepted a hold with hle | ⟨j, hj⟩
      · exact .inl hle
      · rw [hempty] at hj
        cases hj
    · refine .inr ⟨i, List.mem_append_right _ ?_⟩
      rw [List.mem_singleton.mp hnew]
      exact List.mem_singleton_self _
  · intro entry hentry
    rcases List.mem_append.mp hentry with hold | hnew
    · rw [hempty] at hold
      cases hold
    · rw [List.mem_singleton.mp hnew]
      exact ⟨rfl, List.mem_append_right _ (List.mem_singleton_self _)⟩
  · show (s.unstored ++ [(i, s.row.localListVersion + 1)]).length ≤ 1
    rw [hempty]
    exact le_rfl
  · intro j task htask
    rw [goOn_getElem?] at htask
    obtain ⟨mid, hmid, rfl⟩ := Option.map_eq_some_iff.mp htask
    have hmid : (s.tasks.map fun task => { task with upToDate := false })[j]? = some mid := hmid
    rw [List.getElem?_map] at hmid
    obtain ⟨old, hold, rfl⟩ := Option.map_eq_some_iff.mp hmid
    have hlast : s.row.localListVersion + 1 ∈ s.accepted ++ [s.row.localListVersion + 1] :=
      List.mem_append_right _ (List.mem_singleton_self _)
    split
    · rename_i hij
      subst hij
      cases hstore : write with
      | storeVersion version status =>
        refine .inr ⟨rfl, version, status, rfl, List.mem_append_right _ ?_⟩
        rw [hwrite version status hstore]
        exact List.mem_singleton_self _
      | recordProbeOutcome supported firmware lastStatus =>
        exact .inl ⟨_, .quiet trivial .nil, le_rfl, by simp, fun _ => ⟨_, hlast, Nat.lt_succ_self _⟩⟩
      | stampStatus status =>
        exact .inl ⟨_, .quiet trivial .nil, le_rfl, by simp, fun _ => ⟨_, hlast, Nat.lt_succ_self _⟩⟩
    · rcases h.task j old hold with ⟨n, hplanned, hn, -, -⟩ | ⟨-, version', status', -, hentry'⟩
      · exact .inl ⟨n, hplanned, hn, by simp, fun _ => ⟨_, hlast, Nat.lt_succ_of_le hn⟩⟩
      · rw [hempty] at hentry'
        cases hentry'

/-- What happens when a sync goes on, by what it has next. -/
theorem Inv.resume {s : State} (h : Inv s) {i : ℕ} {task : Task} (htask : s.tasks[i]? = some task)
    (hcurrent : ∀ version entries reply rest, task.remaining = .sendLocalList version entries reply :: rest →
      task.upToDate = true) (works delivered : Bool) :
    Inv (s.resume i works delivered task.remaining) := by
  -- a quiet action leaves the sync waiting
  have hquiet : ∀ {s' : State} {a : Action} {rest : List Action}, Inv s' → s'.tasks[i]? = some task →
      task.remaining = a :: rest → Quiet a → Inv (s'.goOn i rest) := by
    intro s' a rest hs' htask' hremaining ha
    refine hs'.goOn fun other hother => ?_
    obtain rfl : task = other := Option.some.inj (htask'.symm.trans hother)
    rcases hs'.task i task htask' with ⟨n, hplanned, hn, hfresh, hpast⟩ | ⟨-, version, status, hstoring, -⟩
    · rw [hremaining] at hplanned
      exact ⟨n, hplanned.tail ha, hn, hfresh, hpast⟩
    · rw [hremaining] at hstoring
      obtain ⟨rfl, -⟩ := List.cons.inj hstoring
      exact absurd ha id
  cases hremaining : task.remaining with
  | nil => exact h
  | cons a rest =>
    cases a with
    | getConfiguration reply => exact hquiet h htask hremaining trivial
    | changeConfiguration reply => exact hquiet h htask hremaining trivial
    | execute write =>
      show Inv ((if works then s.execute i write else s).goOn i rest)
      rcases h.task i task htask with ⟨n, hplanned, -⟩ | ⟨hstale, version, status, hstoring, hentry⟩
      · have ha : Quiet (.execute write) := Planned.quiet_execute (hremaining ▸ hplanned)
        split
        · exact hquiet (h.execute ha i) htask hremaining ha
        · exact hquiet h htask hremaining ha
      · obtain ⟨hwrite, rfl⟩ := List.cons.inj (hremaining.symm.trans hstoring)
        obtain rfl := Action.execute.inj hwrite
        split
        · exact h.store htask hstale hentry
        · -- the store fails: the list stays unstored
          refine h.goOn fun other hother => ?_
          obtain rfl : task = other := Option.some.inj (htask.symm.trans hother)
          obtain ⟨hversion, hmem⟩ := h.unstored _ hentry
          exact ⟨_, .nil, le_rfl, by simp [hstale], fun _ => ⟨_, hmem, by omega⟩⟩
    | sendLocalList version entries reply =>
      show Inv ((if accepts reply delivered then s.accept i version else s).goOn i rest)
      have hupToDate := hcurrent version entries reply rest hremaining
      rcases h.task i task htask with ⟨n, hplanned, hn, hfresh, hpast⟩ | ⟨hstale, -⟩
      · obtain ⟨rfl, write, rfl, hwrite⟩ := Planned.sending (hremaining ▸ hplanned)
        obtain ⟨rfl, hempty⟩ := hfresh hupToDate
        split
        · exact h.accept hempty fun version status hstore => (hwrite version status hstore).1
        · rename_i hnot
          refine h.goOn fun other hother => ?_
          obtain rfl : task = other := Option.some.inj (htask.symm.trans hother)
          refine ⟨_, .quiet ?_ .nil, le_rfl, fun _ => ⟨rfl, hempty⟩, by simp [hupToDate]⟩
          cases hstore : write with
          | storeVersion version status =>
            have hreply := (hwrite version status hstore).2
            simp [accepts, hreply] at hnot
          | recordProbeOutcome supported firmware lastStatus => trivial
          | stampStatus status => trivial
      · rw [hstale] at hupToDate
        cases hupToDate

theorem Inv.step {s : State} (h : Inv s) {op : Event} (hcurrent : UpToDate s op) : Inv (step s op) := by
  cases op with
  | start inputs =>
    refine ⟨h.accepted, h.unstored, h.single, ?_⟩
    intro j task htask
    rw [ListVersions.step, List.getElem?_append] at htask
    split at htask
    · exact h.task j task htask
    · obtain rfl := List.mem_singleton.mp (List.mem_of_getElem? htask)
      refine .inl ⟨s.row.localListVersion, planned_syncCharger inputs s.row, le_rfl, ?_, ?_⟩
      · intro hempty
        exact ⟨rfl, of_decide_eq_true hempty⟩
      · intro hnonempty
        obtain ⟨entry, hentry⟩ := List.exists_mem_of_ne_nil _ (of_decide_eq_false hnonempty)
        obtain ⟨hversion, hmem⟩ := h.unstored entry hentry
        exact ⟨entry.2, hmem, by omega⟩
  | resume i works delivered =>
    rw [ListVersions.step]
    cases htask : s.tasks[i]? with
    | none => exact h
    | some task =>
      refine h.resume htask ?_ works delivered
      intro version entries reply rest hremaining
      refine hcurrent (task, version) ?_
      simp [sending, htask, hremaining]
  | cancel i =>
    refine h.goOn fun task htask => ?_
    rcases h.task i task htask with ⟨n, -, hn, hfresh, hpast⟩ | ⟨hstale, version, status, -, hentry⟩
    · exact ⟨n, .nil, hn, hfresh, hpast⟩
    · obtain ⟨hversion, hmem⟩ := h.unstored _ hentry
      exact ⟨_, .nil, le_rfl, by simp [hstale], fun _ => ⟨_, hmem, by omega⟩⟩

theorem Inv.resume_version_le {s : State} (h : Inv s) {i : ℕ} {task : Task} (htask : s.tasks[i]? = some task)
    (works delivered : Bool) :
    s.row.localListVersion ≤ (s.resume i works delivered task.remaining).row.localListVersion := by
  cases hremaining : task.remaining with
  | nil => exact le_rfl
  | cons a rest =>
    cases a with
    | getConfiguration reply => exact le_rfl
    | changeConfiguration reply => exact le_rfl
    | sendLocalList version entries reply =>
      show s.row.localListVersion ≤
        (if accepts reply delivered then s.accept i version else s).row.localListVersion
      split
      · exact le_rfl
      · exact le_rfl
    | execute write =>
      show s.row.localListVersion ≤ (if works then s.execute i write else s).row.localListVersion
      split
      · show s.row.localListVersion ≤ (s.row.write write).localListVersion
        rcases h.task i task htask with ⟨n, hplanned, -⟩ | ⟨-, version, status, hstoring, hentry⟩
        · rw [write_version_of_quiet (Planned.quiet_execute (hremaining ▸ hplanned))]
        · obtain ⟨hwrite, -⟩ := List.cons.inj (hremaining.symm.trans hstoring)
          obtain rfl := Action.execute.inj hwrite
          have hversion : version = s.row.localListVersion + 1 := (h.unstored _ hentry).1
          show s.row.localListVersion ≤ version
          omega
      · exact le_rfl

theorem Inv.version_le {s : State} (h : Inv s) (op : Event) :
    s.row.localListVersion ≤ (ListVersions.step s op).row.localListVersion := by
  cases op with
  | start inputs => exact le_rfl
  | cancel i => exact le_rfl
  | resume i works delivered =>
    rw [ListVersions.step]
    cases htask : s.tasks[i]? with
    | none => exact le_rfl
    | some task => exact h.resume_version_le htask works delivered

theorem Inv.of_sending {s : State} (h : Inv s) {op : Event} {task : Task} {version : ℕ}
    (hsending : sending s op = some (task, version)) :
    ∃ n, version = n + 1 ∧ (task.upToDate = true → n = s.row.localListVersion ∧ s.unstored = []) ∧
      (task.upToDate = false → ∃ a ∈ s.accepted, n < a) := by
  cases op with
  | start inputs => cases hsending
  | cancel i => cases hsending
  | resume i works delivered =>
    obtain ⟨task', htask, hmatch⟩ := Option.bind_eq_some_iff.mp hsending
    split at hmatch
    · rename_i version' entries reply rest hremaining
      obtain ⟨rfl, rfl⟩ := Prod.mk.inj (Option.some.inj hmatch)
      rcases h.task i task' htask with ⟨n, hplanned, -, hfresh, hpast⟩ | ⟨-, version, status, hstoring, -⟩
      · exact ⟨n, (Planned.sending (hremaining ▸ hplanned)).1, hfresh, hpast⟩
      · rw [hremaining] at hstoring
        cases (List.cons.inj hstoring).1
    · cases hmatch

theorem Inv.increases_iff {s : State} (h : Inv s) (op : Event) : Increases s op ↔ UpToDate s op := by
  constructor
  · rintro hincreases ⟨task, version⟩ hsending
    obtain ⟨n, rfl, -, hpast⟩ := h.of_sending hsending
    by_contra hstale
    obtain ⟨a, ha, hlt⟩ := hpast (by simpa using hstale)
    have hgt : a < n + 1 := hincreases.1 _ hsending a ha
    omega
  · intro hcurrent
    refine ⟨?_, h.version_le op⟩
    rintro ⟨task, version⟩ hsending a ha
    obtain ⟨n, rfl, hfresh, -⟩ := h.of_sending hsending
    obtain ⟨rfl, hempty⟩ := hfresh (hcurrent _ hsending)
    rcases h.accepted a ha with hle | ⟨i, hi⟩
    · exact Nat.lt_succ_of_le hle
    · rw [hempty] at hi
      cases hi

/-- **Every run.**  The versions that are sent increase and the stored version does not decrease, just where every sync
that sends a list has read the row when no accepted list was unstored and no list has been accepted since. -/
theorem increases_iff_upToDate (row : Station) (ops : List Event) :
    Run.Along step Increases { row := row } ops ↔ Run.Along step UpToDate { row := row } ops := by
  have hinit : Inv { row := row } := ⟨by simp, by simp, by simp, by simp⟩
  exact Run.along_iff_along (fun _ op h => h.increases_iff op)
    (fun _ op hincreases h => h.step ((h.increases_iff op).mp hincreases)) hinit

/-- The charger accepts the first list and the store of its version fails.  The next sync sends version 1 again. -/
theorem sends_accepted_version_after_failed_store :
    ¬ Run.Along step Increases {}
      [.start { firmwareVersion := some "V1.6" }, .resume 0 true true, .resume 0 true true, .resume 0 true true,
        .resume 0 false true, .start { firmwareVersion := some "V1.6" }, .resume 1 true true, .resume 1 true true,
        .resume 1 true true] := by
  decide +kernel

-- two syncs of a station that was synced before overlap: both send version 4
example : ¬ Run.Along step Increases { row := ⟨3, some true, some "V1.6", none⟩ }
    [.start { firmwareVersion := some "V1.6" }, .start { firmwareVersion := some "V1.6" }, .resume 0 true true,
      .resume 1 true true] := by
  decide +kernel

end FavoniusBackend.Ocpp.ListVersions
