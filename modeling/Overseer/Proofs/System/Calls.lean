import Overseer.Proofs.System.Accounts
import Overseer.Proofs.System.Reasons

/-! # Whose calls reach the executor

No tick of a run spoils the account of any task (`Account.tick`, `Account.hear`), however the operators, the watchdogs,
the executor and the workers of the other tasks interleave. So at any moment of any run the calls for a task are those
that its own payload gives a right to (`calls_rightful`).
-/

namespace Overseer
namespace System

variable {κ : Type} [Cost κ] {settings : Settings κ} {payload : Json} {heard heard' : List (Answer κ)}
  {s s₁ t : System κ} {c c' : Scene κ} {id j : TaskId} {n : Nat} {a : Admission}

/-! ## Scenes -/

/-- What the executor has been called for on behalf of a task. -/
def Scene.invocations (c : Scene κ) (id : TaskId) : List Invocation := (c.calls id).map (·.2)

omit [Cost κ] in
theorem Scene.calls_eq (c : Scene κ) (id : TaskId) :
    c.calls id = (c.invocations id).map fun invocation => (id, invocation) := by
  unfold invocations
  rw [List.map_map]
  refine (List.map_id _).symm.trans (List.map_congr_left fun call hcall => ?_)
  have hid : call.1 = id := by simpa using (List.mem_filter.mp hcall).2
  rw [← hid]
  rfl

omit [Cost κ] in
theorem Scene.invocations_ne_nil {c : Scene κ} (h : c.invocations id ≠ []) : c.calls id ≠ [] := by
  intro hnil
  rw [invocations, hnil] at h
  exact h rfl

/-- A task that waits has had no call, and one that is completed has had some. -/
structure Vouched (payload : Json) (calls : List (TaskId × Invocation)) (task : Task) : Prop where
  own : task.payload = payload
  pending : task.state = .pending → calls = []
  completed : task.state = .completed → calls ≠ []

omit [Cost κ] in
theorem Vouched.follow {calls : List (TaskId × Invocation)} {cause : Prop}
    (h : ∀ task, s.tasks.get? id = some task → Vouched payload calls task)
    (hr : Recorded id cause s t) (hcause : cause → calls ≠ []) {task : Task}
    (ht : t.tasks.get? id = some task) : Vouched payload calls task := by
  obtain ⟨before, hbefore, hsame, hstate⟩ := hr task ht
  have hold := h before hbefore
  refine ⟨hsame.trans hold.own, fun hp => ?_, fun hd => ?_⟩
  · rcases hstate with he | ⟨hne, -⟩
    · exact hold.pending (he ▸ hp)
    · exact absurd hp hne
  · rcases hstate with he | ⟨-, hdone⟩
    · exact hold.completed (he ▸ hd)
    · exact hcause (hdone hd)

/-- The account of a task in a scene. -/
structure Account (settings : Settings κ) (payload : Json) (id : TaskId) (heard : List (Answer κ))
    (c : Scene κ) : Prop where
  record : ∀ task, c.system.tasks.get? id = some task → Vouched payload (c.calls id) task
  idle : (∀ w ∈ c.system.workers, w.admission.id ≠ id) → c.calls id = []
  worker : ∀ n w, c.system.workers[n]? = some w → w.admission.id = id →
    Phase.Accounts settings payload heard (n ∈ c.asking.map (·.1)) (c.invocations id) w.phase

namespace Account

theorem settled (h : Account settings payload id heard c) :
    Settled settings payload heard (c.invocations id) := by
  by_cases hworker : ∃ w ∈ c.system.workers, w.admission.id = id
  · obtain ⟨w, hw, hid⟩ := hworker
    obtain ⟨n, hn⟩ := List.mem_iff_getElem?.mp hw
    exact (h.worker n w hn hid).settled
  · have hnil : c.calls id = [] := h.idle fun w hw hid => hworker ⟨w, hw, hid⟩
    rw [Scene.invocations, hnil]
    exact settled_nil settings payload heard

theorem follow (h : Account settings payload id heard c) (hcalls : c'.calls id = c.calls id)
    (hworkers : c'.system.workers = c.system.workers)
    (hrecord : Recorded id False c.system c'.system)
    (hasking : ∀ n w, c.system.workers[n]? = some w → w.admission.id = id →
      (n ∈ c'.asking.map (·.1) ↔ n ∈ c.asking.map (·.1))) :
    Account settings payload id heard c' := by
  have hinvocations : c'.invocations id = c.invocations id := congrArg (List.map _) hcalls
  refine ⟨fun task ht => ?_, fun hnone => ?_, fun n w hw hid => ?_⟩
  · rw [hcalls]
    exact .follow h.record hrecord False.elim ht
  · rw [hworkers] at hnone
    exact hcalls.trans (h.idle hnone)
  · rw [hworkers] at hw
    rw [hinvocations, propext (hasking n w hw hid)]
    exact h.worker n w hw hid

/-- What is done to others, or is no call, leaves the account as it is. -/
theorem calm (h : Account settings payload id heard c) (hc : Calm id c.system c'.system)
    (ha : c'.asking = c.asking) : Account settings payload id heard c' :=
  h.follow (congrArg _ hc.reached) hc.workers hc.record fun _ _ _ _ => by rw [ha]

/-- A worker has had its turn. -/
theorem land {cause : Prop} {phase : Phase κ} (h : Account settings payload id heard c)
    (hw : c.system.workers[n]? = some w) (hl : Lands id n phase cause c.system c'.system)
    (hcause : cause → c.calls id ≠ []) (hsub : heard ⊆ heard')
    (ha : ∀ m, m ≠ n → (m ∈ c'.asking.map (·.1) ↔ m ∈ c.asking.map (·.1)))
    (hphase : w.admission.id = id →
      Phase.Accounts settings payload heard' (n ∈ c'.asking.map (·.1)) (c.invocations id) phase) :
    Account settings payload id heard' c' := by
  have hcalls : c'.calls id = c.calls id := congrArg _ hl.reached
  have hinvocations : c'.invocations id = c.invocations id := congrArg (List.map _) hcalls
  refine ⟨fun task ht => ?_, fun hnone => ?_, fun m v hv hid => ?_⟩
  · rw [hcalls]
    exact .follow h.record hl.record hcause ht
  · refine hcalls.trans (h.idle fun v hv => ?_)
    obtain ⟨m, hm⟩ := List.mem_iff_getElem?.mp hv
    have hm' : c'.system.workers[m]?
        = some (if n = m then { v with phase := phase } else v) := by
      rw [hl.workers, List.getElem?_modify, hm]
      split
      · rfl
      · rfl
    have hne := hnone _ (List.mem_of_getElem? hm')
    split at hne
    · exact hne
    · exact hne
  · rw [hl.workers] at hv
    rw [hinvocations]
    by_cases hm : m = n
    · subst hm
      rw [List.getElem?_modify_eq, hw] at hv
      obtain rfl := Option.some.inj hv
      exact hphase hid
    · rw [List.getElem?_modify_ne _ _ (Ne.symm hm)] at hv
      have hold := (h.worker m v hv hid).mono hsub
      rwa [← propext (ha m hm)] at hold

/-- A new worker has a task that had none. -/
theorem employ (h : Account settings payload id heard c) (hs : Sane c.system) {a : Admission}
    {q : Queue} (hi : c.system.queue.inspect = .admitted a q) :
    Account settings payload id heard (c.on (c.system.employ a q)) := by
  refine ⟨h.record, fun hnone => ?_, fun n w hw hid => ?_⟩
  · exact h.idle fun v hv => hnone v (List.mem_append_left _ hv)
  · change (c.system.workers ++ [⟨a, .admitted⟩])[n]? = some w at hw
    by_cases hn : n < c.system.workers.length
    · rw [List.getElem?_append_left hn] at hw
      exact h.worker n w hw hid
    · rw [List.getElem?_append_right (Nat.not_lt.mp hn)] at hw
      obtain rfl := List.mem_singleton.mp (List.mem_of_getElem? hw)
      obtain ⟨rest, hp, -⟩ := Queue.inspect_admitted hi
      have hmem : id ∈ c.system.queue.pending := by
        rw [hp, ← hid]
        exact List.mem_cons_self
      have hnil : c.calls id = [] := h.idle fun v hv => ne_of_pending hs hmem hv
      exact congrArg (List.map _) hnil

end Account

omit [Cost κ] in
/-- A task has one worker at most. -/
theorem index_eq (h : Sane s) {m : Nat} {v : Worker κ} (hw : s.workers[n]? = some w)
    (hv : s.workers[m]? = some v) (hid : v.admission.id = w.admission.id) : m = n := by
  have hnodup : (s.workers.map (·.admission.id)).Nodup := by
    refine List.nodup_iff_count_le_one.mpr fun id => ?_
    have hle := (h.fine id).crew_le
    rw [view, List.length_map] at hle
    rwa [List.count_eq_countP, List.countP_map, List.countP_eq_length_filter]
  have hm : m < (s.workers.map (·.admission.id)).length := by
    rw [List.length_map]
    exact (List.getElem?_eq_some_iff.mp hv).1
  refine (List.getElem?_inj hm hnodup).mp ?_
  rw [List.getElem?_map, List.getElem?_map, hv, hw, Option.map_some, Option.map_some, hid]

omit [Cost κ] in
/-- A worker asks for the call that it has under way, which is put on record if it is not there yet. -/
theorem consulted_eq (h : s.consulted settings n = some s₁) : ∃ a job call reached,
    s.workers[n]? = some ⟨a, .calling job call reached⟩ ∧
    s₁ = { s with reached := s.reached
      ++ if reached then [] else [(a.id, Job.invocation settings job)] } := by
  unfold consulted at h
  split at h
  · rename_i a job call reached hw
    refine ⟨a, job, call, reached, hw, ?_⟩
    split at h
    · cases h
    · split at h
      · rename_i hreached
        obtain rfl := Option.some.inj h
        rw [if_pos hreached, List.append_nil]
      · rename_i hreached
        obtain rfl := Option.some.inj h
        rw [if_neg hreached]
  · cases h

section

variable (reached : Bool) (invocation : Invocation)

omit [Cost κ] in
theorem filter_asked_self (own : TaskId) (l : List (TaskId × Invocation)) :
    (l ++ if reached then [] else [(own, invocation)]).filter (·.1 == own)
      = l.filter (·.1 == own) ++ if reached then [] else [(own, invocation)] := by
  rw [List.filter_append]
  cases reached with
  | true => rfl
  | false => simp

omit [Cost κ] in
theorem filter_asked_of_ne {own : TaskId} (h : own ≠ id) (l : List (TaskId × Invocation)) :
    (l ++ if reached then [] else [(own, invocation)]).filter (·.1 == id)
      = l.filter (·.1 == id) := by
  rw [List.filter_append]
  cases reached with
  | true => exact List.append_nil _
  | false => simp [h]

end

namespace Account

/-- The worker of the task asks for the call that it has under way. -/
theorem ask_own {job : Job κ} {call : Call} {reached : Bool}
    (h : Account settings payload a.id heard c) (hs : Sane c.system)
    (free : n ∉ c.asking.map (·.1))
    (hw : c.system.workers[n]? = some ⟨a, .calling job call reached⟩)
    (hsystem : c'.system = { c.system with reached := c.system.reached
      ++ if reached then [] else [(a.id, Job.invocation settings job)] })
    (hasking : c'.asking = (n, c.system) :: c.asking) :
    Account settings payload a.id heard c' := by
  have hcalls : c'.calls a.id
      = c.calls a.id ++ if reached then [] else [(a.id, Job.invocation settings job)] := by
    unfold Scene.calls
    rw [hsystem]
    exact filter_asked_self reached _ a.id c.system.reached
  refine ⟨fun task ht => ?_, fun hnone => ?_, fun m v hv hid => ?_⟩
  · rw [hsystem] at ht
    have hsame : c.system.tasks.get? a.id = some task := ht
    have hold := h.record task hsame
    obtain ⟨state, hstate, hne⟩ := (hs.fine a.id).busy (activity_mem_crew hw)
    rw [task_of_get? hsame] at hstate
    obtain rfl := Option.some.inj hstate
    refine ⟨hold.own, fun hp => absurd hp hne, fun hd => ?_⟩
    rw [hcalls]
    exact List.append_ne_nil_of_left_ne_nil (hold.completed hd) _
  · rw [hsystem] at hnone
    exact absurd rfl (hnone _ (List.mem_of_getElem? hw))
  · rw [hsystem] at hv
    obtain rfl := index_eq hs hw hv hid
    obtain rfl := Option.some.inj (hw.symm.trans hv)
    obtain ⟨p, before, hp, hjob, hmade, hnot⟩ := h.worker m _ hw rfl
    have hmem : m ∈ c'.asking.map (·.1) := by
      rw [hasking]
      exact List.mem_cons_self
    refine ⟨p, before, hp, hjob, fun _ => ?_, fun hno => absurd (Or.inr hmem) hno⟩
    unfold Scene.invocations
    rw [hcalls, List.map_append]
    cases reached with
    | true =>
      rw [← hmade (Or.inl rfl)]
      exact List.append_nil _
    | false =>
      rw [← hnot fun hcall => hcall.elim (fun he => nomatch he) free]
      rfl

/-- The worker of another task asks. -/
theorem ask_of_ne {job : Job κ} {call : Call} {reached : Bool}
    (h : Account settings payload id heard c) (hne : a.id ≠ id)
    (hw : c.system.workers[n]? = some ⟨a, .calling job call reached⟩)
    (hsystem : c'.system = { c.system with reached := c.system.reached
      ++ if reached then [] else [(a.id, Job.invocation settings job)] })
    (hasking : c'.asking = (n, c.system) :: c.asking) : Account settings payload id heard c' := by
  refine h.follow ?_ ?_ (.of_tasks ?_) fun m v hv hid => ?_
  · unfold Scene.calls
    rw [hsystem]
    exact filter_asked_of_ne reached _ hne c.system.reached
  · rw [hsystem]
  · rw [hsystem]
  · have hm : m ≠ n := by
      rintro rfl
      obtain rfl := Option.some.inj (hw.symm.trans hv)
      exact hne hid
    rw [hasking]
    simp [hm]

theorem ask (h : Account settings payload id heard c) (hs : Sane c.system)
    (free : n ∉ c.asking.map (·.1)) (hc : c.system.consulted settings n = some s) :
    Account settings payload id heard
      { c with system := s, asking := (n, c.system) :: c.asking } := by
  obtain ⟨a, job, call, reached, hw, rfl⟩ := consulted_eq hc
  by_cases hid : a.id = id
  · subst hid
    exact h.ask_own hs free hw rfl rfl
  · exact h.ask_of_ne hid hw rfl rfl

end Account

omit [Cost κ] in
/-- The submission of another task. -/
theorem Calm.submit (payload : Json) (hu : s.view j = Standing.unknown.view j) (hne : id ≠ j) :
    Calm id s (s.submit .silent j payload).2 := by
  have hregister : Calm id s (s.register .silent j payload) := by
    have hprivate := Private.register payload hu
    refine ⟨hprivate.workers, hprivate.reached, .of_get? ?_⟩
    rw [register_eq payload (contains_of_unknown hu)]
    refine (congrArg (Table.get? · id) (tasks_record j _ _)).trans ?_
    exact Table.get?_move_of_ne hne _ _
  rcases submit_cases j payload s with ⟨step, cause, he⟩ | ⟨-, he⟩
  · rw [he]
    exact (hregister.trans (.record' j step _)).trans (.finish (fun hc => by cases hc) j _)
  · rw [he]
    exact hregister.trans (.withQueue _ _)

/-- What the executor tells a worker of the task. -/
def Scene.told (c : Scene κ) (id : TaskId) (n : Nat) (poll : Poll κ) : List (Answer κ) :=
  match c.system.workers[n]? with
  | some w => if w.admission.id = id then poll.told else []
  | none => []

namespace Account

/-- The worker that has been answered goes on. -/
theorem hear (h : Account settings payload id heard c) (hs : Sound settings c) (poll : Poll κ)
    {before after : List (Nat × System κ)} (waiting : c.asking = before ++ (n, s) :: after) :
    Account settings payload id (heard ++ c.told id n poll)
      (c.answer settings n s poll (before ++ after)) := by
  have hmem : (n, s) ∈ c.asking := by
    rw [waiting]
    exact List.mem_append_right _ List.mem_cons_self
  obtain ⟨w, s', hw, hw₀, hc⟩ := hs.waiting n s hmem
  have hasking : n ∈ c.asking.map (·.1) := List.mem_map.mpr ⟨_, hmem, rfl⟩
  have hphase (hid : w.admission.id = id) :
      Phase.Accounts settings payload heard True (c.invocations id) w.phase := by
    have hworker := h.worker n w hw hid
    rwa [eq_true hasking] at hworker
  obtain ⟨phase, hlands, haccounts⟩ := lands_answer hw₀ hc poll c.system hphase
    (n ∈ (before ++ after).map (·.1))
  refine h.land hw hlands (fun hid => ?_) (List.subset_append_left _ _) (fun m hm => ?_) fun hid => ?_
  · obtain ⟨job, call, reached, hcalling, -⟩ := calling_of_consulted hw₀ hc
    obtain ⟨p, made, -, -, hmade, -⟩ := hcalling ▸ hphase hid
    refine Scene.invocations_ne_nil ?_
    rw [hmade (Or.inr trivial)]
    exact List.append_ne_nil_of_right_ne_nil _ (List.cons_ne_nil _ _)
  · show m ∈ (before ++ after).map (·.1) ↔ _
    rw [waiting]
    simp [hm]
  · have htold : c.told id n poll = poll.told := by
      simp only [Scene.told, hw, hid, if_true]
    rw [htold]
    exact haccounts hid

/-- No tick spoils the account of a task, if it is not submitted just now. -/
theorem tick (h : Account settings payload id heard c) (hs : Sound settings c)
    (ht : Tick .mixed settings c c') (hlen : c.asking.length ≤ c'.asking.length)
    (hid : id ∈ c.submitted ∨ id ∉ c'.submitted) : Account settings payload id heard c' := by
  cases ht with
  | submit j payload' new =>
    refine h.calm (.submit payload' (hs.fresh j new) ?_) rfl
    rintro rfl
    rcases hid with hold | hnew
    · exact new hold
    · exact hnew List.mem_cons_self
  | strike call clear =>
    refine h.calm ?_ rfl
    show Calm id c.system (c.system.strike call).2
    rw [strike_eq]
    exact .withQueue _ _
  | chore next => exact h.calm (.perform _ _) rfl
  | pause | resume | shutdown => exact h.calm (.withQueue _ _) rfl
  | employ hi => exact h.employ hs.sane hi
  | elapse clock => exact h.calm ⟨rfl, rfl, .of_tasks rfl⟩ rfl
  | flag timeout => exact h.calm (.flagStalled timeout _) rfl
  | markLost j => exact h.calm (.markLost j _) rfl
  | turn n execute free hc =>
    have hsame : ∀ m, m ≠ n → (m ∈ c.asking.map (·.1) ↔ m ∈ c.asking.map (·.1)) :=
      fun _ _ => Iff.rfl
    cases hw : c.system.workers[n]? with
    | none =>
      rw [turn_of_none hw]
      exact h.calm (.refl id _) rfl
    | some w =>
      by_cases hgone : w.phase.activity = .gone
      · rw [turn_of_gone hw hgone]
        exact h.calm (.refl id _) rfl
      · have hphase (hid : w.admission.id = id) :
            Phase.Accounts settings payload heard False (c.invocations id) w.phase := by
          have hworker := h.worker n w hw hid
          rwa [eq_false free] at hworker
        obtain ⟨phase, hlands, haccounts⟩ := lands_turn hw hc hgone
          (fun task ht => (h.record task ht).own) hphase execute
        refine h.land hw hlands False.elim (List.Subset.refl _) hsame fun hid => ?_
        have hnext := haccounts hid
        rwa [← eq_false free] at hnext
  | ask n free hc => exact h.ask hs.sane free hc
  | answer poll waiting =>
    have hless : c.asking.length ≤ _ := hlen
    rw [waiting] at hless
    simp only [Scene.answer, List.length_append, List.length_cons] at hless
    omega

end Account

/-! ## Runs -/

/-- A run, with what the executor tells the workers of a task on the way. Fewer workers wait after an answer, and after
no other tick. -/
inductive Hears (settings : Settings κ) (id : TaskId) (c₀ : Scene κ) :
    List (Answer κ) → Scene κ → Prop
  | start : Hears settings id c₀ [] c₀
  | tick {heard : List (Answer κ)} {c c' : Scene κ} (h : Hears settings id c₀ heard c)
      (next : Tick .mixed settings c c') (hlen : c.asking.length ≤ c'.asking.length) :
      Hears settings id c₀ heard c'
  | answer {heard : List (Answer κ)} {c : Scene κ} {before after : List (Nat × System κ)} {n : Nat}
      {s : System κ} (h : Hears settings id c₀ heard c) (poll : Poll κ)
      (waiting : c.asking = before ++ (n, s) :: after) :
      Hears settings id c₀ (heard ++ c.told id n poll) (c.answer settings n s poll (before ++ after))

variable {c₀ : Scene κ}

theorem submitted_tick (h : Tick .mixed settings c c') : c.submitted ⊆ c'.submitted := by
  cases h with
  | submit => exact List.subset_cons_self _ _
  | strike | chore | pause | resume | shutdown | employ | elapse | flag | markLost | turn | ask | answer =>
    exact List.Subset.refl _

namespace Hears

theorem ticks (h : Hears settings id c₀ heard c) : Ticks .mixed settings c₀ c := by
  induction h with
  | start => exact .refl
  | tick h next hlen ih => exact ih.tail next
  | answer h poll waiting ih => exact ih.tail (.answer poll waiting)

/-- Every run is one. -/
theorem of_ticks (id : TaskId) (h : Ticks .mixed settings c₀ c) :
    ∃ heard, Hears settings id c₀ heard c := by
  induction h with
  | refl => exact ⟨[], .start⟩
  | @tail c c' _ next ih =>
    obtain ⟨heard, hears⟩ := ih
    by_cases hlen : c.asking.length ≤ c'.asking.length
    · exact ⟨heard, hears.tick next hlen⟩
    · cases next with
      | answer poll waiting => exact ⟨_, hears.answer poll waiting⟩
      | ask => exact absurd (Nat.le_succ _) hlen
      | submit | strike | chore | pause | resume | shutdown | employ | elapse | flag | markLost | turn =>
        exact absurd (Nat.le_refl _) hlen

theorem submitted (h : Hears settings id c₀ heard c) : c₀.submitted ⊆ c.submitted := by
  induction h with
  | start => exact List.Subset.refl _
  | tick h next hlen ih => exact List.Subset.trans ih (submitted_tick next)
  | answer h poll waiting ih => exact ih

theorem sound (h : Hears settings id c₀ heard c) (hs : Sound settings c₀) : Sound settings c :=
  hs.ticks h.ticks

end Hears

namespace Account

/-- The account stays right in any run in which the task is not submitted. -/
theorem hears (h : Account settings payload id [] c₀) (hs : Sound settings c₀)
    (hears : Hears settings id c₀ heard c) (hid : id ∈ c₀.submitted ∨ id ∉ c.submitted) :
    Account settings payload id heard c := by
  induction hears with
  | start => exact h
  | tick hh next hlen ih =>
    have hsub := submitted_tick next
    have hnow := hh.submitted
    refine (ih (hid.imp_right fun hn hm => hn (hsub hm))).tick (hh.sound hs) next hlen ?_
    exact hid.imp_left fun hm => hnow hm
  | answer hh poll waiting ih => exact (ih hid).hear (hh.sound hs) poll waiting

theorem start (settings : Settings κ) (payload : Json) (id : TaskId) (limit : Nat)
    (maxPending : Option Nat) (orders : List Order) :
    Account settings payload id [] (.start limit maxPending orders) where
  record _ ht := nomatch ht
  idle _ := rfl
  worker _ _ hw := nomatch hw

end Account

/-- Nothing is called for before it has been submitted. -/
theorem calls_of_not_submitted {limit : Nat} {maxPending : Option Nat} {orders : List Order}
    (h : Ticks .mixed settings (.start limit maxPending orders) c) (hid : id ∉ c.submitted) :
    c.calls id = [] := by
  obtain ⟨heard, hears⟩ := Hears.of_ticks id h
  have hs : Sound settings (.start limit maxPending orders) := .start settings limit maxPending orders
  have haccount := (Account.start settings .null id limit maxPending orders).hears hs hears
    (Or.inr hid)
  refine haccount.idle fun w hw he => hid ?_
  rw [← he]
  exact (hs.ticks h).submitted_of_mem hw

omit [Cost κ] in
theorem calls_submit (hs : Sound settings c) (new : id ∉ c.submitted) (payload : Json) :
    (c.submit id payload).calls id = c.calls id := by
  have hregister : (c.system.register .silent id payload).reached = c.system.reached :=
    (Private.register payload (hs.fresh id new)).reached
  have hreached : (c.system.submit .silent id payload).2.reached = c.system.reached := by
    rcases submit_cases id payload c.system with ⟨step, cause, he⟩ | ⟨-, he⟩
    · rw [he, reached_finish, reached_record, hregister]
    · rw [he]
      exact hregister
  exact congrArg _ hreached

/-- A task that has just been submitted has had no call, and its record has the payload. -/
theorem Account.submit (hs : Sound settings c) (new : id ∉ c.submitted) (hnil : c.calls id = [])
    (payload : Json) : Account settings payload id [] (c.submit id payload) := by
  have hu := hs.fresh id new
  have hworkers : (c.submit id payload).system.workers = c.system.workers :=
    (submit_frame id payload c.system).2.2
  have hregister : ∀ task, (c.system.register .silent id payload).tasks.get? id = some task →
      Vouched payload [] task := by
    intro task ht
    have htasks : (c.system.register .silent id payload).tasks
        = c.system.tasks.move id (.new id payload c.system.now) := by
      rw [register_eq payload (contains_of_unknown hu)]
      exact tasks_record id _ _
    rw [htasks, Table.get?_move] at ht
    obtain rfl := Option.some.inj ht
    exact ⟨rfl, fun _ => rfl, fun hd => nomatch hd⟩
  have hrecord : Recorded id False (c.system.register .silent id payload)
      (c.submit id payload).system := by
    show Recorded id False _ (c.system.submit .silent id payload).2
    rcases submit_cases id payload c.system with ⟨step, cause, he⟩ | ⟨-, he⟩
    · rw [he]
      exact Recorded.trans (.of_tasks (tasks_record id step _)) (.finish (fun hc => by cases hc) _)
    · rw [he]
      exact .of_tasks rfl
  have hcalls : (c.submit id payload).calls id = [] := (calls_submit hs new payload).trans hnil
  refine ⟨fun task ht => ?_, fun _ => hcalls, fun n w hw hid => absurd ?_ new⟩
  · rw [hcalls]
    exact .follow hregister hrecord False.elim ht
  · rw [hworkers] at hw
    rw [← hid]
    exact hs.submitted_of_mem (List.mem_of_getElem? hw)

/-! ## The law -/

/-- Whether a call of an operator stops a task that has not been begun. -/
def Intervention.Stops (s : System κ) (id : TaskId) : Intervention → Prop
  | .abort j => j = id ∧ (s.queue.abort id).1 ≠ .notQueued
  | .purge => id ∈ s.queue.pending
  | .emergencyStop => True

/-- The calls for a task are those that its payload gives a right to. -/
structure Rightful (settings : Settings κ) (payload : Json) (id : TaskId)
    (heard : List (Answer κ)) (c : Scene κ) : Prop where
  unrouted : ∀ e, plan payload settings.routes = .error e → c.calls id = []
  direct : ∀ intent capability, resolveIntent payload = .ok intent →
    settings.routes.route? intent = some (.direct capability) →
    (c.calls id = [] ∨ c.calls id = [(id, ⟨capability, payloadParams payload⟩)]) ∧
    ∀ task, c.system.tasks.get? id = some task → task.state = .completed →
      c.calls id = [(id, ⟨capability, payloadParams payload⟩)]
  /-- The calls of one session on the target of the payload, which goes by the answers that the task has got. -/
  healing : ∀ intent target, resolveIntent payload = .ok intent →
    settings.routes.route? intent = some .healing → payloadTarget payload = some target →
    ∃ endings, (∀ output, .answered (.ok output) ∈ endings → .ok output ∈ heard) ∧
      c.calls id = (Healing.journal settings.healing settings.estimator (payloadParams payload)
        .known target endings).map
          fun x => (id, x.invocation settings.healing (payloadParams payload))
  stopped : ∀ task call, c.system.tasks.get? id = some task → task.state = .pending →
    call.Stops c.system id → ∀ c', Ticks .mixed settings (c.strike call) c' → c'.calls id = []

omit [Cost κ] in
theorem Sound.halted_of_stops (hs : Sound settings c) (hid : id ∈ c.submitted)
    {call : Intervention} (h : call.Stops c.system id) : Halted (c.strike call) id := by
  cases call with
  | abort j =>
    obtain ⟨rfl, hne⟩ := h
    exact hs.halted_aborted hne
  | purge => exact hs.halted_purged h
  | emergencyStop => exact hs.halted_stopped hid

theorem Account.rightful (h : Account settings payload id heard c) (hs : Sound settings c)
    (hid : id ∈ c.submitted) : Rightful settings payload id heard c where
  unrouted e hplan := by
    have hsettled := h.settled
    unfold Settled at hsettled
    rw [hplan] at hsettled
    rw [c.calls_eq, hsettled]
    rfl
  direct intent capability hintent hroute := by
    have hsettled := h.settled
    have hplan : plan payload settings.routes
        = .ok ⟨intent, .direct capability, payloadParams payload, payloadTarget payload⟩ := by
      simp [plan, hintent, hroute]
    unfold Settled at hsettled
    rw [hplan] at hsettled
    have hcalls : c.calls id = [] ∨ c.calls id = [(id, ⟨capability, payloadParams payload⟩)] := by
      rw [c.calls_eq]
      rcases hsettled with hnone | hone
      · exact Or.inl (by rw [hnone]; rfl)
      · exact Or.inr (by rw [hone]; rfl)
    exact ⟨hcalls, fun task ht hd => hcalls.resolve_left ((h.record task ht).completed hd)⟩
  healing intent target hintent hroute htarget := by
    have hsettled := h.settled
    have hplan : plan payload settings.routes
        = .ok ⟨intent, .healing, payloadParams payload, some target⟩ := by
      simp [plan, hintent, hroute, htarget]
    unfold Settled at hsettled
    rw [hplan] at hsettled
    obtain ⟨session, point, log, hstands, hheard, hcalls⟩ := hsettled
    refine ⟨log.map (·.ending), fun output ho => ?_, ?_⟩
    · obtain ⟨x, hx, hending⟩ := List.mem_map.mp ho
      exact hheard x hx output hending
    · have hjournal := Healing.journal_of_stands (payloadParams payload) hstands
      change Healing.journal _ _ _ _ target _ = _ at hjournal
      rw [hjournal, c.calls_eq, hcalls, List.map_map]
      rfl
  stopped task call ht hp hstops c' hticks := by
    have hnil : (c.strike call).calls id = c.calls id := by
      have hreached : (c.strike call).system.reached = c.system.reached := by
        show (c.system.strike call).2.reached = _
        rw [strike_eq]
        rfl
      exact congrArg _ hreached
    rw [(hs.halted_of_stops hid hstops).silent (hs.strike call) c' hticks, hnil]
    exact (h.record task ht).pending hp

/-- The payload of the run that serves as an example. -/
def gitAdd : Json :=
  .object [("intent", .string "git"), ("params", .object [("path", .string "a")])]

/-- At any moment of any run, for any number of tasks, payloads and routes, and whatever the executor says. -/
theorem calls_rightful {limit : Nat} {maxPending : Option Nat} {orders : List Order}
    (hrun : Ticks .mixed settings (.start limit maxPending orders) c) :
    (∀ id, id ∉ c.submitted → c.calls id = []) ∧
    ∀ id payload, id ∉ c.submitted →
      (∀ e, (c.system.submit .silent id payload).1 = .error e →
        ∀ c', Ticks .mixed settings (c.submit id payload) c' → c'.calls id = []) ∧
      (∀ c', Ticks .mixed settings (c.submit id payload) c' →
        ∃ heard, Hears settings id (c.submit id payload) heard c') ∧
      ∀ heard c', Hears settings id (c.submit id payload) heard c' →
        Rightful settings payload id heard c' := by
  have hs : Sound settings c := (Sound.start settings limit maxPending orders).ticks hrun
  refine ⟨fun id hid => calls_of_not_submitted hrun hid, fun id payload new => ?_⟩
  have hnil := calls_of_not_submitted hrun new
  have haccount := Account.submit hs new hnil payload
  have hsubmit := hs.submit payload new
  have hid : id ∈ (c.submit id payload).submitted := List.mem_cons_self
  refine ⟨fun e he c' hticks => ?_, fun c' hticks => Hears.of_ticks id hticks,
    fun heard c' hears => ?_⟩
  · rw [(hs.halted_rejected new ⟨e, he⟩).silent hsubmit c' hticks]
    exact (calls_submit hs new payload).trans hnil
  · exact (haccount.hears hsubmit hears (Or.inl hid)).rightful (hears.sound hsubmit)
      (hears.submitted hid)

/-- A task that waits, is taken up, asks the executor and is completed by its answer. -/
theorem calls_rightful_of_completed :
    ∃ c : Scene Float,
      Hears usual (.ofNat 7) ((Scene.start 1 none []).submit (.ofNat 7) gitAdd)
        [.ok (.success .null)] c ∧
      c.calls (.ofNat 7) = [(.ofNat 7, ⟨"git", .object [("path", .string "a")]⟩)] := by
  obtain ⟨-, hsubmitted⟩ := calls_rightful (.refl : Ticks .mixed usual (.start 1 none []) _)
  obtain ⟨-, -, hrightful⟩ := hsubmitted (.ofNat 7) gitAdd (by decide)
  have hrun : ∃ c : Scene Float,
      Hears usual (.ofNat 7) ((Scene.start 1 none []).submit (.ofNat 7) gitAdd)
        [.ok (.success .null)] c ∧
      ∃ task, c.system.tasks.get? (.ofNat 7) = some task ∧ task.state = .completed := by
    have hpending : Hears usual (.ofNat 7) ((Scene.start 1 none []).submit (.ofNat 7) gitAdd) [] _ :=
      .start
    have hadmitted := hpending.tick (.employ rfl) (Nat.le_refl _)
    have hbegun := hadmitted.tick (.turn 0 (fun s => (.pending, s)) (by decide) rfl) (Nat.le_refl _)
    have hcalling := hbegun.tick (.turn 0 (fun s => (.pending, s)) (by decide) rfl) (Nat.le_refl _)
    have hasking := hcalling.tick (.ask 0 (by decide) rfl) (Nat.le_succ _)
    exact ⟨_, hasking.answer (.ready (.ok (.success .null))) (List.nil_append _).symm, _, rfl, rfl⟩
  obtain ⟨c, hears, task, ht, hd⟩ := hrun
  exact ⟨c, hears, ((hrightful _ c hears).direct .git "git" rfl rfl).2 task ht hd⟩

end System
end Overseer
