import Overseer.Proofs.System.Run
import Mathlib.Data.List.Perm.Subperm

/-! # No task is lost, doubled or left without a slot

Where each sweep is one step, no task is ever `stalled`, and what is left of the standings says where each task
is to be found: `Accounted` is that table, and `accounted` is that it holds after every run. Its last two
entries follow from the others: each task that is being worked on holds a slot of its own, and a task whose
worker has not begun can be started.
-/

namespace Overseer.System

open Standing

variable {κ : Type}

/-- Every task that has been submitted is accounted for. -/
structure Accounted (limit : Nat) (c : Chronicle κ) : Prop where
  recorded : ∀ id ∈ c.submitted,
    c.system.tasks.keys.count id = 1 ∧ c.system.tracer.keys.count id = 1 ∧
      ∃ task trace, c.system.tasks.get? id = some task ∧ c.system.tracer.get? id = some trace ∧
        task.state = trace.state
  pending : ∀ id task, c.system.tasks.get? id = some task → task.state = .pending →
    (c.system.queue.pending.count id = 1 ∧ c.system.queue.active.contains id = false) ∨
    (id ∉ c.system.queue.pending ∧ c.system.queue.active.contains id = true ∧
      ∃ w ∈ c.system.workers, w.admission.id = id ∧ w.phase = .admitted)
  processing : ∀ id task, c.system.tasks.get? id = some task → task.state = .processing →
    id ∉ c.system.queue.pending ∧ c.system.queue.active.contains id = true
  ended : ∀ id task, c.system.tasks.get? id = some task → task.state.isTerminal = true →
    id ∉ c.system.queue.pending ∧ c.system.queue.active.contains id = false
  /-- What has not been submitted is nowhere. -/
  others : ∀ id, id ∉ c.submitted →
    c.system.tasks.contains id = false ∧ c.system.tracer.contains id = false ∧
      id ∉ c.system.queue.pending ∧ c.system.queue.active.contains id = false
  running : (c.system.tasks.list.countP fun task => task.state = .processing) ≤ max limit 1
  startable : ∀ w ∈ c.system.workers, w.phase = .admitted → ∀ now,
    ∃ tasks, c.system.tasks.transition w.admission.id .processing now = .ok tasks

variable {s : System κ} {id : TaskId} {c : Chronicle κ} {limit : Nat}

/-! ## What a view tells -/

theorem view_task {task : Task} (h : s.tasks.get? id = some task) :
    (s.view id).task = some task.state := by
  simp [view, h]

theorem notMem_pending (h : (s.view id).queued = 0) : id ∉ s.queue.pending :=
  List.count_eq_zero.mp h

theorem exists_due (h : (s.view id).crew = [.due]) :
    ∃ w ∈ s.workers, w.admission.id = id ∧ w.phase = .admitted := by
  have hmem : Activity.due ∈ (s.view id).crew := by
    rw [h]
    exact List.mem_singleton_self _
  obtain ⟨w, hw, hdue⟩ := List.mem_map.mp hmem
  obtain ⟨hw, hid⟩ := List.mem_filter.mp hw
  refine ⟨w, hw, by simpa using hid, ?_⟩
  cases hphase : w.phase with
  | admitted => rfl
  | between | entering | calling | ended =>
    rw [hphase] at hdue
    cases hdue

/-! ## Slots -/

/-- As many tasks are worked on as there are slots taken, or fewer. -/
theorem countP_processing_le (h : s.Stands)
    (hslot : ∀ id task, s.tasks.get? id = some task → task.state = .processing →
      s.queue.active.contains id = true) :
    (s.tasks.list.countP fun task => task.state = .processing) ≤ s.queue.active.length := by
  have hnodup : ((s.tasks.filter fun entry => entry.2.state = .processing).map (·.1)).Nodup :=
    h.nodup_tasks.sublist (List.filter_sublist.map _)
  have hsubset : (s.tasks.filter fun entry => entry.2.state = .processing).map (·.1)
      ⊆ s.queue.active.keys := by
    intro id hid
    obtain ⟨⟨k, task⟩, hentry, rfl⟩ := List.mem_map.mp hid
    obtain ⟨hmem, hstate⟩ := List.mem_filter.mp hentry
    rw [Table.mem_keys_iff]
    exact hslot k task (Table.get?_of_mem h.nodup_tasks hmem) (by simpa using hstate)
  have hle := (hnodup.subperm hsubset).length_le
  rw [s.tasks.list_perm.countP_eq, Table.values, List.countP_map, List.countP_eq_length_filter]
  simpa [Table.keys, Function.comp_def] using hle

/-! ## Where the tasks are -/

namespace Kept

/-- Without a split sweep there are six ways for a task to stand. -/
theorem cases_of_whole (h : Kept .whole limit c) (id : TaskId) :
    ∃ st : Standing, c.system.view id = st.view id ∧ (id ∈ c.submitted ↔ st ≠ .unknown) ∧
      ∀ w, st ≠ .stalled w := by
  obtain ⟨st, hst, hsub, -, hne⟩ := h.standing id
  exact ⟨st, hst, hsub, hne rfl⟩

theorem recorded (h : Kept .whole limit c) (hid : id ∈ c.submitted) :
    c.system.tasks.keys.count id = 1 ∧ c.system.tracer.keys.count id = 1 ∧
      ∃ task trace, c.system.tasks.get? id = some task ∧ c.system.tracer.get? id = some trace ∧
        task.state = trace.state := by
  obtain ⟨st, hst, hsub, hne⟩ := h.cases_of_whole id
  have hknown := hsub.mp hid
  have hboth : ∃ state, (st.view id).task = some state ∧ (st.view id).trace = some state ∧
      (st.view id).tasks = 1 ∧ (st.view id).traces = 1 := by
    cases st with
    | unknown => exact absurd rfl hknown
    | stalled w => exact absurd rfl (hne w)
    | queued | admitted | running | discarded | settled => exact ⟨_, rfl, rfl, rfl, rfl⟩
  obtain ⟨state, ht, hr, hts, hrs⟩ := hboth
  rw [← hst] at ht hr hts hrs
  obtain ⟨task, htask, rfl⟩ := exists_task ht
  obtain ⟨trace, htrace, heq⟩ := exists_trace hr
  exact ⟨hts, hrs, task, trace, htask, htrace, heq.symm⟩

theorem pending (h : Kept .whole limit c) {task : Task}
    (ht : c.system.tasks.get? id = some task) (hstate : task.state = .pending) :
    (c.system.queue.pending.count id = 1 ∧ c.system.queue.active.contains id = false) ∨
    (id ∉ c.system.queue.pending ∧ c.system.queue.active.contains id = true ∧
      ∃ w ∈ c.system.workers, w.admission.id = id ∧ w.phase = .admitted) := by
  obtain ⟨st, hst, -, hne⟩ := h.cases_of_whole id
  have hpending : (st.view id).task = some .pending := by
    rw [← hst, view_task ht, hstate]
  cases st with
  | queued => exact Or.inl ⟨congrArg View.queued hst, congrArg View.active hst⟩
  | admitted =>
    exact Or.inr ⟨notMem_pending (congrArg View.queued hst), congrArg View.active hst,
      exists_due (congrArg View.crew hst)⟩
  | settled state ended =>
    obtain rfl := Option.some.inj hpending
    cases ended
  | unknown | running | discarded | stalled => cases hpending

theorem processing (h : Kept .whole limit c) {task : Task}
    (ht : c.system.tasks.get? id = some task) (hstate : task.state = .processing) :
    id ∉ c.system.queue.pending ∧ c.system.queue.active.contains id = true := by
  obtain ⟨st, hst, -, hne⟩ := h.cases_of_whole id
  have hprocessing : (st.view id).task = some .processing := by
    rw [← hst, view_task ht, hstate]
  cases st with
  | running => exact ⟨notMem_pending (congrArg View.queued hst), congrArg View.active hst⟩
  | stalled w => exact absurd rfl (hne w)
  | settled state ended =>
    obtain rfl := Option.some.inj hprocessing
    cases ended
  | unknown | queued | admitted | discarded => cases hprocessing

theorem ended (h : Kept .whole limit c) {task : Task}
    (ht : c.system.tasks.get? id = some task) (hstate : task.state.isTerminal = true) :
    id ∉ c.system.queue.pending ∧ c.system.queue.active.contains id = false := by
  obtain ⟨st, hst, -, hne⟩ := h.cases_of_whole id
  have htask : (st.view id).task = some task.state := by
    rw [← hst, view_task ht]
  cases st with
  | discarded | settled =>
    exact ⟨notMem_pending (congrArg View.queued hst), congrArg View.active hst⟩
  | unknown => cases htask
  | queued | admitted | running | stalled =>
    rw [← Option.some.inj htask] at hstate
    cases hstate

theorem others (h : Kept .whole limit c) (hid : id ∉ c.submitted) :
    c.system.tasks.contains id = false ∧ c.system.tracer.contains id = false ∧
      id ∉ c.system.queue.pending ∧ c.system.queue.active.contains id = false := by
  have hst := h.view_of_new hid
  have htask : (c.system.tasks.get? id).map (·.state) = none := congrArg View.task hst
  refine ⟨?_, contains_of_unknown hst, notMem_pending (congrArg View.queued hst),
    congrArg View.active hst⟩
  rw [Table.contains_eq, Option.map_eq_none_iff.mp htask]
  rfl

theorem running (h : Kept .whole limit c) :
    (c.system.tasks.list.countP fun task => task.state = .processing) ≤ limit :=
  Nat.le_trans
    (countP_processing_le h.stands fun _ _ ht hstate => (h.processing ht hstate).2) h.slots

theorem startable (h : Kept .whole limit c) {w : Worker κ} (hw : w ∈ c.system.workers)
    (hphase : w.phase = .admitted) (now : Time) :
    ∃ tasks, c.system.tasks.transition w.admission.id .processing now = .ok tasks := by
  obtain ⟨n, hn⟩ := List.mem_iff_getElem?.mp hw
  obtain ⟨st, hst, -⟩ := h.standing w.admission.id
  obtain rfl := eq_admitted hst hn (by rw [hphase]; rfl)
  obtain ⟨_, _, -, -, -, hok⟩ := transition_of_pending (congrArg View.task hst) now
  exact ⟨_, hok⟩

end Kept

variable [Cost κ] {settings : Settings κ} {maxPending : Option Nat} {orders : List Order}

/-- After any run, with any limit, each task that has been submitted is where it belongs. -/
theorem accounted (h : Moves .whole settings (.start limit maxPending orders) c) :
    Accounted limit c := by
  have hkept : Kept .whole (max limit 1) c := ((Kept.start .whole limit maxPending orders).moves h).1
  exact
    { recorded := fun _ hid => hkept.recorded hid
      pending := fun _ _ ht hstate => hkept.pending ht hstate
      processing := fun _ _ ht hstate => hkept.processing ht hstate
      ended := fun _ _ ht hstate => hkept.ended ht hstate
      others := fun _ hid => hkept.others hid
      running := hkept.running
      startable := fun _ hw hphase now => hkept.startable hw hphase now }

/-- A task that is submitted, admitted and begun, with a payload that leads nowhere. -/
theorem accounted_of_one_task :
    ∃ c : Chronicle Float, c.submitted = [.ofNat 7] ∧
      (c.system.view (.ofNat 7)).task = some .failed ∧ Accounted 1 c := by
  let settings : Settings Float := ⟨.ofSecs 300, .standard, .standard, .fixed 0 none⟩
  have hrun : ∃ c : Chronicle Float, Moves .whole settings (.start 1 none []) c ∧
      c.submitted = [.ofNat 7] ∧ (c.system.view (.ofNat 7)).task = some .failed :=
    ⟨_, ((Relation.ReflTransGen.refl.tail (.act (.submit (.ofNat 7) .null (by decide)))).tail
      (.act (.employ rfl))).tail (.turn 0 (fun s => (.pending, s)) (.unasked rfl)), rfl, rfl⟩
  obtain ⟨c, hmoves, hsubmitted, htask⟩ := hrun
  exact ⟨c, hsubmitted, htask, accounted hmoves⟩

end Overseer.System
