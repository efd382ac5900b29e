import Overseer.Trace.Tracer
import Overseer.Proofs.Lists
import Overseer.Proofs.Table
import Mathlib.Data.List.Induction

/-! # What a sequence of calls leaves of a trace

The calls come in any order and for any ids. What one of them does to one trace is one of six things (`Effect`), and
from these everything is read off that a trace keeps: its steps, its time of creation, and its end state once it has
one; and that only a call for its own id, or a sweep, does anything to it. Who ends a trace is told by two lists that are kept apart: the calls that are after an end state (`Call.aim?`), and
those that are told that they have reached it (`Call.grants`). A trace is over exactly when a call has been after its end
(`ended_after_iff`), so the first of the former is the only one of the latter.
-/

namespace Overseer

theorem Trace.isStalled_iff {trace : Trace} {timeout : Duration} {now : Time} :
    trace.isStalled timeout now = true ↔
      trace.state = .processing ∧ trace.lastActivity + timeout.nanos < now := by
  simp only [Trace.isStalled, Duration.exceeds, elapsed, Bool.and_eq_true, decide_eq_true_eq]
  exact and_congr_right fun _ => decide_eq_true_iff.trans Nat.lt_sub_iff_add_lt'

namespace Tracer

/-- A call with the time at which it is made. A sweep is made against that time. -/
inductive Call
  | create (id : TaskId) (now : Time)
  | record (id : TaskId) (step : Step) (now : Time)
  | markProcessing (id : TaskId) (now : Time)
  | markTerminal (id : TaskId) (state : TaskState)
  | sweep (timeout : Duration) (now : Time)
  deriving DecidableEq

namespace Call

/-- The id that a call is for. A sweep is for no id. -/
def id? : Call → Option TaskId
  | create id _ => some id
  | record id _ _ => some id
  | markProcessing id _ => some id
  | markTerminal id _ => some id
  | sweep _ _ => none

def run (t : Tracer) : Call → Tracer
  | create id now => t.create id now
  | record id step now => (t.record id step now).1
  | markProcessing id now => (t.markProcessing id now).2
  | markTerminal id state => (t.markTerminal id state).2
  | sweep timeout now => (t.sweep timeout now).2.2

/-- The end state in which a call is to leave a trace: the one that it asks for, or that of a task that is lost when the
trace of one under way has been silent for longer than the timeout. -/
def aim? (t : Tracer) (id : TaskId) : Call → Option TaskState
  | markTerminal other state => if other = id ∧ state.isTerminal = true ∧ t.contains id = true then some state else none
  | sweep timeout now =>
      if ∃ trace ∈ t.get? id, trace.state = .processing ∧ trace.lastActivity + timeout.nanos < now then some .lost
      else none
  | _ => none

/-- Whether a call reports that it has ended the trace. -/
def grants (t : Tracer) (id : TaskId) : Call → Bool
  | markTerminal other state => decide (other = id) && (t.markTerminal other state).1
  | sweep timeout now => decide (id ∈ (t.sweep timeout now).1)
  | _ => false

end Call

/-- The traces after some calls, of which there are none at first. -/
def after (calls : List Call) : Tracer := calls.foldl Call.run empty

/-- No call has been after the end of the trace. -/
def Untried (id : TaskId) (calls : List Call) : Prop :=
  ∀ earlier call later, calls = earlier ++ call :: later → call.aim? (after earlier) id = none

/-- What one more call does. -/
structure Lawful (earlier : List Call) (call : Call) : Prop where
  kept : ∀ id, ∀ trace ∈ (after earlier).get? id, ∃ later ∈ (after (earlier ++ [call])).get? id,
    trace.steps <+: later.steps ∧ later.createdAt = trace.createdAt
  others : ∀ id, ∀ other ∈ call.id?, id ≠ other → (after (earlier ++ [call])).get? id = (after earlier).get? id
  recorded : ∀ id step now, call = .record id step now → ∀ trace ∈ (after earlier).get? id,
    ∃ later ∈ (after (earlier ++ [call])).get? id,
      later.steps = trace.steps ++ [⟨step, now⟩] ∧ later.state = trace.state
  unknown : ∀ id ∈ call.id?, (after earlier).get? id = none → (∀ now, call ≠ .create id now) →
    after (earlier ++ [call]) = after earlier
  created : ∀ id now, call = .create id now → (after earlier).get? id = none →
    ∃ trace ∈ (after (earlier ++ [call])).get? id,
      trace.id = id ∧ trace.state = .pending ∧ trace.steps = [] ∧ trace.createdAt = now
  known : ∀ id now, call = .create id now → (after earlier).contains id = true →
    after (earlier ++ [call]) = after earlier
  started : ∀ id, (after earlier).state? id = some .pending →
    ((after (earlier ++ [call])).state? id = some .processing ↔
      ∃ now, call = .markProcessing id now ∧ ((after earlier).markProcessing id now).1 = true)
  winner : ∀ id, call.grants (after earlier) id = true ↔
    (call.aim? (after earlier) id).isSome = true ∧ Untried id earlier
  fixed : ∀ id, Untried id earlier → ∀ state ∈ call.aim? (after earlier) id, ∀ later,
    (after (earlier ++ call :: later)).state? id = some state

variable {t : Tracer} {id : TaskId} {call : Call} {o o' : Option Trace}

/-! ## What a call does to one trace -/

inductive Effect (id : TaskId) (call : Call) : Option Trace → Option Trace → Prop
  | none (o : Option Trace) : Effect id call o o
  | created {now : Time} (h : call = .create id now) : Effect id call .none (some (.new id now))
  | recorded {step : Step} {now : Time} (h : call = .record id step now) (trace : Trace) :
      Effect id call (some trace) (some { trace.push step now with lastActivity := now })
  | started {now : Time} (h : call = .markProcessing id now) {trace : Trace} (hpending : trace.state = .pending) :
      Effect id call (some trace) (some { trace with state := .processing, lastActivity := now })
  | ended {state : TaskState} (h : call = .markTerminal id state) (hstate : state.isTerminal = true) {trace : Trace}
      (hopen : trace.isTerminal = false) : Effect id call (some trace) (some { trace with state := state })
  | flagged {timeout : Duration} {now : Time} (h : call = .sweep timeout now) {trace : Trace}
      (hstalled : trace.isStalled timeout now = true) :
      Effect id call (some trace) (some { trace.push (stalledStep timeout) now with state := .lost })

/-- Of a table with one entry set, only that entry is another. -/
theorem effect_set {other : TaskId} {trace : Trace} (h : other = id → Effect id call (t.get? id) (some trace)) :
    Effect id call (t.get? id) ((t.set other trace).get? id) := by
  by_cases hid : other = id
  · subst hid
    rw [Table.get?_set]
    exact h rfl
  · rw [Table.get?_set_of_ne (Ne.symm hid)]
    exact .none _

theorem effect_run (t : Tracer) (call : Call) (id : TaskId) : Effect id call (t.get? id) ((call.run t).get? id) := by
  cases call with
  | create other now =>
    rw [Call.run, create]
    split
    · exact .none _
    · rename_i hnew
      refine effect_set fun hid => ?_
      subst hid
      rw [Table.contains_eq, Bool.not_eq_true, Option.isSome_eq_false_iff, Option.isNone_iff_eq_none] at hnew
      rw [hnew]
      exact .created rfl
  | record other step now =>
    rw [Call.run, record]
    cases hget : t.get? other with
    | none => exact .none _
    | some trace =>
      refine effect_set fun hid => ?_
      subst hid
      rw [hget]
      exact .recorded rfl trace
  | markProcessing other now =>
    rw [Call.run, markProcessing]
    cases hget : t.get? other with
    | none => exact .none _
    | some trace =>
      by_cases hpending : trace.state = .pending
      · simp only [hpending, if_true]
        refine effect_set fun hid => ?_
        subst hid
        rw [hget]
        exact .started rfl hpending
      · simp only [hpending, if_false]
        exact .none _
  | markTerminal other state =>
    rw [Call.run, markTerminal]
    cases hstate : state.isTerminal with
    | false => exact .none _
    | true =>
      cases hget : t.get? other with
      | none => exact .none _
      | some trace =>
        cases hopen : trace.isTerminal with
        | true =>
          simp only [hopen]
          exact .none _
        | false =>
          simp only [hopen]
          refine effect_set fun hid => ?_
          subst hid
          rw [hget]
          exact .ended rfl hstate hopen
  | sweep timeout now =>
    have hrun : (Call.run t (.sweep timeout now)).get? id = (t.get? id).map (flag timeout now) :=
      Table.get?_map_values t _ id
    rw [hrun]
    cases hget : t.get? id with
    | none => exact .none _
    | some trace =>
      rw [Option.map_some, flag]
      split
      · rename_i hstalled
        exact .flagged rfl hstalled
      · exact .none _

/-- What a trace keeps. -/
theorem Effect.kept (h : Effect id call o o') : ∀ trace ∈ o, ∃ later ∈ o', trace.steps <+: later.steps ∧
    later.createdAt = trace.createdAt ∧ (trace.isTerminal = true → later.state = trace.state) := by
  rintro trace hmem
  cases h with
  | none => exact ⟨trace, hmem, List.prefix_refl _, rfl, fun _ => rfl⟩
  | created => cases hmem
  | recorded =>
    obtain rfl := Option.some.inj hmem
    exact ⟨_, rfl, List.prefix_append _ _, rfl, fun _ => rfl⟩
  | started _ hpending =>
    obtain rfl := Option.some.inj hmem
    refine ⟨_, rfl, List.prefix_refl _, rfl, fun hover => ?_⟩
    rw [Trace.isTerminal, hpending] at hover
    cases hover
  | ended _ _ hopen =>
    obtain rfl := Option.some.inj hmem
    refine ⟨_, rfl, List.prefix_refl _, rfl, fun hover => ?_⟩
    rw [hopen] at hover
    cases hover
  | flagged _ hstalled =>
    obtain rfl := Option.some.inj hmem
    refine ⟨_, rfl, List.prefix_append _ _, rfl, fun hover => ?_⟩
    rw [Trace.isTerminal, (Trace.isStalled_iff.mp hstalled).1] at hover
    cases hover

/-- A call for another id leaves the trace alone. -/
theorem Effect.of_other {other : TaskId} (h : Effect id call o o') (hcall : call.id? = some other)
    (hne : id ≠ other) : o' = o := by
  cases h with
  | none => rfl
  | created h | recorded h | started h | ended h =>
    rw [h] at hcall
    exact absurd (Option.some.inj hcall) hne
  | flagged h =>
    rw [h] at hcall
    cases hcall

/-- Nobody else starts a task. -/
theorem Effect.of_started (h : Effect id call o o') (hpending : o.map (·.state) = some .pending)
    (hprocessing : o'.map (·.state) = some .processing) : ∃ now, call = .markProcessing id now := by
  cases h with
  | none => exact absurd (hpending.symm.trans hprocessing) (by decide)
  | created => cases hpending
  | recorded => exact absurd (hpending.symm.trans hprocessing) (by decide)
  | started h => exact ⟨_, h⟩
  | @ended state _ hstate =>
    obtain rfl : state = .processing := Option.some.inj hprocessing
    cases hstate
  | flagged => cases hprocessing

theorem markProcessing_eq_true_iff {now : Time} :
    (t.markProcessing id now).1 = true ↔ t.state? id = some .pending := by
  rw [markProcessing, state?]
  cases t.get? id with
  | none => exact ⟨fun h => (nomatch h), fun h => (nomatch h)⟩
  | some trace =>
    by_cases hpending : trace.state = .pending
    · simp [hpending]
    · simp [hpending]

theorem state?_markProcessing {now : Time} (h : t.state? id = some .pending) :
    (Call.run t (.markProcessing id now)).state? id = some .processing := by
  obtain ⟨trace, hget, hpending⟩ := Option.map_eq_some_iff.mp h
  rw [Call.run, markProcessing, hget]
  simp only [hpending, if_true, state?, Table.get?_set, Option.map_some]

/-! ## Ids and keys -/

theorem Effect.label (h : Effect id call o o') (hlabel : ∀ trace ∈ o, trace.id = id) : ∀ later ∈ o', later.id = id := by
  rintro later hmem
  cases h with
  | none => exact hlabel later hmem
  | created => exact Option.some.inj hmem ▸ rfl
  | recorded _ trace => exact Option.some.inj hmem ▸ hlabel trace rfl
  | @started _ _ trace => exact Option.some.inj hmem ▸ hlabel trace rfl
  | @ended _ _ _ trace => exact Option.some.inj hmem ▸ hlabel trace rfl
  | @flagged _ _ _ trace => exact Option.some.inj hmem ▸ hlabel trace rfl

/-- No key occurs twice, and each trace bears the id under which it is kept. -/
structure Filed (t : Tracer) : Prop where
  nodup : t.keys.Nodup
  label : ∀ id, ∀ trace ∈ t.get? id, trace.id = id

theorem Filed.run (h : Filed t) (call : Call) : Filed (call.run t) where
  nodup := by
    cases call with
    | create id now =>
      rw [Call.run, create]
      split
      · exact h.nodup
      · exact Table.nodup_keys_set h.nodup _ _
    | record id step now =>
      rw [Call.run, record]
      split
      · exact h.nodup
      · exact Table.nodup_keys_set h.nodup _ _
    | markProcessing id now =>
      rw [Call.run, markProcessing]
      split
      · exact h.nodup
      · split
        · exact Table.nodup_keys_set h.nodup _ _
        · exact h.nodup
    | markTerminal id state =>
      rw [Call.run, markTerminal]
      split
      · exact h.nodup
      · split
        · exact h.nodup
        · split
          · exact h.nodup
          · exact Table.nodup_keys_set h.nodup _ _
    | sweep timeout now =>
      show (Table.keys (t.map fun entry => (entry.1, flag timeout now entry.2))).Nodup
      rw [Table.keys_map_values]
      exact h.nodup
  label id trace hmem := (effect_run t call id).label (h.label id) trace hmem

theorem mem_sweep_iff (h : Filed t) {timeout : Duration} {now : Time} :
    id ∈ (t.sweep timeout now).1 ↔ ∃ trace ∈ t.get? id, trace.isStalled timeout now = true := by
  constructor
  · intro hmem
    obtain ⟨trace, hfilter, rfl⟩ := List.mem_map.mp hmem
    obtain ⟨hvalue, hstalled⟩ := List.mem_filter.mp hfilter
    obtain ⟨⟨key, trace⟩, hentry, rfl⟩ := List.mem_map.mp hvalue
    have hget := Table.get?_of_mem h.nodup hentry
    have hlabel : trace.id = key := h.label key trace hget
    exact ⟨trace, hlabel.symm ▸ hget, hstalled⟩
  · rintro ⟨trace, hget, hstalled⟩
    refine List.mem_map.mpr ⟨trace, List.mem_filter.mpr ⟨?_, hstalled⟩, h.label id trace hget⟩
    exact List.mem_map.mpr ⟨_, Table.mem_of_get? hget, rfl⟩

/-! ## Who ends a trace -/

def Ended (t : Tracer) (id : TaskId) : Prop := ∃ trace ∈ t.get? id, trace.isTerminal = true

theorem aim?_sweep_eq_some_iff {timeout : Duration} {now : Time} {state : TaskState} :
    (Call.sweep timeout now).aim? t id = some state ↔
      state = .lost ∧ ∃ trace ∈ t.get? id, trace.isStalled timeout now = true := by
  simp only [Call.aim?, Trace.isStalled_iff]
  split
  · rename_i h
    exact ⟨fun he => ⟨(Option.some.inj he).symm, h⟩, fun he => congrArg some he.1.symm⟩
  · rename_i h
    refine ⟨fun he => ?_, fun he => absurd he.2 h⟩
    cases he

theorem contains_iff : t.contains id = true ↔ ∃ trace, t.get? id = some trace := by
  rw [Table.contains_eq, Option.isSome_iff_exists]

theorem aim?_markTerminal_eq_some_iff {other : TaskId} {state wanted : TaskState} :
    (Call.markTerminal other wanted).aim? t id = some state ↔
      other = id ∧ wanted = state ∧ state.isTerminal = true ∧ ∃ trace, t.get? id = some trace := by
  rw [Call.aim?, ← contains_iff]
  split
  · rename_i h
    exact ⟨fun he => ⟨h.1, Option.some.inj he, Option.some.inj he ▸ h.2.1, h.2.2⟩, fun he => congrArg some he.2.1⟩
  · rename_i h
    refine ⟨fun he => ?_, fun he => absurd ⟨he.1, he.2.1 ▸ he.2.2.1, he.2.2.2⟩ h⟩
    cases he

theorem not_ended_iff {trace : Trace} (hget : t.get? id = some trace) : ¬ Ended t id ↔ trace.isTerminal = false := by
  rw [Ended, hget]
  simp

/-- A call that is after the end of a trace which has none yet reaches it. -/
theorem state?_run_of_aim {state : TaskState} (haim : call.aim? t id = some state) (hopen : ¬ Ended t id) :
    (call.run t).state? id = some state := by
  cases call with
  | create => cases haim
  | record => cases haim
  | markProcessing => cases haim
  | markTerminal other wanted =>
    obtain ⟨rfl, rfl, hstate, trace, hget⟩ := aim?_markTerminal_eq_some_iff.mp haim
    have hopen := (not_ended_iff hget).mp hopen
    simp only [Call.run, markTerminal, hstate, hget, hopen, state?, Bool.not_true, Bool.false_eq_true, if_false,
      Table.get?_set, Option.map_some]
  | sweep timeout now =>
    obtain ⟨rfl, trace, hget, hstalled⟩ := aim?_sweep_eq_some_iff.mp haim
    have hrun : (Call.run t (.sweep timeout now)).get? id = (t.get? id).map (flag timeout now) :=
      Table.get?_map_values t _ id
    rw [state?, hrun, Option.mem_def.mp hget, Option.map_some, flag, if_pos hstalled]
    rfl

theorem isTerminal_of_aim {state : TaskState} (haim : call.aim? t id = some state) : state.isTerminal = true := by
  cases call with
  | create => cases haim
  | record => cases haim
  | markProcessing => cases haim
  | markTerminal => exact (aim?_markTerminal_eq_some_iff.mp haim).2.2.1
  | sweep => exact (aim?_sweep_eq_some_iff.mp haim).1 ▸ rfl

theorem Ended.run (h : Ended t id) (call : Call) : (call.run t).state? id = t.state? id ∧ Ended (call.run t) id := by
  obtain ⟨trace, hget, hover⟩ := h
  obtain ⟨later, hlater, -, -, hstate⟩ := (effect_run t call id).kept trace hget
  refine ⟨?_, later, hlater, ?_⟩
  · rw [state?, state?, Option.mem_def.mp hget, Option.mem_def.mp hlater, Option.map_some, Option.map_some, hstate hover]
  · rw [Trace.isTerminal, hstate hover]
    exact hover

/-- A trace comes to its end by a call that is after it. -/
theorem ended_run_iff : Ended (call.run t) id ↔ Ended t id ∨ (call.aim? t id).isSome = true := by
  constructor
  · rintro ⟨later, hlater, hover⟩
    have heffect := effect_run t call id
    rw [Option.mem_def.mp hlater] at heffect
    generalize hget : t.get? id = o at heffect
    cases heffect with
    | none => exact Or.inl ⟨later, hget, hover⟩
    | created => cases hover
    | recorded _ trace => exact Or.inl ⟨trace, hget, hover⟩
    | started => cases hover
    | @ended state h hstate trace =>
      have haim := aim?_markTerminal_eq_some_iff.mpr ⟨rfl, rfl, hstate, trace, hget⟩
      rw [← h] at haim
      exact Or.inr (Option.isSome_of_eq_some haim)
    | @flagged timeout now h trace hstalled =>
      have haim := aim?_sweep_eq_some_iff.mpr ⟨rfl, trace, hget, hstalled⟩
      rw [← h] at haim
      exact Or.inr (Option.isSome_of_eq_some haim)
  · rintro (h | haim)
    · exact (h.run call).2
    · by_cases hopen : Ended t id
      · exact (hopen.run call).2
      · obtain ⟨state, haim⟩ := Option.isSome_iff_exists.mp haim
        obtain ⟨later, hlater, rfl⟩ := Option.map_eq_some_iff.mp (state?_run_of_aim haim hopen)
        exact ⟨later, hlater, isTerminal_of_aim haim⟩

/-- The call that is told of success is the one that finds the trace without an end. -/
theorem grants_iff (h : Filed t) : call.grants t id = true ↔ (call.aim? t id).isSome = true ∧ ¬ Ended t id := by
  cases call with
  | create => exact ⟨fun he => (nomatch he), fun he => (nomatch he.1)⟩
  | record => exact ⟨fun he => (nomatch he), fun he => (nomatch he.1)⟩
  | markProcessing => exact ⟨fun he => (nomatch he), fun he => (nomatch he.1)⟩
  | markTerminal other state =>
    rw [Call.grants, Bool.and_eq_true, decide_eq_true_iff, Option.isSome_iff_exists]
    simp only [aim?_markTerminal_eq_some_iff]
    constructor
    · rintro ⟨rfl, htold⟩
      rw [markTerminal] at htold
      cases hstate : state.isTerminal with
      | false => simp [hstate] at htold
      | true =>
        cases hget : t.get? other with
        | none => simp [hstate, hget] at htold
        | some trace =>
          cases hover : trace.isTerminal with
          | true => simp [hstate, hget, hover] at htold
          | false => exact ⟨⟨state, rfl, rfl, hstate, trace, rfl⟩, (not_ended_iff hget).mpr hover⟩
    · rintro ⟨⟨_, rfl, rfl, hstate, trace, hget⟩, hopen⟩
      refine ⟨rfl, ?_⟩
      simp [markTerminal, hstate, hget, (not_ended_iff hget).mp hopen]
  | sweep timeout now =>
    rw [Call.grants, decide_eq_true_iff, mem_sweep_iff h, Option.isSome_iff_exists]
    simp only [aim?_sweep_eq_some_iff]
    constructor
    · rintro ⟨trace, hget, hstalled⟩
      refine ⟨⟨.lost, rfl, trace, hget, hstalled⟩, (not_ended_iff hget).mpr ?_⟩
      rw [Trace.isTerminal, (Trace.isStalled_iff.mp hstalled).1]
      rfl
    · rintro ⟨⟨_, rfl, trace, hget, hstalled⟩, -⟩
      exact ⟨trace, hget, hstalled⟩

/-! ## Sequences of calls -/

theorem after_append (earlier later : List Call) : after (earlier ++ later) = later.foldl Call.run (after earlier) :=
  List.foldl_append

theorem after_concat (earlier : List Call) (call : Call) : after (earlier ++ [call]) = call.run (after earlier) :=
  after_append earlier [call]

theorem filed_after (calls : List Call) : Filed (after calls) := by
  induction calls using List.reverseRecOn with
  | nil => exact ⟨List.nodup_nil, fun _ _ h => nomatch h⟩
  | append_singleton calls call ih =>
    rw [after_concat]
    exact ih.run call

theorem untried_concat {calls : List Call} :
    Untried id (calls ++ [call]) ↔ Untried id calls ∧ call.aim? (after calls) id = none :=
  forall_split_concat

/-- A trace is over once a call has been after its end. -/
theorem ended_after_iff (calls : List Call) : Ended (after calls) id ↔ ¬ Untried id calls := by
  induction calls using List.reverseRecOn with
  | nil =>
    have huntried : Untried id [] := fun earlier call later he => by simp at he
    exact iff_of_false (fun ⟨_, h, _⟩ => nomatch h) (not_not_intro huntried)
  | append_singleton calls call ih =>
    rw [after_concat, ended_run_iff, ih, untried_concat, not_and_or, ← Option.ne_none_iff_isSome]

theorem state?_of_ended {calls : List Call} (h : Ended (after calls) id) (later : List Call) :
    (after (calls ++ later)).state? id = (after calls).state? id := by
  induction later generalizing calls with
  | nil => rw [List.append_nil]
  | cons call later ih =>
    have hrun := h.run call
    rw [← after_concat] at hrun
    rw [List.append_cons, ih hrun.2, hrun.1]

theorem get?_run_create {now : Time} (hget : t.get? id = none) :
    (Call.run t (.create id now)).get? id = some (.new id now) := by
  have hnew : ¬ t.contains id = true := by
    rw [Table.contains_eq, hget]
    exact Bool.false_ne_true
  rw [Call.run, create, if_neg hnew, Table.get?_set]

theorem get?_run_record {step : Step} {now : Time} {trace : Trace} (hget : t.get? id = some trace) :
    (Call.run t (.record id step now)).get? id = some { trace.push step now with lastActivity := now } := by
  rw [Call.run, record, hget, Table.get?_set]

theorem run_of_unknown (hcall : call.id? = some id) (hget : t.get? id = none) (hnew : ∀ now, call ≠ .create id now) :
    call.run t = t := by
  cases call with
  | create other now =>
    obtain rfl := Option.some.inj hcall
    exact absurd rfl (hnew now)
  | record other step now =>
    obtain rfl := Option.some.inj hcall
    rw [Call.run, record, hget]
  | markProcessing other now =>
    obtain rfl := Option.some.inj hcall
    rw [Call.run, markProcessing, hget]
  | markTerminal other state =>
    obtain rfl := Option.some.inj hcall
    rw [Call.run, markTerminal, hget, ite_self]
  | sweep => cases hcall

/-- Whatever has been called before, the next call takes nothing from a trace and adds to none but its own, begins one
that is new to it, starts a task only when it is told to, and ends a trace only when no call before it has been after
that. -/
theorem every_call_lawful (earlier : List Call) (call : Call) : Lawful earlier call where
  kept id trace hget := by
    obtain ⟨later, hlater, hsteps, hcreated, -⟩ := (effect_run (after earlier) call id).kept trace hget
    exact ⟨later, (after_concat earlier call).symm ▸ hlater, hsteps, hcreated⟩
  others id other hcall hne := by
    rw [after_concat]
    exact (effect_run (after earlier) call id).of_other hcall hne
  recorded id step now hcall trace hget := by
    rw [after_concat, hcall]
    exact ⟨_, get?_run_record hget, rfl, rfl⟩
  unknown id hcall hget hnew := by
    rw [after_concat]
    exact run_of_unknown hcall hget hnew
  created id now hcall hget := by
    rw [after_concat, hcall]
    exact ⟨_, get?_run_create hget, rfl, rfl, rfl, rfl⟩
  known id now hcall hknown := by
    rw [after_concat, hcall, Call.run, create, if_pos hknown]
  started id hpending := by
    rw [after_concat]
    constructor
    · intro hprocessing
      obtain ⟨now, hcall⟩ := (effect_run (after earlier) call id).of_started hpending hprocessing
      exact ⟨now, hcall, markProcessing_eq_true_iff.mpr hpending⟩
    · rintro ⟨now, rfl, -⟩
      exact state?_markProcessing hpending
  winner id := by
    rw [grants_iff (filed_after earlier), ended_after_iff, not_not]
  fixed id huntried state haim later := by
    have hopen : ¬ Ended (after earlier) id := (ended_after_iff earlier).not_left.mpr huntried
    have hstate := state?_run_of_aim haim hopen
    have hended : Ended (call.run (after earlier)) id := ended_run_iff.mpr (Or.inr (Option.isSome_of_eq_some haim))
    rw [← after_concat] at hstate hended
    rw [List.append_cons, state?_of_ended hended, hstate]

/-- A task that has put down one step and falls silent: the sweep has it, and whoever comes later is told so. -/
theorem every_call_lawful_of_silence :
    let task := TaskId.ofNat 1
    let step := Step.ok "healing" "iteration" "iteration 1 of 3 on src/lib.rs"
    let begun : List Call := [.create task 0, .record task step 1, .markProcessing task 2]
    let sweep : Call := .sweep (.ofSecs 5) 6000000000
    (∃ trace ∈ (after [.create task 0]).get? task,
      trace.id = task ∧ trace.state = .pending ∧ trace.steps = [] ∧ trace.createdAt = 0) ∧
    (∃ trace ∈ (after (begun.take 2)).get? task, trace.steps = [⟨step, 1⟩] ∧ trace.state = .pending) ∧
    (after begun).state? task = some .processing ∧
    sweep.grants (after begun) task = true ∧
    (∀ later, (after (begun ++ sweep :: later)).state? task = some .lost) ∧
    ∀ state, (Call.markTerminal task state).grants (after (begun ++ [sweep])) task = false := by
  intro task step begun sweep
  have hstarted : (after begun).state? task = some .processing :=
    ((every_call_lawful (begun.take 2) (.markProcessing task 2)).started task (by decide)).mpr ⟨2, rfl, by decide⟩
  have hsweep : sweep.grants (after begun) task = true := by decide
  have haim : sweep.aim? (after begun) task = some .lost := by decide
  obtain ⟨-, huntried⟩ := ((every_call_lawful begun sweep).winner task).mp hsweep
  refine ⟨?created, ?recorded, hstarted, hsweep, ?lost, ?late⟩
  case created => exact (every_call_lawful [] (.create task 0)).created task 0 rfl rfl
  case recorded =>
    have hnew : (after [.create task 0]).get? task = some (.new task 0) := rfl
    exact (every_call_lawful [.create task 0] (.record task step 1)).recorded task step 1 rfl _ hnew
  case lost => exact (every_call_lawful begun sweep).fixed task huntried .lost haim
  case late =>
    intro state
    rw [Bool.eq_false_iff]
    intro hgrants
    have htried := (((every_call_lawful (begun ++ [sweep]) (.markTerminal task state)).winner task).mp hgrants).2
    exact Option.some_ne_none _ (haim.symm.trans (htried begun sweep [] rfl))

end Tracer

end Overseer
