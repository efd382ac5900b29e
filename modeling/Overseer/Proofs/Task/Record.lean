import Mathlib.Data.List.Destutter
import Mathlib.Data.List.Induction
import Mathlib.Data.List.Infix
import Overseer.Proofs.Lists
import Overseer.Proofs.Table
import Overseer.Proofs.Task.Basic

/-! # What a sequence of calls leaves of a task record

A record is kept in place: state, time, output and failure are written one after the other, by two functions, after one
check, and nothing takes back what has been written when a later write is refused. Such writing is an `Edit`, and
`perform` makes the calls on the store with it. It comes to the same as the operations of the store, which compute a new
record or none (`perform_eq`), and that is why a refused call leaves everything as it was.

What one call does to one record is one of four things (`Change`). Each of them keeps the fields of a record in step with
its state (`Coherent`) and follows the lifecycle, and none of them touches a record that is in an end state.
-/

namespace Overseer

variable {t : Task} {target : TaskState} {outcome : Outcome} {now : Time}

/-- The answer to a call that either makes something new or refuses, and what there is then. -/
def settled {α ε : Type} (old : α) : Except ε α → Except ε Unit × α
  | .ok new => (.ok (), new)
  | .error why => (.error why, old)

/-! ## Writing in place -/

namespace Task

/-- Writes into a record. What has been written stays when a later write is refused. -/
abbrev Edit := ExceptT InvalidMove (StateM Task) Unit

namespace Edit

def transition (target : TaskState) (now : Time) : Edit := do
  let t ← get
  if t.state.canMove target then
    modify fun t => { t with state := target }
    if target.isTerminal then modify fun t => { t with finishedAt := some now }
  else throw ⟨t.state, target⟩

def finish (outcome : Outcome) (now : Time) : Edit := do
  transition outcome.state now
  match outcome.failure? with
  | none => modify fun t => { t with output := outcome.output? }
  | some failure => modify fun t => { t with failure := some failure }

/-- The answer, and the record as it is then. -/
def on (e : Edit) (t : Task) : Except InvalidMove Unit × Task := StateT.run (ExceptT.run e) t

theorem on_get (next : Task → Edit) (t : Task) : on (get >>= next) t = on (next t) t := rfl

theorem on_modify (f : Task → Task) (t : Task) : on (modify f) t = (.ok (), f t) := rfl

theorem on_throw (move : InvalidMove) (t : Task) : on (throw move) t = (.error move, t) := rfl

theorem on_pure (t : Task) : on (pure ()) t = (.ok (), t) := rfl

theorem on_seq (e : Edit) (next : Unit → Edit) (t : Task) :
    on (e >>= next) t = match on e t with
      | (.ok done, later) => on (next done) later
      | (.error move, later) => (.error move, later) := by
  unfold on
  rw [ExceptT.run_bind, StateT.run_bind]
  obtain ⟨answer, later⟩ := StateT.run (ExceptT.run e) t
  cases answer with
  | ok => rfl
  | error => rfl

end Edit

theorem on_transition (t : Task) (target : TaskState) (now : Time) :
    Edit.on (.transition target now) t = settled t (t.transition target now) := by
  unfold Edit.transition
  rw [Edit.on_get, transition_eq]
  by_cases hmove : t.state.canMove target = true
  · rw [if_pos hmove, if_pos hmove, Edit.on_seq, Edit.on_modify]
    by_cases hend : target.isTerminal = true
    · simp only [hend, if_true, Edit.on_modify, settled]
    · simp only [hend, if_false, Edit.on_pure, settled, Bool.false_eq_true]
  · rw [if_neg hmove, if_neg hmove, Edit.on_throw]
    rfl

/-- The check comes before the first write. -/
theorem on_finish (t : Task) (outcome : Outcome) (now : Time) :
    Edit.on (.finish outcome now) t = settled t (t.finish outcome now) := by
  unfold Edit.finish
  rw [Edit.on_seq, on_transition, transition_eq, finish_eq]
  by_cases hmove : t.state.canMove outcome.state = true
  · rw [if_pos hmove, if_pos hmove]
    cases outcome <;> rfl
  · rw [if_neg hmove, if_neg hmove]
    rfl

/-! ## Fields in step with the state -/

/-- A record says when and how its task ended if and only if it has ended. -/
structure Coherent (t : Task) : Prop where
  finished : t.finishedAt.isSome = true ↔ t.state.isTerminal = true
  output : t.output.isSome = true ↔ t.state = .completed
  failure : t.failure.isSome = true ↔ t.state = .failed ∨ t.state = .lost ∨ t.state = .aborted

/-- A record that has not ended is coherent exactly when nothing of an end is in it. -/
theorem coherent_iff_of_open (hopen : t.state.isTerminal = false) :
    t.Coherent ↔ t.finishedAt = none ∧ t.output = none ∧ t.failure = none := by
  have hcompleted : t.state ≠ .completed := by
    intro hstate
    rw [hstate] at hopen
    cases hopen
  have hfailed : ¬ (t.state = .failed ∨ t.state = .lost ∨ t.state = .aborted) := by
    rintro (hstate | hstate | hstate)
    all_goals
      rw [hstate] at hopen
      cases hopen
  have hnone : ∀ {α : Type} {o : Option α} {p : Prop}, ¬ p → ((o.isSome = true ↔ p) ↔ o = none) := by
    intro α o p hp
    rw [iff_false_right hp, Option.not_isSome_iff_eq_none]
  constructor
  · rintro ⟨hfinished, houtput, hfailure⟩
    rw [hopen] at hfinished
    exact ⟨(hnone Bool.false_ne_true).mp hfinished, (hnone hcompleted).mp houtput, (hnone hfailed).mp hfailure⟩
  · rintro ⟨hfinished, houtput, hfailure⟩
    refine ⟨?_, (hnone hcompleted).mpr houtput, (hnone hfailed).mpr hfailure⟩
    rw [hopen]
    exact (hnone Bool.false_ne_true).mpr hfinished

theorem coherent_new (id : TaskId) (payload : Json) (now : Time) : (Task.new id payload now).Coherent :=
  (coherent_iff_of_open rfl).mpr ⟨rfl, rfl, rfl⟩

theorem Coherent.started (h : t.Coherent) (hsource : t.state.isTerminal = false) (hopen : target.isTerminal = false) :
    Coherent { t with state := target } :=
  (coherent_iff_of_open hopen).mpr ((coherent_iff_of_open hsource).mp h)

theorem Coherent.ended (h : t.Coherent) (hsource : t.state.isTerminal = false) (outcome : Outcome) (now : Time) :
    (t.ended outcome now).Coherent := by
  obtain ⟨-, houtput, hfailure⟩ := (coherent_iff_of_open hsource).mp h
  cases outcome with
  | completed output =>
    refine ⟨iff_of_true rfl rfl, iff_of_true rfl rfl, ?_⟩
    simp [Task.ended, Outcome.failure?, Outcome.state, hfailure]
  | failed failure =>
    refine ⟨iff_of_true rfl rfl, ?_, iff_of_true rfl (.inl rfl)⟩
    simp [Task.ended, Outcome.failure?, Outcome.state, houtput]
  | aborted reason =>
    refine ⟨iff_of_true rfl rfl, ?_, iff_of_true rfl (.inr (.inr rfl))⟩
    simp [Task.ended, Outcome.failure?, Outcome.state, houtput]
  | lost =>
    refine ⟨iff_of_true rfl rfl, ?_, iff_of_true rfl (.inr (.inl rfl))⟩
    simp [Task.ended, Outcome.failure?, Outcome.state, houtput]

end Task

theorem TaskState.isTerminal_of_canMove {source : TaskState} (h : source.canMove target = true) :
    source.isTerminal = false := by
  cases source with
  | pending => rfl
  | processing => rfl
  | completed | failed | lost | aborted => cases h

namespace TaskStore

variable {s s' : TaskStore} {id : TaskId} {o o' : Option Task}

/-! ## Calls on the store -/

/-- Edits a record where it lies. -/
def edit (s : TaskStore) (id : TaskId) (e : Task.Edit) : Except Refusal Unit × TaskStore :=
  match s.get? id with
  | none => (.error .unknown, s)
  | some t =>
      let (answer, later) := Task.Edit.on e t
      (answer.mapError .invalid, s.set id later)

inductive Call
  | insert (id : TaskId) (payload : Json) (now : Time)
  | transition (id : TaskId) (target : TaskState) (now : Time)
  | finish (id : TaskId) (outcome : Outcome) (now : Time)

namespace Call

/-- The answer to a call that is made in place, and what it leaves. -/
def perform (s : TaskStore) : Call → Except Refusal Unit × TaskStore
  | insert id payload now => (.ok (), s.insert (.new id payload now))
  | transition id target now => s.edit id (.transition target now)
  | finish id outcome now => s.edit id (.finish outcome now)

/-- The store that the operation makes, if it does not refuse. -/
def result (s : TaskStore) : Call → Except Refusal TaskStore
  | insert id payload now => .ok (s.insert (.new id payload now))
  | transition id target now => s.transition id target now
  | finish id outcome now => s.finish id outcome now

/-- Which record is to go to which state. -/
def aim? : Call → Option (TaskId × TaskState)
  | insert _ _ _ => none
  | transition id target _ => some (id, target)
  | finish id outcome _ => some (id, outcome.state)

/-- What a call makes of the record that it may write. -/
def write (t : Task) : Call → Task
  | insert id payload now => .new id payload now
  | transition _ target now =>
      { t with state := target, finishedAt := if target.isTerminal then some now else t.finishedAt }
  | finish _ outcome now => t.ended outcome now

/-- There is no record of that id, or the lifecycle has no such move. -/
def Refused (s : TaskStore) (call : Call) (why : Refusal) : Prop :=
  ∃ id target, call.aim? = some (id, target) ∧
    ((s.get? id = none ∧ why = .unknown) ∨
      ∃ t ∈ s.get? id, t.state.canMove target = false ∧ why = .invalid ⟨t.state, target⟩)

/-- What is asked of those who call: a task is inserted under an id that is new, and ended by an outcome. -/
def Proper (s : TaskStore) : Call → Prop
  | insert id _ _ => s.get? id = none
  | transition _ target _ => target.isTerminal = false
  | finish _ _ _ => True

end Call

/-- The store after some calls, with nothing in it at first. -/
def after (calls : List Call) : TaskStore := calls.foldl (fun s call => (call.perform s).2) empty

/-- All calls are made as they should be. -/
def Proper (calls : List Call) : Prop :=
  ∀ earlier call later, calls = earlier ++ call :: later → call.Proper (after earlier)

/-- The state of a record before the first call, after it, after the second one, and so on, as long as there is one. -/
def sightings (id : TaskId) (calls : List Call) : List TaskState :=
  calls.inits.filterMap fun earlier => ((after earlier).get? id).map (·.state)

/-- The states through which a record has gone. -/
def course (id : TaskId) (calls : List Call) : List TaskState := (sightings id calls).destutter (· ≠ ·)

/-- What holds of the records after some calls. -/
structure Sound (calls : List Call) : Prop where
  coherent : ∀ id, ∀ t ∈ (after calls).get? id, t.Coherent
  lifecycle : ∀ id, (course id calls).IsChain (fun source target => source.canMove target = true) ∧
    ∀ first ∈ (course id calls).head?, first = .pending
  operations : ∀ earlier call later, calls = earlier ++ call :: later →
    call.perform (after earlier) = settled (after earlier) (call.result (after earlier))
  refusals : ∀ earlier call later, calls = earlier ++ call :: later →
    ∀ why, (call.perform (after earlier)).1 = .error why ↔ call.Refused (after earlier) why
  unchanged : ∀ earlier call later why, calls = earlier ++ call :: later → call.Refused (after earlier) why →
    after (earlier ++ [call]) = after earlier
  fixed : ∀ earlier later id t, calls = earlier ++ later → (after earlier).get? id = some t →
    t.state.isTerminal = true → (after calls).get? id = some t

/-! ## What a call does to one record -/

inductive Change (id : TaskId) : Option Task → Option Task → Prop
  | none (o : Option Task) : Change id o o
  | inserted (payload : Json) (now : Time) : Change id .none (some (.new id payload now))
  | started {t : Task} {target : TaskState} (hmove : t.state.canMove target = true) (hopen : target.isTerminal = false) :
      Change id (some t) (some { t with state := target })
  | ended {t : Task} {outcome : Outcome} (hmove : t.state.canMove outcome.state = true) (now : Time) :
      Change id (some t) (some (t.ended outcome now))

theorem Change.coherent (h : Change id o o') (ho : ∀ t ∈ o, t.Coherent) : ∀ t ∈ o', t.Coherent := by
  intro t ht
  cases h with
  | none => exact ho t ht
  | inserted payload now =>
    obtain rfl := Option.some.inj ht
    exact Task.coherent_new id payload now
  | started hmove hopen =>
    obtain rfl := Option.some.inj ht
    exact (ho _ rfl).started (TaskState.isTerminal_of_canMove hmove) hopen
  | ended hmove now =>
    obtain rfl := Option.some.inj ht
    exact (ho _ rfl).ended (TaskState.isTerminal_of_canMove hmove) _ now

/-- A record starts in the first state of the lifecycle, and from then on stays or moves. -/
theorem Change.follows (h : Change id o o') : ∀ later ∈ o', (o = .none ∧ later.state = .pending) ∨
    ∃ t ∈ o, t.state = later.state ∨ t.state.canMove later.state = true := by
  intro later hlater
  cases h with
  | none => exact .inr ⟨later, hlater, .inl rfl⟩
  | inserted payload now =>
    obtain rfl := Option.some.inj hlater
    exact .inl ⟨rfl, rfl⟩
  | started hmove =>
    obtain rfl := Option.some.inj hlater
    exact .inr ⟨_, rfl, .inr hmove⟩
  | @ended t outcome hmove now =>
    obtain rfl := Option.some.inj hlater
    exact .inr ⟨_, rfl, .inr (t.state_ended outcome now ▸ hmove)⟩

theorem Change.kept (h : Change id o .none) : o = .none := by
  cases h
  rfl

theorem Change.fixed (h : Change id (some t) o') (hend : t.state.isTerminal = true) : o' = some t := by
  cases h with
  | none => rfl
  | started hmove | ended hmove =>
    rw [TaskState.isTerminal_of_canMove hmove] at hend
    cases hend

/-! ## Refusals -/

theorem update_eq {f : Task → Except InvalidMove Task} {new : Task → Task}
    (hf : ∀ t, f t = if t.state.canMove target = true then .ok (new t) else .error ⟨t.state, target⟩) (s : TaskStore)
    (id : TaskId) :
    s.update id f = match s.get? id with
      | none => .error .unknown
      | some t =>
          if t.state.canMove target = true then .ok (s.set id (new t)) else .error (.invalid ⟨t.state, target⟩) := by
  unfold update
  cases s.get? id with
  | none => rfl
  | some t =>
    dsimp only
    rw [hf]
    by_cases hmove : t.state.canMove target = true
    · rw [if_pos hmove, if_pos hmove]
    · rw [if_neg hmove, if_neg hmove]

/-- A call that is to bring a record to a state finds none, is refused by the lifecycle, or writes that record. -/
theorem result_of_aim {call : Call} (haim : call.aim? = some (id, target)) (s : TaskStore) :
    call.result s = match s.get? id with
      | none => .error .unknown
      | some t =>
          if t.state.canMove target = true then .ok (s.set id (call.write t))
          else .error (.invalid ⟨t.state, target⟩) := by
  cases call with
  | insert => cases haim
  | transition id target now =>
    obtain ⟨rfl, rfl⟩ := Prod.mk.inj (Option.some.inj haim)
    exact update_eq (fun t => Task.transition_eq t target now) s id
  | finish id outcome now =>
    obtain ⟨rfl, rfl⟩ := Prod.mk.inj (Option.some.inj haim)
    exact update_eq (fun t => Task.finish_eq t outcome now) s id

/-- Only an insertion is after no record. -/
theorem eq_insert_of_aim {call : Call} (haim : call.aim? = none) :
    ∃ id payload now, call = .insert id payload now := by
  cases call with
  | insert id payload now => exact ⟨id, payload, now, rfl⟩
  | transition => cases haim
  | finish => cases haim

/-- A call is refused for two reasons. -/
theorem result_eq_error_iff {call : Call} {why : Refusal} : call.result s = .error why ↔ call.Refused s why := by
  cases haim : call.aim? with
  | none =>
    obtain ⟨id, payload, now, rfl⟩ := eq_insert_of_aim haim
    exact iff_of_false (fun h => nomatch h) (fun ⟨_, _, h, _⟩ => nomatch h)
  | some aim =>
    obtain ⟨id, target⟩ := aim
    have hrefused : call.Refused s why ↔ (s.get? id = none ∧ why = .unknown) ∨
        ∃ t ∈ s.get? id, t.state.canMove target = false ∧ why = .invalid ⟨t.state, target⟩ := by
      constructor
      · rintro ⟨id', target', h, hwhy⟩
        obtain ⟨rfl, rfl⟩ := Prod.mk.inj (Option.some.inj (haim.symm.trans h))
        exact hwhy
      · exact fun hwhy => ⟨id, target, haim, hwhy⟩
    rw [result_of_aim haim, hrefused]
    cases s.get? id with
    | none =>
      constructor
      · exact fun h => .inl ⟨rfl, (Except.error.inj h).symm⟩
      · rintro (⟨-, rfl⟩ | ⟨_, h, -⟩)
        · rfl
        · cases h
    | some t =>
      by_cases hmove : t.state.canMove target = true
      · simp [hmove]
      · dsimp only
        rw [if_neg hmove]
        constructor
        · exact fun h => .inr ⟨t, rfl, Bool.eq_false_iff.mpr hmove, (Except.error.inj h).symm⟩
        · rintro (⟨h, -⟩ | ⟨_, h, -, rfl⟩)
          · cases h
          · obtain rfl := Option.some.inj h
            rfl

/-- What is made in place is what the operation makes, and a call that is refused has made nothing. -/
theorem perform_eq (hs : s.keys.Nodup) (call : Call) : call.perform s = settled s (call.result s) := by
  have hedit : ∀ id e f, (∀ t, Task.Edit.on e t = settled t (f t)) → s.edit id e = settled s (s.update id f) := by
    intro id e f he
    unfold edit update
    cases hget : s.get? id with
    | none => rfl
    | some t =>
      dsimp only
      rw [he]
      cases hf : f t with
      | ok later => rfl
      | error move =>
        have hsame := Table.set_of_get? hs hget
        exact congrArg (Prod.mk _) hsame
  cases call with
  | insert => rfl
  | transition id target now => exact hedit id _ _ fun t => Task.on_transition t target now
  | finish id outcome now => exact hedit id _ _ fun t => Task.on_finish t outcome now

/-! ## One call after the other -/

theorem change_set {other : TaskId} {later : Task} (h : other = id → Change id (s.get? id) (some later)) :
    Change id (s.get? id) ((s.set other later).get? id) := by
  by_cases hid : other = id
  · subst hid
    rw [Table.get?_set]
    exact h rfl
  · rw [Table.get?_set_of_ne (Ne.symm hid)]
    exact .none _

theorem change_write {call : Call} (hproper : call.Proper s) (haim : call.aim? = some (id, target))
    (hmove : t.state.canMove target = true) : Change id (some t) (some (call.write t)) := by
  cases call with
  | insert => cases haim
  | transition id target now =>
    obtain ⟨rfl, rfl⟩ := Prod.mk.inj (Option.some.inj haim)
    have hopen : target.isTerminal = false := hproper
    dsimp only [Call.write]
    rw [hopen]
    exact .started hmove hopen
  | finish id outcome now =>
    obtain ⟨rfl, rfl⟩ := Prod.mk.inj (Option.some.inj haim)
    exact .ended hmove now

theorem change_result {call : Call} (hproper : call.Proper s) (hresult : call.result s = .ok s') (id : TaskId) :
    Change id (s.get? id) (s'.get? id) := by
  cases haim : call.aim? with
  | none =>
    obtain ⟨other, payload, now, rfl⟩ := eq_insert_of_aim haim
    obtain rfl := Except.ok.inj hresult
    change Change id (s.get? id) ((s.move other (.new other payload now)).get? id)
    by_cases hid : id = other
    · subst hid
      have hnew : s.get? id = none := hproper
      rw [hnew, Table.get?_move]
      exact .inserted payload now
    · rw [Table.get?_move_of_ne hid]
      exact .none _
  | some aim =>
    obtain ⟨other, target⟩ := aim
    rw [result_of_aim haim] at hresult
    cases hget : s.get? other with
    | none =>
      rw [hget] at hresult
      cases hresult
    | some t =>
      rw [hget] at hresult
      dsimp only at hresult
      split at hresult
      · rename_i hmove
        obtain rfl := Except.ok.inj hresult
        refine change_set fun hid => ?_
        subst hid
        rw [hget]
        exact change_write hproper haim hmove
      · cases hresult

/-! ## Sequences of calls -/

theorem nodup_keys_result {call : Call} (hs : s.keys.Nodup) (hresult : call.result s = .ok s') : s'.keys.Nodup := by
  cases haim : call.aim? with
  | none =>
    obtain ⟨id, payload, now, rfl⟩ := eq_insert_of_aim haim
    obtain rfl := Except.ok.inj hresult
    exact Table.nodup_keys_move hs _ _
  | some aim =>
    rw [result_of_aim haim] at hresult
    split at hresult
    · cases hresult
    · split at hresult
      · obtain rfl := Except.ok.inj hresult
        exact Table.nodup_keys_set hs _ _
      · cases hresult

theorem after_concat (earlier : List Call) (call : Call) :
    after (earlier ++ [call]) = (call.perform (after earlier)).2 :=
  List.foldl_append

/-- A call is performed or refused. -/
theorem perform_cases (hs : s.keys.Nodup) (call : Call) :
    (∃ s', call.result s = .ok s' ∧ call.perform s = (.ok (), s')) ∨
      ∃ why, call.Refused s why ∧ call.perform s = (.error why, s) := by
  rw [perform_eq hs]
  cases hresult : call.result s with
  | ok s' => exact .inl ⟨s', rfl, rfl⟩
  | error why => exact .inr ⟨why, result_eq_error_iff.mp hresult, rfl⟩

theorem nodup_keys_after (calls : List Call) : (after calls).keys.Nodup := by
  induction calls using List.reverseRecOn with
  | nil => exact List.nodup_nil
  | append_singleton calls call ih =>
    rw [after_concat]
    rcases perform_cases ih call with ⟨s', hresult, he⟩ | ⟨why, -, he⟩
    · rw [he]
      exact nodup_keys_result ih hresult
    · rw [he]
      exact ih

theorem change_after {earlier : List Call} {call : Call} (hproper : call.Proper (after earlier)) (id : TaskId) :
    Change id ((after earlier).get? id) ((after (earlier ++ [call])).get? id) := by
  rw [after_concat]
  rcases perform_cases (nodup_keys_after earlier) call with ⟨s', hresult, he⟩ | ⟨why, -, he⟩
  · rw [he]
    exact change_result hproper hresult id
  · rw [he]
    exact .none _

theorem proper_nil : Proper [] := fun _ _ _ he => by simp at he

theorem proper_concat_iff {calls : List Call} {call : Call} :
    Proper (calls ++ [call]) ↔ Proper calls ∧ call.Proper (after calls) :=
  forall_split_concat

theorem coherent_after {calls : List Call} (h : Proper calls) (id : TaskId) : ∀ t ∈ (after calls).get? id, t.Coherent := by
  induction calls using List.reverseRecOn with
  | nil =>
    intro t ht
    cases ht
  | append_singleton calls call ih =>
    obtain ⟨hcalls, hcall⟩ := proper_concat_iff.mp h
    exact (change_after hcall id).coherent (ih hcalls)

/-- Nothing is written into a record that is in an end state. -/
theorem get?_after_of_isTerminal {earlier : List Call} (later : List Call) (h : Proper (earlier ++ later))
    (hget : (after earlier).get? id = some t) (hend : t.state.isTerminal = true) :
    (after (earlier ++ later)).get? id = some t := by
  induction later using List.reverseRecOn with
  | nil =>
    rw [List.append_nil]
    exact hget
  | append_singleton later call ih =>
    rw [← List.append_assoc] at h ⊢
    obtain ⟨hcalls, hcall⟩ := proper_concat_iff.mp h
    have hchange := change_after hcall id
    rw [ih hcalls] at hchange
    exact hchange.fixed hend

/-! ## The course of a record -/

theorem sightings_concat (id : TaskId) (calls : List Call) (call : Call) :
    sightings id (calls ++ [call]) =
      sightings id calls ++ (((after (calls ++ [call])).get? id).map (·.state)).toList := by
  have hinits : (calls ++ [call]).inits = calls.inits ++ [calls ++ [call]] := by simp [List.inits_append]
  unfold sightings
  rw [hinits, List.filterMap_append]
  cases hget : (after (calls ++ [call])).get? id with
  | none => simp [hget]
  | some t => simp [hget]

/-- A record stays in its state or goes on by a move of the lifecycle. -/
structure Followed (id : TaskId) (calls : List Call) : Prop where
  chain : (sightings id calls).IsChain fun source target => source = target ∨ source.canMove target = true
  first : ∀ state ∈ (sightings id calls).head?, state = .pending
  last : (sightings id calls).getLast? = ((after calls).get? id).map (·.state)

theorem followed_nil (id : TaskId) : Followed id [] where
  chain := List.IsChain.nil
  first := fun _ h => nomatch h
  last := rfl

theorem Followed.concat {calls : List Call} {call : Call} (h : Followed id calls) (hcall : call.Proper (after calls)) :
    Followed id (calls ++ [call]) := by
  have hchange := change_after hcall id
  have hsightings := sightings_concat id calls call
  have hlast := h.last
  cases hlater : (after (calls ++ [call])).get? id with
  | none =>
    rw [hlater] at hchange hsightings
    rw [hchange.kept] at hlast
    have hsame : sightings id (calls ++ [call]) = sightings id calls := hsightings.trans (List.append_nil _)
    refine ⟨hsame ▸ h.chain, hsame ▸ h.first, ?_⟩
    rw [hsame, hlater, hlast]
  | some later =>
    rw [hlater] at hchange hsightings
    have hadded : sightings id (calls ++ [call]) = sightings id calls ++ [later.state] := hsightings
    have hfollows := hchange.follows later rfl
    refine ⟨?_, ?_, ?_⟩
    · rw [hadded]
      refine h.chain.append (List.IsChain.singleton _) fun source hsource target htarget => ?_
      obtain rfl := Option.some.inj htarget
      rw [hlast] at hsource
      obtain ⟨t, ht, rfl⟩ := Option.map_eq_some_iff.mp hsource
      rcases hfollows with ⟨hnew, -⟩ | ⟨t', ht', hmove⟩
      · cases hnew.symm.trans ht
      · obtain rfl := Option.some.inj (ht'.symm.trans ht)
        exact hmove
    · rw [hadded]
      intro first hfirst
      cases hseen : sightings id calls with
      | nil =>
        rw [hseen] at hfirst hlast
        obtain rfl := Option.some.inj hfirst
        rcases hfollows with ⟨-, hstate⟩ | ⟨t, ht, -⟩
        · exact hstate
        · rw [Option.mem_def.mp ht] at hlast
          cases hlast
      | cons state rest =>
        rw [hseen] at hfirst
        exact h.first first (hseen ▸ hfirst)
    · rw [hadded, hlater, List.getLast?_concat]
      rfl

theorem followed {calls : List Call} (h : Proper calls) (id : TaskId) : Followed id calls := by
  induction calls using List.reverseRecOn with
  | nil => exact followed_nil id
  | append_singleton calls call ih =>
    obtain ⟨hcalls, hcall⟩ := proper_concat_iff.mp h
    exact (ih hcalls).concat hcall

section Repeats

variable {α : Type} [DecidableEq α] {R : α → α → Prop}

theorem head?_destutter' (xs : List α) (x : α) : (xs.destutter' (· ≠ ·) x).head? = some x := by
  induction xs with
  | nil => rfl
  | cons y xs ih =>
    by_cases hxy : x = y
    · subst hxy
      rw [List.destutter'_cons_neg _ (by simp)]
      exact ih
    · rw [List.destutter'_cons_pos _ hxy]
      rfl

theorem isChain_destutter' {xs : List α} {x : α} (h : (x :: xs).IsChain fun x y => x = y ∨ R x y) :
    (xs.destutter' (· ≠ ·) x).IsChain R := by
  induction xs generalizing x with
  | nil => exact List.IsChain.singleton x
  | cons y xs ih =>
    obtain ⟨hstep, hrest⟩ := List.isChain_cons_cons.mp h
    by_cases hxy : x = y
    · subst hxy
      rw [List.destutter'_cons_neg _ (by simp)]
      exact ih hrest
    · rw [List.destutter'_cons_pos _ hxy]
      refine List.isChain_cons.mpr ⟨?_, ih hrest⟩
      intro z hz
      rw [head?_destutter'] at hz
      obtain rfl := Option.some.inj hz
      exact hstep.resolve_left hxy

end Repeats

theorem Followed.isChain_course {calls : List Call} (h : Followed id calls) :
    (course id calls).IsChain fun source target => source.canMove target = true := by
  have hchain := h.chain
  unfold course
  cases hseen : sightings id calls with
  | nil => exact List.IsChain.nil
  | cons first rest =>
    rw [hseen] at hchain
    exact isChain_destutter' hchain

theorem Followed.head?_course {calls : List Call} (h : Followed id calls) :
    ∀ first ∈ (course id calls).head?, first = .pending := by
  have hfirst := h.first
  unfold course
  cases hseen : sightings id calls with
  | nil => exact fun _ hmem => nomatch hmem
  | cons first rest =>
    rw [hseen] at hfirst
    rw [List.destutter_cons', head?_destutter']
    exact hfirst

/-- Whatever calls have been made as they should be, every record tells when and how its task ended exactly when it has
ended, has gone through the lifecycle, and has not changed since its end; calls that were refused have left no mark. -/
theorem records_sound {calls : List Call} (h : Proper calls) : Sound calls where
  coherent := coherent_after h
  lifecycle id := ⟨(followed h id).isChain_course, (followed h id).head?_course⟩
  operations earlier call later _ := perform_eq (nodup_keys_after earlier) call
  refusals earlier call later _ why := by
    rw [perform_eq (nodup_keys_after earlier), ← result_eq_error_iff]
    cases call.result (after earlier) with
    | ok s' => exact iff_of_false (fun h => nomatch h) (fun h => nomatch h)
    | error why' =>
      constructor
      · exact fun h => congrArg Except.error (Except.error.inj h)
      · exact fun h => congrArg Except.error (Except.error.inj h)
  unchanged earlier call later why _ hrefused := by
    rw [after_concat, perform_eq (nodup_keys_after earlier), result_eq_error_iff.mpr hrefused]
    rfl
  fixed earlier later id t he hget hend := by
    subst he
    exact get?_after_of_isTerminal later h hget hend

/-- A task is begun and completed. On the way it is told to complete too early, a task that nobody knows is begun, and at
last it is told to be lost. -/
def errand : List Call :=
  [.insert (.ofNat 1) .null 0, .finish (.ofNat 1) (.completed .null) 1, .transition (.ofNat 2) .processing 2,
    .transition (.ofNat 1) .processing 3, .finish (.ofNat 1) (.completed .null) 4, .finish (.ofNat 1) .lost 5]

theorem records_sound_of_errand : Proper errand ∧ Sound errand ∧
    course (.ofNat 1) errand = [.pending, .processing, .completed] ∧
    ((after errand).get? (.ofNat 1)).map (·.finishedAt) = some (some 4) := by
  have hproper : Proper errand := by
    have h₁ := proper_concat_iff.mpr ⟨proper_nil, (show Call.Proper _ (errand[0]) from rfl)⟩
    have h₂ := proper_concat_iff.mpr ⟨h₁, (show Call.Proper _ (errand[1]) from trivial)⟩
    have h₃ := proper_concat_iff.mpr ⟨h₂, (show Call.Proper _ (errand[2]) from rfl)⟩
    have h₄ := proper_concat_iff.mpr ⟨h₃, (show Call.Proper _ (errand[3]) from rfl)⟩
    have h₅ := proper_concat_iff.mpr ⟨h₄, (show Call.Proper _ (errand[4]) from trivial)⟩
    exact proper_concat_iff.mpr ⟨h₅, (show Call.Proper _ (errand[5]) from trivial)⟩
  exact ⟨hproper, records_sound hproper, by decide, by decide⟩

end TaskStore

end Overseer
