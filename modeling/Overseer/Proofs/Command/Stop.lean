import Overseer.Command.Child
import Mathlib.Logic.Relation

/-! # When a child can be stopped

A run and its child go on side by side. The child is anybody's: while it lives it reads, writes, ends or does nothing
(`ChildStep`). What the run does without it is told by `Alone`, and the passage of time is part of that.

A child that waits for nobody can be killed at the end of a slice. But the input is written before anybody looks at a
clock, and what is left of it has to go into the pipe: so the run can come to the kill exactly when it fits
(`CanStop`, `Fits`). Both are kept by whatever the run does on its own (`fits_step`, `not_fits_alone`); the child
alone can make room.
-/

namespace Overseer.Command

/-- What a run can do while the child does nothing. -/
inductive Alone (r : Run) : Run → Prop
  | feed {t : Run} (h : r.feed = some t) : Alone r t
  | drain (stream : Stream) {t : Run} (h : r.drain stream = some t) : Alone r t
  | check {t : Run} (h : r.check = some t) : Alone r t
  | wait (time : Time) (h : r.now ≤ time) : Alone r { r with now := time }

/-- What a child can do while it lives. A write takes as much as there is room for, and a child that finds none does
nothing. -/
inductive ChildStep (r : Run) : Run → Prop
  | read (count : Nat) : ChildStep r { r with input := (r.input.read count).2 }
  | output (bytes : List UInt8) : ChildStep r { r with output := (r.output.write bytes).2 }
  | errors (bytes : List UInt8) : ChildStep r { r with errors := (r.errors.write bytes).2 }
  | leave (status : Status) : ChildStep r (r.leave status)

/-- One of the two goes on, or somebody cancels the run. -/
inductive RunStep (r : Run) : Run → Prop
  | alone {t : Run} (h : Alone r t) : RunStep r t
  | child {t : Run} (alive : r.status = none) (h : ChildStep r t) : RunStep r t
  | cancel : RunStep r { r with cancelled := true }

/-- A run has come to a state, side by side with some child. -/
def Comes (input : Option (List UInt8)) (timeout : Duration) (limit : Nat) (cancelled : Bool)
    (r : Run) : Prop :=
  Relation.ReflTransGen RunStep (.start input timeout limit cancelled) r

/-! ## Children that follow a plan -/

section Plans

variable {r t : Run} {c c' : Child}

theorem alone_of_step? (h : r.step? = some t) : Alone r t := by
  unfold Run.step? at h
  simp only [Option.orElse_eq_orElse, Option.orElse_eq_or, Option.or_eq_some_iff] at h
  rcases h with h | ⟨-, h | ⟨-, h | ⟨-, h⟩⟩⟩
  · exact .feed h
  · exact .drain .output h
  · exact .drain .errors h
  · exact .check h

theorem childStep_of_put {stream : Stream} {bytes left : List UInt8}
    (h : Child.put stream bytes r = some (left, t)) : ChildStep r t := by
  unfold Child.put at h
  split at h
  · split at h
    · cases h
    · obtain ⟨-, rfl⟩ := Prod.mk.inj (Option.some.inj h)
      exact .output bytes
  · split at h
    · cases h
    · obtain ⟨-, rfl⟩ := Prod.mk.inj (Option.some.inj h)
      exact .errors bytes

/-- A child that follows a plan is one of those that can be at the other end. -/
theorem childStep_of_step? (h : c.step? r = some (c', t)) :
    r.status = none ∧ (t = r ∨ ChildStep r t) := by
  unfold Child.step? at h
  split at h
  · cases h
  · rename_i hover
    refine ⟨Option.not_isSome_iff_eq_none.mp hover, ?_⟩
    split at h
    · obtain ⟨-, rfl⟩ := Prod.mk.inj (Option.some.inj h)
      exact Or.inr (.leave c.status)
    · rename_i count rest _
      unfold Child.read at h
      split at h
      · exact Or.inl (Prod.mk.inj (Option.some.inj h)).2.symm
      · split at h
        · cases h
        · obtain ⟨-, rfl⟩ := Prod.mk.inj (Option.some.inj h)
          exact Or.inr (.read count)
    · split at h
      · exact Or.inl (Prod.mk.inj (Option.some.inj h)).2.symm
      · cases h
    · exact Or.inl (Prod.mk.inj (Option.some.inj h)).2.symm
    · obtain ⟨⟨left, u⟩, hput, he⟩ := Option.map_eq_some_iff.mp h
      obtain ⟨-, rfl⟩ := Prod.mk.inj he
      exact Or.inr (childStep_of_put hput)
    · unfold Child.pause at h
      split at h
      · exact Or.inl (Prod.mk.inj (Option.some.inj h)).2.symm
      · split at h
        · exact Or.inl (Prod.mk.inj (Option.some.inj h)).2.symm
        · cases h

/-- So is all that a host does with a program. -/
theorem comes_proceed (n : Nat) (c : Child) (r : Run) :
    Relation.ReflTransGen RunStep r (proceed n c r) := by
  induction n generalizing c r with
  | zero => exact .refl
  | succ n ih =>
    unfold proceed
    split
    · rename_i t h
      exact (ih c t).head (.alone (alone_of_step? h))
    · rename_i c' t _ h
      obtain ⟨alive, rfl | hstep⟩ := childStep_of_step? h
      · exact ih c' t
      · exact (ih c' t).head (.child alive hstep)
    · split
      · split
        · rename_i time _ hlt
          exact (ih c _).head (.alone (.wait time (Nat.le_of_lt hlt)))
        · exact .refl
      · exact .refl

end Plans

namespace Run

/-- Without the child the run comes to the kill, in some time. -/
def StopsWithin (span : Duration) (r : Run) : Prop :=
  ∃ t, Relation.ReflTransGen Alone r t ∧ (∃ stop, t.stage = .finished (some stop)) ∧
    t.now ≤ deadline r.now span

def CanStop (r : Run) : Prop := ∃ span, r.StopsWithin span

/-- What is left of the input has room in the pipe. -/
def Fits (r : Run) : Prop :=
  match r.stage with
  | .feeding rest => rest.length ≤ r.input.room
  | _ => True

/-- The run is cancelled, or the child has been waited for long enough. -/
def Due (r : Run) : Prop :=
  r.cancelled = true ∨ ∃ started sliceEnd, r.stage = .waiting started sliceEnd ∧
    deadline started r.timeout ≤ r.now

variable {r t : Run}

/-! ## The steps of a run -/

theorem feed_cases (h : r.feed = some t) :
    (r.stage = .feeding [] ∧
      t = { r with input := r.input.dropWriter, stage := .waiting r.now (deadline r.now slice) }) ∨
    ∃ rest, r.stage = .feeding rest ∧ rest ≠ [] ∧
      (r.input.hasReader = false ∧ t = { r with stage := .refused } ∨
        0 < r.input.room ∧ t = { r with
          input := (r.input.write rest).2
          stage := .feeding (rest.drop r.input.room) }) := by
  unfold feed at h
  split at h
  · rename_i hstage
    obtain rfl := Option.some.inj h
    exact Or.inl ⟨hstage, rfl⟩
  · rename_i byte rest hstage
    refine Or.inr ⟨byte :: rest, hstage, List.cons_ne_nil _ _, ?_⟩
    split at h
    · rename_i hreader
      obtain rfl := Option.some.inj h
      exact Or.inl ⟨by simpa using hreader, rfl⟩
    · split at h
      · cases h
      · rename_i hroom
        obtain rfl := Option.some.inj h
        refine Or.inr ⟨?_, rfl⟩
        rw [Pipe.isFull, beq_iff_eq] at hroom
        omega
  · cases h

/-- Reading the output touches nothing else. -/
theorem drain_frame {stream : Stream} (h : r.drain stream = some t) :
    t.stage = r.stage ∧ t.input = r.input ∧ t.status = r.status ∧ t.now = r.now := by
  unfold drain at h
  split at h
  · cases h
  · split at h
    · cases h
    · obtain rfl := Option.some.inj h
      exact ⟨rfl, rfl, rfl, rfl⟩
  · split at h
    · cases h
    · obtain rfl := Option.some.inj h
      exact ⟨rfl, rfl, rfl, rfl⟩

/-- After a look at the child it is over, or it is waited for. -/
theorem check_cases (h : r.check = some t) : ∃ started sliceEnd, r.stage = .waiting started sliceEnd ∧
    (t.status ≠ none ∧ (∃ stop, t.stage = .finished stop) ∨
      t = { r with stage := .waiting started (deadline r.now slice) }) := by
  unfold check at h
  split at h
  · rename_i started sliceEnd hstage
    refine ⟨started, sliceEnd, hstage, ?_⟩
    split at h
    · rename_i hover
      obtain rfl := Option.some.inj h
      exact Or.inl ⟨Option.isSome_iff_ne_none.mp hover, _, rfl⟩
    · split at h
      · cases h
      · split at h
        · obtain rfl := Option.some.inj h
          exact Or.inl ⟨Option.some_ne_none _, _, rfl⟩
        · split at h
          · obtain rfl := Option.some.inj h
            exact Or.inl ⟨Option.some_ne_none _, _, rfl⟩
          · obtain rfl := Option.some.inj h
            exact Or.inr rfl
  · cases h

/-! ## Runs with a child that lives -/

/-- Whoever has a child that lives feeds it or waits for it, no longer than a slice at once. -/
structure Attends (r : Run) : Prop where
  hasReader : r.input.hasReader = true
  stage : (∃ rest, r.stage = .feeding rest) ∨
    ∃ started sliceEnd, r.stage = .waiting started sliceEnd ∧ sliceEnd ≤ deadline r.now slice

/-- The dead stay dead. -/
theorem status_of_step (h : RunStep r t) (alive : t.status = none) : r.status = none := by
  cases h with
  | alone h =>
    cases h with
    | feed h =>
      rcases feed_cases h with ⟨-, rfl⟩ | ⟨rest, -, -, ⟨-, rfl⟩ | ⟨-, rfl⟩⟩
      · exact alive
      · exact alive
      · exact alive
    | drain stream h => exact (drain_frame h).2.2.1 ▸ alive
    | check h =>
      obtain ⟨started, sliceEnd, -, ⟨hover, -⟩ | rfl⟩ := check_cases h
      · exact absurd alive hover
      · exact alive
    | wait time h => exact alive
  | child alive h => exact alive
  | cancel => exact alive

theorem Attends.step (h : r.Attends) (hstep : RunStep r t) (alive : t.status = none) : t.Attends := by
  cases hstep with
  | alone ha =>
    cases ha with
    | feed hf =>
      rcases feed_cases hf with ⟨-, rfl⟩ | ⟨rest, -, -, ⟨hgone, -⟩ | ⟨-, rfl⟩⟩
      · exact ⟨h.hasReader, Or.inr ⟨_, _, rfl, Nat.le_refl _⟩⟩
      · rw [h.hasReader] at hgone
        cases hgone
      · exact ⟨h.hasReader, Or.inl ⟨_, rfl⟩⟩
    | drain stream hd =>
      obtain ⟨hstage, hinput, -, hnow⟩ := drain_frame hd
      exact ⟨hinput ▸ h.hasReader, hnow ▸ hstage ▸ h.stage⟩
    | check hc =>
      obtain ⟨started, sliceEnd, -, ⟨hover, -⟩ | rfl⟩ := check_cases hc
      · exact absurd alive hover
      · exact ⟨h.hasReader, Or.inr ⟨_, _, rfl, Nat.le_refl _⟩⟩
    | wait time hle =>
      refine ⟨h.hasReader, h.stage.imp_right ?_⟩
      rintro ⟨started, sliceEnd, hstage, hend⟩
      exact ⟨started, sliceEnd, hstage, Nat.le_trans hend (Nat.add_le_add_right hle _)⟩
  | child _ hc =>
    cases hc with
    | read | output | errors => exact ⟨h.hasReader, h.stage⟩
    | leave status => cases alive
  | cancel => exact ⟨h.hasReader, h.stage⟩

theorem attends_start (input : Option (List UInt8)) (timeout : Duration) (limit : Nat)
    (cancelled : Bool) : (start input timeout limit cancelled).Attends := by
  refine ⟨?_, Or.inl ⟨_, rfl⟩⟩
  cases input with
  | none => rfl
  | some bytes => rfl

theorem attends_of_comes {input : Option (List UInt8)} {timeout : Duration} {limit : Nat}
    {cancelled : Bool} (h : Comes input timeout limit cancelled r) (alive : r.status = none) :
    r.Attends := by
  induction h with
  | refl => exact attends_start input timeout limit cancelled
  | tail _ next ih => exact (ih (status_of_step next alive)).step next alive

/-! ## Input that fits, and input that does not -/

theorem fits_of_stage (h : ∀ rest, r.stage ≠ .feeding rest) : r.Fits := by
  unfold Fits
  split
  · rename_i rest hstage
    exact absurd hstage (h rest)
  · trivial

theorem fits_iff_of_feeding {rest : List UInt8} (h : r.stage = .feeding rest) :
    r.Fits ↔ rest.length ≤ r.input.room := by
  unfold Fits
  rw [h]

/-- Whoever goes on, what fits goes on fitting. -/
theorem fits_step (h : r.Fits) (hstep : RunStep r t) : t.Fits := by
  cases hstep with
  | alone ha =>
    cases ha with
    | feed hf =>
      rcases feed_cases hf with ⟨-, rfl⟩ | ⟨rest, hstage, -, ⟨-, rfl⟩ | ⟨-, rfl⟩⟩
      · exact fits_of_stage fun _ he => nomatch he
      · exact fits_of_stage fun _ he => nomatch he
      · have hfits := (fits_iff_of_feeding hstage).mp h
        refine (fits_iff_of_feeding rfl).mpr ?_
        rw [List.drop_eq_nil_of_le hfits]
        exact Nat.zero_le _
    | drain stream hd =>
      obtain ⟨hstage, hinput, -, -⟩ := drain_frame hd
      unfold Fits
      rw [hstage, hinput]
      exact h
    | check hc =>
      obtain ⟨started, sliceEnd, -, ⟨-, stop, hstop⟩ | rfl⟩ := check_cases hc
      · refine fits_of_stage fun _ he => ?_
        rw [hstop] at he
        cases he
      · exact fits_of_stage fun _ he => nomatch he
    | wait time hle => exact h
  | child _ hc =>
    cases hc with
    | read count =>
      by_cases hstage : ∃ rest, r.stage = .feeding rest
      · obtain ⟨rest, hstage⟩ := hstage
        have hfits := (fits_iff_of_feeding hstage).mp h
        have hroom : r.input.room ≤ (r.input.read count).2.room := by
          show r.input.capacity - r.input.held.length
            ≤ r.input.capacity - (r.input.held.drop count).length
          rw [List.length_drop]
          omega
        unfold Fits
        rw [hstage]
        exact Nat.le_trans hfits hroom
      · exact fits_of_stage fun rest he => hstage ⟨rest, he⟩
    | output | errors | leave => exact h
  | cancel => exact h

theorem fits_start {input : Option (List UInt8)} (timeout : Duration) (limit : Nat)
    (cancelled : Bool) (h : (input.getD []).length ≤ pipeCapacity) :
    (start input timeout limit cancelled).Fits := by
  cases input with
  | none => exact Nat.zero_le _
  | some bytes => exact h

theorem fits_of_comes {input : Option (List UInt8)} {timeout : Duration} {limit : Nat}
    {cancelled : Bool} (hc : Comes input timeout limit cancelled r)
    (h : (input.getD []).length ≤ pipeCapacity) : r.Fits := by
  induction hc with
  | refl => exact fits_start timeout limit cancelled h
  | tail _ next ih => exact fits_step ih next

/-- What does not fit is as long as ever when the run is left to itself: the pipe is filled, and that is all. -/
theorem not_fits_alone (hreader : r.input.hasReader = true) (h : ¬ r.Fits) (ha : Alone r t) :
    t.input.hasReader = true ∧ ¬ t.Fits := by
  have hfeeding : ∃ rest, r.stage = .feeding rest :=
    Classical.byContradiction fun hnot => h (fits_of_stage fun rest he => hnot ⟨rest, he⟩)
  obtain ⟨rest, hstage⟩ := hfeeding
  rw [fits_iff_of_feeding hstage, Nat.not_le] at h
  cases ha with
  | feed hf =>
    rcases feed_cases hf with ⟨hnil, -⟩ | ⟨rest', hstage', -, ⟨hgone, -⟩ | ⟨-, rfl⟩⟩
    · obtain rfl := Stage.feeding.inj (hstage.symm.trans hnil)
      cases h
    · rw [hreader] at hgone
      cases hgone
    · obtain rfl := Stage.feeding.inj (hstage.symm.trans hstage')
      refine ⟨hreader, ?_⟩
      rw [fits_iff_of_feeding rfl]
      show ¬ (rest.drop r.input.room).length
        ≤ r.input.capacity - (r.input.held ++ rest.take r.input.room).length
      have hroom : r.input.room = r.input.capacity - r.input.held.length := rfl
      rw [List.length_drop, List.length_append, List.length_take]
      omega
  | drain stream hd =>
    obtain ⟨hstage', hinput, -, -⟩ := drain_frame hd
    rw [fits_iff_of_feeding (hstage'.trans hstage), hinput]
    exact ⟨hreader, Nat.not_le.mpr h⟩
  | check hc =>
    obtain ⟨started, sliceEnd, hwaiting, -⟩ := check_cases hc
    rw [hstage] at hwaiting
    cases hwaiting
  | wait time hle =>
    refine ⟨hreader, ?_⟩
    unfold Fits
    rw [hstage]
    exact Nat.not_le.mpr h

theorem not_canStop (hreader : r.input.hasReader = true) (h : ¬ r.Fits) : ¬ r.CanStop := by
  rintro ⟨span, t, halone, ⟨stop, hstop⟩, -⟩
  have hstuck : t.input.hasReader = true ∧ ¬ t.Fits := by
    clear hstop
    induction halone with
    | refl => exact ⟨hreader, h⟩
    | tail _ next ih => exact not_fits_alone ih.1 ih.2 next
  refine hstuck.2 (fits_of_stage fun rest he => ?_)
  rw [hstop] at he
  cases he

/-! ## The way to the kill -/

/-- At the end of a slice a run that is cancelled or past its deadline stops its child. -/
theorem stopsWithin_of_waiting {started sliceEnd : Time} (alive : r.status = none)
    (hstage : r.stage = .waiting started sliceEnd) (span : Duration)
    (hslice : sliceEnd ≤ deadline r.now span)
    (hdue : r.cancelled = true ∨ deadline started r.timeout ≤ deadline r.now span) :
    r.StopsWithin span := by
  let late : Run := { r with now := deadline r.now span }
  have hlate : Alone r late := .wait _ (Nat.le_add_right _ _)
  have hkill : ∃ stop, late.check = some (late.kill stop) := by
    have hstage : late.stage = .waiting started sliceEnd := hstage
    have halive : late.status = none := alive
    have hover : ¬ late.now < sliceEnd := Nat.not_lt.mpr hslice
    unfold check
    rw [hstage, halive]
    simp only [Option.isSome_none, Bool.false_eq_true, if_false, hover]
    by_cases hc : late.cancelled = true
    · exact ⟨.cancelled, if_pos hc⟩
    · have hpast : deadline started late.timeout ≤ late.now := hdue.resolve_left hc
      exact ⟨.timedOut, by rw [if_neg hc, if_pos hpast]⟩
  obtain ⟨stop, hkill⟩ := hkill
  exact ⟨late.kill stop, (Relation.ReflTransGen.single hlate).tail (.check hkill), ⟨stop, rfl⟩,
    Nat.le_refl _⟩

/-- Input that fits is written at once, and then the child is waited for. -/
theorem exists_waiting {rest : List UInt8} (h : r.Attends) (hstage : r.stage = .feeding rest)
    (hfits : r.Fits) : ∃ input, Relation.ReflTransGen Alone r
      { r with input := input, stage := .waiting r.now (deadline r.now slice) } := by
  cases rest with
  | nil =>
    refine ⟨r.input.dropWriter, .single (.feed ?_)⟩
    simp only [feed, hstage]
  | cons byte rest =>
    have hlength := (fits_iff_of_feeding hstage).mp hfits
    have hroom : r.input.isFull = false := by
      rw [Pipe.isFull, beq_eq_false_iff_ne]
      intro hzero
      rw [hzero] at hlength
      cases hlength
    have hwritten : r.feed = some { r with
        input := (r.input.write (byte :: rest)).2, stage := .feeding [] } := by
      simp only [feed, hstage, h.hasReader, hroom, Pipe.write, List.drop_eq_nil_of_le hlength]
      rfl
    exact ⟨_, (Relation.ReflTransGen.single (.feed hwritten)).tail (.feed rfl)⟩

theorem StopsWithin.of_alone {span : Duration} (h : Relation.ReflTransGen Alone r t)
    (hnow : t.now = r.now) (ht : t.StopsWithin span) : r.StopsWithin span := by
  obtain ⟨u, hu, hstop, hle⟩ := ht
  exact ⟨u, h.trans hu, hstop, hnow ▸ hle⟩

/-- Whoever has waited for a slice and for the timeout can stop the child. -/
theorem canStop_of_waiting {started sliceEnd : Time} (alive : r.status = none)
    (hstage : r.stage = .waiting started sliceEnd) (hslice : sliceEnd ≤ deadline r.now slice) :
    r.CanStop := by
  refine ⟨⟨slice.nanos + (started + r.timeout.nanos)⟩, ?_⟩
  refine stopsWithin_of_waiting alive hstage _ (Nat.le_trans hslice ?_) (Or.inr ?_)
  · exact Nat.add_le_add_left (Nat.le_add_right _ _) _
  · exact Nat.le_trans (Nat.le_add_left _ _) (Nat.le_add_left _ _)

theorem canStop_of_fits (h : r.Attends) (alive : r.status = none) (hfits : r.Fits) : r.CanStop := by
  rcases h.stage with ⟨rest, hstage⟩ | ⟨started, sliceEnd, hstage, hslice⟩
  · obtain ⟨input, hway⟩ := exists_waiting h hstage hfits
    let t : Run := { r with input := input, stage := .waiting r.now (deadline r.now slice) }
    have ht : t.CanStop := canStop_of_waiting alive rfl (Nat.le_refl _)
    obtain ⟨span, hstops⟩ := ht
    exact ⟨span, hstops.of_alone hway rfl⟩
  · exact canStop_of_waiting alive hstage hslice

theorem stopsWithin_of_due (h : r.Attends) (alive : r.status = none) (hfits : r.Fits) (hdue : r.Due) :
    r.StopsWithin slice := by
  rcases h.stage with ⟨rest, hstage⟩ | ⟨started, sliceEnd, hstage, hslice⟩
  · have hc : r.cancelled = true := by
      refine hdue.resolve_right ?_
      rintro ⟨started, sliceEnd, hwaiting, -⟩
      rw [hstage] at hwaiting
      cases hwaiting
    obtain ⟨input, hway⟩ := exists_waiting h hstage hfits
    let t : Run := { r with input := input, stage := .waiting r.now (deadline r.now slice) }
    have ht : t.StopsWithin slice :=
      stopsWithin_of_waiting (r := t) alive rfl slice (Nat.le_refl _) (Or.inl hc)
    exact ht.of_alone hway rfl
  · refine stopsWithin_of_waiting alive hstage slice hslice ?_
    rcases hdue with hc | ⟨started', sliceEnd', hstage', hpast⟩
    · exact Or.inl hc
    · obtain ⟨rfl, rfl⟩ := Stage.waiting.inj (hstage.symm.trans hstage')
      exact Or.inr (Nat.le_trans hpast (Nat.le_add_right _ _))

/-! ## The law -/

/-- With any child, any input and any limit: while the child lives, the run can stop it without its help exactly when
what is left of the input fits into the pipe; then it does so within a slice of the moment at which it is due. Input
that is no longer than the pipe fits at any time. -/
theorem canStop_iff_fits {input : Option (List UInt8)} {timeout : Duration} {limit : Nat}
    {cancelled : Bool} (hcomes : Comes input timeout limit cancelled r) (alive : r.status = none) :
    (r.CanStop ↔ r.Fits) ∧ (r.Fits → r.Due → r.StopsWithin slice) ∧
      ((input.getD []).length ≤ pipeCapacity → r.Fits) := by
  have h := attends_of_comes hcomes alive
  refine ⟨⟨fun hcan => ?_, canStop_of_fits h alive⟩, stopsWithin_of_due h alive,
    fits_of_comes hcomes⟩
  exact Classical.byContradiction fun hnot => not_canStop h.hasReader hnot hcan

/-- A child that reads nothing, and input that it need not read. -/
theorem canStop_iff_fits_of_short :
    (start (some [104, 105]) (.ofSecs 1) 1000 true).StopsWithin slice := by
  obtain ⟨-, hdue, hfits⟩ := canStop_iff_fits
    (.refl : Comes (some [104, 105]) (.ofSecs 1) 1000 true _) rfl
  exact hdue (hfits (by decide)) (Or.inl rfl)

/-- One byte more than the pipe holds, and a child that does nothing: neither the token nor any deadline stops it. -/
theorem exists_not_canStop : ¬ ∀ (input : Option (List UInt8)) (timeout : Duration) (limit : Nat)
    (cancelled : Bool) (r : Run), Comes input timeout limit cancelled r → r.status = none →
      r.cancelled = true ∨ timeout.nanos ≤ r.now → r.CanStop := by
  intro hclaim
  let input : List UInt8 := List.replicate (pipeCapacity + 1) 97
  have hcan := hclaim (some input) (.ofSecs 1) 1000 true _ .refl rfl (Or.inl rfl)
  refine not_canStop rfl (fun hfits => ?_) hcan
  have hlength : input.length ≤ pipeCapacity := hfits
  rw [List.length_replicate] at hlength
  exact Nat.not_succ_le_self _ hlength

end Run

end Overseer.Command
