import Overseer.Proofs.Healing.Course

/-! # Sessions on their way

A session need not be followed at one go: a worker takes it from point to point, and in between it stands somewhere.
`Stands` says of a point that a session can stand there, with the calls that have been answered before. Each invariant
holds there. What has been called is what a session calls that is run with the same answers (`journal_of_stands`), and
so the calls of a worker are those of one session also when the worker has not come to its end.
-/

namespace Overseer.Healing

variable {κ : Type}

def Exchange.invocation (cfg : Config κ) (params : Json) (x : Exchange κ) : Invocation :=
  x.stage.invocation cfg params x.session

/-- Surroundings in which it is known beforehand how the calls end. A session is cancelled when no call is left. -/
def Surroundings.known : Surroundings κ (List (Ending κ)) where
  isCancelled endings := endings.isEmpty
  record _ endings := endings
  call _ endings := (endings.headD Call.cancelled, endings.tail)

theorem recordAll_known (steps : List Step) (endings : List (Ending κ)) :
    Surroundings.known.recordAll steps endings = endings := by
  induction steps with
  | nil => rfl
  | cons step steps ih => exact ih

/-- Whoever is told that a session is cancelled before an iteration ends it; all others begin the iteration. -/
theorem passHead_of_not_ended {cfg : Config κ} {cancelled : Bool} (s : Session κ)
    (h : ∀ status, (passHead cfg cancelled s).point ≠ .ended status) :
    passHead cfg cancelled s = passHead cfg false s := by
  rcases passHead_cases cfg cancelled s with ⟨-, hp⟩ | ⟨-, -, hp⟩ | ⟨-, rfl, -⟩
  · exact absurd (congrArg Progress.point hp) (h _)
  · exact absurd (congrArg Progress.point hp) (h _)
  · rfl

/-- The work is cancelled before the executor has begun with it. -/
theorem receive_cancelled [Cost κ] (cfg : Config κ) (est : Estimator κ) (stage : Stage κ)
    (s : Session κ) : receive cfg est stage s (.error .cancelled) = s.stopCancelled := by
  cases stage with
  | verify | diagnose | fix => rfl

variable [Cost κ]

section

variable (cfg : Config κ) (est : Estimator κ) (target : String)

/-- A session on a target can stand at a point after some calls. -/
inductive Stands : List (Exchange κ) → Session κ → Point κ → Prop
  | start : Stands [] (.start cfg target) .head
  | head {log : List (Exchange κ)} {s : Session κ} (h : Stands log s .head) (cancelled : Bool) :
      Stands log (passHead cfg cancelled s).session (passHead cfg cancelled s).point
  | refused {log : List (Exchange κ)} {s : Session κ} {stage : Stage κ}
      (h : Stands log s (.calling stage)) : Stands log s (.ended .cancelled)
  | answered {log : List (Exchange κ)} {s : Session κ} {stage : Stage κ}
      (h : Stands log s (.calling stage)) (answer : Answer κ) :
      Stands (log ++ [⟨s, stage, .answered answer⟩]) (receive cfg est stage s answer).session
        (receive cfg est stage s answer).point

end

variable {cfg : Config κ} {est : Estimator κ} {target : String} {log : List (Exchange κ)}
  {s : Session κ} {point : Point κ}

/-- The points at which a session can stand are those that every invariant comes to. -/
theorem Invariant.of_stands {I : List (Exchange κ) → Session κ → Point κ → Prop}
    (hI : Invariant cfg est I) (hstart : I [] (.start cfg target) .head)
    (h : Stands cfg est target log s point) : I log s point := by
  induction h with
  | start => exact hstart
  | head h cancelled ih => exact hI.head ih cancelled
  | refused h ih => exact hI.refused ih
  | answered h answer ih => exact hI.receive ih answer

/-! ## The session that has been run with the same answers -/

variable {params : Json} {σ : Type} {env : Surroundings κ σ}

/-- There is one course from a point. -/
theorem Course.log_eq {w : σ} {log log' : List (Exchange κ)}
    {r r' : Except Panic (Report κ) × σ} (h : Course cfg est params env s point w log r)
    (h' : Course cfg est params env s point w log' r') : log = log' := by
  induction h generalizing log' r' with
  | ended s status w => cases h' with | ended => rfl
  | head s w next ih => cases h' with | head _ _ next' => exact ih next'
  | refused s stage w hc =>
    cases h' with
    | refused => rfl
    | panicked _ _ hc' | answered _ _ hc' =>
      rw [hc] at hc'
      cases hc'
  | panicked s stage hc hcall =>
    cases h' with
    | refused _ _ _ hc' =>
      rw [hc] at hc'
      cases hc'
    | panicked _ _ _ hcall' =>
      obtain ⟨he, -⟩ := Prod.mk.inj (hcall.symm.trans hcall')
      rw [he]
    | answered _ _ _ hcall' =>
      cases (Prod.mk.inj (hcall.symm.trans hcall')).1
  | answered s stage hc hcall next ih =>
    cases h' with
    | refused _ _ _ hc' =>
      rw [hc] at hc'
      cases hc'
    | panicked _ _ _ hcall' =>
      cases (Prod.mk.inj (hcall.symm.trans hcall')).1
    | answered _ _ _ hcall' next' =>
      obtain ⟨he, hw⟩ := Prod.mk.inj (hcall.symm.trans hcall')
      obtain rfl := Ending.answered.inj he
      subst hw
      rw [ih next']

/-- When no call is left a session ends without another one. -/
theorem exists_course_nil (cfg : Config κ) (est : Estimator κ) (params : Json) (s : Session κ)
    (point : Point κ) : ∃ r, Course cfg est params .known s point [] [] r := by
  cases point with
  | ended status => exact ⟨_, .ended s status []⟩
  | calling stage => exact ⟨_, .refused s stage [] rfl⟩
  | head =>
    have hnext : ∃ status, (passHead cfg true s).point = .ended status := by
      rcases passHead_cases cfg true s with ⟨-, hp⟩ | ⟨-, -, hp⟩ | ⟨-, hfalse, -⟩
      · exact ⟨_, congrArg Progress.point hp⟩
      · exact ⟨_, congrArg Progress.point hp⟩
      · cases hfalse
    obtain ⟨status, hnext⟩ := hnext
    refine ⟨(.ok ((passHead cfg true s).session.report status), []), .head s [] ?_⟩
    rw [recordAll_known]
    show Course cfg est params .known (passHead cfg true s).session (passHead cfg true s).point [] [] _
    rw [hnext]
    exact .ended _ status []

theorem eq_nil_of_course {s : Session κ} {point : Point κ} {rest : List (Exchange κ)}
    {r : Except Panic (Report κ) × List (Ending κ)}
    (h : Course cfg est params .known s point [] rest r) : rest = [] := by
  obtain ⟨_, hnil⟩ := exists_course_nil cfg est params s point
  exact h.log_eq hnil

/-- From the start of a session to the point, and from there on by way of the calls that are still to come. -/
def Leading (cfg : Config κ) (est : Estimator κ) (params : Json) (target : String)
    (log : List (Exchange κ)) (s : Session κ) (point : Point κ) : Prop :=
  ∀ endings rest, ((∃ status, point = .ended status) → endings = []) →
    (∃ r, Course cfg est params .known s point endings rest r) →
    ∃ r, Course cfg est params .known (.start cfg target) .head
      (log.map (·.ending) ++ endings) (log ++ rest) r

theorem leading_head (h : Leading cfg est params target log s .head) (cancelled : Bool) :
    Leading cfg est params target log (passHead cfg cancelled s).session
      (passHead cfg cancelled s).point := by
  intro endings rest hended ⟨r, hcourse⟩
  cases endings with
  | nil =>
    obtain rfl := eq_nil_of_course hcourse
    exact h [] [] (fun _ => rfl) (exists_course_nil cfg est params s .head)
  | cons ending endings =>
    have hpass : passHead cfg cancelled s = passHead cfg false s :=
      passHead_of_not_ended s fun status he => nomatch hended ⟨status, he⟩
    rw [hpass] at hcourse
    refine h _ rest (fun ⟨status, he⟩ => nomatch he) ⟨r, .head s _ ?_⟩
    rw [recordAll_known]
    exact hcourse

theorem leading_refused {stage : Stage κ} (h : Leading cfg est params target log s (.calling stage)) :
    Leading cfg est params target log s (.ended .cancelled) := by
  intro endings rest hended ⟨r, hcourse⟩
  obtain rfl := hended ⟨_, rfl⟩
  obtain rfl := eq_nil_of_course hcourse
  exact h [] [] (fun _ => rfl) (exists_course_nil cfg est params s (.calling stage))

theorem leading_receive {stage : Stage κ} (h : Leading cfg est params target log s (.calling stage))
    (answer : Answer κ) :
    Leading cfg est params target (log ++ [⟨s, stage, .answered answer⟩])
      (receive cfg est stage s answer).session (receive cfg est stage s answer).point := by
  intro endings rest _ ⟨r, hcourse⟩
  have hlead := h (.answered answer :: endings) (⟨s, stage, .answered answer⟩ :: rest)
    (fun ⟨status, he⟩ => nomatch he) ⟨r, .answered s stage rfl rfl ?_⟩
  · simpa using hlead
  · rw [recordAll_known]
    exact hcourse

theorem leading_invariant (cfg : Config κ) (est : Estimator κ) (params : Json) (target : String) :
    Invariant cfg est (Leading cfg est params target) where
  head := leading_head
  refused := leading_refused
  receive := leading_receive

/-- A session that stands somewhere has called what is called by the one that is run with the same answers. -/
theorem journal_of_stands (params : Json) (h : Stands cfg est target log s point) :
    journal cfg est params .known target (log.map (·.ending)) = log := by
  have hstart : Leading cfg est params target [] (.start cfg target) .head :=
    fun _ _ _ hcourse => hcourse
  have hlead := (leading_invariant cfg est params target).of_stands hstart h
  obtain ⟨r, hcourse⟩ := hlead [] [] (fun _ => rfl) (exists_course_nil cfg est params s point)
  rw [List.append_nil, List.append_nil] at hcourse
  exact (course_run cfg est params .known target _).log_eq hcourse

end Overseer.Healing
