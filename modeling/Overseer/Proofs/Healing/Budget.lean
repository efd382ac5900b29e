import Overseer.Proofs.Cost.Exact
import Overseer.Proofs.Healing.Course
import Mathlib.Data.List.Induction

/-! # The budget of a healing session

With costs that are added up exactly, what a session has spent is the sum of what has been booked for its fixes
(`total`). `Lawful` is what holds at each point of a session: before a call the total is under the ceiling, and
a fix is preceded by a diagnosis before which its estimate was admitted. It is kept by every answer
(`lawful_receive`) and so along a whole course (`lawful_course`).
-/

namespace Overseer.Healing

variable {σ : Type} (cfg : Config Exact) (est : Estimator Exact)

/-- What is booked for a call: the cost of a fix that came to an output. -/
def Exchange.booked (x : Exchange Exact) : ℚ :=
  match x.stage, x.ending with
  | .fix .., .answered (.ok output) =>
      (output.cost.getD (est.actual (fixUnit cfg x.session))).credit
  | _, _ => 0

def total (log : List (Exchange Exact)) : ℚ := (log.map (·.booked cfg est)).sum

def ceiling : Exact := cfg.maxCost.floor

/-- After the calls so far, the budget has room for what a fix of the session is estimated to cost. -/
def Admitted (past : List (Exchange Exact)) (s : Session Exact) : Prop :=
  est.estimate (fixUnit cfg s) ≠ .nan ∧
    Exact.rat (total cfg est past) + (est.estimate (fixUnit cfg s)).floor ≤ ceiling cfg

/-- What holds at a point of a session after the calls so far. -/
def PointLaw (past : List (Exchange Exact)) (s : Session Exact) : Point Exact → Prop
  | .ended status => ceiling cfg < .rat (total cfg est past) → status = .budgetExceeded
  | .head | .calling .verify => Exact.rat (total cfg est past) ≤ ceiling cfg
  | .calling (.diagnose ..) => Admitted cfg est past s
  | .calling (.fix ..) =>
      ∃ earlier y, past = earlier ++ [y] ∧ y.isDiagnose = true ∧
        y.session.iteration = s.iteration ∧ Admitted cfg est earlier y.session

structure Lawful (past : List (Exchange Exact)) (s : Session Exact) (point : Point Exact) :
    Prop where
  budget : s.budget = ⟨ceiling cfg, .rat (total cfg est past)⟩
  point : PointLaw cfg est past s point

variable {cfg est} {past log before after : List (Exchange Exact)} {s : Session Exact}
  {point : Point Exact} {x : Exchange Exact}

/-! ## Sums -/

theorem booked_nonneg (x : Exchange Exact) : 0 ≤ x.booked cfg est := by
  unfold Exchange.booked
  split
  · exact Exact.credit_nonneg _
  · exact le_refl 0

theorem booked_of_not_isFix (h : x.isFix = false) : x.booked cfg est = 0 := by
  unfold Exchange.isFix at h
  unfold Exchange.booked
  split at h
  · cases h
  · rename_i hstage
    rw [hstage]
  · rename_i hstage
    rw [hstage]

theorem total_append (log more : List (Exchange Exact)) :
    total cfg est (log ++ more) = total cfg est log + total cfg est more := by
  simp [total]

theorem total_singleton (x : Exchange Exact) : total cfg est [x] = x.booked cfg est := by
  simp [total]

theorem total_of_not_isFix (h : x.isFix = false) :
    total cfg est (log ++ [x]) = total cfg est log := by
  rw [total_append, total_singleton, booked_of_not_isFix h, add_zero]

/-- Before a call what has been spent is under the ceiling. -/
theorem Lawful.total_le {stage : Stage Exact} (h : Lawful cfg est past s (.calling stage)) :
    Exact.rat (total cfg est past) ≤ ceiling cfg := by
  have hpoint := h.point
  cases stage with
  | verify => exact hpoint
  | diagnose failure estimate => exact Exact.le_floor_of_add_le hpoint.2
  | fix failure estimate d =>
    obtain ⟨earlier, y, rfl, hy, -, hadmitted⟩ := hpoint
    rw [total_of_not_isFix (isFix_of_isDiagnose hy)]
    exact Exact.le_floor_of_add_le hadmitted.2

/-- A fix follows a diagnosis that was admitted. -/
theorem Lawful.of_isFix (h : Lawful cfg est past x.session (.calling x.stage))
    (hx : x.isFix = true) :
    ∃ earlier y, past = earlier ++ [y] ∧ y.isDiagnose = true ∧
      y.session.iteration = x.session.iteration ∧ Admitted cfg est earlier y.session := by
  have hpoint := h.point
  unfold Exchange.isFix at hx
  split at hx
  · rename_i hstage
    rw [hstage] at hpoint
    exact hpoint
  · cases hx
  · cases hx

/-! ## What a session keeps -/

/-- With a total that is under the ceiling a session may end in any way. -/
theorem lawful_ended (hb : s.budget = ⟨ceiling cfg, .rat (total cfg est past)⟩)
    (hle : Exact.rat (total cfg est past) ≤ ceiling cfg) (status : Status) :
    Lawful cfg est past s (.ended status) :=
  ⟨hb, fun hlt => absurd hlt (Exact.not_lt_floor_iff.mpr hle)⟩

theorem lawful_start (cfg : Config Exact) (est : Estimator Exact) (target : String) :
    Lawful cfg est [] (.start cfg target) .head :=
  ⟨rfl, Exact.zero_le_floor cfg.maxCost⟩

theorem lawful_passHead (h : Lawful cfg est past s .head) (cancelled : Bool) :
    Lawful cfg est past (passHead cfg cancelled s).session (passHead cfg cancelled s).point := by
  rcases passHead_cases cfg cancelled s with ⟨-, hp⟩ | ⟨-, -, hp⟩ | ⟨-, -, hp⟩
  · rw [hp]
    exact lawful_ended h.budget h.point _
  · rw [hp]
    exact lawful_ended h.budget h.point _
  · rw [hp]
    exact ⟨h.budget, h.point⟩

/-- A failure leads to a diagnosis only when the estimate of the fix is admitted. -/
theorem lawful_judge (hb : s.budget = ⟨ceiling cfg, .rat (total cfg est past)⟩)
    (hle : Exact.rat (total cfg est past) ≤ ceiling cfg) (failure : String) :
    Lawful cfg est past (s.judge cfg est failure).session (s.judge cfg est failure).point := by
  have hblame : (s.blame failure).budget = ⟨ceiling cfg, .rat (total cfg est past)⟩ := hb
  rw [judge_session, judge_point]
  split
  · exact lawful_ended hblame hle _
  · split
    · exact lawful_ended hblame hle _
    · split
      · rename_i hadmits
        rw [hb, Budget.admits_iff] at hadmits
        exact ⟨hblame, hadmits⟩
      · exact lawful_ended hblame hle _

theorem lawful_fixed {failure : String} {estimate : Exact} {d : Diagnosis}
    (h : Lawful cfg est past s (.calling (.fix failure estimate d))) (answer : Answer Exact) :
    Lawful cfg est (past ++ [⟨s, .fix failure estimate d, .answered answer⟩])
      (s.fixed cfg est estimate answer).session (s.fixed cfg est estimate answer).point := by
  have hpay : s.pay cfg est answer = ⟨ceiling cfg,
      .rat (total cfg est (past ++ [⟨s, .fix failure estimate d, .answered answer⟩]))⟩ := by
    rw [total_append, total_singleton]
    cases answer with
    | ok output => rw [Session.pay, h.budget, Budget.book_rat]; rfl
    | error e => rw [Session.pay, h.budget]; simp [Exchange.booked]
  obtain ⟨hs, ⟨hp, rfl⟩ | hp⟩ := fixed_cases s cfg est estimate answer
  · rw [hs, hp]
    refine lawful_ended hpay ?_ _
    rw [total_append, total_singleton]
    simpa [Exchange.booked] using h.total_le
  · rw [hs, hp]
    split
    · exact ⟨hpay, fun _ => rfl⟩
    · rename_i hwithin
      rw [hpay, Budget.overspent_iff] at hwithin
      exact ⟨hpay, Exact.not_lt_floor_iff.mp hwithin⟩

/-- Every answer keeps the law. -/
theorem lawful_receive {stage : Stage Exact} (h : Lawful cfg est past s (.calling stage))
    (answer : Answer Exact) :
    Lawful cfg est (past ++ [⟨s, stage, .answered answer⟩])
      (receive cfg est stage s answer).session (receive cfg est stage s answer).point := by
  have hb := h.budget
  have hle := h.total_le
  cases stage with
  | verify =>
    have htotal : total cfg est (past ++ [⟨s, .verify, .answered answer⟩]) = total cfg est past :=
      total_of_not_isFix rfl
    rw [← htotal] at hb hle
    rcases verified_cases s cfg est answer with ⟨-, hs, hp⟩ | ⟨-, hs, hp⟩ | ⟨failure, -, hj⟩
    · rw [receive, hs, hp]
      exact lawful_ended hb hle _
    · rw [receive, hs, hp]
      exact lawful_ended hb hle _
    · rw [receive, hj]
      exact lawful_judge hb hle failure
  | diagnose failure estimate =>
    have htotal : total cfg est (past ++ [⟨s, .diagnose failure estimate, .answered answer⟩])
        = total cfg est past := total_of_not_isFix rfl
    rw [← htotal] at hb hle
    rcases diagnosed_cases s failure estimate answer with ⟨hp, hs⟩ | ⟨d, _, _, hs, hp, -⟩
    · rw [receive, hs, hp]
      exact lawful_ended hb hle _
    · rw [receive, hs, hp]
      exact ⟨hb, past, _, rfl, rfl, rfl, h.point⟩
  | fix failure estimate d => exact lawful_fixed h answer

theorem lawful_invariant (cfg : Config Exact) (est : Estimator Exact) :
    Invariant cfg est (Lawful cfg est) where
  head := lawful_passHead
  refused hl := lawful_ended hl.budget hl.total_le _
  receive := lawful_receive

/-- Before each call the law holds, and at the end. A call that breaks down costs nothing. -/
theorem lawful_course {params : Json} {env : Surroundings Exact σ} {w : σ}
    {r : Except Panic (Report Exact) × σ} (h : Course cfg est params env s point w log r)
    (hl : Lawful cfg est past s point) :
    (∀ before x after, log = before ++ x :: after →
      Lawful cfg est (past ++ before) x.session (.calling x.stage)) ∧
    ((∃ s' status, r.1 = .ok (s'.report status) ∧
        Lawful cfg est (past ++ log) s' (.ended status)) ∨
      (∃ panic, r.1 = .error panic) ∧
        Exact.rat (total cfg est (past ++ log)) ≤ ceiling cfg) := by
  have hI := lawful_invariant cfg est
  refine ⟨hI.course_calls h past hl, (hI.course_end h past hl).imp_right ?_⟩
  rintro ⟨panic, before, s', stage, hr, rfl, hlast⟩
  have hzero : Exchange.booked cfg est ⟨s', stage, .panicked panic⟩ = 0 := by
    cases stage <;> rfl
  refine ⟨⟨panic, hr⟩, ?_⟩
  rw [← List.append_assoc, total_append, total_singleton, hzero, add_zero]
  exact hlast.total_le

/-! ## The law -/

/-- The last fix of a session, if it came to one. -/
def lastFix? {κ : Type} (log : List (Exchange κ)) : Option (Exchange κ) :=
  (log.filter (·.isFix)).getLast?

/-- Where each fix was called under the ceiling, only the last one can lead past it. -/
theorem total_le_add_lastFix
    (h : ∀ before x after, log = before ++ x :: after → x.isFix = true →
      Exact.rat (total cfg est before) ≤ ceiling cfg) :
    Exact.rat (total cfg est log)
      ≤ ceiling cfg + .rat (((lastFix? log).map (·.booked cfg est)).getD 0) := by
  induction log using List.reverseRecOn with
  | nil =>
    have hzero := Exact.le_floor_add (Exact.zero_le_floor cfg.maxCost) 0
    rwa [add_zero] at hzero
  | append_singleton log x ih =>
    cases hx : x.isFix with
    | true =>
      have hlast : lastFix? (log ++ [x]) = some x := by
        simp [lastFix?, hx]
      rw [hlast, total_append, total_singleton]
      exact Exact.le_floor_add (h log x [] rfl hx) _
    | false =>
      have hlast : lastFix? (log ++ [x]) = lastFix? log := by
        simp [lastFix?, hx]
      rw [hlast, total_of_not_isFix hx]
      refine ih fun before y after hlog hy => h before y (after ++ [x]) ?_ hy
      rw [hlog, List.append_assoc, List.cons_append]

/-- A session and its budget, for any prices, any surroundings and any moment of a cancellation. -/
theorem budget_law (cfg : Config Exact) (est : Estimator Exact) (params : Json)
    (env : Surroundings Exact σ) (target : String) (w : σ) :
    let log := journal cfg est params env target w
    let result := (run cfg est params env target w).1
    -- A fix follows a diagnosis, and before that the estimate was admitted.
    (∀ before x after, log = before ++ x :: after → x.isFix = true →
      ∃ earlier y, before = earlier ++ [y] ∧ y.isDiagnose = true ∧
        y.session.iteration = x.session.iteration ∧ Admitted cfg est earlier y.session) ∧
    -- What has been spent is the sum so far, at each call and at the end, and it never shrinks.
    (∀ before x after, log = before ++ x :: after →
      x.session.budget.spent = .rat (total cfg est before) ∧
        total cfg est before ≤ total cfg est (before ++ [x])) ∧
    (∀ report, result = .ok report → report.cost = .rat (total cfg est log)) ∧
    -- Past the ceiling nothing is called any more.
    (∀ before after, log = before ++ after → ceiling cfg < .rat (total cfg est before) →
      after = [] ∧ ∃ report, result = .ok report ∧ report.status = .budgetExceeded) ∧
    Exact.rat (total cfg est log)
      ≤ ceiling cfg + .rat (((lastFix? log).map (·.booked cfg est)).getD 0) := by
  intro log result
  obtain ⟨hcalls, hend⟩ := lawful_course (course_run cfg est params env target w)
    (lawful_start cfg est target)
  simp only [List.nil_append] at hcalls hend
  refine ⟨fun before x after hlog hfix => ?_, fun before x after hlog => ⟨?_, ?_⟩,
    fun report hreport => ?_, fun before after hlog hover => ?_,
    total_le_add_lastFix fun before x after hlog _ => (hcalls before x after hlog).total_le⟩
  · exact (hcalls before x after hlog).of_isFix hfix
  · rw [(hcalls before x after hlog).budget]
  · rw [total_append, total_singleton]
    have hx : 0 ≤ x.booked cfg est := booked_nonneg x
    linarith
  · rcases hend with ⟨s, status, hok, hlawful⟩ | ⟨⟨panic, herror⟩, -⟩
    · obtain rfl := Except.ok.inj (hok.symm.trans hreport)
      exact congrArg Budget.spent hlawful.budget
    · cases herror.symm.trans hreport
  · have hafter : after = [] := by
      cases after with
      | nil => rfl
      | cons x after =>
        exact absurd hover (Exact.not_lt_floor_iff.mpr (hcalls before x after hlog).total_le)
    subst hafter
    rw [List.append_nil] at hlog
    rw [← hlog] at hover
    rcases hend with ⟨s, status, hok, hlawful⟩ | ⟨-, hle⟩
    · exact ⟨rfl, _, hok, hlawful.point hover⟩
    · exact absurd hover (Exact.not_lt_floor_iff.mpr hle)

end Overseer.Healing
