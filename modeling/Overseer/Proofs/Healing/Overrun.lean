import Overseer.Proofs.Cost.Ordered
import Overseer.Proofs.Healing.Course
import Overseer.Script.Rehearsal

/-! # When the fix that is booked is not the one that was admitted

A fix is admitted before the diagnosis, at the price of the file that the session is at, and it is booked afterwards, at
the price of the file that it is made for. Between the two the diagnosis can move the session. As long as it does not,
one sum is compared with the ceiling twice, and what has been spent stays under it. That is why sums may be rounded
here, and doubles are among the costs.

`Priced` says for each point of a session what has been spent and for which file the coming fix has been admitted. It is
left with an overrun by a fix for another file alone, and then the session is over.
-/

namespace Overseer.Healing

variable {κ σ : Type} [Cost κ]

/-- What a fix says that it cost. -/
def Exchange.reported (x : Exchange κ) : Option κ :=
  match x.stage, x.ending with
  | .fix .., .answered (.ok output) => output.cost
  | _, _ => none

/-- An amount that is under the ceiling. -/
def Affordable (cfg : Config κ) (spent : κ) : Prop :=
  Cost.le Cost.zero spent = true ∧ Cost.le spent (Cost.floor cfg.maxCost) = true

/-- What will have been spent once a session has paid for a fix. -/
def bill (cfg : Config κ) (price : WorkUnit → κ) (s : Session κ) : κ :=
  Cost.add s.budget.spent (Cost.floor (price (fixUnit cfg s)))

/-- The last diagnosis has moved the session to another file, and what had been admitted for the first file was too
little for the second. -/
def MovedPast (cfg : Config κ) (price : WorkUnit → κ) (log : List (Exchange κ)) (spent : κ) : Prop :=
  ∃ earlier d f, log = earlier ++ [d, f] ∧ d.isDiagnose = true ∧ f.isFix = true ∧
    f.session.iteration = d.session.iteration ∧ f.session.budget = d.session.budget ∧
    f.session.target ≠ d.session.target ∧
    Cost.le (bill cfg price d.session) (Cost.floor cfg.maxCost) = true ∧
    Cost.lt (Cost.floor cfg.maxCost) (bill cfg price f.session) = true ∧
    spent = bill cfg price f.session

def PointPriced (cfg : Config κ) (price : WorkUnit → κ) (past : List (Exchange κ)) (s : Session κ) :
    Point κ → Prop
  | .head | .calling .verify => Affordable cfg s.budget.spent
  | .calling (.diagnose ..) =>
      Affordable cfg s.budget.spent ∧
        Cost.le (bill cfg price s) (Cost.floor cfg.maxCost) = true
  | .calling (.fix ..) =>
      Affordable cfg s.budget.spent ∧ ∃ earlier d, past = earlier ++ [d] ∧ d.isDiagnose = true ∧
        s.iteration = d.session.iteration ∧ s.budget = d.session.budget ∧
        Cost.le (bill cfg price d.session) (Cost.floor cfg.maxCost) = true
  | .ended status =>
      Affordable cfg s.budget.spent ∨
        status = .budgetExceeded ∧ MovedPast cfg price past s.budget.spent

/-- As long as no fix says what it cost. -/
structure Priced (cfg : Config κ) (price : WorkUnit → κ) (past : List (Exchange κ)) (s : Session κ)
    (point : Point κ) : Prop where
  ceiling : s.budget.ceiling = Cost.floor cfg.maxCost
  point : (∀ x ∈ past, x.reported = none) → PointPriced cfg price past s point

variable {cfg : Config κ} {price : WorkUnit → κ} {past : List (Exchange κ)} {s : Session κ}

theorem bill_le_of_admits (hc : s.budget.ceiling = Cost.floor cfg.maxCost)
    (h : s.budget.admits (price (fixUnit cfg s)) = true) :
    Cost.le (bill cfg price s) (Cost.floor cfg.maxCost) = true := by
  unfold Budget.admits at h
  rw [hc] at h
  split at h
  · cases h
  · exact h

/-- Before a call what has been spent is under the ceiling. -/
theorem Priced.affordable {stage : Stage κ} (h : Priced cfg price past s (.calling stage))
    (hbills : ∀ x ∈ past, x.reported = none) : Affordable cfg s.budget.spent := by
  have hpoint := h.point hbills
  cases stage with
  | verify => exact hpoint
  | diagnose failure estimate => exact hpoint.1
  | fix failure estimate d => exact hpoint.1

theorem priced_passHead (h : Priced cfg price past s .head) (cancelled : Bool) :
    Priced cfg price past (passHead cfg cancelled s).session (passHead cfg cancelled s).point := by
  rcases passHead_cases cfg cancelled s with ⟨-, hp⟩ | ⟨-, -, hp⟩ | ⟨-, -, hp⟩
  · rw [hp]
    exact ⟨h.ceiling, fun hbills => Or.inl (h.point hbills)⟩
  · rw [hp]
    exact ⟨h.ceiling, fun hbills => Or.inl (h.point hbills)⟩
  · rw [hp]
    exact ⟨h.ceiling, h.point⟩

theorem priced_refused {stage : Stage κ} (h : Priced cfg price past s (.calling stage)) :
    Priced cfg price past s (.ended .cancelled) :=
  ⟨h.ceiling, fun hbills => Or.inl (h.affordable hbills)⟩

theorem priced_judge (h : Priced cfg price past s (.calling .verify)) (failure : String)
    (answer : Answer κ) :
    Priced cfg price (past ++ [⟨s, .verify, .answered answer⟩])
      (s.judge cfg (.ofEstimate price) failure).session
      (s.judge cfg (.ofEstimate price) failure).point := by
  rw [judge_session, judge_point]
  refine ⟨h.ceiling, fun hbills => ?_⟩
  have hspent : Affordable cfg (s.blame failure).budget.spent :=
    h.affordable fun x hx => hbills x (List.mem_append_left _ hx)
  split
  · exact Or.inl hspent
  · split
    · exact Or.inl hspent
    · split
      · rename_i hadmits
        exact ⟨hspent, bill_le_of_admits h.ceiling hadmits⟩
      · exact Or.inl hspent

theorem book_ceiling (b : Budget κ) (cost : κ) : (b.book cost).ceiling = b.ceiling := by
  unfold Budget.book
  split
  · rfl
  · rfl

theorem pay_ceiling (s : Session κ) (est : Estimator κ) (answer : Answer κ) :
    (s.pay cfg est answer).ceiling = s.budget.ceiling := by
  cases answer with
  | error e => rfl
  | ok output => exact book_ceiling _ _

/-- A fix that does not say what it cost is booked at its price, if at all. -/
theorem pay_spent (cfg : Config κ) (price : WorkUnit → κ) (s : Session κ) {answer : Answer κ}
    (hbill : ∀ output, answer = .ok output → output.cost = none) :
    (s.pay cfg (.ofEstimate price) answer).spent = s.budget.spent ∨
      (s.pay cfg (.ofEstimate price) answer).spent = bill cfg price s := by
  cases answer with
  | error e => exact Or.inl rfl
  | ok output =>
    rw [Session.pay, hbill output rfl]
    unfold Budget.book
    split
    · exact Or.inr rfl
    · exact Or.inl rfl

/-- The bill is for the file that the session is at. -/
theorem bill_congr {s s' : Session κ} (hiteration : s.iteration = s'.iteration)
    (hbudget : s.budget = s'.budget) (htarget : s.target = s'.target) :
    bill cfg price s = bill cfg price s' := by
  unfold bill fixUnit
  rw [hiteration, hbudget, htarget]

variable [OrderedCost κ]

/-- What is not too much for the budget has been paid out of it. -/
theorem affordable_pay {answer : Answer κ} (hc : s.budget.ceiling = Cost.floor cfg.maxCost)
    (hspent : Affordable cfg s.budget.spent)
    (hbill : ∀ output, answer = .ok output → output.cost = none)
    (hover : (s.pay cfg (.ofEstimate price) answer).overspent = false) :
    Affordable cfg (s.pay cfg (.ofEstimate price) answer).spent := by
  rcases pay_spent cfg price s hbill with hpay | hpay
  · rwa [hpay]
  · unfold Budget.overspent at hover
    rw [pay_ceiling, hc, hpay] at hover
    rw [hpay]
    have hzero : Cost.le Cost.zero (bill cfg price s) = true :=
      OrderedCost.zero_le_add hspent.1 (OrderedCost.zero_le_floor _)
    exact ⟨hzero, OrderedCost.le_of_not_lt hzero (OrderedCost.zero_le_floor _) hover⟩

/-- What is too much is the price of the fix that has been made. -/
theorem bill_of_overspent {answer : Answer κ} (hc : s.budget.ceiling = Cost.floor cfg.maxCost)
    (hspent : Affordable cfg s.budget.spent)
    (hbill : ∀ output, answer = .ok output → output.cost = none)
    (hover : (s.pay cfg (.ofEstimate price) answer).overspent = true) :
    (s.pay cfg (.ofEstimate price) answer).spent = bill cfg price s ∧
      Cost.lt (Cost.floor cfg.maxCost) (bill cfg price s) = true := by
  unfold Budget.overspent at hover
  rw [pay_ceiling, hc] at hover
  rcases pay_spent cfg price s hbill with hpay | hpay
  · rw [hpay, OrderedCost.not_lt_of_le hspent.2] at hover
    cases hover
  · rw [hpay] at hover
    exact ⟨hpay, hover⟩

/-- A fix is booked at the price of the file that it is made for, and there is room for the one for which it was
admitted. -/
theorem priced_fixed {failure : String} {estimate : κ} {d : Diagnosis}
    (h : Priced cfg price past s (.calling (.fix failure estimate d))) (answer : Answer κ) :
    Priced cfg price (past ++ [⟨s, .fix failure estimate d, .answered answer⟩])
      (s.fixed cfg (.ofEstimate price) estimate answer).session
      (s.fixed cfg (.ofEstimate price) estimate answer).point := by
  obtain ⟨hs, hp⟩ := fixed_cases s cfg (.ofEstimate price) estimate answer
  rw [hs]
  refine ⟨(pay_ceiling s _ answer).trans h.ceiling, fun hbills => ?_⟩
  obtain ⟨hspent, earlier, x, rfl, hx, hiteration, hbudget, hadmitted⟩ :=
    h.point fun x hx => hbills x (List.mem_append_left _ hx)
  have hbill (output : Output κ) (hanswer : answer = .ok output) : output.cost = none := by
    subst hanswer
    exact hbills _ (List.mem_append_right _ (List.mem_singleton_self _))
  rcases hp with ⟨hp, rfl⟩ | hp
  · rw [hp]
    exact Or.inl hspent
  rw [hp]
  cases hover : (s.pay cfg (.ofEstimate price) answer).overspent with
  | false => exact affordable_pay h.ceiling hspent hbill hover
  | true =>
    obtain ⟨hpay, hlt⟩ := bill_of_overspent h.ceiling hspent hbill hover
    refine Or.inr ⟨rfl, earlier, x, _, by rw [List.append_assoc]; rfl, hx, rfl, hiteration, hbudget,
      fun htarget => ?_, hadmitted, hlt, hpay⟩
    -- At the same file the bill is the one that was admitted.
    rw [bill_congr hiteration hbudget htarget, OrderedCost.not_lt_of_le hadmitted] at hlt
    cases hlt

theorem priced_receive {stage : Stage κ} (h : Priced cfg price past s (.calling stage))
    (answer : Answer κ) :
    Priced cfg price (past ++ [⟨s, stage, .answered answer⟩])
      (receive cfg (.ofEstimate price) stage s answer).session
      (receive cfg (.ofEstimate price) stage s answer).point := by
  have hended {x : Exchange κ} (hbills : ∀ y ∈ past ++ [x], y.reported = none) : Affordable cfg s.budget.spent :=
    h.affordable fun y hy => hbills y (List.mem_append_left _ hy)
  cases stage with
  | verify =>
    rcases verified_cases s cfg (.ofEstimate price) answer with
      ⟨-, hs, hp⟩ | ⟨-, hs, hp⟩ | ⟨failure, -, hjudge⟩
    · rw [receive, hs, hp]
      exact ⟨h.ceiling, fun hbills => Or.inl (hended hbills)⟩
    · rw [receive, hs, hp]
      exact ⟨h.ceiling, fun hbills => Or.inl (hended hbills)⟩
    · rw [receive, hjudge]
      exact priced_judge h failure answer
  | diagnose failure estimate =>
    rcases diagnosed_cases s failure estimate answer with ⟨hp, hs⟩ | ⟨d, _, _, hs, hp, -⟩
    · rw [receive, hs, hp]
      exact ⟨h.ceiling, fun hbills => Or.inl (hended hbills)⟩
    · rw [receive, hs, hp]
      refine ⟨h.ceiling, fun hbills => ⟨hended hbills, past, _, rfl, rfl, rfl, rfl, ?_⟩⟩
      exact (h.point fun x hx => hbills x (List.mem_append_left _ hx)).2
  | fix failure estimate d => exact priced_fixed h answer

theorem priced_invariant (cfg : Config κ) (price : WorkUnit → κ) :
    Invariant cfg (.ofEstimate price) (Priced cfg price) where
  head := priced_passHead
  refused := priced_refused
  receive := priced_receive

theorem priced_start (cfg : Config κ) (price : WorkUnit → κ) (target : String) :
    Priced cfg price [] (.start cfg target) .head :=
  ⟨rfl, fun _ => ⟨OrderedCost.zero_le_zero, OrderedCost.zero_le_floor _⟩⟩

/-- A session in which no fix says what it cost ends within its budget, unless it ends with a fix for a file to which
the diagnosis before it had moved the session. Then the budget had room for a fix at the price of the file before, and
the session ends because it was not enough. -/
theorem spent_within_unless_moved (cfg : Config κ) (price : WorkUnit → κ) (params : Json)
    (env : Surroundings κ σ) (target : String) (w : σ) {report : Report κ}
    (hr : (run cfg (.ofEstimate price) params env target w).1 = .ok report)
    (hbills : ∀ x ∈ journal cfg (.ofEstimate price) params env target w, x.reported = none) :
    Cost.le report.cost (Cost.floor cfg.maxCost) = true ∨
      report.status = .budgetExceeded ∧
        MovedPast cfg price (journal cfg (.ofEstimate price) params env target w) report.cost := by
  have hcourse := course_run cfg (.ofEstimate price) params env target w
  rcases (priced_invariant cfg price).course_end hcourse [] (priced_start cfg price target) with
    ⟨s, status, hok, hpriced⟩ | ⟨panic, -, -, -, herror, -⟩
  · obtain rfl := Except.ok.inj (hok.symm.trans hr)
    exact (hpriced.point hbills).imp_left And.right
  · cases herror.symm.trans hr

/-! ## A session that is moved -/

/-- Two prices: one for the file in which the defect lives, and one for all others. -/
def helperPrice (price helper : Float) (unit : WorkUnit) : Float :=
  if unit.target = some "src/helper.rs" then helper else price

/-- Two iterations, which may cost one altogether. -/
def movedConfig : Config Float :=
  ⟨2, 5, 1, .ofSecs 300, "run_checks", "diagnose", "generate_fix"⟩

/-- The first verification fails, and the diagnosis moves the session. -/
def movedRehearsal : Script.Session Float :=
  .new (.new (.new [("run_checks", [.answer (.ok (.failure "1 failed"))])]
    [("run_checks", .answer (.ok (.success .null))),
      ("diagnose", .answer (.ok (.success (.object [("summary", .string "off by one"),
        ("target_file", .string "src/helper.rs")])))),
      ("generate_fix", .answer (.ok (.success .null)))] .shut) false) (.ofNat 7)

def movedSurroundings : Surroundings Float (Script.Session Float) :=
  Script.Session.surroundings movedConfig.iterationTimeout

def movedRun (est : Estimator Float) : Except Panic (Report Float) :=
  (run movedConfig est .null movedSurroundings "src/lib.rs" movedRehearsal).1

def movedJournal (est : Estimator Float) : List (Exchange Float) :=
  journal movedConfig est .null movedSurroundings "src/lib.rs" movedRehearsal

/-- A dearer file, for which there is room. -/
theorem spent_within_unless_moved_of_room :
    let price := helperPrice 0.25 0.5
    ∃ report, movedRun (.ofEstimate price) = .ok report ∧ report.target = "src/helper.rs" ∧
      (∀ x ∈ movedJournal (.ofEstimate price), x.reported = none) ∧
      Cost.le report.cost (Cost.floor movedConfig.maxCost) = true := by
  intro price
  have hend : (movedRun (.ofEstimate price)).toOption.map (fun report => (report.status, report.target))
      = some (.success, "src/helper.rs") := by
    decide +kernel
  have hreports : (movedJournal (.ofEstimate price)).all (·.reported.isNone) = true := by
    decide +kernel
  cases hrun : movedRun (.ofEstimate price) with
  | error panic =>
    rw [hrun] at hend
    cases hend
  | ok report =>
    rw [hrun] at hend
    obtain ⟨hstatus, htarget⟩ := Prod.mk.inj (Option.some.inj hend)
    have hnone (x : Exchange Float) (hx : x ∈ movedJournal (.ofEstimate price)) : x.reported = none :=
      Option.isNone_iff_eq_none.mp (List.all_eq_true.mp hreports x hx)
    refine ⟨report, rfl, htarget, hnone, ?_⟩
    rcases spent_within_unless_moved movedConfig price .null movedSurroundings "src/lib.rs"
        movedRehearsal hrun hnone with hle | ⟨hover, -⟩
    · exact hle
    · cases hstatus.symm.trans hover

/-- The budget is not kept by every price that is at least zero. -/
theorem exists_spent_past_ceiling :
    ¬ ∀ (cfg : Config Float) (price : WorkUnit → Float) (params : Json)
        (env : Surroundings Float (Script.Session Float)) (target : String) (w : Script.Session Float)
        (report : Report Float),
      (∀ unit, Cost.le Cost.zero (price unit) = true) →
      (∀ x ∈ journal cfg (.ofEstimate price) params env target w, x.reported = none) →
      (run cfg (.ofEstimate price) params env target w).1 = .ok report →
      Cost.le report.cost (Cost.floor cfg.maxCost) = true := by
  intro hall
  have hprice (unit : WorkUnit) : Cost.le Cost.zero (helperPrice 0.2 1.5 unit) = true := by
    unfold helperPrice
    split
    · decide
    · decide
  have hreports : (movedJournal (.ofEstimate (helperPrice 0.2 1.5))).all (·.reported.isNone) = true := by
    decide +kernel
  have hpast : (movedRun (.ofEstimate (helperPrice 0.2 1.5))).toOption.map
      (fun report => Cost.le report.cost (Cost.floor movedConfig.maxCost)) = some false := by
    decide +kernel
  cases hrun : movedRun (.ofEstimate (helperPrice 0.2 1.5)) with
  | error panic =>
    rw [hrun] at hpast
    cases hpast
  | ok report =>
    have hle := hall movedConfig _ .null movedSurroundings "src/lib.rs" movedRehearsal report hprice
      (fun x hx => Option.isNone_iff_eq_none.mp (List.all_eq_true.mp hreports x hx)) hrun
    rw [hrun] at hpast
    cases hle.symm.trans (Option.some.inj hpast)

end Overseer.Healing
