import Overseer.Proofs.Cost.Exact
import Overseer.Proofs.Healing.Iteration

/-! # The shape of a healing session

Iterations make their calls in one order, so the calls of a session go round in `laps`: a verification, a diagnosis
and a fix. `Shaped` says for each point of a session how far round it has come, and that the session counts its
verifications as it counts its iterations. It is kept from point to point (`shaped_passHead`, `shaped_receive`) and
so holds at the end (`shaped_invariant`), where it leaves each status its own shape.

A session begins its first iteration only when it has not been cancelled. That one point comes before the invariant,
which counts iterations from one.
-/

namespace Overseer.Healing

inductive Label
  | verify
  | diagnose
  | fix
  deriving Repr, DecidableEq

variable {κ σ : Type}

def Stage.label : Stage κ → Label
  | .verify => .verify
  | .diagnose .. => .diagnose
  | .fix .. => .fix

def labels (log : List (Exchange κ)) : List Label := log.map (·.stage.label)

def lap : List Label := [.verify, .diagnose, .fix]

def laps (n : Nat) : List Label := (List.replicate n lap).flatten

/-- The calls of a session with `most` iterations at most that has ended in its iteration `n`. -/
def Status.Calls (most n : Nat) (calls : List Label) : Status → Prop
  | .success | .loopDetected | .iterationsExhausted => calls = laps (n - 1) ++ [.verify]
  | .budgetExceeded => n < most ∧ (calls = laps (n - 1) ++ [.verify] ∨ calls = laps n)
  | .cancelled => calls <+: laps n ∧ calls.count .verify ≤ n

/-- The calls that have been made when a point of the iteration `n` is reached. -/
def PointCalls (most n : Nat) (calls : List Label) : Point κ → Prop
  | .head => n < most ∧ calls = laps n
  | .calling .verify => calls = laps (n - 1)
  | .calling (.diagnose ..) => n < most ∧ calls = laps (n - 1) ++ [.verify]
  | .calling (.fix ..) => n < most ∧ calls = laps (n - 1) ++ [.verify, .diagnose]
  | .ended status => status.Calls most n calls

structure Shaped (most : Nat) (past : List (Exchange κ)) (s : Session κ) (point : Point κ) :
    Prop where
  verifications : s.verifications = s.iteration
  begun : 1 ≤ s.iteration
  within : s.iteration ≤ most
  calls : PointCalls most s.iteration (labels past) point

/-! ## Laps -/

theorem laps_succ (n : Nat) : laps (n + 1) = laps n ++ lap := by
  simp [laps, List.replicate_succ']

theorem laps_pred {n : Nat} (h : 1 ≤ n) : laps (n - 1) ++ lap = laps n := by
  rw [← laps_succ, Nat.sub_add_cancel h]

theorem laps_mono {m n : Nat} (h : m ≤ n) : laps m <+: laps n := by
  induction n with
  | zero =>
    obtain rfl := Nat.le_zero.mp h
    exact List.prefix_refl _
  | succ n ih =>
    rcases Nat.le_succ_iff.mp h with hle | rfl
    · rw [laps_succ]
      exact (ih hle).trans (List.prefix_append _ _)
    · exact List.prefix_refl _

theorem count_verify_laps (n : Nat) : (laps n).count .verify = n := by
  induction n with
  | zero => rfl
  | succ n ih =>
    rw [laps_succ, List.count_append, ih]
    rfl

/-- Part of a lap stays within the laps. -/
theorem append_prefix_laps {n : Nat} (h : 1 ≤ n) {part : List Label} (hp : part <+: lap) :
    laps (n - 1) ++ part <+: laps n := by
  rw [← laps_pred h]
  exact (List.prefix_append_right_inj _).mpr hp

/-- Whatever comes of it, a cancelled session is within its laps. -/
theorem cancelled_calls (most : Nat) {n : Nat} {calls : List Label} (h : calls <+: laps n) :
    Status.cancelled.Calls most n calls := by
  refine ⟨h, ?_⟩
  have hle := h.sublist.count_le Label.verify
  rwa [count_verify_laps] at hle

theorem Status.Calls.prefix_laps {most n : Nat} {calls : List Label} {status : Status}
    (h : status.Calls most n calls) (hn : 1 ≤ n) : calls <+: laps n := by
  have hverify : laps (n - 1) ++ [.verify] <+: laps n :=
    append_prefix_laps hn ⟨[.diagnose, .fix], rfl⟩
  cases status with
  | success | loopDetected | iterationsExhausted =>
    rw [show calls = laps (n - 1) ++ [.verify] from h]
    exact hverify
  | budgetExceeded =>
    rcases h.2 with h | rfl
    · rw [h]
      exact hverify
    · exact List.prefix_refl _
  | cancelled => exact h.1

namespace Shaped

variable {most : Nat} {past : List (Exchange κ)} {s : Session κ} {stage : Stage κ}

/-- The call that a session has come to is the next one of its lap. -/
theorem prefix_laps (h : Shaped most past s (.calling stage)) :
    labels past ++ [stage.label] <+: laps s.iteration := by
  have hcalls := h.calls
  cases stage with
  | verify =>
    rw [show labels past = laps (s.iteration - 1) from hcalls]
    exact append_prefix_laps h.begun ⟨[.diagnose, .fix], rfl⟩
  | diagnose failure estimate =>
    rw [hcalls.2, List.append_assoc]
    exact append_prefix_laps h.begun ⟨[.fix], rfl⟩
  | fix failure estimate d =>
    rw [hcalls.2, List.append_assoc]
    exact append_prefix_laps h.begun (List.prefix_refl _)

/-- A cancelled token ends a session before its next call. -/
theorem refused (h : Shaped most past s (.calling stage)) :
    Shaped most past s (.ended .cancelled) :=
  ⟨h.verifications, h.begun, h.within,
    cancelled_calls most ((List.prefix_append _ _).trans h.prefix_laps)⟩

end Shaped

theorem labels_append_singleton (past : List (Exchange κ)) (s : Session κ) (stage : Stage κ)
    (ending : Ending κ) :
    labels (past ++ [⟨s, stage, ending⟩]) = labels past ++ [stage.label] := by
  simp [labels]

variable {cfg : Config κ} {est : Estimator κ} {past : List (Exchange κ)} {s : Session κ}
  {stage : Stage κ}

/-! ## From point to point -/

theorem shaped_passHead (h : Shaped cfg.maxIterations past s .head) (cancelled : Bool) :
    Shaped cfg.maxIterations past (passHead cfg cancelled s).session
      (passHead cfg cancelled s).point := by
  obtain ⟨hlt, hcalls⟩ := h.calls
  rcases passHead_cases cfg cancelled s with ⟨hle, -⟩ | ⟨-, -, hp⟩ | ⟨-, -, hp⟩
  · exact absurd hle (Nat.not_le.mpr hlt)
  · rw [hp]
    refine ⟨h.verifications, h.begun, h.within, cancelled_calls cfg.maxIterations ?_⟩
    rw [hcalls]
    exact List.prefix_refl _
  · rw [hp]
    exact ⟨congrArg (· + 1) h.verifications, Nat.succ_pos _, hlt, hcalls⟩

variable [Cost κ]

/-- A verification that failed ends the session or leads to a diagnosis, and then iterations are left. -/
theorem shaped_judge (h : Shaped cfg.maxIterations past s (.calling .verify)) (failure : String)
    (answer : Answer κ) :
    Shaped cfg.maxIterations (past ++ [⟨s, .verify, .answered answer⟩])
      (s.judge cfg est failure).session (s.judge cfg est failure).point := by
  have hcalls : labels (past ++ [⟨s, .verify, .answered answer⟩])
      = laps (s.iteration - 1) ++ [.verify] := by
    rw [labels_append_singleton, show labels past = laps (s.iteration - 1) from h.calls]
    rfl
  rw [judge_session, judge_point]
  refine ⟨h.verifications, h.begun, h.within, ?_⟩
  split
  · exact hcalls
  · split
    · exact hcalls
    · rename_i hmore
      have hlt : s.iteration < cfg.maxIterations := Nat.not_le.mp hmore
      split
      · exact ⟨hlt, hcalls⟩
      · exact ⟨hlt, Or.inl hcalls⟩

theorem shaped_receive (h : Shaped cfg.maxIterations past s (.calling stage)) (answer : Answer κ) :
    Shaped cfg.maxIterations (past ++ [⟨s, stage, .answered answer⟩])
      (receive cfg est stage s answer).session (receive cfg est stage s answer).point := by
  have hprefix := h.prefix_laps
  rw [← labels_append_singleton past s stage (.answered answer)] at hprefix
  have hcalls := h.calls
  cases stage with
  | verify =>
    rcases verified_cases s cfg est answer with ⟨-, hs, hp⟩ | ⟨-, hs, hp⟩ | ⟨failure, -, hj⟩
    · rw [receive, hs, hp]
      refine ⟨h.verifications, h.begun, h.within, ?_⟩
      show labels _ = laps (s.iteration - 1) ++ [.verify]
      rw [labels_append_singleton, show labels past = laps (s.iteration - 1) from hcalls]
      rfl
    · rw [receive, hs, hp]
      exact ⟨h.verifications, h.begun, h.within, cancelled_calls cfg.maxIterations hprefix⟩
    · rw [receive, hj]
      exact shaped_judge h failure answer
  | diagnose failure estimate =>
    rcases diagnosed_cases s failure estimate answer with ⟨hp, hs⟩ | ⟨d, _, _, hs, hp, -⟩
    · rw [receive, hs, hp]
      exact ⟨h.verifications, h.begun, h.within, cancelled_calls cfg.maxIterations hprefix⟩
    · rw [receive, hs, hp]
      refine ⟨h.verifications, h.begun, h.within, hcalls.1, ?_⟩
      rw [labels_append_singleton, hcalls.2, List.append_assoc]
      rfl
  | fix failure estimate d =>
    have hlap : labels (past ++ [⟨s, .fix failure estimate d, .answered answer⟩])
        = laps s.iteration := by
      rw [labels_append_singleton, hcalls.2, List.append_assoc]
      exact laps_pred h.begun
    obtain ⟨hs, ⟨hp, -⟩ | hp⟩ := fixed_cases s cfg est estimate answer
    · rw [receive, hs, hp]
      exact ⟨h.verifications, h.begun, h.within, cancelled_calls cfg.maxIterations hprefix⟩
    · rw [receive, hs, hp]
      refine ⟨h.verifications, h.begun, h.within, ?_⟩
      split
      · exact ⟨hcalls.1, Or.inr hlap⟩
      · exact ⟨hcalls.1, hlap⟩

theorem shaped_invariant (cfg : Config κ) (est : Estimator κ) :
    Invariant cfg est (Shaped cfg.maxIterations) where
  head := shaped_passHead
  refused := Shaped.refused
  receive := shaped_receive

/-! ## Whole sessions -/

/-- A session is cancelled before it starts, or it begins its first iteration. -/
theorem course_first {params : Json} {env : Surroundings κ σ} {w : σ} {log : List (Exchange κ)}
    {r : Except Panic (Report κ) × σ} (h : Course cfg est params env s .head w log r)
    (hlt : s.iteration < cfg.maxIterations) :
    env.isCancelled w = true ∧ log = [] ∧ r.1 = .ok (s.report .cancelled) ∨
    env.isCancelled w = false ∧
      ∃ w', Course cfg est params env s.begun (.calling .verify) w' log r := by
  cases h with
  | head s w next =>
    rcases passHead_cases cfg (env.isCancelled w) s with ⟨hle, -⟩ | ⟨-, hc, hp⟩ | ⟨-, hc, hp⟩
    · exact absurd hle (Nat.not_le.mpr hlt)
    · rw [hp] at next
      cases next with
      | ended => exact Or.inl ⟨hc, rfl, rfl⟩
    · rw [hp] at next
      exact Or.inr ⟨hc, _, next⟩

/-- For any behaviour of what is called and any moment of a cancellation: the calls of a session go round in laps,
and when no call breaks down the session returns with the shape that its status tells. -/
theorem calls_shaped (cfg : Config κ) (est : Estimator κ) (params : Json) (env : Surroundings κ σ)
    (target : String) (w : σ) (hmax : 1 ≤ cfg.maxIterations) :
    let log := journal cfg est params env target w
    let result := (run cfg est params env target w).1
    labels log <+: laps cfg.maxIterations ∧
    (∀ panic, result = .error panic →
      ∃ before x, log = before ++ [x] ∧ x.ending = .panicked panic) ∧
    ∀ report, result = .ok report →
      report.verifications = report.iterations ∧ report.iterations ≤ cfg.maxIterations ∧
      -- A session that was cancelled before it started begins no iteration.
      (if env.isCancelled w then report.status = .cancelled ∧ report.iterations = 0
        else 1 ≤ report.iterations) ∧
      report.status.Calls cfg.maxIterations report.iterations (labels log) := by
  intro log result
  have hcourse : Course cfg est params env (.start cfg target) .head w log
      (run cfg est params env target w) := course_run cfg est params env target w
  rcases course_first hcourse hmax with ⟨hc, hlog, hr⟩ | ⟨hc, w', hcalling⟩
  · have hr : result = .ok _ := hr
    rw [hlog, hr]
    refine ⟨List.nil_prefix, fun panic h => ?_, fun report h => ?_⟩
    · cases h
    · obtain rfl := Except.ok.inj h
      rw [if_pos hc]
      exact ⟨rfl, Nat.zero_le _, ⟨rfl, rfl⟩, cancelled_calls _ List.nil_prefix⟩
  · have hshaped : Shaped cfg.maxIterations [] (Session.start cfg target).begun
        (.calling .verify) := ⟨rfl, Nat.le_refl _, hmax, rfl⟩
    rcases (shaped_invariant cfg est).course_end hcalling [] hshaped with
      ⟨s, status, hr, hend⟩ | ⟨panic, before, s, stage, hr, hlog, hlast⟩
    · have hr : result = .ok _ := hr
      have hcalls : status.Calls cfg.maxIterations s.iteration (labels log) := hend.calls
      rw [hr]
      refine ⟨(hcalls.prefix_laps hend.begun).trans (laps_mono hend.within),
        fun panic h => ?_, fun report h => ?_⟩
      · cases h
      · obtain rfl := Except.ok.inj h
        rw [if_neg (by simp [hc])]
        exact ⟨hend.verifications, hend.within, hend.begun, hcalls⟩
    · have hr : result = .error _ := hr
      rw [hr]
      refine ⟨?_, fun panic' h => ?_, fun report h => ?_⟩
      · rw [hlog, labels_append_singleton]
        exact hlast.prefix_laps.trans (laps_mono hlast.within)
      · obtain rfl := Except.error.inj h
        exact ⟨before, _, hlog, rfl⟩
      · cases h

/-- The first verification fails and everything after it goes well. -/
theorem calls_shaped_of_repair :
    let cfg : Config Exact := ⟨2, 5, .posInf, .ofSecs 300, "run_checks", "diagnose", "generate_fix"⟩
    let answer (made : Nat) : Answer Exact :=
      .ok (if made = 0 then .failure "1 failed" else .success .null)
    let env : Surroundings Exact Nat :=
      ⟨fun _ => false, fun _ made => made, fun _ made => (.answered (answer made), made + 1)⟩
    let log := journal cfg (.fixed (.rat 0) none) .null env "lib" 0
    ∃ report, (run cfg (.fixed (.rat 0) none) .null env "lib" 0).1 = .ok report ∧
      report.status = .success ∧ report.iterations = 2 ∧ report.verifications = 2 ∧
      labels log = [.verify, .diagnose, .fix, .verify] := by
  intro cfg answer env log
  have hends : (run cfg (.fixed (.rat 0) none) .null env "lib" 0).1.toOption.map
      (fun report => (report.status, report.iterations)) = some (.success, 2) := by
    decide +kernel
  cases hreport : (run cfg (.fixed (.rat 0) none) .null env "lib" 0).1 with
  | error panic =>
    rw [hreport] at hends
    cases hends
  | ok report =>
    rw [hreport] at hends
    obtain ⟨hstatus, hiterations⟩ := Prod.mk.inj (Option.some.inj hends)
    obtain ⟨hverifications, -, -, hcalls⟩ :=
      (calls_shaped cfg (.fixed (.rat 0) none) .null env "lib" 0 (by decide)).2.2 report hreport
    rw [hiterations] at hverifications hcalls
    rw [hstatus] at hcalls
    exact ⟨report, rfl, hstatus, hiterations, hverifications, hcalls⟩

end Overseer.Healing
