import Overseer.Proofs.Cost.Exact
import Overseer.Proofs.Healing.Iteration
import Mathlib.Data.List.TakeWhile
import Mathlib.Tactic.ByContra

/-! # Why a healing session stops

The history that a session keeps counts what the streak counts (`History.repeats_eq`), so each iteration is
tested as `stopAt` says. A session that is not cancelled passes its last verification, or `stopAt` gives the
reason for which it ends there; at every iteration before, the verification failed and `stopAt` gave none
(`stopped_where_due`).
-/

namespace Overseer.Healing

variable {κ σ : Type} [Cost κ] {cfg : Config κ} {est : Estimator κ} {params : Json}
  {env : Surroundings κ σ} {s : Session κ} {w : σ} {log : List (Exchange κ)}
  {r : Except Panic (Report κ) × σ} {report : Report κ}

theorem trailingRepeats_append (history : List Signature) (sig : Signature) :
    trailingRepeats (history ++ [sig])
      = 1 + (history.reverse.takeWhile fun earlier => earlier == sig).length := by
  simp [trailingRepeats]

/-- Before an iteration the session knows of the earlier ones, newest first, as much as it needs. -/
structure History (cfg : Config κ) (est : Estimator κ) (earlier : List (Iteration κ))
    (s : Session κ) : Prop where
  iteration : s.iteration = earlier.length
  verifications : s.verifications = earlier.length
  signatures : s.signatures.reverse.map some
    = (Iteration.sinceRetarget earlier).map (·.signature?)
  wentOn : Iteration.WentOn cfg est earlier
  within : earlier.length < cfg.maxIterations

variable {earlier : List (Iteration κ)} {it : Iteration κ} {failure : String}

/-- What the session counts is the streak. -/
theorem History.repeats_eq (h : History cfg est earlier s) (hf : it.failure? = some failure) :
    s.repeats failure = it.streak earlier := by
  have hsig : it.signature? = some (failureSignature failure) := by
    simp [Iteration.signature?, hf]
  have hmap : (s.signatures.reverse.takeWhile fun e => e == failureSignature failure).length
      = ((s.signatures.reverse.map some).takeWhile
          fun e => e == some (failureSignature failure)).length := by
    rw [List.takeWhile_map, List.length_map]
    rfl
  rw [Session.repeats, trailingRepeats_append, hmap, h.signatures, List.takeWhile_map,
    List.length_map, Iteration.streak, hsig]
  rfl

theorem refusal?_of_stop? {streak n : Nat} (h : it.stop? cfg est streak n = none) :
    it.refusal? cfg est streak n = none := by
  unfold Iteration.stop? at h
  split at h
  · cases h
  · assumption

theorem ne_maxIterations_of_refusal? {streak n : Nat}
    (h : it.refusal? cfg est streak n = none) : n ≠ cfg.maxIterations := by
  intro he
  unfold Iteration.refusal? at h
  rw [if_pos he] at h
  split at h
  · cases h
  · cases h

theorem History.cons {s' : Session κ} (h : History cfg est earlier s)
    (hsession : it.verify.session = s.begun) (hf : it.failure? = some failure)
    (hrepair : it.repair.isSome = true) (hstop : it.stopAt cfg est earlier = none)
    (hi : s'.iteration = s.iteration + 1) (hv : s'.verifications = s.verifications + 1)
    (hs : s'.signatures = if it.retargets then []
      else s.signatures ++ [failureSignature failure]) :
    History cfg est (it :: earlier) s' where
  iteration := by rw [hi, h.iteration, List.length_cons]
  verifications := by rw [hv, h.verifications, List.length_cons]
  signatures := by
    rw [hs, Iteration.sinceRetarget, List.takeWhile_cons]
    cases hr : it.retargets with
    | true => rfl
    | false =>
      have hsig : it.signature? = some (failureSignature failure) := by
        simp [Iteration.signature?, hf]
      have hearlier := h.signatures
      rw [Iteration.sinceRetarget] at hearlier
      simpa [hsig] using hearlier
  wentOn := by
    refine ⟨?_, by simp [hf], hrepair, hstop, h.wentOn⟩
    rw [hsession, ← h.iteration]
    rfl
  within := by
    have hne := ne_maxIterations_of_refusal? (refusal?_of_stop? hstop)
    have hlt := h.within
    rw [List.length_cons]
    omega

/-- What a session that has ended tells of its iterations, the earlier ones newest first, and the last. -/
structure Stopped (cfg : Config κ) (est : Estimator κ) (report : Report κ)
    (earlier : List (Iteration κ)) (last : Iteration κ) : Prop where
  iterations : report.iterations = earlier.length + 1
  verifications : report.verifications = earlier.length + 1
  wentOn : Iteration.WentOn cfg est earlier
  number : last.verify.session.iteration = earlier.length + 1
  reason : (last.passes ∧ last.repair = none ∧ report.status = .success) ∨
    (last.failure?.isSome = true ∧ last.stopAt cfg est earlier = some report.status ∧
      (last.repair.isSome = true ↔
        last.refusal? cfg est (last.streak earlier) (earlier.length + 1) = none))

/-- From the head of an iteration with a history to the end. -/
theorem stopped_of_course (k : Nat) (h : Course cfg est params env s .head w log r)
    (hr : r.1 = .ok report) (hc : report.status ≠ .cancelled) (hist : History cfg est earlier s)
    (hk : cfg.maxIterations ≤ earlier.length + k) :
    ∃ (more : List (Iteration κ)) (last : Iteration κ),
      log = (more.reverse ++ [last]).flatMap (·.calls) ∧
        Stopped cfg est report (more ++ earlier) last := by
  induction k generalizing earlier s w log with
  | zero => exact absurd hist.within (Nat.not_lt.mpr hk)
  | succ k ih =>
    have hlt : s.iteration < cfg.maxIterations := hist.iteration ▸ hist.within
    obtain ⟨it, rest, hsession, rfl, hit⟩ := course_iteration h hr hc hlt
    have hnumber : it.verify.session.iteration = earlier.length + 1 := by
      rw [hsession, ← hist.iteration]
      rfl
    rcases hit with ⟨hpass, hrepair, rfl, hstatus, hi, hv⟩ | ⟨failure, hf, hrepair, hafter⟩
    · refine ⟨[], it, by simp, ?_, ?_, hist.wentOn, hnumber, Or.inl ⟨hpass, hrepair, hstatus⟩⟩
      · rw [hi, hist.iteration, List.nil_append]
      · rw [hv, hist.verifications, List.nil_append]
    · rw [hist.repeats_eq hf, hist.iteration] at hrepair
      rw [After, hist.repeats_eq hf, hist.iteration] at hafter
      cases hstop : it.stop? cfg est (it.streak earlier) (earlier.length + 1) with
      | some status =>
        rw [hstop] at hafter
        obtain ⟨rfl, hstatus, hi, hv⟩ := hafter
        refine ⟨[], it, by simp, ?_, ?_, hist.wentOn, hnumber,
          Or.inr ⟨by simp [hf], ?_, hrepair⟩⟩
        · rw [hi, List.nil_append]
        · rw [hv, hist.verifications, List.nil_append]
        · rw [hstatus]
          exact hstop
      | none =>
        rw [hstop] at hafter
        obtain ⟨s', w', hcourse, hi, hv, hs⟩ := hafter
        have hist' : History cfg est (it :: earlier) s' :=
          hist.cons hsession hf (hrepair.mpr (refusal?_of_stop? hstop)) hstop
            (by rw [hi, hist.iteration]) hv hs
        obtain ⟨more, last, rfl, hstopped⟩ :=
          ih hcourse hist' (by rw [List.length_cons]; omega)
        refine ⟨more ++ [it], last, by simp, ?_⟩
        rw [List.append_assoc]
        exact hstopped

/-! ## The same failure over and over -/

theorem stop?_of_within (ha : it.admitted cfg est = true) (ho : it.overspent cfg est = false)
    (streak n : Nat) :
    it.stop? cfg est streak n
      = if cfg.maxRepeat < streak then some .loopDetected
        else if n = cfg.maxIterations then some .iterationsExhausted
        else none := by
  unfold Iteration.stop? Iteration.refusal?
  by_cases hloop : cfg.maxRepeat < streak
  · simp [hloop]
  · by_cases hlast : n = cfg.maxIterations
    · simp [hloop, hlast]
    · simp [hloop, hlast, ha, ho]

/-- Iterations that are all alike. -/
structure Alike (cfg : Config κ) (est : Estimator κ) (sig : Signature) (it : Iteration κ) : Prop where
  same : it.signature? = some sig
  stays : it.retargets = false
  admitted : it.admitted cfg est = true
  within : it.overspent cfg est = false

theorem streak_of_alike {sig : Signature} (hit : Alike cfg est sig it)
    (h : ∀ e ∈ earlier, Alike cfg est sig e) : it.streak earlier = earlier.length + 1 := by
  have hsince : Iteration.sinceRetarget earlier = earlier :=
    List.takeWhile_eq_self_iff.mpr fun e he => by simp [(h e he).stays]
  have hall : (earlier.takeWhile fun e => e.signature? == it.signature?) = earlier :=
    List.takeWhile_eq_self_iff.mpr fun e he => by simp [(h e he).same, hit.same]
  rw [Iteration.streak, hsince, hall, Nat.add_comm]

theorem stopAt_of_alike {sig : Signature} (hit : Alike cfg est sig it)
    (h : ∀ e ∈ earlier, Alike cfg est sig e) :
    it.stopAt cfg est earlier
      = if cfg.maxRepeat < earlier.length + 1 then some .loopDetected
        else if earlier.length + 1 = cfg.maxIterations then some .iterationsExhausted
        else none := by
  rw [Iteration.stopAt, streak_of_alike hit h, stop?_of_within hit.admitted hit.within]

/-- A failure that stays the same is put up with as often as allowed, and no more. -/
theorem Stopped.of_alike {last : Iteration κ} {sig : Signature}
    (h : Stopped cfg est report earlier last) (hall : ∀ e ∈ last :: earlier, Alike cfg est sig e)
    (hlt : cfg.maxRepeat < cfg.maxIterations) :
    report.status = .loopDetected ∧ earlier.length = cfg.maxRepeat ∧
      last.repair.isSome = false := by
  have hlast : Alike cfg est sig last := hall last List.mem_cons_self
  have hearlier : ∀ e ∈ earlier, Alike cfg est sig e :=
    fun e he => hall e (List.mem_cons_of_mem _ he)
  -- The iteration before the last one was not one too many.
  have hle : earlier.length ≤ cfg.maxRepeat := by
    cases earlier with
    | nil => exact Nat.zero_le _
    | cons e older =>
      obtain ⟨-, -, -, hnone, -⟩ := h.wentOn
      rw [stopAt_of_alike (hearlier e List.mem_cons_self)
        fun e he => hearlier e (List.mem_cons_of_mem _ he)] at hnone
      by_contra hlong
      rw [if_pos (by rw [List.length_cons] at hlong; omega)] at hnone
      cases hnone
  rcases h.reason with ⟨⟨answer, hending, hpassed⟩, -, -⟩ | ⟨-, hstop, hrepair⟩
  · have hsame := hlast.same
    simp [Iteration.signature?, Iteration.failure?, hending, hpassed] at hsame
  · rw [stopAt_of_alike hlast hearlier] at hstop
    have hloop : cfg.maxRepeat < earlier.length + 1 := by
      by_contra hshort
      rw [if_neg hshort, if_neg (by omega)] at hstop
      cases hstop
    rw [if_pos hloop] at hstop
    refine ⟨(Option.some.inj hstop).symm, by omega, ?_⟩
    rw [Iteration.refusal?, streak_of_alike hlast hearlier, if_pos hloop] at hrepair
    simpa using hrepair

/-- A session that has stopped for a loop has seen the same failure more often than allowed. -/
theorem Stopped.maxRepeat_lt {last : Iteration κ} (h : Stopped cfg est report earlier last)
    (hstatus : report.status = .loopDetected) : cfg.maxRepeat < last.streak earlier := by
  rcases h.reason with ⟨-, -, hsuccess⟩ | ⟨-, hstop, -⟩
  · cases hstatus.symm.trans hsuccess
  · rw [hstatus, Iteration.stopAt, Iteration.stop?, Iteration.refusal?] at hstop
    by_contra hloop
    rw [if_neg hloop] at hstop
    split at hstop
    · rename_i status hrefusal
      obtain rfl := Option.some.inj hstop
      split at hrefusal
      · cases hrefusal
      · split at hrefusal
        · cases hrefusal
        · cases hrefusal
    · split at hstop
      · cases hstop
      · cases hstop

/-- The signature of the failure that a call tells of. -/
def Exchange.signature? (x : Exchange κ) : Option Signature :=
  match x.ending with
  | .panicked _ => none
  | .answered answer =>
      match verdict answer with
      | .failed failure => some (failureSignature failure)
      | .passed | .cancelled => none

omit [Cost κ] in
theorem signature?_verify (it : Iteration κ) : it.verify.signature? = it.signature? := by
  unfold Exchange.signature? Iteration.signature? Iteration.failure?
  cases it.verify.ending with
  | panicked panic => rfl
  | answered answer =>
    dsimp only
    cases verdict answer with
    | passed | cancelled | failed => rfl

/-- A call on the target: a verification that fails as ever, with room for a fix, or a diagnosis, or a fix that leaves
the budget within its ceiling. -/
def Exchange.plain (cfg : Config κ) (est : Estimator κ) (sig : Signature) (target : String)
    (x : Exchange κ) : Bool :=
  x.session.target == target &&
    match x.stage with
    | .verify => x.signature? == some sig &&
        x.session.budget.admits (est.estimate (fixUnit cfg x.session))
    | .diagnose _ _ => true
    | .fix _ _ _ => !(x.paid cfg est).overspent

theorem alike_of_calls {sig : Signature} {target : String}
    (h : ∀ x ∈ it.calls, x.plain cfg est sig target = true) : Alike cfg est sig it := by
  have hverify : it.verify.plain cfg est sig target = true := by
    refine h it.verify ?_
    unfold Iteration.calls
    split
    · exact List.mem_cons_self
    · exact List.mem_cons_self
  rw [Exchange.plain, it.verifies, Bool.and_eq_true, Bool.and_eq_true, signature?_verify] at hverify
  obtain ⟨-, hsame, hadmits⟩ := hverify
  cases hrepair : it.repair with
  | none =>
    exact
      { same := eq_of_beq hsame
        stays := by rw [Iteration.retargets, hrepair]
        admitted := hadmits
        within := by rw [Iteration.overspent, hrepair] }
  | some pair =>
    obtain ⟨d, f⟩ := pair
    obtain ⟨-, _, _, _, hfix⟩ := it.repairs d f hrepair
    have hmem : d ∈ it.calls ∧ f ∈ it.calls := by
      simp [Iteration.calls, hrepair]
    have hd := h d hmem.1
    have hf := h f hmem.2
    rw [Exchange.plain, Bool.and_eq_true, beq_iff_eq] at hd hf
    rw [hfix, Bool.not_eq_true'] at hf
    exact
      { same := eq_of_beq hsame
        stays := by
          rw [Iteration.retargets, hrepair]
          simp [hd.1, hf.1]
        admitted := hadmits
        within := by
          rw [Iteration.overspent, hrepair]
          exact hf.2 }

/-! ## Calls -/

omit [Cost κ] in
theorem Exchange.isVerify_of_stage {x : Exchange κ} (h : x.stage = .verify) :
    x.isVerify = true ∧ x.isFix = false := by
  simp [Exchange.isVerify, Exchange.isFix, h]

omit [Cost κ] in
/-- An iteration verifies once, and if it goes on to a repair it fixes once. -/
theorem countP_calls (it : Iteration κ) :
    it.calls.countP (·.isVerify) = 1 ∧
      it.calls.countP (·.isFix) = if it.repair.isSome then 1 else 0 := by
  obtain ⟨hverify, hfix⟩ := Exchange.isVerify_of_stage it.verifies
  unfold Iteration.calls
  cases hrepair : it.repair with
  | none => simp [hverify, hfix]
  | some pair =>
    obtain ⟨d, f⟩ := pair
    obtain ⟨⟨_, _, hd⟩, _, _, _, hf⟩ := it.repairs d f hrepair
    have hd' : d.isVerify = false ∧ d.isFix = false := by
      simp [Exchange.isVerify, Exchange.isFix, hd]
    have hf' : f.isVerify = false ∧ f.isFix = true := by
      simp [Exchange.isVerify, Exchange.isFix, hf]
    simp [hverify, hfix, hd', hf']

theorem Iteration.WentOn.repaired (h : Iteration.WentOn cfg est earlier) :
    ∀ e ∈ earlier, e.repair.isSome = true := by
  induction earlier with
  | nil => exact fun e he => nomatch he
  | cons it older ih =>
    obtain ⟨-, -, hrepair, -, hold⟩ := h
    intro e he
    rcases List.mem_cons.mp he with rfl | he
    · exact hrepair
    · exact ih hold e he

theorem countP_flatMap_calls {last : Iteration κ} (h : Iteration.WentOn cfg est earlier)
    (hlast : last.repair.isSome = false) :
    ((earlier.reverse ++ [last]).flatMap (·.calls)).countP (·.isVerify) = earlier.length + 1 ∧
      ((earlier.reverse ++ [last]).flatMap (·.calls)).countP (·.isFix) = earlier.length := by
  have hrepaired := h.repaired
  clear h
  induction earlier with
  | nil =>
    obtain ⟨hverify, hfix⟩ := countP_calls last
    simp [hverify, hfix, hlast]
  | cons it older ih =>
    obtain ⟨hverify, hfix⟩ := countP_calls it
    rw [hrepaired it List.mem_cons_self, if_pos rfl] at hfix
    obtain ⟨hv, hf⟩ := ih fun e he => hrepaired e (List.mem_cons_of_mem _ he)
    simp only [List.reverse_cons, List.append_assoc, List.flatMap_append, List.countP_append,
      List.flatMap_cons, List.flatMap_nil, List.append_nil, List.length_cons,
      hverify, hfix] at hv hf ⊢
    omega

/-- A session that breaks down does so in its last call. -/
theorem course_panicked {point : Point κ} {panic : Panic}
    (h : Course cfg est params env s point w log r) (hr : r.1 = .error panic) :
    ∃ before x, log = before ++ [x] ∧ x.ending = .panicked panic := by
  have hI : Invariant cfg est fun _ _ _ => True :=
    ⟨fun _ _ => trivial, fun _ => trivial, fun _ _ => trivial⟩
  rcases hI.course_end h [] trivial with
    ⟨s', status, hok, -⟩ | ⟨panic', before, s', stage, herror, hlog, -⟩
  · cases hok.symm.trans hr
  · obtain rfl := Except.error.inj (herror.symm.trans hr)
    exact ⟨before, _, hlog, rfl⟩

/-! ## The law -/

/-- For any behaviour of what is called: a session breaks down with a call that does, or it is cancelled, or
it stops in the iteration that its tests name. -/
theorem stopped_where_due (cfg : Config κ) (est : Estimator κ) (params : Json)
    (env : Surroundings κ σ) (target : String) (w : σ) (hmax : 1 ≤ cfg.maxIterations) :
    let log := journal cfg est params env target w
    let result := (run cfg est params env target w).1
    (∀ panic, result = .error panic →
      ∃ before x, log = before ++ [x] ∧ x.ending = .panicked panic) ∧
    ∀ report, result = .ok report → report.status ≠ .cancelled →
      ∃ earlier last, log = (earlier.reverse ++ [last]).flatMap (·.calls) ∧
        Stopped cfg est report earlier last ∧
        -- The same failure each time, on the same target and within the budget.
        ∀ sig, (∀ e ∈ last :: earlier, Alike cfg est sig e) → cfg.maxRepeat < cfg.maxIterations →
          report.status = .loopDetected ∧ report.verifications = cfg.maxRepeat + 1 ∧
            log.countP (·.isVerify) = cfg.maxRepeat + 1 ∧ log.countP (·.isFix) = cfg.maxRepeat := by
  intro log result
  have hcourse := course_run cfg est params env target w
  refine ⟨fun panic hr => course_panicked hcourse hr, fun report hr hc => ?_⟩
  have hist : History cfg est [] (.start cfg target) :=
    ⟨rfl, rfl, rfl, trivial, hmax⟩
  obtain ⟨earlier, last, (hlog : log = _), hstopped⟩ :=
    stopped_of_course cfg.maxIterations hcourse hr hc hist (by simp)
  rw [List.append_nil] at hstopped
  refine ⟨earlier, last, hlog, hstopped, fun sig hall hlt => ?_⟩
  obtain ⟨hstatus, hlength, hlast⟩ := hstopped.of_alike hall hlt
  obtain ⟨hverify, hfix⟩ := countP_flatMap_calls hstopped.wentOn hlast
  refine ⟨hstatus, ?_, ?_, ?_⟩
  · rw [hstopped.verifications, hlength]
  · rw [hlog, hverify, hlength]
  · rw [hlog, hfix, hlength]

/-- The same failure on one target is put up with twice, and a change of target after the second one starts the count
again. -/
theorem stopped_where_due_of_retarget :
    let cfg : Config Exact := ⟨9, 2, .rat 10, .ofSecs 300, "run_checks", "diagnose", "generate_fix"⟩
    let est : Estimator Exact := .fixed (.rat 1) none
    let diagnosis (moves : Bool) : Diagnosis :=
      ⟨"off by one", none, if moves then some "src/helper.rs" else none⟩
    let answer (moves : Bool) (made : Nat) : Answer Exact :=
      .ok (if made % 3 = 0 then .failure "1 failed"
        else .success (diagnosis (moves && decide (made = 4))).toJson)
    let env (moves : Bool) : Surroundings Exact Nat :=
      ⟨fun _ => false, fun _ made => made, fun _ made => (.answered (answer moves made), made + 1)⟩
    let log (moves : Bool) := journal cfg est .null (env moves) "src/lib.rs" 0
    let result (moves : Bool) := (run cfg est .null (env moves) "src/lib.rs" 0).1
    (∃ report, result false = .ok report ∧ report.status = .loopDetected ∧
      report.verifications = 3 ∧ (log false).countP (·.isFix) = 2) ∧
    ∃ report earlier last, result true = .ok report ∧ report.status = .loopDetected ∧
      report.target = "src/helper.rs" ∧ log true = (earlier.reverse ++ [last]).flatMap (·.calls) ∧
      Stopped cfg est report earlier last ∧ earlier.length = 4 ∧ 2 < last.streak earlier := by
  intro cfg est diagnosis answer env log result
  have hends (moves : Bool) : (result moves).toOption.map
      (fun report => (report.status, report.iterations, report.target))
      = some (.loopDetected, if moves then (5, "src/helper.rs") else (3, "src/lib.rs")) := by
    cases moves <;> decide +kernel
  have hresult (moves : Bool) : ∃ report, result moves = .ok report ∧
      report.status = .loopDetected ∧
      (report.iterations, report.target)
        = if moves then (5, "src/helper.rs") else (3, "src/lib.rs") := by
    have hmoves := hends moves
    cases hreport : result moves with
    | error panic =>
      rw [hreport] at hmoves
      cases hmoves
    | ok report =>
      rw [hreport] at hmoves
      obtain ⟨hstatus, hrest⟩ := Prod.mk.inj (Option.some.inj hmoves)
      exact ⟨report, rfl, hstatus, hrest⟩
  refine ⟨?same, ?moved⟩
  case same =>
    obtain ⟨report, hreport, hstatus, -⟩ := hresult false
    obtain ⟨earlier, last, (hcalls : log false = _), -, halike⟩ :=
      (stopped_where_due cfg est .null (env false) "src/lib.rs" 0 (by decide)).2 report hreport
        (by simp [hstatus])
    have hplain : ∀ x ∈ log false,
        x.plain cfg est (failureSignature "1 failed") "src/lib.rs" = true := by
      decide +kernel
    have hall : ∀ e ∈ last :: earlier, Alike cfg est (failureSignature "1 failed") e := by
      intro e he
      refine alike_of_calls fun x hx => hplain x ?_
      rw [hcalls, List.mem_flatMap]
      exact ⟨e, by simpa [or_comm] using he, hx⟩
    obtain ⟨-, hverifications, -, hfixes⟩ := halike _ hall (by decide)
    exact ⟨report, hreport, hstatus, hverifications, hfixes⟩
  case moved =>
    obtain ⟨report, hreport, hstatus, hrest⟩ := hresult true
    obtain ⟨hiterations, htarget⟩ := Prod.mk.inj hrest
    obtain ⟨earlier, last, hcalls, hstopped, -⟩ :=
      (stopped_where_due cfg est .null (env true) "src/lib.rs" 0 (by decide)).2 report hreport
        (by simp [hstatus])
    have hlength : earlier.length = 4 :=
      Nat.succ.inj (hstopped.iterations.symm.trans hiterations)
    exact ⟨report, earlier, last, hreport, hstatus, htarget, hcalls, hstopped, hlength,
      hstopped.maxRepeat_lt hstatus⟩

end Overseer.Healing
