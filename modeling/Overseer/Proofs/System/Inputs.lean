import Overseer.Proofs.Cost.Exact
import Overseer.Proofs.Healing.Bearing
import Overseer.Proofs.System.Calls

/-! # The inputs of healing tasks

What a session sends does not depend on who runs it. A task is healed on the target of its payload, which routing has
trimmed, and each target that takes its place has been trimmed as well; so everything that a task sends has a tidy
target (`tidy_of_account`).
-/

namespace Overseer

/-- The call is about a target that is not blank and has no white space around it. -/
def Invocation.HasTidyTarget (invocation : Invocation) : Prop :=
  ∃ target, invocation.params.get? "target_file" = some (.string target) ∧ Text.Tidy target

namespace System

variable {κ : Type} [Cost κ] {settings : Settings κ} {payload : Json} {heard : List (Answer κ)}
  {c : Scene κ} {id : TaskId}

open Healing (Exchange Surroundings)

theorem tidy_payloadTarget {target : String} (h : payloadTarget payload = some target) :
    Text.Tidy target := by
  obtain ⟨raw, -, htrimmed⟩ := Option.bind_eq_some_iff.mp h
  exact Text.tidy_of_trimmed? htrimmed

/-- A session that starts on a tidy target sends tidy targets only. -/
theorem tidy_of_journal {σ : Type} {cfg : Healing.Config κ} {est : Estimator κ} {params : Json}
    {env : Surroundings κ σ} {target : String} {w : σ} (h : Text.Tidy target) {x : Exchange κ}
    (hx : x ∈ Healing.journal cfg est params env target w) :
    Invocation.HasTidyTarget (x.invocation cfg params) := by
  obtain ⟨before, after, hlog⟩ := List.append_of_mem hx
  have hcarries := Healing.carries_of_journal cfg est params env target w hlog
  exact ⟨_, hcarries.target_file, Healing.tidy_heading h before⟩

theorem tidy_of_account (h : Account settings payload id heard c) (hs : Sound settings c)
    (hid : id ∈ c.submitted) {intent : Intent} (hintent : resolveIntent payload = .ok intent)
    (hroute : settings.routes.route? intent = some .healing) {call : TaskId × Invocation}
    (hcall : call ∈ c.calls id) : Invocation.HasTidyTarget call.2 := by
  have hright := h.rightful hs hid
  cases htarget : payloadTarget payload with
  | none =>
    have hplan : plan payload settings.routes = .error (.missingTarget intent) := by
      simp [plan, hintent, hroute, htarget]
    rw [hright.unrouted _ hplan] at hcall
    cases hcall
  | some target =>
    obtain ⟨endings, -, hcalls⟩ := hright.healing intent target hintent hroute htarget
    rw [hcalls] at hcall
    obtain ⟨x, hx, rfl⟩ := List.mem_map.mp hcall
    exact tidy_of_journal (tidy_payloadTarget htarget) hx

/-- Whatever the calls come to, each one carries what the calls before it tell, and so does the report; and a task
that is healed sends tidy targets, in any run. -/
theorem inputs_carried :
    (∀ {σ : Type} (cfg : Healing.Config κ) (est : Estimator κ) (params : Json)
        (env : Surroundings κ σ) (target : String) (w : σ),
      let log := Healing.journal cfg est params env target w
      (∀ before x after, log = before ++ x :: after → x.Carries cfg params target before) ∧
      ∀ report, (Healing.run cfg est params env target w).1 = .ok report →
        report.target = Healing.heading target log ∧
        report.lastFailure = (Healing.failures log).getLast? ∧
        report.lastDiagnosis = (Healing.diagnoses log).getLast?.map (·.summary)) ∧
    ∀ (settings : Settings κ) (limit : Nat) (maxPending : Option Nat) (orders : List Order)
        (c : Scene κ), Ticks .mixed settings (.start limit maxPending orders) c →
      ∀ (id : TaskId) (payload : Json) (intent : Intent), id ∉ c.submitted →
        resolveIntent payload = .ok intent → settings.routes.route? intent = some .healing →
        ∀ c', Ticks .mixed settings (c.submit id payload) c' →
          ∀ call ∈ c'.calls id, Invocation.HasTidyTarget call.2 := by
  refine ⟨fun cfg est params env target w => ⟨fun before x after hlog => ?_, fun report hreport => ?_⟩,
    fun settings limit maxPending orders c hrun id payload intent new hintent hroute c' hticks call
      hcall => ?_⟩
  · exact Healing.carries_of_journal cfg est params env target w hlog
  · exact Healing.report_of_journal cfg est params env target w hreport
  · have hs : Sound settings c := (Sound.start settings limit maxPending orders).ticks hrun
    have hsubmit := hs.submit payload new
    obtain ⟨heard, hears⟩ := Hears.of_ticks id hticks
    have hid : id ∈ (c.submit id payload).submitted := List.mem_cons_self
    have haccount :=
      (Account.submit hs new (calls_of_not_submitted hrun new) payload).hears hsubmit hears (Or.inl hid)
    exact tidy_of_account haccount (hears.sound hsubmit) (hears.submitted hid) hintent hroute hcall

/-- A payload with a target that has white space around it. -/
def fixLib : Json :=
  .object [("intent", .string "code_fix"), ("target_file", .string " src/lib.rs ")]

/-- A session moves to another target and succeeds there with the params of its payload; a task asks for its first
verification. -/
theorem inputs_carried_of_retarget :
    (let cfg : Healing.Config Exact :=
        ⟨2, 5, .posInf, .ofSecs 300, "run_checks", "diagnose", "generate_fix"⟩
      let named : Json := .object [("summary", .string "off by one"), ("target_file", .string " b ")]
      let answer (made : Nat) : Answer Exact :=
        .ok (if made = 0 then .failure "1 failed" else .success named)
      let env : Surroundings Exact Nat :=
        ⟨fun _ => false, fun _ made => made, fun _ made => (.answered (answer made), made + 1)⟩
      let params : Json := .object [("suite", .string "unit"), ("target_file", .null)]
      let log := Healing.journal cfg (.fixed (.rat 0) none) params env "a" 0
      (∃ before x, log = before ++ [x] ∧
        (x.invocation cfg params).params.get? "target_file" = some (.string "b") ∧
        (x.invocation cfg params).params.get? "iteration" = some (.nat 2) ∧
        (x.invocation cfg params).params.get? "suite" = some (.string "unit")) ∧
      ∃ report, (Healing.run cfg (.fixed (.rat 0) none) params env "a" 0).1 = .ok report ∧
        report.target = "b" ∧ report.lastFailure = some "1 failed" ∧
        report.lastDiagnosis = some "off by one") ∧
    ∃ c : Scene Float, Ticks .mixed usual ((Scene.start 1 none []).submit (.ofNat 7) fixLib) c ∧
      ∃ call ∈ c.calls (.ofNat 7), Invocation.HasTidyTarget call.2 := by
  refine ⟨?_, ?_⟩
  · intro cfg named answer env params log
    obtain ⟨hcalls, hreport⟩ :=
      (inputs_carried (κ := Exact)).1 cfg (.fixed (.rat 0) none) params env "a" 0
    have hbefore : Healing.heading "a" (log.take 3) = "b" ∧ Healing.rounds (log.take 3) = 1 := by
      decide +kernel
    have hlast : (log.drop 3).map (·.isVerify) = [true] := by decide +kernel
    obtain ⟨x, hx, hverify⟩ := List.map_eq_singleton_iff.mp hlast
    have hlog : log = log.take 3 ++ [x] := by rw [← hx, List.take_append_drop]
    refine ⟨⟨log.take 3, x, hlog, ?_⟩, ?_⟩
    · have hcarries := hcalls _ x [] hlog
      obtain ⟨session, stage, ending⟩ := x
      cases stage with
      | diagnose | fix => cases hverify
      | verify =>
        obtain ⟨-, hparams⟩ := hcarries
        rw [hbefore.1, hbefore.2] at hparams
        exact ⟨hparams "target_file", hparams "iteration", hparams "suite"⟩
    · cases hrun : (Healing.run cfg (.fixed (.rat 0) none) params env "a" 0).1 with
      | error panic =>
        have hends : (Healing.run cfg (.fixed (.rat 0) none) params env "a" 0).1.isOk = true := by
          decide +kernel
        rw [hrun] at hends
        cases hends
      | ok report =>
        obtain ⟨htarget, hfailure, hdiagnosis⟩ := hreport report hrun
        have htold : Healing.heading "a" log = "b" ∧
            (Healing.failures log).getLast? = some "1 failed" ∧
            (Healing.diagnoses log).getLast?.map (·.summary) = some "off by one" := by
          decide +kernel
        exact ⟨report, rfl, htarget.trans htold.1, hfailure.trans htold.2.1,
          hdiagnosis.trans htold.2.2⟩
  · obtain ⟨c, hticks, hlength⟩ : ∃ c : Scene Float,
        Ticks .mixed usual ((Scene.start 1 none []).submit (.ofNat 7) fixLib) c ∧
        (c.calls (.ofNat 7)).length = 1 := by
      have hwaiting : Ticks .mixed usual ((Scene.start 1 none []).submit (.ofNat 7) fixLib) _ := .refl
      have hadmitted := hwaiting.tail (.employ rfl)
      have hbegun := hadmitted.tail (.turn 0 (fun s => (.pending, s)) (by decide) rfl)
      have hhead := hbegun.tail (.turn 0 (fun s => (.pending, s)) (by decide) rfl)
      have hcalling := hhead.tail (.turn 0 (fun s => (.pending, s)) (by decide) rfl)
      exact ⟨_, hcalling.tail (.ask 0 (by decide) rfl), rfl⟩
    obtain ⟨call, hcalls⟩ := List.length_eq_one_iff.mp hlength
    have hmem : call ∈ c.calls (.ofNat 7) := by
      rw [hcalls]
      exact List.mem_singleton_self call
    exact ⟨c, hticks, call, hmem, (inputs_carried (κ := Float)).2 usual 1 none []
      (.start 1 none []) .refl (.ofNat 7) fixLib .codeFix (by decide) rfl rfl c hticks call hmem⟩

end System
end Overseer
