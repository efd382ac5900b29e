import Overseer.Proofs.Capability.Call
import Overseer.Script.Rehearsal

/-! # Rehearsed calls

A script is one executor among all. What a look finds in a rehearsal is a glance (`glance`), so the calls of a rehearsal
are bounded calls that are made at a desk with the same tokens, each with a look at its deadline (`callTimes_eq_endings`).
-/

namespace Overseer

/-- Surroundings that agree on the token of the work and on what the executor says agree on how a look ends. -/
theorem Call.look_agrees {κ σ τ : Type} {R : σ → τ → Prop} {isCancelled : σ → Bool} {isCancelled' : τ → Bool}
    {execute : σ → Poll κ × σ} {execute' : τ → Poll κ × τ} {stop : σ → σ} {stop' : τ → τ} {now : Time} {call : Call}
    {s : σ} {t : τ} (hc : isCancelled s = isCancelled' t)
    (hasked : (execute s).1 = (execute' t).1 ∧ R (execute s).2 (execute' t).2)
    (hstop : ∀ {s t}, R s t → R (stop s) (stop' t)) (h : R s t) :
    (call.look isCancelled execute stop now s).1 = (call.look isCancelled' execute' stop' now t).1 ∧
      R (call.look isCancelled execute stop now s).2 (call.look isCancelled' execute' stop' now t).2 := by
  unfold look
  rw [hc]
  split
  · exact ⟨rfl, hstop h⟩
  · dsimp only
    rw [hasked.1]
    split
    · exact ⟨rfl, hstop hasked.2⟩
    · exact ⟨rfl, hasked.2⟩

namespace Script.Rehearsal

variable {κ : Type} {r : Rehearsal κ} {c : Calling κ} {d : Desk} {call : Call} {invocation : Invocation}
  {limit : Duration} {work : Token} {reached : List (Invocation × Token)}

/-- What a look finds in the middle of a call. -/
def Calling.glance (invocation : Invocation) (now : Time) (c : Calling κ) : Glance κ :=
  let reaction := (c.rehearsal.executor.ask invocation.name c.taken).1
  ⟨now, [], reaction.poll, if reaction.cancels then [c.rehearsal.work] else []⟩

/-- The desk has the tokens of the rehearsal, and the executor has been handed the same ones. -/
structure Plays (d : Desk) (r : Rehearsal κ) : Prop where
  tokens : d.tokens = r.tokens
  numbered : Desk.Numbered d.tokens r.work
  asked : ∀ token, token ∈ d.asked ↔ token ∈ r.reached.map Prod.snd

theorem tokens_execute (invocation : Invocation) (now : Time) (c : Calling κ) :
    (Calling.execute invocation c).2.rehearsal.tokens =
      (c.glance invocation now).during.foldl Tokens.cancel c.rehearsal.tokens := by
  unfold Calling.execute Calling.glance
  dsimp only
  split
  · rfl
  · rfl

/-- In the middle of a call the desk has the tokens of the rehearsal, whose work and record stay as they are. -/
structure Mirrors (work : Token) (reached : List (Invocation × Token)) (d : Desk) (r : Rehearsal κ) : Prop where
  tokens : d.tokens = r.tokens
  work : r.work = work
  reached : r.reached = reached

/-- A look does the same in a rehearsal and at the desk. -/
theorem look_eq_glance (invocation : Invocation) (call : Call) (now : Time) (h : Mirrors work reached d c.rehearsal) :
    (d.look work call (c.glance invocation now)).1 = (look invocation call now c).1 ∧
      Mirrors work reached (d.look work call (c.glance invocation now)).2 (look invocation call now c).2.rehearsal := by
  have hexecute : Mirrors work reached ((d.strike []).ask call.token (c.glance invocation now).during)
      (Calling.execute invocation c).2.rehearsal := by
    refine ⟨?_, h.work, h.reached⟩
    rw [tokens_execute invocation now c, ← h.tokens]
    rfl
  unfold Desk.look look
  refine Call.look_agrees (R := fun (d : Desk) (c : Calling κ) => Mirrors work reached d c.rehearsal) ?_
    ⟨rfl, hexecute⟩ ?_ ⟨h.tokens, h.work, h.reached⟩
  · unfold isCancelled
    rw [h.work, ← h.tokens]
    rfl
  · intro d c h
    exact ⟨congrArg (fun t : Tokens => t.cancel call.token) h.tokens, h.work, h.reached⟩

/-- A call as it is begun. -/
def opening (limit : Duration) (invocation : Invocation) (r : Rehearsal κ) : Call × Calling κ :=
  let (call, tokens) := Call.begin r.tokens r.work limit 0
  (call, ⟨{ r with tokens := tokens, reached := r.reached ++ [(invocation, call.token)] }, none⟩)

/-- What the looks find at a call when it is begun and at its deadline. -/
def Calling.glances (invocation : Invocation) (call : Call) (c : Calling κ) : List (Glance κ) :=
  [c.glance invocation 0, (look invocation call 0 c).2.glance invocation call.expires]

def attempt (limit : Duration) (invocation : Invocation) (r : Rehearsal κ) : Attempt κ :=
  ⟨[], limit, 0, (r.opening limit invocation).2.glances invocation (r.opening limit invocation).1⟩

/-- A call that has been begun, to its end. -/
def toEnd (invocation : Invocation) (call : Call) (c : Calling κ) : Ending κ × Rehearsal κ :=
  match look invocation call 0 c with
  | (some ending, c) => (ending, c.rehearsal)
  | (none, c) =>
      let (ending, c) := look invocation call call.expires c
      (ending.getD Call.cancelled, c.rehearsal)

theorem call_of_cancelled (h : r.isCancelled = true) : r.call limit invocation = (Call.cancelled, r) :=
  if_pos h

theorem call_of_open (h : r.isCancelled = false) :
    r.call limit invocation = toEnd invocation (r.opening limit invocation).1 (r.opening limit invocation).2 :=
  if_neg (Bool.eq_false_iff.mp h)

/-- The two looks do what looks at the desk do, and the second one decides the call. -/
theorem attend_glances (invocation : Invocation) (call : Call) (h : Mirrors work reached d c.rehearsal) :
    (Desk.attend work call (c.glances invocation call) d).1 = some (toEnd invocation call c).1 ∧
      Mirrors work reached (Desk.attend work call (c.glances invocation call) d).2 (toEnd invocation call c).2 := by
  obtain ⟨hfirst, hmirrors⟩ := look_eq_glance invocation call 0 h
  obtain ⟨hlast, hmirrors'⟩ := look_eq_glance invocation call call.expires hmirrors
  unfold toEnd Calling.glances
  rw [Desk.attend_cons]
  rcases hl : look invocation call 0 c with ⟨ending, c'⟩
  rw [hl] at hfirst hmirrors hlast hmirrors'
  cases ending with
  | some ending =>
    rw [if_neg (hfirst ▸ nofun)]
    exact ⟨hfirst, hmirrors⟩
  | none =>
    have hsome : ((d.look work call (c.glance invocation 0)).2.look work call (c'.glance invocation call.expires)).1 ≠
        none := Desk.look_ne_none (Nat.le_refl call.expires)
    obtain ⟨ending, hending⟩ := Option.ne_none_iff_exists'.mp hsome
    rw [if_pos hfirst, Desk.attend_cons, if_neg hsome]
    refine ⟨?_, hmirrors'⟩
    have hover : (look invocation call call.expires c').1 = some ending := hlast.symm.trans hending
    dsimp only
    rw [hover]
    exact hending

variable (limit : Duration) (invocation : Invocation)

theorem isCancelled_strike (h : d.tokens = r.tokens) :
    (d.strike (r.attempt limit invocation).before).tokens.isCancelled r.work = r.isCancelled :=
  congrArg (fun t : Tokens => t.isCancelled r.work) h

theorem start_attempt (h : d.tokens = r.tokens) :
    d.start r.work (r.attempt limit invocation) = Call.begin r.tokens r.work limit 0 :=
  congrArg (fun t : Tokens => Call.begin t r.work limit 0) h

/-- The executor of a rehearsal is handed the token of each call that is not refused, and no other. -/
theorem asked_make_attempt (h : Plays d r) (hopen : r.isCancelled = false) (token : Token) :
    token ∈ (d.make r.work (r.attempt limit invocation)).2.asked ↔
      token ∈ d.asked ∨ token = (r.opening limit invocation).1.token := by
  have hstart : (d.start r.work (r.attempt limit invocation)).1 = (r.opening limit invocation).1 :=
    congrArg Prod.fst (start_attempt limit invocation h.tokens)
  constructor
  · intro hmem
    obtain ⟨more, hasked, hall⟩ := (Desk.Follows.make h.numbered (r.attempt limit invocation)).asked
    rw [hasked] at hmem
    rcases List.mem_append.mp hmem with hmem | hmem
    · exact .inl hmem
    · exact .inr ((hall token hmem).trans (congrArg Call.token hstart))
  · rintro (hmem | rfl)
    · exact (Desk.Follows.make h.numbered _).mem_asked hmem
    · rw [← hstart]
      exact Desk.token_mem_asked_make h.numbered ((isCancelled_strike limit invocation h.tokens).trans hopen) rfl rfl

/-- A rehearsed call is a bounded call at the desk. -/
theorem call_eq_make (h : Plays d r) :
    (d.make r.work (r.attempt limit invocation)).1 = some (r.call limit invocation).1 ∧
      Plays (d.make r.work (r.attempt limit invocation)).2 (r.call limit invocation).2 ∧
      (r.call limit invocation).2.work = r.work := by
  have hsame := isCancelled_strike limit invocation h.tokens
  have hstart := start_attempt limit invocation h.tokens
  cases hc : r.isCancelled with
  | true =>
    rw [Desk.make_of_cancelled (hsame.trans hc), call_of_cancelled hc]
    exact ⟨rfl, ⟨h.tokens, h.numbered, h.asked⟩, rfl⟩
  | false =>
    have hmirrors : Mirrors r.work (r.opening limit invocation).2.rehearsal.reached
        (d.begun r.work (r.attempt limit invocation)) (r.opening limit invocation).2.rehearsal :=
      ⟨congrArg Prod.snd hstart, rfl, rfl⟩
    have hmake : d.make r.work (r.attempt limit invocation) =
        Desk.attend r.work (r.opening limit invocation).1 (r.attempt limit invocation).glances
          (d.begun r.work (r.attempt limit invocation)) := by
      rw [Desk.make_of_open (hsame.trans hc), hstart]
      rfl
    have hasked := asked_make_attempt limit invocation h hc
    have hissued := (Desk.Follows.make h.numbered (r.attempt limit invocation)).issued
    obtain ⟨hending, hover⟩ := attend_glances invocation (r.opening limit invocation).1 hmirrors
    rw [hmake] at hasked hissued ⊢
    rw [call_of_open hc]
    refine ⟨hending, ⟨hover.tokens, ?_, fun token => ?_⟩, hover.work⟩
    · rw [hover.work]
      exact h.numbered.mono hissued
    · rw [hasked token, h.asked token, hover.reached]
      simp [opening]

/-- Rehearsed calls are bounded calls that share the token of the work, and each of them comes to an end. -/
theorem callTimes_eq_endings (n : Nat) (h : Plays d r) : ∃ attempts : List (Attempt κ),
    (∀ a ∈ attempts, a.limit = limit ∧ ∃ g ∈ a.glances, a.expires ≤ g.now) ∧
      Desk.endings r.work attempts d = (r.callTimes limit invocation n).1.map some ∧
      Plays (d.makeAll r.work attempts) (r.callTimes limit invocation n).2 := by
  induction n generalizing d r with
  | zero => exact ⟨[], nofun, rfl, h⟩
  | succ n ih =>
    obtain ⟨hending, hplays, hwork⟩ := call_eq_make limit invocation h
    obtain ⟨attempts, hall, hendings, hlast⟩ := ih hplays
    rw [hwork] at hendings hlast
    refine ⟨r.attempt limit invocation :: attempts, ?_, ?_, hlast⟩
    · intro a hmem
      rcases List.mem_cons.mp hmem with rfl | hmem
      · exact ⟨rfl, _, List.mem_cons_of_mem _ (List.mem_singleton_self _), Nat.le_refl _⟩
      · exact hall a hmem
    · rw [Desk.endings, hending, hendings]
      rfl

theorem plays_new (executor : Executor κ) (cancelled : Bool) :
    Plays ⟨(new executor cancelled).tokens, [], []⟩ (new executor cancelled) where
  tokens := rfl
  numbered := by
    intro k hmem
    obtain rfl := List.mem_singleton.mp hmem
    cases cancelled with
    | true => exact Nat.one_pos
    | false => exact Nat.one_pos
  asked _ := Iff.rfl

end Script.Rehearsal

end Overseer
