import Overseer.Capability.Call
import Overseer.Proofs.Token

/-! # What a bounded call promises

A call is looked at again and again until a look decides it. What a look finds is a `Glance`: the time, the tokens that
others have cancelled since the look before, what the executor says, and the tokens that are cancelled while it is asked.
Any list of glances can come, so an executor may answer at once or later, break down, never answer, and cancel whatever it
likes; one that adapts to what it sees comes with the glances that it has brought about.

A call waits through the looks that leave it undecided (`Quiet`), and the first look that decides it settles how it ends
(`Settles`): by the token of the work if that was cancelled before the look, else by the executor, else by the deadline.
What the calls leave behind is kept on a `Desk`. A call cancels its own token and no other, and the number of that token
is new (`Numbered`), so the token of the work is cancelled by others or not at all (`Follows`).
-/

namespace Overseer

variable {κ : Type}

/-! ## Looks and calls -/

/-- What one look at a call finds. -/
structure Glance (κ : Type) where
  now : Time
  /-- What others have cancelled since the look before. -/
  before : List Token
  poll : Poll κ
  /-- What is cancelled while the executor is asked, by the executor or by others. -/
  during : List Token

def Glance.hits (g : Glance κ) : List Token := g.before ++ g.during

/-- A call with all the looks that there will be at it. -/
structure Attempt (κ : Type) where
  /-- What others have cancelled since the call before. -/
  before : List Token
  limit : Duration
  begun : Time
  glances : List (Glance κ)

def Attempt.expires (a : Attempt κ) : Time := deadline a.begun a.limit

/-- The surroundings of calls that share a token. -/
structure Desk where
  tokens : Tokens
  /-- The tokens with which the executor has been asked. -/
  asked : List Token
  /-- The tokens that somebody has cancelled who is not one of the calls. -/
  struck : List Token

namespace Desk

def strike (d : Desk) (hits : List Token) : Desk :=
  { d with tokens := hits.foldl Tokens.cancel d.tokens, struck := d.struck ++ hits }

def ask (d : Desk) (token : Token) (hits : List Token) : Desk := { d with asked := d.asked ++ [token] }.strike hits

def stop (d : Desk) (token : Token) : Desk := { d with tokens := d.tokens.cancel token }

def look (d : Desk) (parent : Token) (call : Call) (g : Glance κ) : Option (Ending κ) × Desk :=
  call.look (fun d => d.tokens.isCancelled parent) (fun d => (g.poll, d.ask call.token g.during))
    (fun d => d.stop call.token) g.now (d.strike g.before)

/-- Looks at a call until it is over. -/
def attend (parent : Token) (call : Call) : List (Glance κ) → Desk → Option (Ending κ) × Desk
  | [], d => (none, d)
  | g :: rest, d =>
      match d.look parent call g with
      | (some ending, d) => (some ending, d)
      | (none, d) => attend parent call rest d

/-- Makes a call, unless the token of the work forbids it. -/
def make (d : Desk) (parent : Token) (a : Attempt κ) : Option (Ending κ) × Desk :=
  let d := d.strike a.before
  if d.tokens.isCancelled parent then (some Call.cancelled, d)
  else
    let (call, tokens) := Call.begin d.tokens parent a.limit a.begun
    attend parent call a.glances { d with tokens := tokens }

def makeAll (d : Desk) (parent : Token) (attempts : List (Attempt κ)) : Desk :=
  attempts.foldl (fun d a => (d.make parent a).2) d

def endings (parent : Token) : List (Attempt κ) → Desk → List (Option (Ending κ))
  | [], _ => []
  | a :: rest, d => (d.make parent a).1 :: endings parent rest (d.make parent a).2

/-! ## How calls end -/

/-- How a look ends a call, `cancelled` saying whether the token of the work was cancelled before it. What the look itself
cancels comes too late for it: an answer that is there is given, and a deadline that has passed has passed. -/
def Settles (cancelled : Prop) (limit : Duration) (expires : Time) (g : Glance κ) (ending : Ending κ) : Prop :=
  (cancelled ∧ ending = Call.cancelled) ∨
    (¬ cancelled ∧ match g.poll with
      | .ready answer => ending = .answered answer
      | .panic panic => ending = .panicked panic
      | .pending => expires ≤ g.now ∧ ending = .answered (.error (.timedOut limit)))

/-- The look leaves the call waiting, `hits` being what has been cancelled before it since the call was begun. -/
def Waits (parent : Token) (expires : Time) (hits : List Token) (g : Glance κ) : Prop :=
  ¬ parent.Reached (hits ++ g.before) ∧ g.poll = .pending ∧ g.now < expires

/-- All looks leave the call waiting. -/
def Quiet (parent : Token) (expires : Time) : List Token → List (Glance κ) → Prop
  | _, [] => True
  | hits, g :: rest => Waits parent expires hits g ∧ Quiet parent expires (hits ++ g.hits) rest

/-- The call waits through some looks, and the next one settles how it ends. -/
def Ends (parent : Token) (limit : Duration) (expires : Time) (hits : List Token) (glances : List (Glance κ))
    (ending : Ending κ) : Prop :=
  ∃ waited g rest, glances = waited ++ g :: rest ∧ Quiet parent expires hits waited ∧
    Settles (parent.Reached (hits ++ waited.flatMap Glance.hits ++ g.before)) limit expires g ending

/-- What a call comes to that is made at `d`, when all is over at `last`. -/
structure Honoured (parent : Token) (a : Attempt κ) (d last : Desk) : Prop where
  refused : (d.strike a.before).tokens.isCancelled parent = true →
    (d.make parent a).1 = some Call.cancelled ∧ (d.make parent a).2.asked = d.asked
  result : (d.strike a.before).tokens.isCancelled parent = false →
    ∀ ending, (d.make parent a).1 = some ending ↔ Ends parent a.limit a.expires [] a.glances ending
  timely : (∃ g ∈ a.glances, a.expires ≤ g.now) → ∃ ending, (d.make parent a).1 = some ending
  token : ∃ handed, (d.make parent a).2.asked = d.asked ++ handed ∧ ∀ token ∈ handed,
    (d.make parent a).1.isSome = true →
      (d.make parent a).2.tokens.isCancelled token = true ∧ last.tokens.isCancelled token = true

structure Promises (parent : Token) (d : Desk) (attempts : List (Attempt κ)) : Prop where
  each : ∀ earlier a later, attempts = earlier ++ a :: later →
    Honoured parent a (d.makeAll parent earlier) (d.makeAll parent attempts)
  parent : ∃ hits, (d.makeAll parent attempts).struck = d.struck ++ hits ∧
    ((d.makeAll parent attempts).tokens.isCancelled parent = true ↔
      d.tokens.isCancelled parent = true ∨ parent.Reached hits)

variable {parent token : Token} {d d' d'' : Desk} {call : Call} {g : Glance κ} {ending : Ending κ} {hits : List Token}

/-! ## One look -/

theorem isCancelled_strike_iff : (d.strike hits).tokens.isCancelled parent = true ↔
    d.tokens.isCancelled parent = true ∨ parent.Reached hits :=
  Tokens.isCancelled_cancelAll_iff

theorem look_of_cancelled (h : (d.strike g.before).tokens.isCancelled parent = true) :
    d.look parent call g = (some Call.cancelled, (d.strike g.before).stop call.token) := by
  unfold look Call.look
  rw [if_pos h]

theorem look_of_open (h : (d.strike g.before).tokens.isCancelled parent = false) :
    d.look parent call g = match call.ending? g.now g.poll with
      | some ending => (some ending, ((d.strike g.before).ask call.token g.during).stop call.token)
      | none => (none, (d.strike g.before).ask call.token g.during) := by
  unfold look Call.look
  exact if_neg (Bool.eq_false_iff.mp h)

theorem fst_look_of_open (h : (d.strike g.before).tokens.isCancelled parent = false) :
    (d.look parent call g).1 = call.ending? g.now g.poll := by
  rw [look_of_open h]
  cases call.ending? g.now g.poll with
  | none => rfl
  | some ending => rfl

theorem ending?_eq_some_iff {now : Time} {poll : Poll κ} : call.ending? now poll = some ending ↔
    match poll with
      | .ready answer => ending = .answered answer
      | .panic panic => ending = .panicked panic
      | .pending => call.expires ≤ now ∧ ending = .answered (.error (.timedOut call.limit)) := by
  cases poll with
  | ready answer => exact ⟨fun h => (Option.some.inj h).symm, fun h => congrArg some h.symm⟩
  | panic panic => exact ⟨fun h => (Option.some.inj h).symm, fun h => congrArg some h.symm⟩
  | pending =>
    unfold Call.ending?
    by_cases hover : call.expires ≤ now
    · simp [hover, eq_comm]
    · simp [hover]

theorem ending?_eq_none_iff {now : Time} {poll : Poll κ} :
    call.ending? now poll = none ↔ poll = .pending ∧ now < call.expires := by
  cases poll with
  | ready answer => simp [Call.ending?]
  | panic panic => simp [Call.ending?]
  | pending =>
    unfold Call.ending?
    by_cases hover : call.expires ≤ now
    · simp [hover]
    · simp [hover, Nat.lt_of_not_le hover]

/-- No look at or past the deadline leaves the call waiting. -/
theorem look_ne_none (h : call.expires ≤ g.now) : (d.look parent call g).1 ≠ none := by
  cases hc : (d.strike g.before).tokens.isCancelled parent with
  | true =>
    rw [look_of_cancelled hc]
    exact nofun
  | false =>
    rw [fst_look_of_open hc]
    exact fun hnone => Nat.not_lt_of_le h (ending?_eq_none_iff.mp hnone).2

/-- The token of the work is cancelled if and only if it has been reached since the call was begun. -/
def Shaken (parent : Token) (d : Desk) (hits : List Token) : Prop :=
  d.tokens.isCancelled parent = true ↔ parent.Reached hits

theorem Shaken.strike (h : d.Shaken parent hits) (more : List Token) : (d.strike more).Shaken parent (hits ++ more) := by
  unfold Shaken at h ⊢
  rw [isCancelled_strike_iff, h, Token.reached_append]

theorem look_eq_some_iff (h : d.Shaken parent hits) :
    (d.look parent call g).1 = some ending ↔
      Settles (parent.Reached (hits ++ g.before)) call.limit call.expires g ending := by
  have hstrike := h.strike g.before
  cases hc : (d.strike g.before).tokens.isCancelled parent with
  | true =>
    have hreached := hstrike.mp hc
    rw [look_of_cancelled hc]
    constructor
    · exact fun he => .inl ⟨hreached, (Option.some.inj he).symm⟩
    · rintro (⟨-, rfl⟩ | ⟨hopen, -⟩)
      · rfl
      · exact absurd hreached hopen
  | false =>
    have hopen : ¬ parent.Reached (hits ++ g.before) := (not_congr hstrike).mp (Bool.eq_false_iff.mp hc)
    rw [fst_look_of_open hc, ending?_eq_some_iff]
    constructor
    · exact fun he => .inr ⟨hopen, he⟩
    · rintro (⟨hreached, -⟩ | ⟨-, he⟩)
      · exact absurd hreached hopen
      · exact he

theorem look_eq_none_iff (h : d.Shaken parent hits) :
    (d.look parent call g).1 = none ↔ Waits parent call.expires hits g := by
  have hstrike := h.strike g.before
  cases hc : (d.strike g.before).tokens.isCancelled parent with
  | true =>
    rw [look_of_cancelled hc]
    exact iff_of_false (fun he => nomatch he) (fun he => he.1 (hstrike.mp hc))
  | false =>
    have hopen : ¬ parent.Reached (hits ++ g.before) := (not_congr hstrike).mp (Bool.eq_false_iff.mp hc)
    rw [fst_look_of_open hc, ending?_eq_none_iff]
    exact ⟨fun he => ⟨hopen, he⟩, fun he => he.2⟩

theorem look_of_none (h : (d.look parent call g).1 = none) :
    (d.look parent call g).2 = (d.strike g.before).ask call.token g.during := by
  cases hc : (d.strike g.before).tokens.isCancelled parent with
  | true =>
    rw [look_of_cancelled hc] at h
    cases h
  | false =>
    rw [look_of_open hc] at h ⊢
    split at h
    · cases h
    · rfl

/-! ## All looks -/

section Endings

variable {limit : Duration} {expires : Time} {rest : List (Glance κ)}

theorem not_ends_nil : ¬ Ends parent limit expires hits [] ending := by
  rintro ⟨waited, g, rest, he, -⟩
  simp at he

theorem ends_cons_iff : Ends parent limit expires hits (g :: rest) ending ↔
    Settles (parent.Reached (hits ++ g.before)) limit expires g ending ∨
      (Waits parent expires hits g ∧ Ends parent limit expires (hits ++ g.hits) rest ending) := by
  constructor
  · rintro ⟨waited, g', rest', he, hwaited, hsettles⟩
    cases waited with
    | nil =>
      obtain ⟨rfl, rfl⟩ := List.cons.inj he
      rw [List.flatMap_nil, List.append_nil] at hsettles
      exact .inl hsettles
    | cons first waited =>
      obtain ⟨rfl, rfl⟩ := List.cons.inj he
      rw [List.flatMap_cons, ← List.append_assoc] at hsettles
      exact .inr ⟨hwaited.1, waited, g', rest', rfl, hwaited.2, hsettles⟩
  · rintro (hsettles | ⟨hwaits, waited, g', rest', rfl, hwaited, hsettles⟩)
    · refine ⟨[], g, rest, rfl, trivial, ?_⟩
      rw [List.flatMap_nil, List.append_nil]
      exact hsettles
    · refine ⟨g :: waited, g', rest', rfl, ⟨hwaits, hwaited⟩, ?_⟩
      rw [List.flatMap_cons, ← List.append_assoc]
      exact hsettles

end Endings

theorem attend_cons (rest : List (Glance κ)) : attend parent call (g :: rest) d =
    if (d.look parent call g).1 = none then attend parent call rest (d.look parent call g).2
    else d.look parent call g := by
  rw [attend]
  split
  · rename_i hlook
    rw [hlook]
    rfl
  · rename_i hlook
    rw [hlook]
    rfl

theorem Shaken.of_look (h : d.Shaken parent hits) (hnone : (d.look parent call g).1 = none) :
    (d.look parent call g).2.Shaken parent (hits ++ g.hits) := by
  rw [look_of_none hnone, Glance.hits, ← List.append_assoc]
  exact (h.strike g.before).strike g.during

theorem attend_eq_some_iff {glances : List (Glance κ)} (h : d.Shaken parent hits) :
    (attend parent call glances d).1 = some ending ↔
      Ends parent call.limit call.expires hits glances ending := by
  induction glances generalizing d hits with
  | nil => exact iff_of_false (fun he => nomatch he) not_ends_nil
  | cons g rest ih =>
    rw [attend_cons, ends_cons_iff, ← look_eq_some_iff h, ← look_eq_none_iff h]
    by_cases hnone : (d.look parent call g).1 = none
    · rw [if_pos hnone, ih (h.of_look hnone)]
      exact ⟨fun he => .inr ⟨hnone, he⟩, fun he => he.elim (fun hsome => absurd (hnone.symm.trans hsome) nofun) And.right⟩
    · rw [if_neg hnone]
      exact ⟨.inl, fun he => he.elim id fun hwait => absurd hwait.1 hnone⟩

theorem attend_isSome {glances : List (Glance κ)} (hlate : ∃ g ∈ glances, call.expires ≤ g.now) (d : Desk) :
    ∃ ending, (attend parent call glances d).1 = some ending := by
  induction glances generalizing d with
  | nil =>
    obtain ⟨g, hmem, -⟩ := hlate
    cases hmem
  | cons g rest ih =>
    rw [attend_cons]
    by_cases hnone : (d.look parent call g).1 = none
    · rw [if_pos hnone]
      obtain ⟨late, hmem, hlate⟩ := hlate
      rcases List.mem_cons.mp hmem with rfl | hmem
      · exact absurd hnone (look_ne_none hlate)
      · exact ih ⟨late, hmem, hlate⟩ _
    · rw [if_neg hnone]
      exact Option.ne_none_iff_exists'.mp hnone

/-! ## What is left behind -/

/-- What calls make of a desk that hand only such tokens to the executor. -/
structure Follows (parent : Token) (handed : Token → Prop) (d d' : Desk) : Prop where
  asked : ∃ more, d'.asked = d.asked ++ more ∧ ∀ token ∈ more, handed token
  struck : ∃ hits, d'.struck = d.struck ++ hits ∧
    (d'.tokens.isCancelled parent = true ↔ d.tokens.isCancelled parent = true ∨ parent.Reached hits)
  grows : d.tokens.cancelled ⊆ d'.tokens.cancelled
  issued : d.tokens.issued ≤ d'.tokens.issued

section Follows

variable {handed : Token → Prop}

theorem Follows.refl (d : Desk) : Follows parent handed d d where
  asked := ⟨[], (List.append_nil _).symm, fun _ hmem => nomatch hmem⟩
  struck := ⟨[], (List.append_nil _).symm, by simp [Token.Reached]⟩
  grows := List.Subset.refl _
  issued := Nat.le_refl _

theorem Follows.trans (h : Follows parent handed d d') (h' : Follows parent handed d' d'') :
    Follows parent handed d d'' where
  asked := by
    obtain ⟨more, hasked, hall⟩ := h.asked
    obtain ⟨more', hasked', hall'⟩ := h'.asked
    refine ⟨more ++ more', by rw [hasked', hasked, List.append_assoc], fun token hmem => ?_⟩
    exact (List.mem_append.mp hmem).elim (hall token) (hall' token)
  struck := by
    obtain ⟨hits, hstruck, hcancelled⟩ := h.struck
    obtain ⟨hits', hstruck', hcancelled'⟩ := h'.struck
    refine ⟨hits ++ hits', by rw [hstruck', hstruck, List.append_assoc], ?_⟩
    rw [hcancelled', hcancelled, Token.reached_append, or_assoc]
  grows := List.Subset.trans h.grows h'.grows
  issued := Nat.le_trans h.issued h'.issued

theorem Follows.mem_asked (h : Follows parent handed d d') (hmem : token ∈ d.asked) : token ∈ d'.asked := by
  obtain ⟨more, hasked, -⟩ := h.asked
  rw [hasked]
  exact List.mem_append_left more hmem

theorem Follows.mono {handed' : Token → Prop} (h : Follows parent handed d d')
    (hweaker : ∀ token, handed token → handed' token) : Follows parent handed' d d' where
  asked := by
    obtain ⟨more, hasked, hall⟩ := h.asked
    exact ⟨more, hasked, fun token hmem => hweaker token (hall token hmem)⟩
  struck := h.struck
  grows := h.grows
  issued := h.issued

theorem Follows.strike (hits : List Token) (d : Desk) : Follows parent handed d (d.strike hits) where
  asked := ⟨[], (List.append_nil _).symm, fun _ hmem => nomatch hmem⟩
  struck := ⟨hits, rfl, isCancelled_strike_iff⟩
  grows := Tokens.subset_cancelAll hits d.tokens
  issued := Nat.le_of_eq (Tokens.issued_cancelAll hits d.tokens).symm

theorem Follows.ask (h : handed token) (hits : List Token) (d : Desk) :
    Follows parent handed d (d.ask token hits) where
  asked := ⟨[token], rfl, fun _ hmem => List.mem_singleton.mp hmem ▸ h⟩
  struck := ⟨hits, rfl, isCancelled_strike_iff⟩
  grows := Tokens.subset_cancelAll hits d.tokens
  issued := Nat.le_of_eq (Tokens.issued_cancelAll hits d.tokens).symm

/-- The token of the work does not descend from that of a call. -/
theorem Follows.stop {k : Nat} {ancestors : List Nat} (h : token.lineage = k :: ancestors) (hk : k ∉ parent.lineage)
    (d : Desk) : Follows parent handed d (d.stop token) where
  asked := ⟨[], (List.append_nil _).symm, fun _ hmem => nomatch hmem⟩
  struck := by
    refine ⟨[], (List.append_nil _).symm, ?_⟩
    have hsame : (d.stop token).tokens.isCancelled parent = d.tokens.isCancelled parent :=
      Tokens.isCancelled_cancel_of_notMem h hk d.tokens
    rw [hsame]
    simp [Token.Reached]
  grows := Tokens.subset_cancel d.tokens token
  issued := Nat.le_of_eq (Tokens.issued_cancel d.tokens token).symm

theorem Follows.look {k : Nat} {ancestors : List Nat} (h : call.token.lineage = k :: ancestors)
    (hk : k ∉ parent.lineage) (g : Glance κ) (d : Desk) :
    Follows parent (· = call.token) d (d.look parent call g).2 := by
  have hstrike : Follows parent (· = call.token) d (d.strike g.before) := .strike g.before d
  cases hc : (d.strike g.before).tokens.isCancelled parent with
  | true =>
    rw [look_of_cancelled hc]
    exact hstrike.trans (.stop h hk _)
  | false =>
    have hask : Follows parent (· = call.token) d ((d.strike g.before).ask call.token g.during) := by
      refine hstrike.trans (.ask ?_ g.during (d.strike g.before))
      rfl
    rw [look_of_open hc]
    split
    · exact hask.trans (.stop h hk _)
    · exact hask

theorem Follows.attend {k : Nat} {ancestors : List Nat} (h : call.token.lineage = k :: ancestors)
    (hk : k ∉ parent.lineage) (glances : List (Glance κ)) (d : Desk) :
    Follows parent (· = call.token) d (attend parent call glances d).2 := by
  induction glances generalizing d with
  | nil => exact .refl d
  | cons g rest ih =>
    rw [attend_cons]
    split
    · exact (Follows.look h hk g d).trans (ih _)
    · exact .look h hk g d

end Follows

theorem isCancelled_of_look (h : call.token.lineage ≠ []) (hsome : (d.look parent call g).1 ≠ none) :
    (d.look parent call g).2.tokens.isCancelled call.token = true := by
  cases hc : (d.strike g.before).tokens.isCancelled parent with
  | true =>
    rw [look_of_cancelled hc]
    exact Tokens.isCancelled_cancel h _
  | false =>
    rw [look_of_open hc] at hsome ⊢
    split at hsome
    · exact Tokens.isCancelled_cancel h _
    · exact absurd rfl hsome

/-- However a call ends, its token is cancelled then. -/
theorem isCancelled_of_attend {glances : List (Glance κ)} (h : call.token.lineage ≠ [])
    (hsome : (attend parent call glances d).1 ≠ none) :
    (attend parent call glances d).2.tokens.isCancelled call.token = true := by
  induction glances generalizing d with
  | nil => exact absurd rfl hsome
  | cons g rest ih =>
    rw [attend_cons] at hsome ⊢
    split at hsome
    · rename_i hnone
      rw [if_pos hnone]
      exact ih hsome
    · rename_i hsome
      rw [if_neg hsome]
      exact isCancelled_of_look h hsome

/-! ## One call -/

/-- The number of each token that this one descends from has been issued, its own included. -/
def Numbered (tokens : Tokens) (token : Token) : Prop := ∀ k ∈ token.lineage, k < tokens.issued

theorem Numbered.mono (h : Numbered d.tokens parent) (hle : d.tokens.issued ≤ d'.tokens.issued) :
    Numbered d'.tokens parent :=
  fun k hmem => Nat.lt_of_lt_of_le (h k hmem) hle

section Make

variable {a : Attempt κ}

/-- The call that is begun, with the tokens that there are then. -/
def start (d : Desk) (parent : Token) (a : Attempt κ) : Call × Tokens :=
  Call.begin (d.strike a.before).tokens parent a.limit a.begun

/-- The desk at which it is looked at. -/
def begun (d : Desk) (parent : Token) (a : Attempt κ) : Desk :=
  { d.strike a.before with tokens := (d.start parent a).2 }

theorem lineage_start : (d.start parent a).1.token.lineage = d.tokens.issued :: parent.lineage :=
  congrArg (· :: parent.lineage) (Tokens.issued_cancelAll a.before d.tokens)

theorem make_of_cancelled (h : (d.strike a.before).tokens.isCancelled parent = true) :
    d.make parent a = (some Call.cancelled, d.strike a.before) :=
  if_pos h

theorem make_of_open (h : (d.strike a.before).tokens.isCancelled parent = false) :
    d.make parent a =
      attend parent (d.start parent a).1 a.glances (d.begun parent a) :=
  if_neg (Bool.eq_false_iff.mp h)

theorem Follows.start {handed : Token → Prop} (d : Desk) (a : Attempt κ) :
    Follows parent handed (d.strike a.before) (d.begun parent a) where
  asked := ⟨[], (List.append_nil _).symm, fun _ hmem => nomatch hmem⟩
  struck := by
    refine ⟨[], (List.append_nil _).symm, ?_⟩
    simp [Token.Reached, begun, Desk.start, Call.begin, Tokens.child, Tokens.issue, Tokens.isCancelled]
  grows := List.Subset.refl _
  issued := Nat.le_succ _

theorem notMem_of_numbered (h : Numbered d.tokens parent) : d.tokens.issued ∉ parent.lineage :=
  fun hmem => Nat.lt_irrefl _ (h _ hmem)

theorem Follows.make (h : Numbered d.tokens parent) (a : Attempt κ) :
    Follows parent (· = (d.start parent a).1.token) d (d.make parent a).2 := by
  have hstrike : Follows parent (· = (d.start parent a).1.token) d (d.strike a.before) := .strike a.before d
  cases hc : (d.strike a.before).tokens.isCancelled parent with
  | true =>
    rw [make_of_cancelled hc]
    exact hstrike
  | false =>
    rw [make_of_open hc]
    exact (hstrike.trans (.start d a)).trans (.attend lineage_start (notMem_of_numbered h) a.glances _)

/-- The first look at a call asks the executor, if nobody cancels the token of the work before it. -/
theorem token_mem_asked_make {rest : List (Glance κ)} (h : Numbered d.tokens parent)
    (hopen : (d.strike a.before).tokens.isCancelled parent = false) (hglances : a.glances = g :: rest)
    (hbefore : g.before = []) : (d.start parent a).1.token ∈ (d.make parent a).2.asked := by
  have hfirst : (d.start parent a).1.token ∈ ((d.begun parent a).look parent (d.start parent a).1 g).2.asked := by
    rw [look_of_open (by rw [hbefore]; exact hopen)]
    split
    · exact List.mem_append_right _ (List.mem_singleton_self _)
    · exact List.mem_append_right _ (List.mem_singleton_self _)
  rw [make_of_open hopen, hglances, attend_cons]
  split
  · exact (Follows.attend lineage_start (notMem_of_numbered h) rest _).mem_asked hfirst
  · exact hfirst

/-- Nothing has reached the token of the work when a call is begun. -/
theorem shaken_start (h : (d.strike a.before).tokens.isCancelled parent = false) :
    (d.begun parent a).Shaken parent [] := by
  have hsame : (d.begun parent a).tokens.isCancelled parent = (d.strike a.before).tokens.isCancelled parent := rfl
  unfold Shaken
  rw [hsame, h]
  simp [Token.Reached]

theorem isCancelled_of_make (hsome : (d.make parent a).1 ≠ none) :
    (d.make parent a).2.tokens.isCancelled (d.start parent a).1.token = true := by
  have hlineage : (d.start parent a).1.token.lineage = d.tokens.issued :: parent.lineage := lineage_start
  cases hc : (d.strike a.before).tokens.isCancelled parent with
  | true =>
    rw [make_of_cancelled hc]
    refine Tokens.isCancelled_of_subset ?_ hc
    rw [hlineage]
    exact List.subset_cons_self _ _
  | false =>
    rw [make_of_open hc] at hsome ⊢
    refine isCancelled_of_attend ?_ hsome
    rw [hlineage]
    exact List.cons_ne_nil _ _

theorem make_isSome (hlate : ∃ g ∈ a.glances, a.expires ≤ g.now) : ∃ ending, (d.make parent a).1 = some ending := by
  cases hc : (d.strike a.before).tokens.isCancelled parent with
  | true => exact ⟨Call.cancelled, by rw [make_of_cancelled hc]⟩
  | false =>
    rw [make_of_open hc]
    exact attend_isSome hlate _

end Make

/-! ## All calls -/

theorem makeAll_append (earlier later : List (Attempt κ)) :
    d.makeAll parent (earlier ++ later) = (d.makeAll parent earlier).makeAll parent later :=
  List.foldl_append

theorem Follows.makeAll (h : Numbered d.tokens parent) (attempts : List (Attempt κ)) :
    Follows parent (fun _ => True) d (d.makeAll parent attempts) := by
  induction attempts generalizing d with
  | nil => exact .refl d
  | cons a attempts ih =>
    have hmake := Follows.make h a
    exact (hmake.mono fun _ _ => trivial).trans (ih (h.mono hmake.issued))

/-- A call keeps what it promises, whatever comes later. -/
theorem honoured_of_numbered {a : Attempt κ} {last : Desk} (h : Numbered d.tokens parent)
    (hgrows : (d.make parent a).2.tokens.cancelled ⊆ last.tokens.cancelled) : Honoured parent a d last where
  refused hc := by
    rw [make_of_cancelled hc]
    exact ⟨rfl, rfl⟩
  result hc ending := by
    rw [make_of_open hc]
    exact attend_eq_some_iff (shaken_start hc)
  timely := make_isSome
  token := by
    obtain ⟨more, hasked, hall⟩ := (Follows.make h a).asked
    refine ⟨more, hasked, fun token hmem hsome => ?_⟩
    have hcancelled := isCancelled_of_make (Option.isSome_iff_ne_none.mp hsome)
    rw [hall token hmem]
    exact ⟨hcancelled, Tokens.isCancelled_mono hgrows hcancelled⟩

/-- Calls that share a token keep their promises, whatever they find. -/
theorem promises_kept (h : Numbered d.tokens parent) (attempts : List (Attempt κ)) : Promises parent d attempts where
  each := by
    rintro earlier a later rfl
    have hnumbered := h.mono (Follows.makeAll h earlier).issued
    have hlater := hnumbered.mono (Follows.make hnumbered a).issued
    rw [makeAll_append]
    exact honoured_of_numbered hnumbered (Follows.makeAll hlater later).grows
  parent := (Follows.makeAll h attempts).struck

/-- The first call hangs, the second is answered at its deadline while the token of the work is cancelled, and the third
comes after that. -/
theorem promises_kept_of_hanging :
    let d : Desk := ⟨Tokens.empty.root.1, [], []⟩
    let attempts : List (Attempt Nat) :=
      [⟨[], ⟨5⟩, 0, [⟨0, [], .pending, []⟩, ⟨5, [], .pending, []⟩]⟩,
        ⟨[], ⟨0⟩, 6, [⟨6, [], .ready (.ok (.success .null)), [⟨[0]⟩]⟩]⟩, ⟨[], ⟨9⟩, 7, []⟩]
    Numbered d.tokens ⟨[0]⟩ ∧ Promises ⟨[0]⟩ d attempts ∧
      endings ⟨[0]⟩ attempts d = [some (.answered (.error (.timedOut ⟨5⟩))),
        some (.answered (.ok (.success .null))), some Call.cancelled] := by
  intro d attempts
  have hnumbered : Numbered d.tokens ⟨[0]⟩ := by
    intro k hmem
    obtain rfl := List.mem_singleton.mp hmem
    decide
  exact ⟨hnumbered, promises_kept hnumbered attempts, rfl⟩

end Desk

end Overseer
