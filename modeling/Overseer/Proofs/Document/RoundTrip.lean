import Mathlib
import Overseer.Capability.Basic
import Overseer.Cost.Estimator
import Overseer.Task.Failure
import Overseer.Proofs.Document.Value

/-! # What is sent comes back

Calls, their outputs, units of work, failures and price lists are written as JSON and read from it. What has been written
is read as it was. What is read of any JSON value, however it was put, can itself be written, so its written form is one
that reading and writing leave as it is (`RoundTrips.settled`).

A value that is written has what its type alone does not say (`Sound`): the keys of its tables are in order, an iteration
fits into 32 bits, and costs and prices are finite, since any other double would be written as null. Everything that is
read of a JSON value has it.
-/

namespace Overseer

open Document

/-- Values of the type, written and read again, and JSON values, read and written again. -/
structure RoundTrips {α : Type} (write : α → Json) (read : Document → Option α) (Sound : α → Prop) : Prop where
  back : ∀ x, Sound x → read (.ofJson (write x)) = some x
  sound : ∀ v : Json, v.Finite → ∀ x, read (.ofJson v) = some x → Sound x
  settled : ∀ v w : Json, v.Finite → (read (.ofJson v)).map write = some w →
    read (.ofJson w) = read (.ofJson v) ∧ (read (.ofJson w)).map write = some w

theorem RoundTrips.of_reads {α : Type} {write : α → Json} {read : Document → Option α} {Sound : α → Prop}
    (hback : ∀ x, Sound x → read (.ofJson (write x)) = some x) (hsound : Reads FiniteJson read Sound) :
    RoundTrips write read Sound where
  back := hback
  sound v hv := hsound _ ⟨v, hv, rfl⟩
  settled v w hv hw := by
    obtain ⟨x, hread, rfl⟩ := Option.map_eq_some_iff.mp hw
    have hagain := hback x (hsound _ ⟨v, hv, rfl⟩ x hread)
    rw [hagain, hread]
    exact ⟨rfl, rfl⟩

theorem Document.float?_float {x : Float} (h : x.isFinite = true) : float? (.ofJson (.float x)) = some x := by
  rw [Json.float, if_pos h]
  rfl

theorem Document.nullable?_float {x : Float} (h : x.isFinite = true) :
    nullable? float? (.ofJson (.float x)) = some (some x) := by
  rw [Json.float, if_pos h]
  rfl

/-! ## Calls -/

namespace Invocation

def Sound (i : Invocation) : Prop := i.params.Ordered

theorem decode?_toJson (i : Invocation) (h : i.Sound) : decode? (.ofJson i.toJson) = some i := by
  have hkeys : ([("name", Json.string i.name), ("params", i.params)].map (·.1)).Nodup := by simp
  unfold decode? toJson
  simp only [Option.bind_eq_bind, Option.bind_eq_some_iff]
  refine ⟨_, record?_object _ _, i.name, ?name, i.params, ?params, rfl⟩
  case name => exact required_recordOf (by decide) hkeys rfl rfl
  case params => exact required_recordOf (by decide) hkeys rfl (toJson?_ofJson i.params h)

theorem sound_of_decode? : Reads FiniteJson decode? Sound := by
  intro d _ i h
  unfold decode? at h
  simp only [Option.bind_eq_bind, Option.bind_eq_some_iff, Option.some.injEq] at h
  obtain ⟨r, -, name, -, params, hparams, rfl⟩ := h
  obtain ⟨document, -, hread⟩ := Option.bind_eq_some_iff.mp hparams
  exact ordered_of_toJson? document hread

end Invocation

/-! ## Outputs -/

namespace Output

def Sound (o : Output Float) : Prop := o.output.Ordered ∧ ∀ cost ∈ o.cost, cost.isFinite = true

theorem decode?_toJson (o : Output Float) (h : o.Sound) : decode? (.ofJson o.toJson) = some o := by
  obtain ⟨ok, output, error, cost⟩ := o
  obtain ⟨houtput, hcost⟩ := h
  have hkeys : (([("ok", Json.bool ok), ("output", output)] ++ Json.fieldWhen "error" Json.string error
      ++ Json.fieldWhen "cost" Cost.toJson cost).map (·.1)).Nodup := by
    cases error <;> cases cost <;> simp [Json.fieldWhen]
  unfold decode? toJson
  simp only [Option.bind_eq_bind, Option.bind_eq_some_iff]
  refine ⟨_, record?_object _ _, ok, ?ok, output, ?output, error, ?error, cost, ?cost, rfl⟩
  case ok => exact required_recordOf (by decide) hkeys rfl rfl
  case output => exact withDefault_recordOf (by decide) hkeys rfl (toJson?_ofJson output houtput) .null
  case error =>
    refine withDefault_recordOf_map (by decide) hkeys (?_ : _ = error.map Json.string) fun _ _ => rfl
    cases error <;> cases cost <;> rfl
  case cost =>
    refine withDefault_recordOf_map (by decide) hkeys (?_ : _ = cost.map Json.float) fun x hx => ?_
    · cases error <;> cases cost <;> rfl
    · exact nullable?_float (hcost x hx)

theorem sound_of_decode? : Reads FiniteJson decode? Sound := by
  intro d hd o h
  unfold decode? at h
  simp only [Option.bind_eq_bind, Option.bind_eq_some_iff, Option.some.injEq] at h
  obtain ⟨r, hr, ok, -, output, houtput, error, -, cost, hcost, rfl⟩ := h
  have hfields := closed_finiteJson.record? hd hr
  have hordered : Reads FiniteJson toJson? Json.Ordered := fun document _ _ hvalue => ordered_of_toJson? document hvalue
  exact ⟨hordered.withDefault hfields houtput trivial, reads_float.nullable.withDefault hfields hcost nofun⟩

end Output

/-! ## Units of work -/

namespace WorkUnit

def Sound (u : WorkUnit) : Prop := ∀ iteration ∈ u.iteration, iteration < 2 ^ 32

theorem decode?_toJson (u : WorkUnit) (h : u.Sound) : decode? (.ofJson u.toJson) = some u := by
  obtain ⟨capability, target, iteration⟩ := u
  have hkeys : ([("capability", Json.string capability), ("target_file", Json.optional Json.string target),
      ("iteration", Json.optional Json.nat iteration)].map (·.1)).Nodup := by simp
  unfold decode? toJson
  simp only [Option.bind_eq_bind, Option.bind_eq_some_iff]
  refine ⟨_, record?_object _ _, capability, ?capability, target, ?target, iteration, ?iteration, rfl⟩
  case capability => exact required_recordOf (by decide) hkeys rfl rfl
  case target =>
    refine optional_recordOf (by decide) hkeys rfl ?_
    cases target <;> rfl
  case iteration =>
    refine optional_recordOf (by decide) hkeys rfl ?_
    cases iteration with
    | none => rfl
    | some n => exact congrArg (Option.map some) (word32?_nat (h n rfl))

theorem sound_of_decode? : Reads FiniteJson decode? Sound := by
  intro d hd u h
  unfold decode? at h
  simp only [Option.bind_eq_bind, Option.bind_eq_some_iff, Option.some.injEq] at h
  obtain ⟨r, hr, capability, -, target, -, iteration, hiteration, rfl⟩ := h
  exact reads_word32.optional (closed_finiteJson.record? hd hr) hiteration

end WorkUnit

/-! ## Failures -/

theorem FailureReason.ofName?_name (reason : FailureReason) : ofName? reason.name = some reason := by
  cases reason <;> rfl

theorem Failure.decode?_toJson (f : Failure) : decode? (.ofJson f.toJson) = some f := by
  have hkeys : ([("reason", Json.string f.reason.name), ("detail", Json.string f.detail)].map (·.1)).Nodup := by simp
  unfold decode? toJson
  simp only [Option.bind_eq_bind, Option.bind_eq_some_iff]
  refine ⟨_, record?_object _ _, f.reason, ?reason, f.detail, ?detail, rfl⟩
  case reason => exact required_recordOf (by decide) hkeys rfl (FailureReason.ofName?_name f.reason)
  case detail => exact required_recordOf (by decide) hkeys rfl rfl

/-! ## Price lists -/

namespace PriceList

structure Sound (p : PriceList) : Prop where
  sorted : Keyed.Sorted p.perCapability
  default : p.default.isFinite = true
  prices : ∀ entry ∈ p.perCapability, entry.2.isFinite = true

theorem decode?_toJson (p : PriceList) (h : p.Sound) : decode? (.ofJson p.toJson) = some p := by
  have hkeys : ([("default", Json.float p.default),
      ("per_capability", .obj (p.perCapability.map fun entry => (entry.1, Json.float entry.2)))].map (·.1)).Nodup := by
    simp
  unfold decode? toJson
  simp only [Option.bind_eq_bind, Option.bind_eq_some_iff]
  refine ⟨_, record?_object _ _, p.default, ?default, p.perCapability, ?prices, rfl⟩
  case default => exact withDefault_recordOf (by decide) hkeys rfl (float?_float h.default) 0
  case prices =>
    refine withDefault_recordOf (by decide) hkeys rfl ?_ []
    have hread : ∀ entry ∈ p.perCapability, float? ((ofJson ∘ Json.float) entry.2) = some entry.2 :=
      fun entry hentry => float?_float (h.prices entry hentry)
    rw [ofJson_obj, entriesOf, List.map_map]
    exact dictionary?_table h.sorted hread

theorem sound_of_decode? : Reads FiniteJson decode? Sound := by
  intro d hd p h
  unfold decode? at h
  simp only [Option.bind_eq_bind, Option.bind_eq_some_iff, Option.some.injEq] at h
  obtain ⟨r, hr, default, hdefault, prices, hprices, rfl⟩ := h
  have hfields := closed_finiteJson.record? hd hr
  obtain ⟨hsorted, hfinite⟩ := (reads_float.dictionary closed_finiteJson).withDefault hfields hprices
    ⟨Keyed.sorted_nil, List.forall_mem_nil _⟩
  exact
    { sorted := hsorted
      default := reads_float.withDefault hfields hdefault (by decide)
      prices := hfinite }

end PriceList

/-! ## All of them -/

/-- Nothing is lost on the wire. -/
theorem wire_values_round_trip :
    RoundTrips Invocation.toJson Invocation.decode? Invocation.Sound ∧
    RoundTrips Output.toJson Output.decode? Output.Sound ∧
    RoundTrips WorkUnit.toJson WorkUnit.decode? WorkUnit.Sound ∧
    RoundTrips Failure.toJson Failure.decode? (fun _ => True) ∧
    RoundTrips PriceList.toJson PriceList.decode? PriceList.Sound :=
  ⟨.of_reads Invocation.decode?_toJson Invocation.sound_of_decode?,
    .of_reads Output.decode?_toJson Output.sound_of_decode?,
    .of_reads WorkUnit.decode?_toJson WorkUnit.sound_of_decode?,
    .of_reads (fun f _ => Failure.decode?_toJson f) (fun _ _ _ _ => trivial),
    .of_reads PriceList.decode?_toJson PriceList.sound_of_decode?⟩

/-- An array for an object, fields that are missing or that nobody asks for, a reason that is an object itself, and an
integer for a price. -/
theorem wire_values_round_trip_of_forms :
    Invocation.decode? (.ofJson (.obj [("name", .string "fix"), ("params", .obj [("files", .array [.null])])])) =
      Invocation.decode? (.ofJson (.array [.string "fix", .obj [("files", .array [.null])]])) ∧
    Output.decode? (.ofJson (.obj [("ok", .bool true), ("output", .null)])) =
      Output.decode? (.ofJson (.array [.bool true])) ∧
    WorkUnit.decode? (.ofJson (.obj [("capability", .string "fix"), ("iteration", .null), ("target_file", .null)])) =
      WorkUnit.decode? (.ofJson (.obj [("capability", .string "fix"), ("since", .nat 3)])) ∧
    Failure.decode? (.ofJson (.obj [("detail", .string "late"), ("reason", .string "timeout")])) =
      Failure.decode? (.ofJson (.obj [("detail", .string "late"), ("reason", .obj [("timeout", .null)])])) ∧
    PriceList.decode? (.ofJson (.obj [("default", .float 0), ("per_capability", .obj [("fix", .float 2)])])) =
      PriceList.decode? (.ofJson (.obj [("per_capability", .obj [("fix", .nat 2)])])) ∧
    Output.decode? (.ofJson (Output.toJson ⟨true, .obj [("files", .null)], some "late", some (2 : Float)⟩)) =
      some ⟨true, .obj [("files", .null)], some "late", some 2⟩ := by
  obtain ⟨hcalls, houtputs, hunits, hfailures, hprices⟩ := wire_values_round_trip
  refine ⟨?call, ?output, ?unit, ?failure, ?prices, ?back⟩
  case call =>
    have hfinite : (Json.array [.string "fix", .obj [("files", .array [.null])]]).Finite :=
      ⟨trivial, ⟨⟨trivial, trivial⟩, trivial⟩, trivial⟩
    exact (hcalls.settled _ _ hfinite rfl).1
  case output =>
    have hfinite : (Json.array [.bool true]).Finite := ⟨trivial, trivial⟩
    exact (houtputs.settled _ _ hfinite rfl).1
  case unit =>
    have hfinite : (Json.obj [("capability", .string "fix"), ("since", .nat 3)]).Finite := ⟨trivial, trivial, trivial⟩
    exact (hunits.settled _ _ hfinite rfl).1
  case failure =>
    have hfinite : (Json.obj [("detail", .string "late"), ("reason", .obj [("timeout", .null)])]).Finite :=
      ⟨trivial, ⟨trivial, trivial⟩, trivial⟩
    exact (hfailures.settled _ _ hfinite rfl).1
  case prices =>
    have hfinite : (Json.obj [("per_capability", .obj [("fix", .nat 2)])]).Finite := ⟨⟨trivial, trivial⟩, trivial⟩
    exact (hprices.settled _ _ hfinite rfl).1
  case back =>
    have hordered : (Json.obj [("files", .null)]).Ordered := ⟨by decide, trivial, trivial⟩
    exact houtputs.back _ ⟨hordered, by decide⟩

end Overseer
