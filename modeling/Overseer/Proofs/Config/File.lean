import Mathlib
import Overseer.Config.File
import Overseer.Proofs.Config.Basic
import Overseer.Proofs.Text.Utf8
import Overseer.Proofs.Toml.Tree

/-! # A configuration is read back from its file

The file has a table for each section, with the commands and the prices in tables of their own, and a limit that is
not set is left out. Each section is decoded from its own entries (`decode?_entries`), the file is read as the tables
that were written, and the two together are the round trip. The numbers have to fit into the fields, as every
configuration's do, and no price may be a NaN, which is not equal to itself.
-/

namespace Overseer

open Document

/-! ## Sections -/

def QueueSection.entries (s : QueueSection) : List (String × Document) :=
  ("concurrency_limit", Config.nat s.concurrencyLimit)
    :: s.maxPending.toList.map fun n => ("max_pending", Config.nat n)

def ExecutorSection.entries (s : ExecutorSection) : List (String × Document) :=
  [("timeout_secs", Config.nat s.timeoutSecs)]

def HealingSection.entries (s : HealingSection) : List (String × Document) :=
  [("max_iterations", Config.nat s.maxIterations), ("max_repeat", Config.nat s.maxRepeat),
    ("max_cost", Config.float s.maxCost), ("iteration_timeout_secs", Config.nat s.iterationTimeoutSecs),
    ("verify_capability", .string s.verify), ("diagnose_capability", .string s.diagnose),
    ("fix_capability", .string s.fix)]

def WatchdogSection.entries (s : WatchdogSection) : List (String × Document) :=
  [("interval_secs", Config.nat s.intervalSecs), ("stall_timeout_secs", Config.nat s.stallTimeoutSecs)]

def NotifierSection.entries (s : NotifierSection) : List (String × Document) := [("buffer", Config.nat s.buffer)]

def CommandsSection.entries (s : CommandsSection) : List (String × Document) :=
  [("workdir", .string s.workdir), ("output_limit_bytes", Config.nat s.outputLimit)]

def CommandsSection.words (s : CommandsSection) : List (String × Document) :=
  s.capabilities.map fun entry => (entry.1, Config.strings entry.2)

def PriceList.entries (p : PriceList) : List (String × Document) := [("default", Config.float p.default)]

def PriceList.prices (p : PriceList) : List (String × Document) :=
  p.perCapability.map fun entry => (entry.1, Config.float entry.2)

/-- The entries of the commands with the table of the capabilities. -/
def CommandsSection.contents (s : CommandsSection) : List (String × Document) :=
  s.entries ++ [("capabilities", table s.words)]

def PriceList.contents (p : PriceList) : List (String × Document) :=
  p.entries ++ [("per_capability", table p.prices)]

/-! ### Keys -/

theorem QueueSection.nodup_keys (s : QueueSection) : (s.entries.map (·.1)).Nodup := by
  obtain ⟨limit, maxPending⟩ := s
  cases maxPending with
  | none => exact List.nodup_singleton "concurrency_limit"
  | some maxPending => exact (by decide : ["concurrency_limit", "max_pending"].Nodup)

theorem ExecutorSection.nodup_keys (s : ExecutorSection) : (s.entries.map (·.1)).Nodup :=
  List.nodup_singleton "timeout_secs"

theorem HealingSection.nodup_keys (s : HealingSection) : (s.entries.map (·.1)).Nodup :=
  (by decide : ["max_iterations", "max_repeat", "max_cost", "iteration_timeout_secs", "verify_capability",
    "diagnose_capability", "fix_capability"].Nodup)

theorem WatchdogSection.nodup_keys (s : WatchdogSection) : (s.entries.map (·.1)).Nodup :=
  (by decide : ["interval_secs", "stall_timeout_secs"].Nodup)

theorem NotifierSection.nodup_keys (s : NotifierSection) : (s.entries.map (·.1)).Nodup :=
  List.nodup_singleton "buffer"

theorem CommandsSection.nodup_keys (s : CommandsSection) : (s.contents.map (·.1)).Nodup :=
  (by decide : ["workdir", "output_limit_bytes", "capabilities"].Nodup)

theorem PriceList.nodup_keys (p : PriceList) : (p.contents.map (·.1)).Nodup :=
  (by decide : ["default", "per_capability"].Nodup)

theorem CommandsSection.nodup_names {s : CommandsSection} (h : Keyed.Sorted s.capabilities) :
    (s.words.map (·.1)).Nodup := by
  unfold words
  rw [List.map_map]
  exact h.nodup

theorem PriceList.nodup_names {p : PriceList} (h : Keyed.Sorted p.perCapability) :
    (p.prices.map (·.1)).Nodup := by
  unfold prices
  rw [List.map_map]
  exact h.nodup

/-! ### Values that can be read -/

theorem readable_nat {n : ℕ} (h : n < 2 ^ 64) : Toml.Readable (Config.nat n) := .scalar (.int h)

theorem readable_string (s : String) : Toml.Readable (.string s) := .scalar (.string s)

theorem readable_float {x : Float} (h : x.isNaN = false) : Toml.Readable (Config.float x) := .scalar (.float h)

theorem QueueSection.readable {s : QueueSection} (hlimit : s.concurrencyLimit < 2 ^ 64)
    (hpending : ∀ limit ∈ s.maxPending, limit < 2 ^ 64) : ∀ entry ∈ s.entries, Toml.Readable entry.2 := by
  unfold entries
  refine List.forall_mem_cons.mpr ⟨readable_nat hlimit, ?_⟩
  simp only [List.forall_mem_map, Option.mem_toList]
  exact fun limit hmem => readable_nat (hpending limit hmem)

theorem HealingSection.readable {s : HealingSection} (hiterations : s.maxIterations < 2 ^ 32)
    (hrepeat : s.maxRepeat < 2 ^ 32) (hcost : s.maxCost.isNaN = false) (htimeout : s.iterationTimeoutSecs < 2 ^ 64) :
    ∀ entry ∈ s.entries, Toml.Readable entry.2 := by
  unfold entries
  simp only [List.forall_mem_cons]
  exact ⟨readable_nat (by omega), readable_nat (by omega), readable_float hcost, readable_nat htimeout,
    readable_string _, readable_string _, readable_string _, List.forall_mem_nil _⟩

theorem WatchdogSection.readable {s : WatchdogSection} (hinterval : s.intervalSecs < 2 ^ 64)
    (hstall : s.stallTimeoutSecs < 2 ^ 64) : ∀ entry ∈ s.entries, Toml.Readable entry.2 := by
  unfold entries
  simp only [List.forall_mem_cons]
  exact ⟨readable_nat hinterval, readable_nat hstall, List.forall_mem_nil _⟩

theorem CommandsSection.readable {s : CommandsSection} (hlimit : s.outputLimit < 2 ^ 64) :
    ∀ entry ∈ s.entries, Toml.Readable entry.2 := by
  unfold entries
  simp only [List.forall_mem_cons]
  exact ⟨readable_string _, readable_nat hlimit, List.forall_mem_nil _⟩

theorem CommandsSection.readable_words (s : CommandsSection) : ∀ entry ∈ s.words, Toml.Readable entry.2 := by
  unfold words
  simp only [List.forall_mem_map]
  refine fun entry _ => .array fun item hitem => ?_
  obtain ⟨word, -, rfl⟩ := List.mem_map.mp hitem
  exact .string word

theorem PriceList.readable_prices {p : PriceList} (h : p.Numeric) : ∀ entry ∈ p.prices, Toml.Readable entry.2 := by
  unfold prices
  simp only [List.forall_mem_map]
  exact fun entry hentry => readable_float (h.perCapability entry hentry)

/-! ### Decoding -/

theorem QueueSection.decode?_entries {s : QueueSection} (hlimit : s.concurrencyLimit < 2 ^ 64)
    (hpending : ∀ limit ∈ s.maxPending, limit < 2 ^ 64) : decode? (table s.entries) = some s := by
  obtain ⟨limit, maxPending⟩ := s
  cases maxPending with
  | none =>
    refine (record?_table_bind (QueueSection.nodup_keys _) _).trans ?_
    refine (withDefault_bind (by decide) rfl (word64?_nat hlimit)).trans ?_
    exact withDefault_bind_of_none (by decide) rfl
  | some maxPending =>
    refine (record?_table_bind (QueueSection.nodup_keys _) _).trans ?_
    refine (withDefault_bind (by decide) rfl (word64?_nat hlimit)).trans ?_
    have hvalue : nullable? word64? (Config.nat maxPending) = some (some maxPending) :=
      congrArg (Option.map some) (word64?_nat (hpending maxPending rfl))
    exact withDefault_bind (by decide) rfl hvalue

theorem ExecutorSection.decode?_entries {s : ExecutorSection} (h : s.timeoutSecs < 2 ^ 64) :
    decode? (table s.entries) = some s := by
  refine (record?_table_bind s.nodup_keys _).trans ?_
  exact withDefault_bind (by decide) rfl (word64?_nat h)

theorem HealingSection.decode?_entries {s : HealingSection} (hiterations : s.maxIterations < 2 ^ 32)
    (hrepeat : s.maxRepeat < 2 ^ 32) (htimeout : s.iterationTimeoutSecs < 2 ^ 64) :
    decode? (table s.entries) = some s := by
  refine (record?_table_bind s.nodup_keys _).trans ?_
  refine (withDefault_bind (by decide) rfl (word32?_nat hiterations)).trans ?_
  refine (withDefault_bind (by decide) rfl (word32?_nat hrepeat)).trans ?_
  refine (withDefault_bind (by decide) rfl (x := s.maxCost) rfl).trans ?_
  refine (withDefault_bind (by decide) rfl (word64?_nat htimeout)).trans ?_
  refine (withDefault_bind (by decide) rfl (x := s.verify) rfl).trans ?_
  refine (withDefault_bind (by decide) rfl (x := s.diagnose) rfl).trans ?_
  exact withDefault_bind (by decide) rfl rfl

theorem WatchdogSection.decode?_entries {s : WatchdogSection} (hinterval : s.intervalSecs < 2 ^ 64)
    (hstall : s.stallTimeoutSecs < 2 ^ 64) : decode? (table s.entries) = some s := by
  refine (record?_table_bind s.nodup_keys _).trans ?_
  refine (withDefault_bind (by decide) rfl (word64?_nat hinterval)).trans ?_
  exact withDefault_bind (by decide) rfl (word64?_nat hstall)

theorem NotifierSection.decode?_entries {s : NotifierSection} (h : s.buffer < 2 ^ 64) :
    decode? (table s.entries) = some s := by
  refine (record?_table_bind s.nodup_keys _).trans ?_
  exact withDefault_bind (by decide) rfl (word64?_nat h)

theorem list?_strings (words : List String) : list? string? (Config.strings words) = some words := by
  change (words.map Document.string).mapM string? = some words
  exact mapM_map fun _ _ => rfl

theorem CommandsSection.decode?_entries {s : CommandsSection} (hlimit : s.outputLimit < 2 ^ 64)
    (hsorted : Keyed.Sorted s.capabilities) :
    decode? (table s.contents) = some s := by
  refine (record?_table_bind s.nodup_keys _).trans ?_
  refine (withDefault_bind (by decide) rfl (x := s.workdir) rfl).trans ?_
  refine (withDefault_bind (by decide) rfl (word64?_nat hlimit)).trans ?_
  exact withDefault_bind (by decide) rfl (dictionary?_table hsorted fun entry _ => list?_strings entry.2)

theorem PriceList.decode?_entries {p : PriceList} (hsorted : Keyed.Sorted p.perCapability) :
    decode? (table p.contents) = some p := by
  refine (record?_table_bind p.nodup_keys _).trans ?_
  refine (withDefault_bind (by decide) rfl (x := p.default) rfl).trans ?_
  exact withDefault_bind (by decide) rfl (dictionary?_table hsorted fun _ _ => rfl)

namespace Config

/-! ## Files -/

/-- The sections with the tables in them. -/
def blocks (c : Config) : List Toml.Block :=
  [⟨"queue", c.queue.entries, none⟩, ⟨"executor", c.executor.entries, none⟩, ⟨"healing", c.healing.entries, none⟩,
    ⟨"watchdog", c.watchdog.entries, none⟩, ⟨"notifier", c.notifier.entries, none⟩,
    ⟨"commands", c.commands.entries, some ("capabilities", c.commands.words)⟩,
    ⟨"cost", c.cost.entries, some ("per_capability", c.cost.prices)⟩]

theorem sections_eq (c : Config) : c.sections = c.blocks.flatMap Toml.Block.sections := rfl

theorem nodup_keys (c : Config) : ((c.blocks.map fun b => (b.key, table b.contents)).map (·.1)).Nodup :=
  (by decide : ["queue", "executor", "healing", "watchdog", "notifier", "commands", "cost"].Nodup)

theorem decode?_blocks {c : Config} (h : c.Fits) :
    decode? (table (c.blocks.map fun b => (b.key, table b.contents))) = some c := by
  refine (record?_table_bind c.nodup_keys _).trans ?_
  refine (withDefault_bind (by decide) rfl
    (QueueSection.decode?_entries h.concurrencyLimit h.maxPending)).trans ?_
  refine (withDefault_bind (by decide) rfl (ExecutorSection.decode?_entries h.timeoutSecs)).trans ?_
  refine (withDefault_bind (by decide) rfl
    (HealingSection.decode?_entries h.maxIterations h.maxRepeat h.iterationTimeoutSecs)).trans ?_
  refine (withDefault_bind (by decide) rfl
    (WatchdogSection.decode?_entries h.intervalSecs h.stallTimeoutSecs)).trans ?_
  refine (withDefault_bind (by decide) rfl (NotifierSection.decode?_entries h.buffer)).trans ?_
  refine (withDefault_bind (by decide) rfl
    (CommandsSection.decode?_entries h.outputLimit h.capabilities)).trans ?_
  exact withDefault_bind (by decide) rfl (PriceList.decode?_entries h.perCapability)

theorem distinct_blocks {c : Config} (h : c.Fits) : ∀ b ∈ c.blocks, b.Distinct := by
  unfold blocks
  simp only [List.forall_mem_cons]
  exact ⟨.of_none c.queue.nodup_keys, .of_none c.executor.nodup_keys, .of_none c.healing.nodup_keys,
    .of_none c.watchdog.nodup_keys, .of_none c.notifier.nodup_keys,
    .of_some c.commands.nodup_keys (CommandsSection.nodup_names h.capabilities),
    .of_some c.cost.nodup_keys (PriceList.nodup_names h.perCapability), List.forall_mem_nil _⟩

theorem readable_sections {c : Config} (hvalid : c.validate = .ok ()) (h : c.Fits) (hprices : c.cost.Numeric) :
    ∀ t ∈ c.sections, t.Readable := by
  rw [sections_eq]
  change ∀ t ∈ ([⟨["queue"], c.queue.entries⟩, ⟨["executor"], c.executor.entries⟩, ⟨["healing"], c.healing.entries⟩,
    ⟨["watchdog"], c.watchdog.entries⟩, ⟨["notifier"], c.notifier.entries⟩, ⟨["commands"], c.commands.entries⟩,
    ⟨["commands", "capabilities"], c.commands.words⟩, ⟨["cost"], c.cost.entries⟩,
    ⟨["cost", "per_capability"], c.cost.prices⟩] : List Toml.Section), t.Readable
  simp only [List.forall_mem_cons]
  exact ⟨⟨List.cons_ne_nil _ _, QueueSection.readable h.concurrencyLimit h.maxPending⟩,
    ⟨List.cons_ne_nil _ _, List.forall_mem_singleton.mpr (readable_nat h.timeoutSecs)⟩,
    ⟨List.cons_ne_nil _ _, HealingSection.readable h.maxIterations h.maxRepeat (isNaN_maxCost hvalid)
      h.iterationTimeoutSecs⟩,
    ⟨List.cons_ne_nil _ _, WatchdogSection.readable h.intervalSecs h.stallTimeoutSecs⟩,
    ⟨List.cons_ne_nil _ _, List.forall_mem_singleton.mpr (readable_nat h.buffer)⟩,
    ⟨List.cons_ne_nil _ _, CommandsSection.readable h.outputLimit⟩,
    ⟨List.cons_ne_nil _ _, CommandsSection.readable_words c.commands⟩,
    ⟨List.cons_ne_nil _ _, List.forall_mem_singleton.mpr (readable_float hprices.default)⟩,
    ⟨List.cons_ne_nil _ _, PriceList.readable_prices hprices⟩, List.forall_mem_nil _⟩

theorem ofText?_fileText {c : Config} (hvalid : c.validate = .ok ()) (h : c.Fits) (hprices : c.cost.Numeric) :
    ofText? c.fileText = some c := by
  have hdocument : Toml.document? c.fileText = some (table (c.blocks.map fun b => (b.key, table b.contents))) := by
    have hreadable := readable_sections hvalid h hprices
    rw [sections_eq] at hreadable
    have hkeys := c.nodup_keys
    rw [List.map_map] at hkeys
    unfold fileText text
    rw [sections_eq]
    exact Toml.document?_write_blocks (List.cons_ne_nil _ _) (distinct_blocks h) hkeys hreadable
  unfold ofText?
  rw [hdocument]
  exact decode?_blocks h

theorem decodeUtf8?_encode (s : String) : decodeUtf8? (Text.encode s.toList) = some s := by
  unfold decodeUtf8?
  rw [Text.lossy_encode]
  dsimp only
  rw [if_pos rfl, String.ofList_toList]

/-- What is in the file of a configuration is that configuration. -/
theorem ofBytes_fileText {c : Config} (hvalid : c.validate = .ok ()) (h : c.Fits) (hprices : c.cost.Numeric) :
    ofBytes (Text.encode c.fileText.toList) = .ok c := by
  unfold ofBytes
  rw [decodeUtf8?_encode]
  dsimp only
  unfold ofFileText
  rw [ofText?_fileText hvalid h hprices]
  dsimp only
  rw [hvalid]

end Config

end Overseer
