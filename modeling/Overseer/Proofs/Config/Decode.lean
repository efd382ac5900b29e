import Overseer.Config.File
import Overseer.Proofs.Config.Basic
import Overseer.Proofs.Document.Reads

/-! # What is read from a file fits

Each field is read with a bound, or it has its default, which is within the bound. A table is put together by
insertions, which keep its keys in order. So whatever a file says, the configuration that is read from it fits, and it
has passed its own conditions.
-/

namespace Overseer

open Document

theorem QueueSection.reads : Reads Any decode? fun s =>
    s.concurrencyLimit < 2 ^ 64 ∧ ∀ limit ∈ s.maxPending, limit < 2 ^ 64 := by
  intro d _ s h
  unfold decode? at h
  simp only [Option.bind_eq_bind, Option.bind_eq_some_iff, Option.some.injEq] at h
  obtain ⟨r, -, limit, hlimit, pending, hpending, rfl⟩ := h
  have hr := within_any r
  exact ⟨reads_word64.withDefault hr hlimit (by decide),
    reads_word64.nullable.withDefault hr hpending (by decide)⟩

theorem ExecutorSection.reads : Reads Any decode? fun s => s.timeoutSecs < 2 ^ 64 := by
  intro d _ s h
  unfold decode? at h
  simp only [Option.bind_eq_bind, Option.bind_eq_some_iff, Option.some.injEq] at h
  obtain ⟨r, -, timeout, htimeout, rfl⟩ := h
  have hr := within_any r
  exact reads_word64.withDefault hr htimeout (by decide)

theorem HealingSection.reads : Reads Any decode? fun s =>
    s.maxIterations < 2 ^ 32 ∧ s.maxRepeat < 2 ^ 32 ∧ s.iterationTimeoutSecs < 2 ^ 64 := by
  intro d _ s h
  unfold decode? at h
  simp only [Option.bind_eq_bind, Option.bind_eq_some_iff, Option.some.injEq] at h
  obtain ⟨r, -, iterations, hiterations, repeats, hrepeats, cost, -, timeout, htimeout, verify, -, diagnose, -, fix,
    -, rfl⟩ := h
  have hr := within_any r
  exact ⟨reads_word32.withDefault hr hiterations (by decide), reads_word32.withDefault hr hrepeats (by decide),
    reads_word64.withDefault hr htimeout (by decide)⟩

theorem WatchdogSection.reads : Reads Any decode? fun s => s.intervalSecs < 2 ^ 64 ∧ s.stallTimeoutSecs < 2 ^ 64 := by
  intro d _ s h
  unfold decode? at h
  simp only [Option.bind_eq_bind, Option.bind_eq_some_iff, Option.some.injEq] at h
  obtain ⟨r, -, interval, hinterval, stall, hstall, rfl⟩ := h
  have hr := within_any r
  exact ⟨reads_word64.withDefault hr hinterval (by decide), reads_word64.withDefault hr hstall (by decide)⟩

theorem NotifierSection.reads : Reads Any decode? fun s => s.buffer < 2 ^ 64 := by
  intro d _ s h
  unfold decode? at h
  simp only [Option.bind_eq_bind, Option.bind_eq_some_iff, Option.some.injEq] at h
  obtain ⟨r, -, buffer, hbuffer, rfl⟩ := h
  have hr := within_any r
  exact reads_word64.withDefault hr hbuffer (by decide)

theorem CommandsSection.reads : Reads Any decode? fun s => s.outputLimit < 2 ^ 64 ∧ Keyed.Sorted s.capabilities := by
  intro d _ s h
  unfold decode? at h
  simp only [Option.bind_eq_bind, Option.bind_eq_some_iff, Option.some.injEq] at h
  obtain ⟨r, -, workdir, -, limit, hlimit, capabilities, hcapabilities, rfl⟩ := h
  have hr := within_any r
  obtain ⟨hsorted, -⟩ := ((reads_any _).dictionary closed_any).withDefault hr hcapabilities (by decide)
  exact ⟨reads_word64.withDefault hr hlimit (by decide), hsorted⟩

theorem PriceList.reads : Reads Any decode? fun p => Keyed.Sorted p.perCapability := by
  intro d _ p h
  unfold decode? at h
  simp only [Option.bind_eq_bind, Option.bind_eq_some_iff, Option.some.injEq] at h
  obtain ⟨r, -, default, -, prices, hprices, rfl⟩ := h
  have hr := within_any r
  exact (((reads_any _).dictionary closed_any).withDefault hr hprices (by decide)).1

namespace Config

theorem reads : Reads Any decode? Fits := by
  intro d _ c h
  unfold decode? at h
  simp only [Option.bind_eq_bind, Option.bind_eq_some_iff, Option.some.injEq] at h
  obtain ⟨r, -, queue, hqueue, executor, hexecutor, healing, hhealing, watchdog, hwatchdog, notifier, hnotifier,
    commands, hcommands, cost, hcost, rfl⟩ := h
  have hr := within_any r
  obtain ⟨hlimit, hpending⟩ := QueueSection.reads.withDefault hr hqueue (by decide)
  obtain ⟨hiterations, hrepeats, htimeout⟩ := HealingSection.reads.withDefault hr hhealing (by decide)
  obtain ⟨hinterval, hstall⟩ := WatchdogSection.reads.withDefault hr hwatchdog (by decide)
  obtain ⟨houtput, hcapabilities⟩ := CommandsSection.reads.withDefault hr hcommands (by decide)
  exact
    { concurrencyLimit := hlimit
      maxPending := hpending
      timeoutSecs := ExecutorSection.reads.withDefault hr hexecutor (by decide)
      maxIterations := hiterations
      maxRepeat := hrepeats
      iterationTimeoutSecs := htimeout
      intervalSecs := hinterval
      stallTimeoutSecs := hstall
      buffer := NotifierSection.reads.withDefault hr hnotifier (by decide)
      outputLimit := houtput
      capabilities := hcapabilities
      perCapability := PriceList.reads.withDefault hr hcost Keyed.sorted_nil }

/-- Whatever a file says, what is read from it is valid and fits. -/
theorem fits_of_ofBytes {c : Config} {bytes : List UInt8} (h : ofBytes bytes = .ok c) :
    c.validate = .ok () ∧ c.Fits := by
  unfold ofBytes at h
  split at h
  · cases h
  · rename_i text _
    unfold ofFileText at h
    split at h
    · cases h
    · rename_i read hread
      split at h
      · cases h
      · rename_i hvalid
        obtain rfl := Except.ok.inj h
        obtain ⟨document, -, hdecode⟩ := Option.bind_eq_some_iff.mp hread
        exact ⟨hvalid, reads document trivial _ hdecode⟩

end Config

end Overseer
